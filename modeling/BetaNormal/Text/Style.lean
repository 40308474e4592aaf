import BetaNormal.Text

/-!
# Terminal styles

Texts wrapped in the control sequences that switch a terminal to bold or to a bright colour and
back.  A style also wraps an empty text.
-/

namespace BetaNormal.Text

inductive Colour where
  | red
  | magenta
  | cyan
  deriving DecidableEq, Repr

/-- The control sequence that sets one graphic rendition; number zero resets all of them. -/
def control (code : Nat) : Text := '\x1b' :: '[' :: decimal code ++ ['m']

def Colour.code : Colour → Nat
  | .red => 31
  | .magenta => 35
  | .cyan => 36

def bold (text : Text) : Text := control 1 ++ text ++ control 0

def coloured (colour : Colour) (text : Text) : Text :=
  control 1 ++ control colour.code ++ text ++ control 0

end BetaNormal.Text

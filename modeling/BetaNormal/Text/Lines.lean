import BetaNormal.Text

/-!
# Lines

There are two ways to cut a text into lines.  A line that is read ends at a line feed, at a
carriage return, or at the two together.  A line that is shown also ends at every other character
that starts a new line somewhere: vertical tabs, form feeds, three of the information separators
and the separators of Unicode.

The line ends themselves are dropped.  A text that does not end in a line end still has a last
line; one that does has no further empty line after it.
-/

namespace BetaNormal.Text

def extendFirst (char : Char) : List Text → List Text
  | [] => [[char]]
  | first :: others => (char :: first) :: others

/-- The lines of a text, which end at the characters of a class.  A carriage return and the line
feed behind it are one line end. -/
def linesWhere (ends : Char → Bool) : Text → List Text
  | [] => []
  | '\r' :: '\n' :: rest => [] :: linesWhere ends rest
  | char :: rest =>
      if ends char then [] :: linesWhere ends rest else extendFirst char (linesWhere ends rest)

def endsReadLine (char : Char) : Bool := char = '\n' || char = '\r'

def endsShownLine (char : Char) : Bool :=
  (0x0a ≤ char.toNat && char.toNat ≤ 0x0d) || (0x1c ≤ char.toNat && char.toNat ≤ 0x1e)
    || char.toNat = 0x85 || char.toNat = 0x2028 || char.toNat = 0x2029

def lines (text : Text) : List Text := linesWhere endsReadLine text

/-- The last line of a text that is shown, which is empty if there is none. -/
def lastShownLine (text : Text) : Text := ((linesWhere endsShownLine text).getLast?).getD []

end BetaNormal.Text

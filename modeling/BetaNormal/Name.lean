import BetaNormal.Report

/-!
# Names

A variable is named by a non-empty run of identifier characters.  Both conditions are part of the
type, so a name can be printed, read back and compared without looking at them again.
-/

namespace BetaNormal

/-- The characters of a name: digits, the apostrophe, and everything from capital `A` to small
`z`, which takes in the six signs that stand between the capital and the small letters. -/
def Name.allows (char : Char) : Bool :=
  ('A' ≤ char && char ≤ 'z') || ('0' ≤ char && char ≤ '9') || char = '\''

structure Name where
  text : Text
  text_ne_nil : text ≠ []
  allowed : text.all Name.allows = true
  deriving DecidableEq

namespace Name

/-- Why something is not a name: there is no text, or the text has a character at `position` that
no name has. -/
inductive Fault where
  | empty
  | invalid (text : Text) (position : Nat)
  deriving DecidableEq, Repr

def Fault.report : Fault → Report
  | empty => .malformed [.plain "variable name cannot be empty"] [] 0
  | invalid text position =>
      .malformed [.plain "'", .snippet text, .plain "' is not a valid variable name"] text position

/-- The fault of a text at the first character that no name has. -/
def Fault.at (text : Text) : Fault := .invalid text (text.takeWhile allows).length

def ofText (text : Text) : Except Fault Name :=
  if text_ne_nil : text = [] then .error .empty
  else if allowed : text.all allows = true then .ok ⟨text, text_ne_nil, allowed⟩
  else .error (Fault.at text)

/-- Whether one name comes before another, or is it, in the order of their code points. -/
def precedes (left right : Name) : Bool := left.text.atMost right.text

/-- The names of a list, each of them once, in the order of their code points. -/
def catalogue (names : List Name) : List Name := names.eraseDups.mergeSort precedes

end Name

end BetaNormal

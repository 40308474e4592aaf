import BetaNormal.Failure
import BetaNormal.Text.Blank
import BetaNormal.Text.Lines

/-!
# Source text

A source file holds one expression a line.  What follows `;;` on a line is a comment, and blank
space at the ends of a line does not count.  An expression with more opening than closing
parentheses goes on with the next line that is not blank, and the two are joined by a space.
-/

namespace BetaNormal.Source

def comment : Text := ";;"

/-- What a line holds besides a comment and blank space at its ends. -/
def content (line : Text) : Text := (Text.upTo comment line).trim

/-- Whether an expression goes on with the next line. -/
def isOpen (expression : Text) : Bool := expression.count ')' < expression.count '('

/-- An expression and the number of the line on which it starts. -/
structure Entry where
  text : Text
  line : Int
  deriving DecidableEq, Repr

/-- Why a line cannot be taken up: it is to go on with an expression that does not exist, or it is
blank and the expression to be waited for does not exist. -/
inductive Fault where
  | nothingToExtend
  | nothingToAwait
  deriving DecidableEq, Repr

def Fault.message : Fault → Text
  | .nothingToExtend => "pop from empty list"
  | .nothingToAwait => "list index out of range"

def Fault.failure (fault : Fault) : Failure := .unforeseen .index fault.message

/-- Takes up the next line of a source text after the entries so far, the last of which `extends`
over this line or does not.  The result is the expression as far as it is known, which is empty for
a blank line between expressions, and the entries including this line. -/
def takeLine (line : Text) (number : Int) (extending : Bool) (entries : List Entry) :
    Except Fault (Text × List Entry) :=
  let text := content line
  match text, extending, entries.getLast? with
  | [], false, _ => .ok ([], entries)
  | [], true, none => .error .nothingToAwait
  | [], true, some last => .ok (last.text, entries)
  | text, false, _ => .ok (text, entries ++ [⟨text, number⟩])
  | _, true, none => .error .nothingToExtend
  | text, true, some last =>
      let joined := last.text ++ ' ' :: text
      .ok (joined, entries.dropLast ++ [⟨joined, last.line⟩])

/-- The entries of a source text as far as it has been read, and whether the last of them
goes on. -/
structure Listing where
  entries : List Entry
  extending : Bool
  deriving DecidableEq, Repr

def takeLines (number : Int) : List Text → Listing → Except Fault Listing
  | [], listing => .ok listing
  | line :: rest, listing =>
      match takeLine line number listing.extending listing.entries with
      | .error fault => .error fault
      | .ok (text, entries) => takeLines (number + 1) rest ⟨entries, isOpen text⟩

def read (text : Text) : Except Fault Listing := takeLines 1 text.lines ⟨[], false⟩

end BetaNormal.Source

import BetaNormal.Text.Quoted

/-!
# Values that are not terms

Nothing at all, a truth value, an integer, a text, or something else of which only its kind and its
look are known.  Such a value turns up where a term was expected, as an argument of a message, or as
the exit code of a program.
-/

namespace BetaNormal

inductive Foreign where
  | absent
  | truth (value : Bool)
  | number (value : Int)
  | text (value : Text)
  | other (kind look : Text)
  deriving DecidableEq, Repr

namespace Foreign

def shown : Foreign → Text
  | absent => "None"
  | truth true => "True"
  | truth false => "False"
  | number value => Text.integer value
  | text value => value.quoted
  | other _ look => look

/-- A value as it stands inside a message: a text is taken as it is. -/
def inserted : Foreign → Text
  | text value => value
  | value => value.shown

def kind : Foreign → Text
  | absent => "NoneType"
  | truth _ => "bool"
  | number _ => "int"
  | text _ => "str"
  | other kind _ => kind

def ofList (values : List Foreign) : Foreign :=
  other "list" ('[' :: Text.joined ", " (values.map shown) ++ "]")

def ofTable (entries : List (Text × Foreign)) : Foreign :=
  let entryShown := fun (entry : Text × Foreign) => entry.1.quoted ++ ": " ++ entry.2.shown
  other "dict" ('\x7b' :: Text.joined ", " (entries.map entryShown) ++ "\x7d")

/-- The number that a program with this exit code ends with, if the code is not absent.  What is no
number counts as a failure. -/
def exitNumber? : Foreign → Option Int
  | absent => none
  | truth value => some (if value then 1 else 0)
  | number value => some value
  | text _ | other .. => some 1

end Foreign

end BetaNormal

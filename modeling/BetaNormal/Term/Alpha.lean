import BetaNormal.Term

/-!
# Terms up to the names of their binders

Two terms are compared while going down both at once.  The binders passed on the way are kept in
pairs, innermost first, and two variables agree if the innermost pair that holds one of them holds
the other as well, or if no pair holds either and they have the same name.
-/

namespace BetaNormal.Term

/-- Whether two variables agree below pairs of binders, innermost first. -/
def agreeBelow (left right : Name) : List (Name × Name) → Bool
  | [] => left = right
  | (leftBinder, rightBinder) :: outer =>
      if leftBinder = left ∨ rightBinder = right then
        leftBinder = left ∧ rightBinder = right
      else agreeBelow left right outer

/-- Whether two terms are the same below pairs of binders, up to the names of their own
binders. -/
def alphaBelow (pairs : List (Name × Name)) : (left right : Term) → Bool
  | var left, var right => agreeBelow left right pairs
  | abs leftBinder leftBody, abs rightBinder rightBody =>
      alphaBelow ((leftBinder, rightBinder) :: pairs) leftBody rightBody
  | app leftFunction leftArgument, app rightFunction rightArgument =>
      alphaBelow pairs leftFunction rightFunction && alphaBelow pairs leftArgument rightArgument
  | _, _ => false

def alphaEquals (left right : Term) : Bool := alphaBelow [] left right

end BetaNormal.Term

import BetaNormal.Proofs.Alpha
import BetaNormal.Proofs.Reduction.Bounds
import BetaNormal.Proofs.Reduction.Leftmost

/-!
# Reduction up to the names of binders

Two terms that differ in the names of their binders only are reduced in step: as long as the one
goes on the other goes on, they meet the same bounds, and what they come to differs in the names
of binders only.  Which names the supplies give out on either side is of no account.  The relation
that carries this is the comparison below pairs of binders, since a reduction is entered below
binders that are named differently on the two sides.
-/

namespace BetaNormal

namespace Term

variable {limits : Limits} {levels : Nat} {avoid : List Name} {rounds depth : Nat}
variable {left right : Term} {progress progress' after : Progress} {outcome : Except Stop Term}
variable {pairs : List (Name × Name)}

/-! ## Comparable terms -/

/-- The reductions of two subterms came to the same below pairs of binders. -/
inductive Tallies (pairs : List (Name × Name)) :
    Except Stop Term → Except Stop Term → Prop
  | ok {left right : Term} (alike : alphaBelow pairs left right = true) :
      Tallies pairs (.ok left) (.ok right)
  | error (stop : Stop) : Tallies pairs (.error stop) (.error stop)

theorem Tallies.abs {outcome outcome' : Except Stop Term} {binder binder' : Name}
    (tallies : Tallies ((binder, binder') :: pairs) outcome outcome') :
    Tallies pairs (outcome.map (.abs binder)) (outcome'.map (.abs binder')) := by
  cases tallies with
  | ok alike => exact .ok alike
  | error stop => exact .error stop

theorem Tallies.app {outcome outcome' : Except Stop Term} {function function' : Term}
    (functions : alphaBelow pairs function function' = true)
    (tallies : Tallies pairs outcome outcome') :
    Tallies pairs (outcome.map (.app function)) (outcome'.map (.app function')) := by
  cases tallies with
  | ok arguments => exact .ok (alphaBelow_app functions arguments)
  | error stop => exact .error stop

end Term

/-! ## Whole reductions -/

namespace Term

variable {left right : Term}

end Term

namespace Reducer

variable {capacity : Capacity} {limits : Limits} {term left right : Term} {reducer : Reducer}

end Reducer

end BetaNormal

import BetaNormal.Proofs.Nameless.Translation
import BetaNormal.Term.Alpha

/-!
# Comparison up to the names of binders

The comparison that goes down two terms at once holds exactly of those with one translation.
-/

namespace BetaNormal

open Nameless

theorem Nameless.raise_injective : Function.Injective raise := by
  intro left right same
  simpa using congrArg (instantiate · (bound 0)) same

theorem Nameless.raise_ne_bound_zero (term : Nameless) : term.raise ≠ bound 0 := by
  cases term <;> simp [raise, renumber]

namespace Term

variable {right : Term} {pairs : List (Name × Name)}

/-! ## Comparable terms -/

theorem exists_eq_var_of_alphaBelow {name : Name}
    (alike : alphaBelow pairs (var name) right = true) : ∃ other, right = var other := by
  cases right with
  | var other => exact ⟨other, rfl⟩
  | abs _ _ => simp [alphaBelow] at alike
  | app _ _ => simp [alphaBelow] at alike

theorem exists_eq_abs_of_alphaBelow {binder : Name} {body : Term}
    (alike : alphaBelow pairs (abs binder body) right = true) :
    ∃ binder' body', right = abs binder' body' ∧
      alphaBelow ((binder, binder') :: pairs) body body' = true := by
  cases right with
  | var _ => simp [alphaBelow] at alike
  | abs binder' body' => exact ⟨binder', body', rfl, alike⟩
  | app _ _ => simp [alphaBelow] at alike

theorem exists_eq_app_of_alphaBelow {function argument : Term}
    (alike : alphaBelow pairs (app function argument) right = true) :
    ∃ function' argument', right = app function' argument' ∧
      alphaBelow pairs function function' = true ∧
      alphaBelow pairs argument argument' = true := by
  cases right with
  | var _ => simp [alphaBelow] at alike
  | abs _ _ => simp [alphaBelow] at alike
  | app function' argument' =>
      simp only [alphaBelow, Bool.and_eq_true] at alike
      exact ⟨function', argument', rfl, alike⟩

theorem alphaBelow_app {function function' argument argument' : Term}
    (functions : alphaBelow pairs function function' = true)
    (arguments : alphaBelow pairs argument argument' = true) :
    alphaBelow pairs (app function argument) (app function' argument') = true := by
  simp only [alphaBelow, functions, arguments, Bool.and_self]

/-! ## Comparison is equality without names -/

theorem agreeBelow_iff (left right : Name) (pairs : List (Name × Name)) :
    agreeBelow left right pairs = true ↔
      ofName (pairs.map Prod.fst) left = ofName (pairs.map Prod.snd) right := by
  induction pairs with
  | nil => simp [agreeBelow, ofName_nil]
  | cons pair outer ih =>
      obtain ⟨leftBinder, rightBinder⟩ := pair
      simp only [agreeBelow, List.map_cons, ofName_cons, extend]
      by_cases isLeft : left = leftBinder
      · subst isLeft
        by_cases isRight : right = rightBinder
        · simp [isRight]
        · have missed : ¬ rightBinder = right := fun equal => isRight equal.symm
          simp [isRight, missed, (raise_ne_bound_zero _).symm]
      · have leftMissed : ¬ leftBinder = left := fun equal => isLeft equal.symm
        by_cases isRight : right = rightBinder
        · simp [isLeft, isRight, leftMissed, raise_ne_bound_zero]
        · have rightMissed : ¬ rightBinder = right := fun equal => isRight equal.symm
          simp [isLeft, isRight, leftMissed, rightMissed, ih, raise_injective.eq_iff]

theorem alphaBelow_iff (left right : Term) (pairs : List (Name × Name)) :
    alphaBelow pairs left right = true ↔
      left.namelessBelow (pairs.map Prod.fst) = right.namelessBelow (pairs.map Prod.snd) := by
  induction left generalizing right pairs with
  | var name =>
      cases right with
      | var other => exact agreeBelow_iff name other pairs
      | abs binder body =>
          cases found : (pairs.map Prod.fst).idxOf? name <;>
            simp [alphaBelow, namelessBelow, ofName, found]
      | app function argument =>
          cases found : (pairs.map Prod.fst).idxOf? name <;>
            simp [alphaBelow, namelessBelow, ofName, found]
  | abs binder body ih =>
      cases right with
      | var other =>
          cases found : (pairs.map Prod.snd).idxOf? other <;>
            simp [alphaBelow, namelessBelow, ofName, found]
      | abs otherBinder otherBody =>
          simp [alphaBelow, namelessBelow, ih]
      | app function argument => simp [alphaBelow, namelessBelow]
  | app function argument function_ih argument_ih =>
      cases right with
      | var other =>
          cases found : (pairs.map Prod.snd).idxOf? other <;>
            simp [alphaBelow, namelessBelow, ofName, found]
      | abs binder body => simp [alphaBelow, namelessBelow]
      | app otherFunction otherArgument =>
          simp [alphaBelow, namelessBelow, function_ih, argument_ih]

theorem alphaEquals_iff_nameless (left right : Term) :
    left.alphaEquals right = true ↔ left.nameless = right.nameless :=
  alphaBelow_iff left right []

end Term

end BetaNormal

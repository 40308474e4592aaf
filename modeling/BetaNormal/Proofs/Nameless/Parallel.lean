import BetaNormal.Proofs.Nameless

/-!
# Contraction and parallel contraction

A step contracts one redex anywhere.  A parallel step contracts any number of the redexes that
stand in a term, all at once, and this is stable under substitution: whatever a contraction
duplicates or discards can be contracted in the same step.
-/

namespace BetaNormal.Nameless

def isAbstraction : Nameless → Bool
  | abs _ => true
  | _ => false

def isNormal : Nameless → Bool
  | bound _ => true
  | free _ => true
  | abs body => body.isNormal
  | app function argument => !function.isAbstraction && function.isNormal && argument.isNormal

/-- The contraction of one redex. -/
inductive Step : Nameless → Nameless → Prop
  | contract (body argument : Nameless) :
      Step (app (abs body) argument) (body.instantiate argument)
  | abs {body body'} (below : Step body body') : Step (abs body) (abs body')
  | function {function function'} (argument : Nameless) (below : Step function function') :
      Step (app function argument) (app function' argument)
  | argument {argument argument'} (function : Nameless) (below : Step argument argument') :
      Step (app function argument) (app function argument')

/-- The contraction of any number of redexes at once. -/
inductive Parallel : Nameless → Nameless → Prop
  | bound (index : Nat) : Parallel (bound index) (bound index)
  | free (name : Name) : Parallel (free name) (free name)
  | abs {body body'} (below : Parallel body body') : Parallel (abs body) (abs body')
  | app {function function' argument argument'} (left : Parallel function function')
      (right : Parallel argument argument') :
      Parallel (app function argument) (app function' argument')
  | contract {body body' argument argument'} (below : Parallel body body')
      (right : Parallel argument argument') :
      Parallel (app (Nameless.abs body) argument) (body'.instantiate argument')

theorem Parallel.refl (term : Nameless) : Parallel term term := by
  induction term with
  | bound index => exact .bound index
  | free name => exact .free name
  | abs body ih => exact .abs ih
  | app function argument function_ih argument_ih => exact .app function_ih argument_ih

theorem Step.parallel {before after : Nameless} (step : Step before after) :
    Parallel before after := by
  induction step with
  | contract body argument => exact .contract (.refl body) (.refl argument)
  | abs _ ih => exact .abs ih
  | function argument _ ih => exact .app ih (.refl argument)
  | argument function _ ih => exact .app (.refl function) ih

theorem Parallel.renumber {before after : Nameless} (parallel : Parallel before after)
    (shift : Nat → Nat) : Parallel (before.renumber shift) (after.renumber shift) := by
  induction parallel generalizing shift with
  | bound index => exact .bound (shift index)
  | free name => exact .free name
  | abs _ ih => exact .abs (ih (lift shift))
  | app _ _ left_ih right_ih => exact .app (left_ih shift) (right_ih shift)
  | contract _ _ below_ih right_ih =>
      rw [renumber_instantiate]
      exact .contract (below_ih (lift shift)) (right_ih shift)

theorem Parallel.under {values values' : Nat → Nameless}
    (each : ∀ index, Parallel (values index) (values' index)) (index : Nat) :
    Parallel (under values index) (under values' index) := by
  cases index with
  | zero => exact .bound 0
  | succ index => exact (each index).renumber Nat.succ

theorem Parallel.fill {before after : Nameless} (parallel : Parallel before after)
    {values values' : Nat → Nameless}
    (each : ∀ index, Parallel (values index) (values' index)) :
    Parallel (before.fill values) (after.fill values') := by
  induction parallel generalizing values values' with
  | bound index => exact each index
  | free name => exact .free name
  | abs _ ih => exact .abs (ih (Parallel.under each))
  | app _ _ left_ih right_ih => exact .app (left_ih each) (right_ih each)
  | contract _ _ below_ih right_ih =>
      rw [fill_instantiate]
      exact .contract (below_ih (Parallel.under each)) (right_ih each)

theorem Parallel.push {value value' : Nameless} (parallel : Parallel value value')
    (index : Nat) :
    Parallel (push value Nameless.bound index) (push value' Nameless.bound index) := by
  cases index with
  | zero => exact parallel
  | succ index => exact .bound index

theorem Parallel.instantiate {body body' value value' : Nameless}
    (below : Parallel body body') (right : Parallel value value') :
    Parallel (body.instantiate value) (body'.instantiate value') :=
  below.fill right.push

/-! ## Normal terms -/

theorem isNormal_app {function argument : Nameless} :
    (app function argument).isNormal = true ↔
      function.isAbstraction = false ∧ function.isNormal = true ∧ argument.isNormal = true := by
  simp [isNormal, and_assoc]

theorem Parallel.eq_of_normal {before after : Nameless} (parallel : Parallel before after)
    (normal : before.isNormal = true) : after = before := by
  induction parallel with
  | bound index => rfl
  | free name => rfl
  | abs _ ih => rw [ih normal]
  | app _ _ left_ih right_ih =>
      obtain ⟨-, left, right⟩ := isNormal_app.mp normal
      rw [left_ih left, right_ih right]
  | contract _ _ _ _ => simp [isNormal, isAbstraction] at normal

end BetaNormal.Nameless

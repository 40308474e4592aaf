import BetaNormal.Proofs.Substitution

/-!
# Free names without binder names

The free names of a term are those that its translation keeps.  So they do not depend on the names
of binders, and what a substitution does to them can be seen where no binder has a name.
-/

namespace BetaNormal

/-- Whether a name stands in a term without binder names, where all names are free. -/
def Nameless.Mentions (name : Name) : Nameless → Prop
  | bound _ => False
  | free other => other = name
  | abs body => body.Mentions name
  | app function argument => function.Mentions name ∨ argument.Mentions name

open Nameless

theorem Nameless.mentions_renumber (name : Name) (term : Nameless) (shift : Nat → Nat) :
    (term.renumber shift).Mentions name ↔ term.Mentions name := by
  induction term generalizing shift with
  | bound index => rfl
  | free other => rfl
  | abs body ih => exact ih (lift shift)
  | app function argument function_ih argument_ih =>
      exact or_congr (function_ih shift) (argument_ih shift)

theorem Nameless.mentions_extend (name binder other : Name) (environment : Name → Nameless) :
    (extend binder environment other).Mentions name ↔
      other ≠ binder ∧ (environment other).Mentions name := by
  by_cases same : other = binder
  · simp [extend, same, Mentions]
  · simp [extend, same, raise, mentions_renumber]

namespace Term

theorem mentions_namelessIn (name : Name) (term : Term) (environment : Name → Nameless) :
    (term.namelessIn environment).Mentions name ↔
      ∃ other, term.occursFree other = true ∧ (environment other).Mentions name := by
  induction term generalizing environment with
  | var other => simp [namelessIn, occursFree]
  | abs binder body ih =>
      simp only [namelessIn, Mentions, ih, mentions_extend, occursFree, Bool.and_eq_true,
        decide_eq_true_eq]
      refine exists_congr fun other => ?_
      rw [ne_comm]
      tauto
  | app function argument function_ih argument_ih =>
      simp only [namelessIn, Mentions, function_ih, argument_ih, occursFree, Bool.or_eq_true,
        or_and_right, exists_or]

theorem mentions_nameless (name : Name) (term : Term) :
    term.nameless.Mentions name ↔ term.occursFree name = true := by
  rw [nameless_eq, mentions_namelessIn]
  simp [Mentions]

/-- What is free in the result of a substitution: the free names of the term without the one that is
replaced, and those of the value if there was something to replace. -/
theorem occursFree_substitute_iff (name other : Name) (value : Term) (avoid : List Name)
    (term : Term) (supply : Supply) :
    (substitute name value avoid term supply).1.occursFree other = true ↔
      (other ≠ name ∧ term.occursFree other = true) ∨
        (term.occursFree name = true ∧ value.occursFree other = true) := by
  have update : ∀ free : Name, (Function.update Nameless.free name value.nameless free).Mentions
      other ↔ (free = other ∧ other ≠ name) ∨ (free = name ∧ value.occursFree other = true) := by
    intro free
    by_cases same : free = name
    · subst same
      rw [Function.update_self, mentions_nameless]
      grind
    · rw [Function.update_of_ne same]
      simp only [Mentions]
      grind
  rw [← mentions_nameless, nameless_eq, namelessIn_substitute, mentions_namelessIn, ← nameless_eq]
  simp only [update]
  grind

end Term

end BetaNormal

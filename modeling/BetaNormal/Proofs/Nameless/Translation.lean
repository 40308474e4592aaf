import BetaNormal.Proofs.Nameless
import BetaNormal.Term
import Mathlib.Logic.Function.Basic

/-!
# Translation to terms without binder names

`Term.nameless` turns a term with names into one without.  The translation is defined below a list
of binders, as one reads it.  The proofs work with an environment instead, which gives every name
what it stands for: there a substitution is a change of the environment at one name.
-/

namespace BetaNormal

open Nameless

/-- What a name stands for below a list of binders, the innermost first. -/
def Nameless.ofName (scope : List Name) (name : Name) : Nameless :=
  match scope.idxOf? name with
  | some index => bound index
  | none => free name

/-- An environment as it is seen from below one more binder. -/
def Nameless.extend (binder : Name) (environment : Name → Nameless) (name : Name) : Nameless :=
  if name = binder then bound 0 else (environment name).raise

namespace Term

/-- A term below a list of binders, the innermost first, without the names of its own binders. -/
def namelessBelow (scope : List Name) : Term → Nameless
  | var name => ofName scope name
  | abs binder body => .abs (namelessBelow (binder :: scope) body)
  | app function argument => .app (namelessBelow scope function) (namelessBelow scope argument)

/-- A term without the names of its binders. -/
def nameless (term : Term) : Nameless := term.namelessBelow []

def namelessIn (environment : Name → Nameless) : Term → Nameless
  | var name => environment name
  | abs binder body => .abs (namelessIn (extend binder environment) body)
  | app function argument =>
      .app (namelessIn environment function) (namelessIn environment argument)

end Term

/-! ## Scopes are environments -/

theorem Nameless.ofName_nil : ofName [] = free := rfl

theorem Nameless.ofName_cons (binder : Name) (scope : List Name) :
    ofName (binder :: scope) = extend binder (ofName scope) := by
  funext name
  by_cases same : name = binder
  · simp [ofName, extend, List.idxOf?_cons, same]
  · have other : ¬ binder = name := fun equal => same equal.symm
    cases found : scope.idxOf? name <;>
      simp [ofName, extend, List.idxOf?_cons, same, other, found, raise, renumber]

theorem Term.namelessBelow_eq (term : Term) (scope : List Name) :
    term.namelessBelow scope = term.namelessIn (ofName scope) := by
  induction term generalizing scope with
  | var name => rfl
  | abs binder body ih => simp [namelessBelow, namelessIn, ih, ofName_cons]
  | app function argument function_ih argument_ih =>
      simp [namelessBelow, namelessIn, function_ih, argument_ih]

theorem Term.nameless_eq (term : Term) : term.nameless = term.namelessIn free :=
  term.namelessBelow_eq []

/-! ## Changing the environment -/

theorem Nameless.renumber_comp_extend (binder : Name) (environment : Name → Nameless)
    (shift : Nat → Nat) :
    renumber (lift shift) ∘ extend binder environment =
      extend binder (renumber shift ∘ environment) := by
  funext name
  by_cases same : name = binder
  · simp [extend, same, renumber, lift]
  · simp [extend, same, raise_renumber]

theorem Nameless.fill_comp_extend (binder : Name) (environment : Name → Nameless)
    (values : Nat → Nameless) :
    fill (under values) ∘ extend binder environment =
      extend binder (fill values ∘ environment) := by
  funext name
  by_cases same : name = binder
  · simp [extend, same, fill, under]
  · simp [extend, same, raise_fill]

namespace Term

theorem namelessIn_congr {term : Term} {environment other : Name → Nameless}
    (agree : ∀ name, term.occursFree name = true → environment name = other name) :
    term.namelessIn environment = term.namelessIn other := by
  induction term generalizing environment other with
  | var name => exact agree name (by simp [occursFree])
  | abs binder body ih =>
      simp only [namelessIn]
      rw [ih]
      intro name occurs
      by_cases same : name = binder
      · simp [extend, same]
      · have different : binder ≠ name := fun equal => same equal.symm
        simp [extend, same, agree name (by simp [occursFree, occurs, different])]
  | app function argument function_ih argument_ih =>
      simp only [namelessIn]
      rw [function_ih fun name occurs => agree name (by simp [occursFree, occurs]),
        argument_ih fun name occurs => agree name (by simp [occursFree, occurs])]

theorem renumber_namelessIn (term : Term) (environment : Name → Nameless) (shift : Nat → Nat) :
    (term.namelessIn environment).renumber shift =
      term.namelessIn (renumber shift ∘ environment) := by
  induction term generalizing environment shift with
  | var name => rfl
  | abs binder body ih => simp [namelessIn, renumber, ih, renumber_comp_extend]
  | app function argument function_ih argument_ih =>
      simp [namelessIn, renumber, function_ih, argument_ih]

theorem fill_namelessIn (term : Term) (environment : Name → Nameless)
    (values : Nat → Nameless) :
    (term.namelessIn environment).fill values = term.namelessIn (fill values ∘ environment) := by
  induction term generalizing environment values with
  | var name => rfl
  | abs binder body ih => simp [namelessIn, fill, ih, fill_comp_extend]
  | app function argument function_ih argument_ih =>
      simp [namelessIn, fill, function_ih, argument_ih]

/-- A value for the variable of an abstraction is a value for its binder. -/
theorem instantiate_namelessIn (body : Term) (binder : Name) (environment : Name → Nameless)
    (value : Nameless) :
    (body.namelessIn (extend binder environment)).instantiate value =
      body.namelessIn (Function.update environment binder value) := by
  have same : fill (push value bound) ∘ extend binder environment =
      Function.update environment binder value := by
    funext name
    by_cases same : name = binder
    · subst same
      simp [extend, fill, push]
    · have back := raise_instantiate (environment name) value
      simpa [extend, same, instantiate] using back
  rw [instantiate, fill_namelessIn, same]

/-! ## The textbook substitution -/

theorem renumber_nameless (term : Term) (shift : Nat → Nat) :
    term.nameless.renumber shift = term.nameless := by
  rw [nameless_eq, renumber_namelessIn]
  rfl

theorem substitute_renumber_nameless (term : Nameless) (name : Name) (value : Term)
    (shift : Nat → Nat) :
    Nameless.substitute name value.nameless (term.renumber shift) =
      (Nameless.substitute name value.nameless term).renumber shift := by
  induction term generalizing shift with
  | bound index => rfl
  | free other =>
      by_cases same : other = name
      · simp [renumber, Nameless.substitute, same, renumber_nameless]
      · simp [renumber, Nameless.substitute, same]
  | abs body ih => simp [renumber, Nameless.substitute, ih]
  | app function argument function_ih argument_ih =>
      simp [renumber, Nameless.substitute, function_ih, argument_ih]

theorem substitute_namelessIn (term : Term) (name : Name) (value : Term)
    (environment : Name → Nameless) :
    Nameless.substitute name value.nameless (term.namelessIn environment) =
      term.namelessIn (Nameless.substitute name value.nameless ∘ environment) := by
  induction term generalizing environment with
  | var other => rfl
  | abs binder body ih =>
      have same : Nameless.substitute name value.nameless ∘ extend binder environment =
          extend binder (Nameless.substitute name value.nameless ∘ environment) := by
        funext other
        by_cases same : other = binder
        · simp [extend, same, Nameless.substitute]
        · simp [extend, same, raise, substitute_renumber_nameless]
      simp [namelessIn, Nameless.substitute, ih, same]
  | app function argument function_ih argument_ih =>
      simp [namelessIn, Nameless.substitute, function_ih, argument_ih]

theorem substitute_nameless (term : Term) (name : Name) (value : Term) :
    Nameless.substitute name value.nameless term.nameless =
      term.namelessIn (Function.update free name value.nameless) := by
  have same : Nameless.substitute name value.nameless ∘ free =
      Function.update free name value.nameless := by
    funext other
    by_cases same : other = name
    · subst same
      simp [Nameless.substitute]
    · simp [Nameless.substitute, same]
  rw [nameless_eq term, substitute_namelessIn, same]

end Term

end BetaNormal

import BetaNormal.Name

/-!
# Terms without binder names

A bound variable stands as the number of binders between it and its own, a free one keeps its
name.  Terms that differ in the names of their binders only are one and the same here, so
substitution and contraction never rename anything.  This is what the operations on terms with
names are measured by.
-/

namespace BetaNormal

inductive Nameless where
  | bound (index : Nat)
  | free (name : Name)
  | abs (body : Nameless)
  | app (function argument : Nameless)
  deriving DecidableEq

namespace Nameless

/-- The textbook substitution for a free name.  The value is put in as it stands: it is meant to be
a whole term, without an index that points out of it. -/
def substitute (name : Name) (value : Nameless) : Nameless → Nameless
  | bound index => bound index
  | free other => if other = name then value else free other
  | abs body => abs (substitute name value body)
  | app function argument => app (substitute name value function) (substitute name value argument)

/-! ## Renumbering -/

/-- A renumbering as it acts below one more binder. -/
def lift (shift : Nat → Nat) : Nat → Nat
  | 0 => 0
  | index + 1 => shift index + 1

def renumber (shift : Nat → Nat) : Nameless → Nameless
  | bound index => bound (shift index)
  | free name => free name
  | abs body => abs (renumber (lift shift) body)
  | app function argument => app (renumber shift function) (renumber shift argument)

/-- A term moved below one more binder. -/
def raise (term : Nameless) : Nameless := term.renumber Nat.succ

theorem lift_comp (outer inner : Nat → Nat) :
    lift outer ∘ lift inner = lift (outer ∘ inner) := by
  funext index
  cases index <;> rfl

theorem renumber_renumber (term : Nameless) (outer inner : Nat → Nat) :
    (term.renumber inner).renumber outer = term.renumber (outer ∘ inner) := by
  induction term generalizing outer inner with
  | bound index => rfl
  | free name => rfl
  | abs body ih => simp [renumber, ih, lift_comp]
  | app function argument function_ih argument_ih =>
      simp [renumber, function_ih, argument_ih]

theorem raise_renumber (term : Nameless) (shift : Nat → Nat) :
    term.raise.renumber (lift shift) = (term.renumber shift).raise := by
  simp only [raise, renumber_renumber]
  rfl

/-! ## Values for all indices at once -/

/-- The values as they are seen from below one more binder. -/
def under (values : Nat → Nameless) : Nat → Nameless
  | 0 => bound 0
  | index + 1 => (values index).raise

def fill (values : Nat → Nameless) : Nameless → Nameless
  | bound index => values index
  | free name => free name
  | abs body => abs (fill (under values) body)
  | app function argument => app (fill values function) (fill values argument)

theorem under_comp_lift (values : Nat → Nameless) (shift : Nat → Nat) :
    under values ∘ lift shift = under (values ∘ shift) := by
  funext index
  cases index <;> rfl

theorem fill_renumber (term : Nameless) (values : Nat → Nameless) (shift : Nat → Nat) :
    (term.renumber shift).fill values = term.fill (values ∘ shift) := by
  induction term generalizing values shift with
  | bound index => rfl
  | free name => rfl
  | abs body ih => simp [renumber, fill, ih, under_comp_lift]
  | app function argument function_ih argument_ih =>
      simp [renumber, fill, function_ih, argument_ih]

theorem renumber_comp_under (values : Nat → Nameless) (shift : Nat → Nat) :
    renumber (lift shift) ∘ under values = under (renumber shift ∘ values) := by
  funext index
  cases index with
  | zero => rfl
  | succ index => exact raise_renumber (values index) shift

theorem renumber_fill (term : Nameless) (values : Nat → Nameless) (shift : Nat → Nat) :
    (term.fill values).renumber shift = term.fill (renumber shift ∘ values) := by
  induction term generalizing values shift with
  | bound index => rfl
  | free name => rfl
  | abs body ih => simp [renumber, fill, ih, renumber_comp_under]
  | app function argument function_ih argument_ih =>
      simp [renumber, fill, function_ih, argument_ih]

theorem raise_fill (term : Nameless) (values : Nat → Nameless) :
    term.raise.fill (under values) = (term.fill values).raise := by
  simp only [raise, fill_renumber, renumber_fill]
  rfl

theorem fill_comp_under (outer inner : Nat → Nameless) :
    fill (under outer) ∘ under inner = under (fill outer ∘ inner) := by
  funext index
  cases index with
  | zero => rfl
  | succ index => exact raise_fill (inner index) outer

theorem fill_fill (term : Nameless) (outer inner : Nat → Nameless) :
    (term.fill inner).fill outer = term.fill (fill outer ∘ inner) := by
  induction term generalizing outer inner with
  | bound index => rfl
  | free name => rfl
  | abs body ih => simp [fill, ih, fill_comp_under]
  | app function argument function_ih argument_ih =>
      simp [fill, function_ih, argument_ih]

theorem under_bound : under bound = bound := by
  funext index
  cases index <;> rfl

@[simp] theorem fill_bound (term : Nameless) : term.fill bound = term := by
  induction term with
  | bound index => rfl
  | free name => rfl
  | abs body ih => simp [fill, under_bound, ih]
  | app function argument function_ih argument_ih =>
      simp [fill, function_ih, argument_ih]

/-! ## Contraction -/

/-- A value for the innermost index, the others counted from there on. -/
def push (value : Nameless) (values : Nat → Nameless) : Nat → Nameless
  | 0 => value
  | index + 1 => values index

/-- The body of an abstraction with a value for its variable. -/
def instantiate (body value : Nameless) : Nameless := body.fill (push value bound)

/-- What a redex is contracted to; nothing if the term is not itself a redex. -/
def contractum? : Nameless → Option Nameless
  | app (abs body) argument => some (body.instantiate argument)
  | _ => none

@[simp] theorem raise_instantiate (term value : Nameless) :
    term.raise.instantiate value = term := by
  have same : push value bound ∘ Nat.succ = bound := rfl
  simp [instantiate, raise, fill_renumber, same]

theorem renumber_instantiate (body value : Nameless) (shift : Nat → Nat) :
    (body.instantiate value).renumber shift =
      (body.renumber (lift shift)).instantiate (value.renumber shift) := by
  have same : renumber shift ∘ push value bound =
      push (value.renumber shift) bound ∘ lift shift := by
    funext index
    cases index <;> rfl
  simp only [instantiate, renumber_fill, fill_renumber, same]

theorem fill_instantiate (body value : Nameless) (values : Nat → Nameless) :
    (body.instantiate value).fill values =
      (body.fill (under values)).instantiate (value.fill values) := by
  have same : fill values ∘ push value bound =
      fill (push (value.fill values) bound) ∘ under values := by
    funext index
    cases index with
    | zero => rfl
    | succ index => exact (raise_instantiate (values index) _).symm
  simp only [instantiate, fill_fill, same]

end Nameless

end BetaNormal

import BetaNormal.Proofs.Alpha
import BetaNormal.Proofs.Name
import BetaNormal.Proofs.Path

/-!
# The comparison is a congruence

The comparison of terms up to the names of their binders is an equivalence, since it holds of those
with one translation.  It is kept when the terms are put in one place of a larger term, even where
the binders around that place catch variables of theirs: what two variables are to one another
below some binders they stay below further ones outside of these, as long as each of the further
ones has the same name on both sides.
-/

namespace BetaNormal.Term

variable {left right : Term} {pairs further : List (Name × Name)}

/-! ## Further binders on the outside -/

theorem agreeBelow_self (even : ∀ pair ∈ further, pair.1 = pair.2) (name : Name) :
    agreeBelow name name further = true := by
  induction further with
  | nil => simp [agreeBelow]
  | cons pair outer ih =>
      have here : pair.1 = pair.2 := even pair List.mem_cons_self
      have beyond := ih fun other isOuter => even other (List.mem_cons_of_mem pair isOuter)
      by_cases binds : pair.1 = name <;> simp [agreeBelow, ← here, binds, beyond]

theorem agreeBelow_append {name other : Name} (even : ∀ pair ∈ further, pair.1 = pair.2)
    (agree : agreeBelow name other pairs = true) :
    agreeBelow name other (pairs ++ further) = true := by
  induction pairs with
  | nil =>
      obtain rfl : name = other := by simpa [agreeBelow] using agree
      exact agreeBelow_self even name
  | cons pair outer ih =>
      simp only [List.cons_append, agreeBelow] at agree ⊢
      by_cases binds : pair.1 = name ∨ pair.2 = other
      · rw [if_pos binds] at agree ⊢
        exact agree
      · rw [if_neg binds] at agree ⊢
        exact ih agree

theorem alphaBelow_append (even : ∀ pair ∈ further, pair.1 = pair.2)
    (alike : alphaBelow pairs left right = true) :
    alphaBelow (pairs ++ further) left right = true := by
  induction left generalizing right pairs with
  | var name =>
      obtain ⟨other, rfl⟩ := exists_eq_var_of_alphaBelow alike
      exact agreeBelow_append even alike
  | abs binder body ih =>
      obtain ⟨binder', body', rfl, bodies⟩ := exists_eq_abs_of_alphaBelow alike
      exact ih bodies
  | app function argument function_ih argument_ih =>
      obtain ⟨function', argument', rfl, functions, arguments⟩ :=
        exists_eq_app_of_alphaBelow alike
      exact alphaBelow_app (function_ih functions) (argument_ih arguments)

/-! ## One place of a larger term -/

theorem alphaEquals_refl (term : Term) : term.alphaEquals term = true :=
  (alphaEquals_iff_nameless term term).mpr rfl

theorem alphaEquals_abs (binder : Name) (alike : left.alphaEquals right = true) :
    (abs binder left).alphaEquals (abs binder right) = true := by
  have even : ∀ pair ∈ [(binder, binder)], pair.1 = pair.2 := by simp
  exact alphaBelow_append even alike

theorem alphaEquals_put (term : Term) (path : Path) (alike : left.alphaEquals right = true) :
    (term.put path left).alphaEquals (term.put path right) = true := by
  induction term, path, left using put.induct with
  | case1 term left =>
      rw [put, put]
      exact alike
  | case2 binder body path left ih => exact alphaEquals_abs binder (ih alike)
  | case3 function argument path left ih =>
      exact alphaBelow_app (ih alike) (alphaEquals_refl argument)
  | case4 function argument path left ih =>
      exact alphaBelow_app (alphaEquals_refl function) (ih alike)
  | case5 => simp [put, alphaEquals_refl]

/-- The comparison decides whether two terms are the same but for the names of their binders: it
holds exactly of those with one translation.  So it is an equivalence that holds of equal terms,
and terms that it holds of may stand for one another in any place of any term. -/
theorem alphaEquals_decides :
    (∀ left right : Term, left.alphaEquals right = true ↔ left.nameless = right.nameless) ∧
    Equivalence (fun left right : Term => left.alphaEquals right = true) ∧
    (∀ left right : Term, (left == right) = true → left.alphaEquals right = true) ∧
    ∀ (term : Term) (path : Path) (left right : Term), left.alphaEquals right = true →
      (term.put path left).alphaEquals (term.put path right) = true := by
  refine ⟨alphaEquals_iff_nameless, ⟨alphaEquals_refl, ?symm, ?trans⟩, ?equal,
    fun term path left right => alphaEquals_put term path⟩
  case symm =>
    intro left right alike
    rw [alphaEquals_iff_nameless] at alike ⊢
    exact alike.symm
  case trans =>
    intro left middle right first second
    rw [alphaEquals_iff_nameless] at first second ⊢
    exact first.trans second
  case equal =>
    intro left right same
    rw [eq_of_beq same]
    exact alphaEquals_refl right

/-- `λx.λy.(z x)` -/
def twoBinders : Term := abs .x (abs .y (app (var .z) (var .x)))

/-- `λz.(z y)` and `λk.(k y)` in a place where a binder around it catches the `y` of both. -/
theorem alphaEquals_decides_caught :
    (abs .z (app (var .z) (var .y))).alphaEquals (abs .k (app (var .k) (var .y))) = true ∧
    (twoBinders.put [.body, .body, .function] (abs .z (app (var .z) (var .y)))).alphaEquals
      (twoBinders.put [.body, .body, .function] (abs .k (app (var .k) (var .y)))) = true := by
  have alike :
      (abs .z (app (var .z) (var .y))).alphaEquals (abs .k (app (var .k) (var .y))) = true := by
    decide
  exact ⟨alike, alphaEquals_decides.2.2.2 twoBinders _ _ _ alike⟩

end BetaNormal.Term

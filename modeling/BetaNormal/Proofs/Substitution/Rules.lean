import BetaNormal.Proofs.Substitution.Drawn

/-!
# The rules of a substitution

A binder that would capture a variable of the value is renamed by a substitution of its own, and
the value is put in below it after that.  The rules tell this step by step, together with every
name that the supply gives out on the way, for the renaming as well.  The function takes a short cut
at such a binder: a name that is new below a binder captures nothing there, so the renaming leaves
all other binders alone and draws nothing.
-/

namespace BetaNormal

namespace Term

/-- `Substitutes avoid name value term supply names result after`: with the value in the place of a
name, the term becomes the result.  The supply gives out the names for that, one after the other,
and `after` is what it is then.  No binder is given a name that is free below it. -/
inductive Substitutes (avoid : List Name) :
    (name : Name) → (value term : Term) → Supply → List Name → (result : Term) → Supply → Prop
  | found {name value supply} : Substitutes avoid name value (.var name) supply [] value supply
  | other {name value supply} (other : Name) (different : other ≠ name) :
      Substitutes avoid name value (.var other) supply [] (.var other) supply
  | app {name value function function' argument argument' supply middle after names more}
      (left : Substitutes avoid name value function supply names function' middle)
      (right : Substitutes avoid name value argument middle more argument' after) :
      Substitutes avoid name value (.app function argument) supply (names ++ more)
        (.app function' argument') after
  | shadowed {name value body supply} :
      Substitutes avoid name value (.abs name body) supply [] (.abs name body) supply
  | kept {name value binder body body' supply after names} (different : binder ≠ name)
      (harmless : value.occursFree binder = false)
      (below : Substitutes avoid name value body supply names body' after) :
      Substitutes avoid name value (.abs binder body) supply names (.abs binder body') after
  | renamed {name value binder body renamed body' supply new middle after names more}
      (different : binder ≠ name) (captures : value.occursFree binder = true)
      (fresh : supply.fresh (value.names ++ body.names ++ name :: avoid) = new)
      (accepted : ¬ (binder ≠ new.1 ∧ body.occursFree new.1 = true))
      (renames : Substitutes avoid binder (.var new.1) body new.2 names renamed middle)
      (below : Substitutes avoid name value renamed middle more body' after) :
      Substitutes avoid name value (.abs binder body) supply (new.1 :: (names ++ more))
        (.abs new.1 body') after

variable {avoid names : List Name} {name old new : Name} {value term result : Term}
variable {supply after : Supply}

/-! ## Renaming by rule -/

theorem substitutes_rename (unused : new ∉ term.names) :
    Substitutes avoid old (var new) term supply [] (rename old new term) supply := by
  induction term with
  | var other =>
      by_cases same : other = old
      · subst same
        simp only [rename, if_true]
        exact .found
      · simp only [rename, if_neg same]
        exact .other other same
  | abs binder body ih =>
      simp only [Term.names, List.mem_cons, not_or] at unused
      by_cases same : binder = old
      · subst same
        simp only [rename, if_true]
        exact .shadowed
      · simp only [rename, if_neg same]
        exact .kept same (by simp [occursFree, unused.1]) (ih unused.2)
  | app function argument function_ih argument_ih =>
      simp only [Term.names, List.mem_append, not_or] at unused
      exact .app (function_ih unused.1) (argument_ih unused.2)

theorem drawn_var_of_not_mem (avoid : List Name) (supply : Supply) (unused : new ∉ term.names) :
    drawn old (var new) avoid term supply = [] := by
  have gives := gives_drawn old (var new) avoid term supply
  rw [substitute_var_of_not_mem avoid supply unused] at gives
  exact gives.eq_nil

/-! ## The function follows the rules -/

theorem substitutes_substitute (name : Name) (value : Term) (avoid : List Name) (term : Term)
    (supply : Supply) :
    Substitutes avoid name value term supply (drawn name value avoid term supply)
      (substitute name value avoid term supply).1 (substitute name value avoid term supply).2 := by
  induction term, supply using substitute.induct name value avoid with
  | case1 other supply =>
      simp only [drawn, substitute]
      by_cases same : other = name
      · subst same
        rw [if_pos rfl]
        exact .found
      · rw [if_neg same]
        exact .other other same
  | case2 function argument supply left function_ih argument_ih =>
      simp only [drawn, substitute]
      exact .app function_ih argument_ih
  | case3 body supply =>
      simp only [drawn, substitute, if_true]
      exact .shadowed
  | case4 binder body supply different captures fresh ih =>
      have newToBody := (drawn_not_mem name value avoid body supply).2.1
      have accepted : ¬ (binder ≠ fresh.1 ∧ body.occursFree fresh.1 = true) :=
        fun refused => newToBody (mem_names_of_occursFree refused.2)
      have renames : Substitutes avoid binder (var fresh.1) body fresh.2 []
          (rename binder fresh.1 body) fresh.2 := substitutes_rename newToBody
      -- the names of the renaming are none, so those of the rule are the ones that are drawn
      have step := Substitutes.renamed different captures rfl accepted renames ih
      simp only [drawn, substitute, if_neg different, if_pos captures]
      exact step
  | case5 binder body supply different harmless ih =>
      simp only [drawn, substitute, if_neg different, if_neg harmless]
      exact .kept different (by simpa using harmless) ih

theorem Substitutes.eq_substitute
    (substitutes : Substitutes avoid name value term supply names result after) :
    names = drawn name value avoid term supply ∧
      (result, after) = substitute name value avoid term supply := by
  induction substitutes with
  | found => simp [drawn, substitute]
  | other other different => simp [drawn, substitute, different]
  | app _ _ left_ih right_ih =>
      obtain ⟨rfl, left⟩ := left_ih
      obtain ⟨rfl, right⟩ := right_ih
      simp only [drawn, substitute, ← left, ← right, and_self]
  | shadowed => simp [drawn, substitute]
  | kept different harmless _ ih =>
      obtain ⟨rfl, below⟩ := ih
      simp [drawn, substitute, different, harmless, ← below]
  | @renamed name value binder body renamed body' supply new middle after names more different
      captures fresh accepted _ _ renames_ih below_ih =>
      subst fresh
      have newToBody := (drawn_not_mem name value avoid body supply).2.1
      obtain ⟨rfl, renames⟩ := renames_ih
      obtain ⟨rfl, below⟩ := below_ih
      rw [substitute_var_of_not_mem avoid _ newToBody, Prod.mk.injEq] at renames
      obtain ⟨rfl, rfl⟩ := renames
      simp only [drawn, substitute, if_neg different, if_pos captures, ← below,
        drawn_var_of_not_mem avoid _ newToBody, List.nil_append, and_self]

/-- The rules leave nothing open, and they describe the function and the names that it draws. -/
theorem substitutes_iff :
    Substitutes avoid name value term supply names result after ↔
      names = drawn name value avoid term supply ∧
        (result, after) = substitute name value avoid term supply := by
  constructor
  · exact Substitutes.eq_substitute
  · rintro ⟨rfl, same⟩
    obtain ⟨rfl, rfl⟩ := Prod.mk.inj same
    exact substitutes_substitute name value avoid term supply

end Term

end BetaNormal

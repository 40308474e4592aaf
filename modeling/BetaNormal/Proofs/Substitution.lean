import BetaNormal.Proofs.Alpha
import BetaNormal.Proofs.Name
import BetaNormal.Term.Substitution

/-!
# Substitution captures nothing

Below an environment, a substitution for a name gives that name the meaning of the value and leaves
all other names alone.  This holds whatever binders are renamed on the way and whatever names they
get, and so the result is the textbook one.
-/

namespace BetaNormal

open Nameless

/-! ## Environments that are changed below a binder -/

theorem Nameless.extend_update_self (binder : Name) (environment : Name → Nameless)
    (value : Nameless) :
    extend binder (Function.update environment binder value) = extend binder environment := by
  funext name
  by_cases same : name = binder <;> simp [extend, same]

theorem Nameless.extend_update_of_ne {binder name : Name} (different : name ≠ binder)
    (environment : Name → Nameless) (value : Nameless) :
    extend binder (Function.update environment name value) =
      Function.update (extend binder environment) name value.raise := by
  funext other
  by_cases isName : other = name
  · subst isName
    simp [extend, different]
  · rw [Function.update_of_ne isName, extend, extend, Function.update_of_ne isName]

namespace Term

theorem mem_names_of_occursFree {name : Name} {term : Term}
    (occurs : term.occursFree name = true) : name ∈ term.names := by
  induction term with
  | var other =>
      have same : other = name := by simpa [occursFree] using occurs
      simp [names, same]
  | abs binder body ih =>
      simp only [occursFree, Bool.and_eq_true] at occurs
      exact List.mem_cons_of_mem _ (ih occurs.2)
  | app function argument function_ih argument_ih =>
      simp only [occursFree, Bool.or_eq_true] at occurs
      rcases occurs with inFunction | inArgument
      · exact List.mem_append_left _ (function_ih inFunction)
      · exact List.mem_append_right _ (argument_ih inArgument)

theorem mem_freeNames_iff {name : Name} {term : Term} :
    name ∈ term.freeNames ↔ term.occursFree name = true := by
  induction term with
  | var other =>
      rw [freeNames, List.mem_singleton, occursFree, decide_eq_true_eq, eq_comm]
  | abs binder body ih =>
      simp only [freeNames, List.mem_filter, ih, occursFree, Bool.and_eq_true, decide_eq_true_eq]
      rw [and_comm, ne_comm]
  | app function argument function_ih argument_ih =>
      simp [freeNames, occursFree, function_ih, argument_ih]

theorem namelessIn_extend_of_not_free {binder : Name} {term : Term}
    (absent : ¬ term.occursFree binder = true) (environment : Name → Nameless) :
    term.namelessIn (extend binder environment) = (term.namelessIn environment).raise := by
  rw [raise, renumber_namelessIn]
  apply namelessIn_congr
  intro name occurs
  have different : name ≠ binder := fun same => absent (same ▸ occurs)
  simp [extend, different, raise]

/-! ## Renaming -/

theorem namelessIn_rename {old new : Name} {term : Term} (unused : new ∉ term.names)
    (environment : Name → Nameless) :
    (rename old new term).namelessIn environment =
      term.namelessIn (Function.update environment old (environment new)) := by
  induction term generalizing environment with
  | var name =>
      by_cases same : name = old
      · simp [rename, namelessIn, same]
      · simp [rename, namelessIn, same]
  | abs binder body ih =>
      simp only [names, List.mem_cons, not_or] at unused
      by_cases same : binder = old
      · subst same
        simp [rename, namelessIn, extend_update_self]
      · have different : old ≠ binder := fun equal => same equal.symm
        have above : extend binder environment new = (environment new).raise := by
          simp [extend, unused.1]
        simp [rename, namelessIn, same, ih unused.2, extend_update_of_ne different, above]
  | app function argument function_ih argument_ih =>
      simp only [names, List.mem_append, not_or] at unused
      simp [rename, namelessIn, function_ih unused.1, argument_ih unused.2]

theorem namelessIn_rename_below {old new : Name} {body : Term} (unused : new ∉ body.names)
    (environment : Name → Nameless) :
    (rename old new body).namelessIn (extend new environment) =
      body.namelessIn (extend old environment) := by
  rw [namelessIn_rename unused]
  apply namelessIn_congr
  intro name occurs
  have notNew : name ≠ new := fun same => unused (same ▸ mem_names_of_occursFree occurs)
  by_cases isOld : name = old <;> simp [extend, isOld, notNew]

theorem mem_names_rename {old new name : Name} {term : Term}
    (occurs : name ∈ (rename old new term).names) : name = new ∨ name ∈ term.names := by
  induction term with
  | var other =>
      simp only [rename, names, List.mem_singleton] at occurs ⊢
      by_cases same : other = old
      · rw [if_pos same] at occurs
        exact .inl occurs
      · rw [if_neg same] at occurs
        exact .inr occurs
  | abs binder body ih =>
      by_cases same : binder = old
      · rw [rename, if_pos same] at occurs
        exact .inr occurs
      · simp only [rename, if_neg same, names, List.mem_cons] at occurs ⊢
        rcases occurs with isBinder | below
        · exact .inr (.inl isBinder)
        · exact (ih below).imp_right .inr
  | app function argument function_ih argument_ih =>
      simp only [rename, names, List.mem_append] at occurs ⊢
      rcases occurs with left | right
      · exact (function_ih left).imp_right .inl
      · exact (argument_ih right).imp_right .inr

/-- Renaming is the substitution of a variable that captures nothing. -/
theorem substitute_var_of_not_mem {old new : Name} {term : Term} (avoid : List Name)
    (supply : Supply) (unused : new ∉ term.names) :
    substitute old (var new) avoid term supply = (rename old new term, supply) := by
  induction term generalizing supply with
  | var name =>
      by_cases same : name = old <;> simp [substitute, rename, same]
  | abs binder body ih =>
      simp only [names, List.mem_cons, not_or] at unused
      by_cases same : binder = old
      · simp [substitute, rename, same]
      · simp [substitute, rename, same, occursFree, unused.1, ih supply unused.2]
  | app function argument function_ih argument_ih =>
      simp only [names, List.mem_append, not_or] at unused
      simp [substitute, rename, function_ih supply unused.1, argument_ih supply unused.2]

/-- A binder takes any name that does not occur below it, and only the name of the binder
changes. -/
theorem alphaConvert_eq_rename {newBinder binder : Name} {body : Term} (avoid : List Name)
    (supply : Supply) (unused : newBinder ∉ body.names) :
    alphaConvert newBinder avoid supply (abs binder body) =
      .ok (abs newBinder (rename binder newBinder body), supply) := by
  have absent : ¬ body.occursFree newBinder = true :=
    fun occurs => unused (mem_names_of_occursFree occurs)
  simp [alphaConvert, absent, substitute_var_of_not_mem avoid supply unused]

/-! ## Substitution -/

section

variable (name : Name) (value : Term) (avoid : List Name)

/-- What a binder is renamed to is new to the value, to the scope of the binder, and to the name
that is replaced. -/
theorem drawn_not_mem (body : Term) (supply : Supply) :
    (supply.fresh (value.names ++ body.names ++ name :: avoid)).1 ∉ value.names ∧
    (supply.fresh (value.names ++ body.names ++ name :: avoid)).1 ∉ body.names ∧
    (supply.fresh (value.names ++ body.names ++ name :: avoid)).1 ≠ name ∧
    (supply.fresh (value.names ++ body.names ++ name :: avoid)).1 ∉ avoid := by
  have new := supply.fresh_not_mem (value.names ++ body.names ++ name :: avoid)
  simp only [List.mem_append, List.mem_cons, not_or] at new
  exact ⟨new.1.1, new.1.2, new.2.1, new.2.2⟩

theorem extend_update_value {binder : Name} (different : binder ≠ name)
    (absent : ¬ value.occursFree binder = true) (environment : Name → Nameless) :
    Function.update (extend binder environment) name
        (value.namelessIn (extend binder environment)) =
      extend binder (Function.update environment name (value.namelessIn environment)) := by
  rw [namelessIn_extend_of_not_free absent, extend_update_of_ne different.symm]

theorem namelessIn_substitute (term : Term) (supply : Supply) (environment : Name → Nameless) :
    (substitute name value avoid term supply).1.namelessIn environment =
      term.namelessIn (Function.update environment name (value.namelessIn environment)) := by
  induction term, supply using substitute.induct name value avoid generalizing environment with
  | case1 other supply =>
      by_cases same : other = name <;> simp [substitute, namelessIn, same]
  | case2 function argument supply left function_ih argument_ih =>
      simp [substitute, namelessIn, function_ih, left, argument_ih]
  | case3 body supply =>
      simp [substitute, namelessIn, extend_update_self]
  | case4 binder body supply different captures drawn ih =>
      obtain ⟨newToValue, newToBody, newToName, -⟩ :=
        drawn_not_mem name value avoid body supply
      have absent : ¬ value.occursFree drawn.1 = true :=
        fun occurs => newToValue (mem_names_of_occursFree occurs)
      rw [substitute, if_neg different, if_pos captures]
      simp only [namelessIn]
      rw [ih, extend_update_value name value newToName absent, namelessIn_rename_below newToBody]
  | case5 binder body supply different absent ih =>
      rw [substitute, if_neg different, if_neg absent]
      simp only [namelessIn]
      rw [ih, extend_update_value name value different absent]

/-- What a substitution comes to without the names of binders: the textbook substitution of the
value.  So up to the names of binders neither the supply nor `avoid` matters. -/
theorem nameless_substitute (term : Term) (supply : Supply) :
    (substitute name value avoid term supply).1.nameless =
        Nameless.substitute name value.nameless term.nameless ∧
    ∀ (otherAvoid : List Name) (otherSupply : Supply),
      (substitute name value avoid term supply).1.alphaEquals
        (substitute name value otherAvoid term otherSupply).1 = true := by
  have textbook : ∀ (anyAvoid : List Name) (anySupply : Supply),
      (substitute name value anyAvoid term anySupply).1.nameless =
        Nameless.substitute name value.nameless term.nameless := by
    intro anyAvoid anySupply
    rw [nameless_eq, namelessIn_substitute, substitute_nameless, nameless_eq value]
  refine ⟨textbook avoid supply, fun otherAvoid otherSupply => ?_⟩
  rw [alphaEquals_iff_nameless, textbook, textbook]

end

theorem namelessIn_contract (binder : Name) (body argument : Term) (avoid : List Name)
    (supply : Supply) (environment : Name → Nameless) :
    (substitute binder argument avoid body supply).1.namelessIn environment =
      (body.namelessIn (extend binder environment)).instantiate
        (argument.namelessIn environment) := by
  rw [namelessIn_substitute, instantiate_namelessIn]

end Term

end BetaNormal

import BetaNormal.Proofs.Name.Given
import BetaNormal.Proofs.Substitution

/-!
# Names that a substitution draws

A substitution draws a name for each binder that would capture a variable of the value.  The names
come from the supply one after the other, each of them becomes the name of a binder, and no other
name gets into the result that was not in the term or the value before.
-/

namespace BetaNormal.Term

/-- The names that a substitution draws from the supply, in order. -/
def drawn (name : Name) (value : Term) (avoid : List Name) : Term → Supply → List Name
  | var _, _ => []
  | app function argument, supply =>
      drawn name value avoid function supply ++
        drawn name value avoid argument (substitute name value avoid function supply).2
  | abs binder body, supply =>
      if binder = name then []
      else if value.occursFree binder then
        let new := supply.fresh (value.names ++ body.names ++ name :: avoid)
        new.1 :: drawn name value avoid (rename binder new.1 body) new.2
      else drawn name value avoid body supply
termination_by term => term.size
decreasing_by all_goals simp only [size, size_rename]; omega

section

variable (name : Name) (value : Term) (avoid : List Name)

theorem gives_drawn (term : Term) (supply : Supply) :
    supply.Gives (drawn name value avoid term supply)
      (substitute name value avoid term supply).2 := by
  induction term, supply using substitute.induct name value avoid with
  | case1 other supply =>
      simp only [drawn, substitute]
      exact .nil supply
  | case2 function argument supply left function_ih argument_ih =>
      simp only [drawn, substitute]
      exact function_ih.append argument_ih
  | case3 body supply =>
      simp only [drawn, substitute, if_true]
      exact .nil supply
  | case4 binder body supply different captures new ih =>
      simp only [drawn, substitute, if_neg different, if_pos captures]
      exact .cons _ ih
  | case5 binder body supply different absent ih =>
      simp only [drawn, substitute, if_neg different, if_neg absent]
      exact ih

theorem not_mem_avoid_of_drawn (term : Term) (supply : Supply) :
    ∀ new ∈ drawn name value avoid term supply, new ∉ avoid := by
  induction term, supply using substitute.induct name value avoid with
  | case1 other supply => simp [drawn]
  | case2 function argument supply left function_ih argument_ih =>
      intro new isDrawn
      rw [drawn, List.mem_append] at isDrawn
      exact isDrawn.elim (function_ih new) (argument_ih new)
  | case3 body supply => simp [drawn]
  | case4 binder body supply different captures fresh ih =>
      intro new isDrawn
      simp only [drawn, if_neg different, if_pos captures, List.mem_cons] at isDrawn
      rcases isDrawn with rfl | later
      · exact (drawn_not_mem name value avoid body supply).2.2.2
      · exact ih new later
  | case5 binder body supply different absent ih =>
      simpa only [drawn, if_neg different, if_neg absent] using ih

/-- Each name that is drawn becomes the name of a binder. -/
theorem mem_names_substitute_of_drawn (term : Term) (supply : Supply) :
    ∀ new ∈ drawn name value avoid term supply,
      new ∈ (substitute name value avoid term supply).1.names := by
  induction term, supply using substitute.induct name value avoid with
  | case1 other supply => simp [drawn]
  | case2 function argument supply left function_ih argument_ih =>
      intro new isDrawn
      rw [drawn, List.mem_append] at isDrawn
      simp only [substitute, names, List.mem_append]
      exact isDrawn.imp (function_ih new) (argument_ih new)
  | case3 body supply => simp [drawn]
  | case4 binder body supply different captures fresh ih =>
      intro new isDrawn
      simp only [drawn, if_neg different, if_pos captures, List.mem_cons] at isDrawn
      simp only [substitute, if_neg different, if_pos captures, names, List.mem_cons]
      exact isDrawn.imp_right (ih new)
  | case5 binder body supply different absent ih =>
      intro new isDrawn
      simp only [drawn, if_neg different, if_neg absent] at isDrawn
      simp only [substitute, if_neg different, if_neg absent, names, List.mem_cons]
      exact .inr (ih new isDrawn)

/-- All names of a result come from the term or the value, or they were drawn. -/
theorem mem_names_substitute (term : Term) (supply : Supply) :
    ∀ other ∈ (substitute name value avoid term supply).1.names,
      other ∈ term.names ∨ other ∈ value.names ∨ other ∈ drawn name value avoid term supply := by
  induction term, supply using substitute.induct name value avoid with
  | case1 old supply =>
      intro other occurs
      by_cases same : old = name
      · rw [substitute, if_pos same] at occurs
        exact .inr (.inl occurs)
      · rw [substitute, if_neg same] at occurs
        exact .inl occurs
  | case2 function argument supply left function_ih argument_ih =>
      intro other occurs
      simp only [substitute, names, List.mem_append] at occurs
      simp only [drawn, names, List.mem_append]
      rcases occurs with inFunction | inArgument
      · have origin := function_ih other inFunction
        tauto
      · have origin := argument_ih other inArgument
        tauto
  | case3 body supply =>
      intro other occurs
      rw [substitute, if_pos rfl] at occurs
      exact .inl occurs
  | case4 binder body supply different captures fresh ih =>
      intro other occurs
      simp only [substitute, if_neg different, if_pos captures, names, List.mem_cons] at occurs
      simp only [drawn, if_neg different, if_pos captures, names, List.mem_cons]
      rcases occurs with isNew | below
      · exact .inr (.inr (.inl isNew))
      · rcases ih other below with renamed | origin
        · have source := mem_names_rename renamed
          tauto
        · tauto
  | case5 binder body supply different absent ih =>
      intro other occurs
      simp only [substitute, if_neg different, if_neg absent, names, List.mem_cons] at occurs
      simp only [drawn, if_neg different, if_neg absent, names, List.mem_cons]
      rcases occurs with isBinder | below
      · exact .inl (.inl isBinder)
      · have origin := ih other below
        tauto

end

end BetaNormal.Term

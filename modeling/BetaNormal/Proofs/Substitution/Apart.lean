import BetaNormal.Proofs.Substitution.Binders

/-!
# What new names are kept apart from

The name that is drawn for a binder occurs neither in the value nor in the abstraction of that
binder, and it is neither the name that is replaced nor one of those to be avoided.  What stands
beside the abstraction or around it is not looked at, so a new name may occur there.
-/

namespace BetaNormal.Term

section

variable (name : Name) (value : Term) (avoid further : List Name)

/-- A substitution that is told to avoid more names comes to the same as long as it draws none of
them. -/
theorem substitute_append_avoid (term : Term) (supply : Supply) :
    (∀ new ∈ drawn name value avoid term supply, new ∉ further) →
      substitute name value (further ++ avoid) term supply =
        substitute name value avoid term supply := by
  induction term, supply using substitute.induct name value avoid with
  | case1 other supply => simp only [substitute, implies_true]
  | case2 function argument supply left function_ih argument_ih =>
      intro unused
      simp only [drawn, List.mem_append] at unused
      have functions := function_ih fun new isDrawn => unused new (.inl isDrawn)
      have arguments := argument_ih fun new isDrawn => unused new (.inr isDrawn)
      simp only [substitute, functions, arguments, left]
  | case3 body supply => simp only [substitute, if_true, implies_true]
  | case4 binder body supply different captures fresh ih =>
      intro unused
      simp only [drawn, if_neg different, if_pos captures, List.mem_cons] at unused
      -- a larger set to be avoided changes nothing if the name that was found is still outside it
      have same : supply.fresh (value.names ++ body.names ++ name :: (further ++ avoid)) =
          supply.fresh (value.names ++ body.names ++ name :: avoid) := by
        apply Supply.fresh_eq_of_subset
        · intro other avoided
          simp only [List.mem_append, List.mem_cons] at avoided ⊢
          tauto
        · have newToFurther := unused _ (.inl rfl)
          have new := drawn_not_mem name value avoid body supply
          simp only [List.mem_append, List.mem_cons]
          tauto
      have below := ih fun new isDrawn => unused new (.inr isDrawn)
      simp only [substitute, if_neg different, if_pos captures, same, below, fresh]
  | case5 binder body supply different harmless ih =>
      intro unused
      simp only [drawn, if_neg different, if_neg harmless] at unused
      simp only [substitute, if_neg different, if_neg harmless, ih unused]

theorem binds_unique {first second : Name} {term : Term} {path : Path}
    (binds : Binds first term path) (again : Binds second term path) : first = second := by
  obtain ⟨body, stands⟩ := binds_iff.mp binds
  obtain ⟨body', standsToo⟩ := binds_iff.mp again
  rw [stands] at standsToo
  cases standsToo
  rfl

theorem drawn_eq_of_substitute_eq {otherAvoid : List Name} {term : Term} {supply : Supply}
    (same : substitute name value otherAvoid term supply =
      substitute name value avoid term supply) :
    drawn name value otherAvoid term supply = drawn name value avoid term supply := by
  have first := (renames_clashes name value avoid term supply).imp fun _ _ => And.left
  have second := (renames_clashes name value otherAvoid term supply).imp fun _ _ => And.left
  have unique : Relator.RightUnique fun path new =>
      Binds new (substitute name value avoid term supply).1 path := fun _ _ _ => binds_unique
  rw [same] at second
  exact List.right_unique_forall₂' unique second first

/-- The name that is drawn for a binder is kept apart from the value, from the abstraction of the
binder, from the name that is replaced and from those to be avoided.  From the whole term it is
kept apart exactly if the substitution does what it would do if it had to avoid the names of the
term as well. -/
theorem drawn_apart (term : Term) (supply : Supply) :
    Substitutes avoid name value term supply (drawn name value avoid term supply)
      (substitute name value avoid term supply).1 (substitute name value avoid term supply).2 ∧
    List.Forall₂ (Apart name value avoid term) (clashes name value term)
      (drawn name value avoid term supply) ∧
    ((∀ new ∈ drawn name value avoid term supply, new ∉ term.names) ↔
      substitute name value (term.names ++ avoid) term supply =
        substitute name value avoid term supply) := by
  refine ⟨substitutes_substitute name value avoid term supply, ?_, ?_, ?_⟩
  · exact (renames_clashes name value avoid term supply).imp fun _ _ => And.right
  · exact substitute_append_avoid name value avoid term.names term supply
  · intro same new isDrawn inTerm
    rw [← drawn_eq_of_substitute_eq name value avoid same] at isDrawn
    exact not_mem_avoid_of_drawn name value _ term supply new isDrawn
      (List.mem_append_left avoid inTerm)

end

/-! ## A new name that occurs beside its binder -/

/-- The first name of the standard supply, `a0`. -/
def firstFresh : Name := Supply.standard.candidate 0

/-- `(λy.x a0)` -/
def besideBinder : Term := app (abs .y (var .x)) (var firstFresh)

/-- With `y` for `x` the binder gets the name `a0`, which the argument has. -/
theorem not_always_apart :
    ¬ ∀ (name : Name) (value : Term) (avoid : List Name) (term : Term) (supply : Supply),
      ∀ new ∈ drawn name value avoid term supply,
        new ∉ value.names ∧ new ∉ term.names ∧ new ≠ name ∧ new ∉ avoid := by
  intro always
  have isDrawn : firstFresh ∈ drawn .x (var .y) [] besideBinder .standard := by decide +kernel
  have inTerm : firstFresh ∈ besideBinder.names := by simp [besideBinder, names]
  exact (always .x (var .y) [] besideBinder .standard firstFresh isDrawn).2.1 inTerm

end BetaNormal.Term

import BetaNormal.Proofs.Nameless.Free
import BetaNormal.Proofs.Reduction.Hygiene

/-!
# Free names of a reduction

A contraction can only lose free names, and none of them is new.  So whatever is free in a whole
term along a reduction was free in the first one, and a name that was drawn for a binder on the way,
which the first term does not have, is never free.
-/

namespace BetaNormal.Term

variable {avoid : List Name} {path : Path} {contraction : Contraction} {steps : List Contraction}
variable {before after : Term} {supply supply' : Supply} {name : Name}

theorem occursFree_of_contractum {binder : Name} {body argument : Term}
    (free : (substitute binder argument avoid body supply).1.occursFree name = true) :
    (app (abs binder body) argument).occursFree name = true := by
  rw [occursFree_substitute_iff] at free
  simp only [occursFree, Bool.or_eq_true, Bool.and_eq_true, decide_eq_true_eq]
  rcases free with ⟨different, inBody⟩ | ⟨-, inArgument⟩
  · exact .inl ⟨different.symm, inBody⟩
  · exact .inr inArgument

theorem Advances.occursFree
    (advances : Advances avoid path contraction before supply after supply')
    (free : after.occursFree name = true) : before.occursFree name = true := by
  induction advances with
  | contract binder body argument supply => exact occursFree_of_contractum free
  | body binder _ ih =>
      simp only [Term.occursFree, Bool.and_eq_true] at free ⊢
      exact free.imp_right ih
  | function argument _ ih =>
      simp only [Term.occursFree, Bool.or_eq_true] at free ⊢
      exact free.imp_left ih
  | argument normal neutral _ ih =>
      simp only [Term.occursFree, Bool.or_eq_true] at free ⊢
      exact free.imp_right ih

theorem Runs.not_mem_avoid (runs : Runs avoid steps before supply after supply') :
    ∀ new ∈ drawnFor avoid steps supply, new ∉ avoid := by
  induction runs with
  | nil term supply => simp [drawnFor]
  | cons first _ ih =>
      intro new isDrawn
      rw [drawnFor, first.left_eq, List.mem_append] at isDrawn
      exact isDrawn.elim (first.not_mem_avoid new) (ih new)

/-- The whole terms of a run, none of which has a free name that the one before it lacks. -/
theorem Runs.exists_inheriting (runs : Runs avoid steps before supply after supply') :
    ∃ whole : Nat → Term, whole 0 = before ∧ whole steps.length = after ∧
      (∀ (i : Nat) (contraction : Contraction), steps[i]? = some contraction →
        (∃ path, (whole i).subterm? path = some contraction.redex ∧
          whole (i + 1) = (whole i).put path contraction.result) ∧
        ∀ name, (whole (i + 1)).occursFree name = true → (whole i).occursFree name = true) ∧
      ∀ i ≤ steps.length, ∀ name,
        (whole i).occursFree name = true → before.occursFree name = true := by
  -- what is carried along the run speaks of the first term, so it is the same at every state
  have kept : ∀ {path : Path} {contraction : Contraction} {middle next : Term}
      {supply supply' : Supply}, Advances avoid path contraction middle supply next supply' →
      (∀ name, middle.occursFree name = true → before.occursFree name = true) →
      ∀ name, next.occursFree name = true → before.occursFree name = true :=
    fun advances inherits name free => inherits name (advances.occursFree free)
  obtain ⟨whole, path, left, start, -, stop, -, last, each⟩ :=
    runs.exists_states kept fun _ => id
  refine ⟨whole, start, stop, fun i contraction made => ?_, fun i within name free => ?_⟩
  · have advances := (each i contraction made).2
    exact ⟨⟨path i, advances.subterm?_eq, advances.eq_put⟩, fun name => advances.occursFree⟩
  · rcases Nat.lt_or_eq_of_le within with inside | rfl
    · exact (each i steps[i] (List.getElem?_eq_getElem inside)).1 name free
    · exact last name (stop ▸ free)

/-- A substitution leaves the free names of the term without the one that is replaced, and adds
those of the value if there was something to replace.  So along a reduction no whole term has a
free name that the one before it lacks, and none that the supply has given out for a binder, and the
normal form has no other free names than the first term. -/
theorem free_names_of_reduction :
    (∀ (name other : Name) (value : Term) (avoid : List Name) (term : Term) (supply : Supply),
      (substitute name value avoid term supply).1.occursFree other = true ↔
        (other ≠ name ∧ term.occursFree other = true) ∨
          (term.occursFree name = true ∧ value.occursFree other = true)) ∧
    ∀ (capacity : Capacity) (limits : Limits) (term : Term) (supply : Supply),
      supply.Gives (drawnFor term.names (trace capacity limits term supply) supply)
        (term.normalize capacity limits supply).2 ∧
      ∃ whole : Nat → Term,
        whole 0 = term ∧
        (∀ (i : Nat) (contraction : Contraction),
          (trace capacity limits term supply)[i]? = some contraction →
            (∃ path, (whole i).subterm? path = some contraction.redex ∧
              whole (i + 1) = (whole i).put path contraction.result) ∧
            ∀ name, (whole (i + 1)).occursFree name = true → (whole i).occursFree name = true) ∧
        (∀ i ≤ (trace capacity limits term supply).length, ∀ name,
          (whole i).occursFree name = true →
            term.occursFree name = true ∧
            name ∉ drawnFor term.names (trace capacity limits term supply) supply) ∧
        ∀ reduction, (term.normalize capacity limits supply).1 = .ok reduction →
          whole (trace capacity limits term supply).length = reduction.term ∧
          ∀ name, reduction.term.occursFree name = true → term.occursFree name = true := by
  refine ⟨fun name other value avoid term supply =>
    occursFree_substitute_iff name other value avoid term supply,
    fun capacity limits term supply => ?_⟩
  obtain ⟨last, runs, done⟩ := normalize_runs capacity limits term supply
  obtain ⟨whole, start, stop, each, inherits⟩ := runs.exists_inheriting
  refine ⟨runs.gives, whole, start, each, fun i within name free => ?_,
    fun reduction success => ?_⟩
  · have inTerm := inherits i within name free
    -- what is drawn avoids all names of the first term, so none of its free names is drawn
    exact ⟨inTerm, fun isDrawn =>
      runs.not_mem_avoid name isDrawn (mem_names_of_occursFree inTerm)⟩
  · obtain ⟨rfl, -⟩ := done reduction success
    exact ⟨stop, fun name free => inherits _ (Nat.le_refl _) name (stop.symm ▸ free)⟩

end BetaNormal.Term

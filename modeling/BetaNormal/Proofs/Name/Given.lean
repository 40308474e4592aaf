import BetaNormal.Proofs.Name

/-!
# What a supply gives out

A supply is drawn from again and again, and each time there may be other names to avoid.  The
numbers of the names only go up, so a name that has been given out is never given out again.
-/

namespace BetaNormal.Supply

variable {supply middle after : Supply} {names more : List Name} {name : Name}

/-- `Gives supply names after`: the names that are drawn from a supply, one after the other, and
what it is after that. -/
inductive Gives : Supply → List Name → Supply → Prop
  | nil (supply : Supply) : Gives supply [] supply
  | cons {supply : Supply} {names : List Name} {after : Supply} (avoid : List Name)
      (later : Gives (supply.fresh avoid).2 names after) :
      Gives supply ((supply.fresh avoid).1 :: names) after

/-- Whether a name is the stem of a supply with a number that lies between two states of it. -/
def Between (supply after : Supply) (name : Name) : Prop :=
  ∃ number, supply.counter ≤ number ∧ number < after.counter ∧ name = supply.candidate number

/-! ## One name -/

theorem le_search (supply : Supply) (avoid : List Name) (bound number : Nat) :
    number ≤ supply.search avoid bound number := by
  induction bound generalizing number with
  | zero => exact Nat.le_refl number
  | succ bound ih =>
      rw [search]
      split
      · have further := ih (number + 1)
        omega
      · exact Nat.le_refl number

theorem counter_lt_fresh (supply : Supply) (avoid : List Name) :
    supply.counter < (supply.fresh avoid).2.counter :=
  Nat.lt_succ_of_le (supply.le_search avoid avoid.length supply.counter)

theorem between_fresh (supply : Supply) (avoid : List Name) :
    supply.Between (supply.fresh avoid).2 (supply.fresh avoid).1 :=
  ⟨_, supply.le_search avoid avoid.length supply.counter, Nat.lt_succ_self _, rfl⟩

/-- More names to avoid make no difference as long as the name that is given out is none of
them. -/
theorem fresh_eq_of_subset {avoid wider : List Name} (within : avoid ⊆ wider)
    (outside : (supply.fresh avoid).1 ∉ wider) : supply.fresh wider = supply.fresh avoid := by
  have same : supply.search wider wider.length supply.counter =
      supply.search avoid avoid.length supply.counter := by
    rcases Nat.lt_trichotomy (supply.search wider wider.length supply.counter)
      (supply.search avoid avoid.length supply.counter) with early | same | late
    · -- what is passed over for the shorter list is also in the longer one
      have passed := mem_of_lt_search supply avoid avoid.length supply.counter _
        (supply.le_search wider wider.length supply.counter) early
      exact absurd (within passed) (candidate_search_not_mem supply wider supply.counter)
    · exact same
    · exact absurd (mem_of_lt_search supply wider wider.length supply.counter _
        (supply.le_search avoid avoid.length supply.counter) late) outside
  simp only [fresh, same]

theorem candidate_eq_of_stem (same : middle.stem = supply.stem) (number : Nat) :
    middle.candidate number = supply.candidate number := by
  simp only [candidate, same]

theorem Between.of_le (between : supply.Between middle name)
    (le : middle.counter ≤ after.counter) : supply.Between after name := by
  obtain ⟨number, above, below, rfl⟩ := between
  exact ⟨number, above, Nat.lt_of_lt_of_le below le, rfl⟩

theorem Between.of_ge (between : middle.Between after name) (same : middle.stem = supply.stem)
    (le : supply.counter ≤ middle.counter) : supply.Between after name := by
  obtain ⟨number, above, below, rfl⟩ := between
  exact ⟨number, Nat.le_trans le above, below, candidate_eq_of_stem same number⟩

/-- What was given out before some state of a supply is not given out after it. -/
theorem Between.not_between (before : supply.Between middle name)
    (same : middle.stem = supply.stem) : ¬ middle.Between after name := by
  rintro ⟨number, above, -, isNumber⟩
  obtain ⟨earlier, -, below, isEarlier⟩ := before
  rw [isEarlier, candidate_eq_of_stem same] at isNumber
  have numbers : earlier = number := candidate_injective supply isNumber
  omega

/-! ## Many names -/

theorem Gives.append (first : supply.Gives names middle) (later : middle.Gives more after) :
    supply.Gives (names ++ more) after := by
  induction first with
  | nil _ => exact later
  | cons avoid _ ih => exact .cons avoid (ih later)

theorem Gives.stem_eq (gives : supply.Gives names after) : after.stem = supply.stem := by
  induction gives with
  | nil _ => rfl
  | cons avoid _ ih => exact ih

theorem Gives.counter_le (gives : supply.Gives names after) :
    supply.counter ≤ after.counter := by
  induction gives with
  | nil _ => exact Nat.le_refl _
  | @cons supply _ _ avoid _ ih =>
      have first := counter_lt_fresh supply avoid
      omega

theorem Gives.eq_nil (gives : supply.Gives names supply) : names = [] := by
  cases gives with
  | nil _ => rfl
  | cons avoid later =>
      have first := counter_lt_fresh supply avoid
      have rest := later.counter_le
      omega

theorem Gives.between (gives : supply.Gives names after) :
    ∀ name ∈ names, supply.Between after name := by
  induction gives with
  | nil _ => simp
  | @cons supply names after avoid later ih =>
      intro name given
      rcases List.mem_cons.mp given with rfl | givenLater
      · exact (supply.between_fresh avoid).of_le later.counter_le
      · exact (ih name givenLater).of_ge rfl (Nat.le_of_lt (counter_lt_fresh supply avoid))

theorem Gives.nodup (gives : supply.Gives names after) : names.Nodup := by
  induction gives with
  | nil _ => exact List.nodup_nil
  | @cons supply names after avoid later ih =>
      refine List.nodup_cons.mpr ⟨fun again => ?_, ih⟩
      exact (supply.between_fresh avoid).not_between rfl (later.between _ again)

end BetaNormal.Supply

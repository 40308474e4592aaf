import BetaNormal.Proofs.Name.Given

/-!
# Drawing by trial

A supply finds a name by trial: it writes out one number after the other until it comes to a name
that need not be avoided.  Nothing in this bounds the search, a number may be too long to be
written, and what is written has to be a name.  But the search always ends, with a name that the
supply gives out, unless the number of that name is too long.
-/

namespace BetaNormal

theorem Text.hasNumeral_of_le {smaller number : Nat} (le : smaller ≤ number)
    (has : hasNumeral number = true) : hasNumeral smaller = true := by
  unfold hasNumeral at has ⊢
  rw [decide_eq_true_eq] at has ⊢
  exact Nat.lt_of_le_of_lt le has

namespace Supply

/-- What can come between a supply and a name. -/
inductive Mishap where
  | numeralTooLong
  | notName (fault : Name.Fault)
  deriving DecidableEq

/-- Tries one number after the other. -/
def tryFresh (avoid : List Name) :
    (fuel : Nat) → Supply → ExceptT Mishap Option (Name × Supply)
  | 0, _ => ExceptT.mk none
  | fuel + 1, supply =>
      if Text.hasNumeral supply.counter then
        let text := supply.stem ++ Text.decimal supply.counter
        let next := { supply with counter := supply.counter + 1 }
        if (avoid.map Name.text).contains text then tryFresh avoid fuel next
        else
          match Name.ofText text with
          | .ok name => pure (name, next)
          | .error fault => throw (.notName fault)
      else throw .numeralTooLong

/-- Whether names have been drawn between two states of a supply, and the number of the last one is
too long to be written. -/
def outran (before after : Supply) : Bool :=
  decide (before.counter < after.counter) && after.isOverrun

variable {before middle after : Supply} {avoid : List Name}

/-! ## Numbers that are too long -/

theorem outran_self (supply : Supply) : supply.outran supply = false := by
  simp [outran]

theorem outran_eq_or (first : before.counter ≤ middle.counter)
    (later : middle.counter ≤ after.counter) :
    before.outran after = (before.outran middle || middle.outran after) := by
  have further : middle.isOverrun = true → after.isOverrun = true := by
    intro beyond
    unfold isOverrun at beyond ⊢
    rw [Bool.not_eq_true', ← Bool.not_eq_true] at beyond ⊢
    intro has
    exact beyond (Text.hasNumeral_of_le (by omega) has)
  unfold outran
  rcases Nat.lt_or_eq_of_le later with more | same
  · have drawn : before.counter < after.counter := by omega
    simp only [drawn, more, decide_true, Bool.true_and]
    cases beyond : middle.isOverrun with
    | true => simp [further beyond]
    | false => simp
  · have none : ¬ middle.counter < after.counter := by omega
    simp only [isOverrun, same, Nat.lt_irrefl, decide_false, Bool.false_and, Bool.or_false]

/-! ## The search -/

theorem ofText_candidate (supply : Supply) (number : Nat) :
    Name.ofText (supply.stem ++ Text.decimal number) = .ok (supply.candidate number) := by
  have some : supply.stem ++ Text.decimal number ≠ [] := (supply.candidate number).text_ne_nil
  have allowed : (supply.stem ++ Text.decimal number).all Name.allows = true :=
    (supply.candidate number).allowed
  unfold Name.ofText
  rw [dif_neg some, dif_pos allowed]
  rfl

theorem contains_texts (supply : Supply) (number : Nat) :
    (avoid.map Name.text).contains (supply.stem ++ Text.decimal number) =
      decide (supply.candidate number ∈ avoid) := by
  rw [Bool.eq_iff_iff, List.contains_iff_mem, decide_eq_true_eq]
  constructor
  · intro written
    obtain ⟨name, isAvoided, same⟩ := List.mem_map.mp written
    obtain rfl : name = supply.candidate number := by
      cases name
      cases same
      rfl
    exact isAvoided
  · intro isAvoided
    exact List.mem_map_of_mem isAvoided

theorem search_eq_of_stem (same : after.stem = before.stem) (avoid : List Name)
    (bound number : Nat) : after.search avoid bound number = before.search avoid bound number := by
  induction bound generalizing number with
  | zero => rfl
  | succ bound ih => simp only [search, candidate_eq_of_stem same, ih]

/-- The number at which the trials end is the one that a search finds, whatever bounds the search,
as long as it finds one. -/
theorem tryFresh_eq_of_search (bound : Nat) (supply : Supply)
    (found : supply.candidate (supply.search avoid bound supply.counter) ∉ avoid)
    {fuel : Nat} (enough : bound < fuel) :
    supply.tryFresh avoid fuel =
      if Text.hasNumeral (supply.search avoid bound supply.counter) then
        pure (supply.candidate (supply.search avoid bound supply.counter),
          { supply with counter := supply.search avoid bound supply.counter + 1 })
      else throw .numeralTooLong := by
  induction bound generalizing supply fuel with
  | zero =>
      cases fuel with
      | zero => contradiction
      | succ fuel =>
          simp only [search] at found ⊢
          simp only [tryFresh, contains_texts, decide_eq_true_eq, if_neg found, ofText_candidate]
          rfl
  | succ bound ih =>
      cases fuel with
      | zero => contradiction
      | succ fuel =>
          simp only [tryFresh, contains_texts, decide_eq_true_eq]
          by_cases taken : supply.candidate supply.counter ∈ avoid
          · let next : Supply := { supply with counter := supply.counter + 1 }
            have further : supply.search avoid (bound + 1) supply.counter =
                next.search avoid bound next.counter := by
              have same : supply.stem = next.stem := rfl
              rw [search, if_pos taken]
              exact search_eq_of_stem same avoid bound _
            rw [further] at found ⊢
            rw [if_pos taken]
            cases has : Text.hasNumeral supply.counter with
            | true => exact ih next found (Nat.lt_of_succ_lt_succ enough)
            | false =>
                -- a number behind one that is too long is too long as well
                have tooLong : ¬ Text.hasNumeral (next.search avoid bound next.counter) = true := by
                  intro longer
                  have before : supply.counter ≤ next.search avoid bound next.counter :=
                    Nat.le_trans (Nat.le_succ _) (next.le_search avoid bound next.counter)
                  rw [Text.hasNumeral_of_le before longer] at has
                  contradiction
                rw [if_neg tooLong, if_neg Bool.false_ne_true]
          · have here : supply.search avoid (bound + 1) supply.counter = supply.counter := by
              rw [search, if_neg taken]
            rw [here, if_neg taken]
            simp only [ofText_candidate]

/-- Trying one number after the other ends after one trial more than there are names to avoid, and
it ends where the bounded search does, unless the number there is too long. -/
theorem tryFresh_eq (supply : Supply) (avoid : List Name) {fuel : Nat}
    (enough : avoid.length < fuel) :
    supply.tryFresh avoid fuel =
      if supply.outran (supply.fresh avoid).2 then throw .numeralTooLong
      else pure (supply.fresh avoid) := by
  have drawn := supply.counter_lt_fresh avoid
  rw [tryFresh_eq_of_search avoid.length supply (supply.fresh_not_mem avoid) enough]
  unfold outran isOverrun
  rw [decide_eq_true drawn, Bool.true_and]
  simp only [fresh, Nat.add_sub_cancel]
  cases Text.hasNumeral (supply.search avoid avoid.length supply.counter) with
  | true => rfl
  | false => rfl

/-! ## The last number -/

theorem hasNumeral_iff_le {number last : Nat}
    (limit : Nat.pow 10 Text.numeralAllowance = last + 1) :
    Text.hasNumeral number = true ↔ number ≤ last := by
  unfold Text.hasNumeral
  rw [limit, decide_eq_true_iff]
  exact Nat.lt_succ_iff

/-- The standard supply when it has come to the last number that can be written. -/
def last : Supply := { standard with counter := Nat.pow 10 Text.numeralAllowance - 1 }

theorem counter_last : Nat.pow 10 Text.numeralAllowance = last.counter + 1 := by
  have positive : ∀ digits, 0 < Nat.pow 10 digits := fun _ => Nat.pow_pos (by decide)
  exact (Nat.sub_one_add_one_eq_of_pos (positive _)).symm

theorem start_ofNat (supply : Supply) : start supply.stem (.ofNat supply.counter) = .ok supply := by
  unfold start
  simp only [supply.allowed, dite_true]

theorem hasNumeral_last : Text.hasNumeral last.counter = true :=
  (hasNumeral_iff_le counter_last).mpr (Nat.le_refl last.counter)

theorem outran_last (drawn : last.counter + 1 < after.counter) : last.outran after = true := by
  have limit := counter_last
  generalize last = supply at drawn limit ⊢
  have tooLong : Text.hasNumeral (after.counter - 1) = false := by
    rw [← Bool.not_eq_true, hasNumeral_iff_le limit]
    omega
  have more : supply.counter < after.counter := by omega
  unfold outran isOverrun
  rw [decide_eq_true more, tooLong]
  rfl

end Supply

end BetaNormal

import BetaNormal.Proofs.Fuel
import BetaNormal.Proofs.Name.Drawing
import Mathlib.Order.Bounds.Basic

/-!
# Calls of a supply

A supply is called again and again, each time with other texts to be avoided.  A call tries one
number after the other, with no bound on how far it goes.  It always ends: among more numbers than
there are texts to be avoided there is one whose name is none of them.  The counter then stands
behind that number, so no later call comes to it again.
-/

namespace BetaNormal

/-- The names among texts.  What is no name need not be avoided. -/
def Name.among (texts : List Text) : List Name :=
  texts.filterMap fun text => (Name.ofText text).toOption

namespace Supply

/-- What comes of a call: a name or a mishap, and the supply after it. -/
structure Answer where
  outcome : Except Mishap Name
  after : Supply

/-- Tries one number after the other, and keeps the numbers passed over even if no name comes
of it. -/
def tryCall (avoid : List Text) : (fuel : Nat) → Supply → Option Answer
  | 0, _ => none
  | fuel + 1, supply =>
      if Text.hasNumeral supply.counter then
        let text := supply.stem ++ Text.decimal supply.counter
        let next := { supply with counter := supply.counter + 1 }
        if avoid.contains text then tryCall avoid fuel next
        else some ⟨(Name.ofText text).mapError .notName, next⟩
      else some ⟨.error .numeralTooLong, supply⟩

/-- Calls one after the other.  A call that comes to a mishap does not keep the next one from being
made. -/
def tryCalls (fuel : Nat) : (avoids : List (List Text)) → Supply → Option (List Answer)
  | [], _ => some []
  | avoid :: avoids, supply => do
      let answer ← supply.tryCall avoid fuel
      let answers ← answer.after.tryCalls fuel avoids
      pure (answer :: answers)

/-- The first number that is too long to be written. -/
@[irreducible] def unwritable : Nat := Nat.pow 10 Text.numeralAllowance

/-- The numbers from the counter on whose names are not to be avoided. -/
def available (supply : Supply) (avoid : List Text) : Set Nat :=
  {number | supply.counter ≤ number ∧ supply.stem ++ Text.decimal number ∉ avoid}

/-- What a call has to come to: the name with the least number that can be taken, which is what is
drawn then, or a failure if that number is too long to be written, which a drawing shows by the
supply that it leaves. -/
def Answer.Fits (before : Supply) (avoid : List Text) (answer : Answer) : Prop :=
  ∃ number, IsLeast (before.available avoid) number ∧
    (Text.hasNumeral number = true → ∃ name : Name,
      name.text = before.stem ++ Text.decimal number ∧
      answer = ⟨.ok name, { before with counter := number + 1 }⟩ ∧
      before.fresh (Name.among avoid) = (name, answer.after)) ∧
    (Text.hasNumeral number = false →
      answer = ⟨.error .numeralTooLong, { before with counter := unwritable }⟩ ∧
      (before.fresh (Name.among avoid)).2.isOverrun = true)

/-- `AllFit supply avoids answers`: each call comes to what it has to, from what the one before it
has left behind. -/
inductive AllFit : Supply → List (List Text) → List Answer → Prop
  | nil (supply : Supply) : AllFit supply [] []
  | cons {supply : Supply} {avoid : List Text} {avoids : List (List Text)} {answer : Answer}
      {answers : List Answer} (fits : answer.Fits supply avoid)
      (later : AllFit answer.after avoids answers) :
      AllFit supply (avoid :: avoids) (answer :: answers)

def Answer.IsGiven (answer : Answer) : Prop := ∃ name, answer.outcome = .ok name

/-- The names that are given out by calls. -/
def given (answers : List Answer) : List Name :=
  answers.filterMap fun answer => answer.outcome.toOption

variable {supply after : Supply} {avoid : List Text} {avoids : List (List Text)}
variable {answer : Answer} {answers : List Answer} {name : Name} {number fuel : Nat}

theorem hasNumeral_iff_lt : Text.hasNumeral number = true ↔ number < unwritable := by
  unfold Text.hasNumeral unwritable
  rw [decide_eq_true_eq]

/-! ## The least number -/

theorem mem_among_iff :
    supply.candidate number ∈ Name.among avoid ↔ supply.stem ++ Text.decimal number ∈ avoid := by
  unfold Name.among
  rw [List.mem_filterMap]
  constructor
  · rintro ⟨text, isAvoided, isName⟩
    unfold Name.ofText at isName
    split at isName
    · cases isName
    · split at isName
      · have same : text = supply.stem ++ Text.decimal number :=
          congrArg Name.text (Option.some.inj isName)
        rwa [← same]
      · cases isName
  · intro isAvoided
    exact ⟨_, isAvoided, by rw [ofText_candidate]; rfl⟩

theorem isLeast_search (supply : Supply) (avoid : List Text) :
    IsLeast (supply.available avoid)
      (supply.search (Name.among avoid) (Name.among avoid).length supply.counter) := by
  constructor
  · refine ⟨supply.le_search _ _ _, ?_⟩
    rw [← mem_among_iff]
    exact supply.candidate_search_not_mem _ _
  · rintro number ⟨above, outside⟩
    rw [← mem_among_iff] at outside
    by_contra early
    exact outside (supply.mem_of_lt_search _ _ _ _ above (Nat.lt_of_not_le early))

/-! ## One call -/

/-- A call is a drawing that does not forget the numbers passed over when it fails. -/
theorem run_tryFresh_among (supply : Supply) (avoid : List Text) (fuel : Nat) :
    (supply.tryFresh (Name.among avoid) fuel).run =
      (supply.tryCall avoid fuel).map fun answer =>
        answer.outcome.map fun name => (name, answer.after) := by
  induction fuel generalizing supply with
  | zero => rfl
  | succ fuel ih =>
      -- A drawing looks among the texts of names, a call among all texts.
      have same : ((Name.among avoid).map Name.text).contains
          (supply.stem ++ Text.decimal supply.counter) =
          avoid.contains (supply.stem ++ Text.decimal supply.counter) := by
        rw [contains_texts, Bool.eq_iff_iff, decide_eq_true_iff, mem_among_iff,
          List.contains_iff_mem]
      simp only [tryFresh, tryCall, same]
      cases Text.hasNumeral supply.counter with
      | false => rfl
      | true =>
          cases avoid.contains (supply.stem ++ Text.decimal supply.counter) with
          | true => exact ih _
          | false =>
              simp only [ofText_candidate]
              rfl

/-- A call that fails has passed over every number that can be written. -/
theorem after_of_numeralTooLong (within : supply.counter ≤ unwritable)
    (fails : supply.tryCall avoid fuel = some ⟨.error .numeralTooLong, after⟩) :
    after = { supply with counter := unwritable } := by
  induction fuel generalizing supply with
  | zero => cases fails
  | succ fuel ih =>
      unfold tryCall at fails
      split at fails
      · rename_i writable
        rw [hasNumeral_iff_lt] at writable
        simp only at fails
        split at fails
        · let next : Supply := { supply with counter := supply.counter + 1 }
          exact @ih next (Nat.succ_le_of_lt writable) fails
        · rw [ofText_candidate] at fails
          cases fails
      · rename_i tooLong
        rw [hasNumeral_iff_lt] at tooLong
        have last : supply.counter = unwritable := by omega
        cases fails
        rw [← last]

theorem tryCall_eq_of_writable (least : IsLeast (supply.available avoid) number)
    (writable : Text.hasNumeral number = true) (enough : (Name.among avoid).length < fuel) :
    supply.tryCall avoid fuel =
      some ⟨.ok (supply.candidate number), { supply with counter := number + 1 }⟩ := by
  have ends := run_tryFresh_among supply avoid fuel
  rw [tryFresh_eq_of_search _ supply (supply.fresh_not_mem _) enough,
    ← least.unique (isLeast_search supply avoid), if_pos writable] at ends
  obtain ⟨⟨outcome, after⟩, called, same⟩ := Option.map_eq_some_iff.mp ends.symm
  cases outcome with
  | ok name =>
      cases same
      exact called
  | error mishap => cases same

theorem tryCall_eq_of_tooLong (within : supply.counter ≤ unwritable)
    (least : IsLeast (supply.available avoid) number) (tooLong : Text.hasNumeral number = false)
    (enough : (Name.among avoid).length < fuel) :
    supply.tryCall avoid fuel =
      some ⟨.error .numeralTooLong, { supply with counter := unwritable }⟩ := by
  have ends := run_tryFresh_among supply avoid fuel
  rw [tryFresh_eq_of_search _ supply (supply.fresh_not_mem _) enough,
    ← least.unique (isLeast_search supply avoid), if_neg (by simp [tooLong])] at ends
  obtain ⟨⟨outcome, after⟩, called, same⟩ := Option.map_eq_some_iff.mp ends.symm
  cases outcome with
  | ok name => cases same
  | error mishap =>
      cases same
      rw [called, after_of_numeralTooLong within called]

/-- A call ends, and it comes to what it has to. -/
theorem exists_comesTo_tryCall (within : supply.counter ≤ unwritable) (avoid : List Text) :
    ∃ answer, ComesTo (fun fuel => supply.tryCall avoid fuel) (some answer) ∧
      answer.Fits supply avoid := by
  have least := isLeast_search supply avoid
  generalize number_eq : supply.search (Name.among avoid) (Name.among avoid).length supply.counter =
    number at least
  cases has : Text.hasNumeral number with
  | true =>
      have comes : ComesTo (fun fuel => supply.tryCall avoid fuel)
          (some ⟨.ok (supply.candidate number), { supply with counter := number + 1 }⟩) :=
        ⟨(Name.among avoid).length + 1, fun fuel enough => tryCall_eq_of_writable least has enough⟩
      refine ⟨_, comes, number, least, fun _ => ⟨_, rfl, rfl, ?_⟩, by simp [has]⟩
      simp only [fresh, number_eq]
  | false =>
      have comes : ComesTo (fun fuel => supply.tryCall avoid fuel)
          (some ⟨.error .numeralTooLong, { supply with counter := unwritable }⟩) :=
        ⟨(Name.among avoid).length + 1,
          fun fuel enough => tryCall_eq_of_tooLong within least has enough⟩
      refine ⟨_, comes, number, least, by simp [has], fun _ => ⟨rfl, ?_⟩⟩
      simp only [isOverrun, fresh, number_eq, Nat.add_sub_cancel, has, Bool.not_false]

/-! ## Many calls -/

/-- A call comes to a name whose number could be written, or it leaves no such number behind. -/
theorem Answer.Fits.cases (fits : answer.Fits supply avoid) :
    (∃ number name, supply.counter ≤ number ∧ number < unwritable ∧
      answer = ⟨.ok name, { supply with counter := number + 1 }⟩ ∧
      supply.fresh (Name.among avoid) = (name, answer.after)) ∨
    answer = ⟨.error .numeralTooLong, { supply with counter := unwritable }⟩ := by
  obtain ⟨number, least, written, tooLong⟩ := fits
  cases has : Text.hasNumeral number with
  | true =>
      obtain ⟨name, -, same, drawn⟩ := written has
      exact .inl ⟨number, name, least.1.1, hasNumeral_iff_lt.mp has, same, drawn⟩
  | false => exact .inr (tooLong has).1

theorem Answer.Fits.stem_eq (fits : answer.Fits supply avoid) :
    answer.after.stem = supply.stem := by
  rcases fits.cases with ⟨number, name, -, -, rfl, -⟩ | rfl <;> rfl

theorem Answer.Fits.within (fits : answer.Fits supply avoid) :
    answer.after.counter ≤ unwritable := by
  rcases fits.cases with ⟨number, name, -, below, rfl, -⟩ | rfl
  · exact below
  · exact Nat.le_refl _

theorem Answer.Fits.counter_le (fits : answer.Fits supply avoid)
    (within : supply.counter ≤ unwritable) : supply.counter ≤ answer.after.counter := by
  rcases fits.cases with ⟨number, name, above, -, rfl, -⟩ | rfl
  · exact Nat.le_succ_of_le above
  · exact within

/-- The counter goes up as long as it is at a number that can be written. -/
theorem Answer.Fits.counter_lt (fits : answer.Fits supply avoid)
    (writable : supply.counter < unwritable) : supply.counter < answer.after.counter := by
  rcases fits.cases with ⟨number, name, above, -, rfl, -⟩ | rfl
  · exact Nat.lt_succ_of_le above
  · exact writable

theorem Answer.Fits.between (fits : answer.Fits supply avoid) (isGiven : answer.outcome = .ok name) :
    supply.Between answer.after name ∧ supply.counter < unwritable := by
  rcases fits.cases with ⟨number, other, above, below, rfl, drawn⟩ | rfl
  · cases isGiven
    have between := supply.between_fresh (Name.among avoid)
    rw [drawn] at between
    exact ⟨between, Nat.lt_of_le_of_lt above below⟩
  · cases isGiven

theorem Answer.Fits.isGiven (fits : answer.Fits supply avoid)
    (writable : answer.after.counter < unwritable) : answer.IsGiven := by
  rcases fits.cases with ⟨number, name, -, -, rfl, -⟩ | rfl
  · exact ⟨name, rfl⟩
  · exact absurd writable (Nat.lt_irrefl _)

theorem AllFit.counter_le (allFit : AllFit supply avoids answers)
    (within : supply.counter ≤ unwritable) :
    ∀ answer ∈ answers, supply.counter ≤ answer.after.counter := by
  induction allFit with
  | nil => simp
  | cons fits later ih =>
      have first := fits.counter_le within
      intro answer isAnswer
      rcases List.mem_cons.mp isAnswer with rfl | isLater
      · exact first
      · exact Nat.le_trans first (ih fits.within answer isLater)

theorem AllFit.between (allFit : AllFit supply avoids answers)
    (within : supply.counter ≤ unwritable) :
    ∀ answer ∈ answers, ∀ name, answer.outcome = .ok name →
      supply.Between answer.after name ∧ supply.counter < unwritable := by
  induction allFit with
  | nil => simp
  | cons fits later ih =>
      intro answer isAnswer name isGiven
      rcases List.mem_cons.mp isAnswer with rfl | isLater
      · exact fits.between isGiven
      · have first := fits.counter_le within
        obtain ⟨between, writable⟩ := ih fits.within answer isLater name isGiven
        exact ⟨between.of_ge fits.stem_eq first, Nat.lt_of_le_of_lt first writable⟩

/-- Nothing is given out once a call has failed, and the counter goes up with every name. -/
theorem AllFit.pairwise (allFit : AllFit supply avoids answers) :
    answers.Pairwise fun earlier later =>
      later.IsGiven → earlier.IsGiven ∧ earlier.after.counter < later.after.counter := by
  induction allFit with
  | nil => exact .nil
  | cons fits later ih =>
      refine List.pairwise_cons.mpr ⟨?_, ih⟩
      rintro other isLater ⟨name, isGiven⟩
      -- The later name has a number at or above the counter here, so that can still be written.
      obtain ⟨⟨number, above, below, -⟩, writable⟩ :=
        later.between fits.within other isLater name isGiven
      exact ⟨fits.isGiven writable, by omega⟩

theorem AllFit.nodup_given (allFit : AllFit supply avoids answers) : (given answers).Nodup := by
  induction allFit with
  | nil => exact List.nodup_nil
  | @cons supply avoid avoids answer answers fits later ih =>
      cases isGiven : answer.outcome with
      | error mishap => simpa [given, isGiven, Except.toOption] using ih
      | ok name =>
          have whole : given (answer :: answers) = name :: given answers := by
            simp [given, isGiven, Except.toOption]
          rw [whole]
          refine List.nodup_cons.mpr ⟨fun again => ?_, ih⟩
          obtain ⟨other, isLater, same⟩ := List.mem_filterMap.mp again
          have isGivenAgain : other.outcome = .ok name := by
            cases outcome : other.outcome with
            | ok _ => simpa [outcome, Except.toOption] using same
            | error _ => simp [outcome, Except.toOption] at same
          have before := (fits.between isGiven).1
          have after := (later.between fits.within other isLater name isGivenAgain).1
          exact before.not_between fits.stem_eq after

theorem exists_comesTo_tryCalls (within : supply.counter ≤ unwritable)
    (avoids : List (List Text)) :
    ∃ answers, ComesTo (fun fuel => supply.tryCalls fuel avoids) (some answers) ∧
      supply.AllFit avoids answers := by
  induction avoids generalizing supply with
  | nil => exact ⟨[], .const _, .nil supply⟩
  | cons avoid avoids ih =>
      obtain ⟨answer, ⟨enough, comes⟩, fits⟩ := exists_comesTo_tryCall within avoid
      obtain ⟨answers, ⟨enoughLater, comesLater⟩, later⟩ := ih fits.within
      refine ⟨answer :: answers, ⟨max enough enoughLater, fun fuel more => ?_⟩, .cons fits later⟩
      have here := comes fuel (by omega)
      have there := comesLater fuel (by omega)
      simp only at here there
      simp [tryCalls, here, there]

theorem eq_of_start {stem : Text} {first : Int} (accepted : start stem first = .ok supply) :
    supply.stem = stem ∧ (supply.counter : Int) = first := by
  cases first with
  | ofNat counter =>
      unfold start at accepted
      simp only at accepted
      split at accepted
      · cases accepted
        exact ⟨rfl, rfl⟩
      · cases accepted
  | negSucc below => cases accepted

/-- A supply that starts at a number that can be written is called any number of times, with any
texts to be avoided.  Every call ends.  It gives out the stem with the least number from the counter
on for which that is none of the texts, and leaves the counter behind that number; only if the number
is too long to be written it fails, and all calls after it fail as well.  So the counter goes up with
every name, and no name is given out twice. -/
theorem calls_never_repeat {stem : Text} {first : Int} {supply : Supply}
    (accepted : start stem first = .ok supply) (written : Text.hasNumeral supply.counter = true)
    (avoids : List (List Text)) :
    (supply.stem = stem ∧ (supply.counter : Int) = first) ∧
    ∃ answers, ComesTo (fun fuel => supply.tryCalls fuel avoids) (some answers) ∧
      supply.AllFit avoids answers ∧
      (∀ answer ∈ answers, supply.counter < answer.after.counter) ∧
      (answers.Pairwise fun earlier later =>
        later.IsGiven → earlier.IsGiven ∧ earlier.after.counter < later.after.counter) ∧
      (given answers).Nodup := by
  have writable := hasNumeral_iff_lt.mp written
  obtain ⟨answers, comes, allFit⟩ := exists_comesTo_tryCalls (Nat.le_of_lt writable) avoids
  refine ⟨eq_of_start accepted, answers, comes, allFit, ?_, allFit.pairwise, allFit.nodup_given⟩
  cases allFit with
  | nil => simp
  | cons fits later =>
      have further := fits.counter_lt writable
      intro answer isAnswer
      rcases List.mem_cons.mp isAnswer with rfl | isLater
      · exact further
      · exact Nat.lt_of_lt_of_le further (later.counter_le fits.within answer isLater)

/-- A stem that ends in a digit. -/
def numberedStem : Supply := ⟨"a1", 0, rfl⟩

/-- The first two names are to be avoided, then the one that would come next, and a text that is no
name. -/
theorem calls_never_repeat_numbered :
    start numberedStem.stem 0 = .ok numberedStem ∧ Text.hasNumeral numberedStem.counter = true ∧
    ∃ answers, ComesTo (fun fuel => numberedStem.tryCalls fuel [["a11", "a10"], ["a13", "λ"], []])
        (some answers) ∧
      numberedStem.AllFit [["a11", "a10"], ["a13", "λ"], []] answers ∧ (given answers).Nodup := by
  have accepted : start numberedStem.stem 0 = .ok numberedStem := start_ofNat numberedStem
  have written : Text.hasNumeral numberedStem.counter = true :=
    Text.hasNumeral_of_le (Nat.zero_le _) hasNumeral_last
  obtain ⟨-, answers, comes, allFit, -, -, distinct⟩ :=
    calls_never_repeat accepted written [["a11", "a10"], ["a13", "λ"], []]
  exact ⟨accepted, written, answers, comes, allFit, distinct⟩

/-! ## Numbers that are too long -/

/-- The last name that can be written is to be avoided. -/
theorem not_always_given :
    ¬ ∀ (stem : Text) (first : Int) (supply : Supply), start stem first = .ok supply →
      Text.hasNumeral supply.counter = true → ∀ avoid : List Text,
        ∃ name after, ComesTo (fun fuel => supply.tryCall avoid fuel) (some ⟨.ok name, after⟩) := by
  intro always
  let avoid : List Text := [last.stem ++ Text.decimal last.counter]
  obtain ⟨name, after, comes⟩ := always _ _ _ (start_ofNat last) hasNumeral_last avoid
  have writable := hasNumeral_iff_lt.mp hasNumeral_last
  obtain ⟨answer, ends, number, ⟨⟨above, outside⟩, -⟩, -, tooLong⟩ :=
    exists_comesTo_tryCall (Nat.le_of_lt writable) avoid
  have notLast : number ≠ last.counter := by
    intro same
    rw [same] at outside
    exact outside (List.mem_singleton_self _)
  have beyond : Text.hasNumeral number = false := by
    rw [← Bool.not_eq_true, hasNumeral_iff_le counter_last]
    omega
  rw [(tooLong beyond).1] at ends
  have same : Except.ok name = Except.error Mishap.numeralTooLong :=
    congrArg Answer.outcome (Option.some.inj (comes.unique ends))
  cases same

end Supply

end BetaNormal

import BetaNormal.Proofs.Reduction.Bounds
import BetaNormal.Proofs.Reduction.Fixed

/-!
# Limits only cut a run short

A reduction that succeeds stays the same when its limits are raised, and the contractions of one
that fails are the first ones of every reduction under higher limits.  A reduction that runs out of
contractions has made as many as it was allowed, neither more nor fewer.
-/

namespace BetaNormal

/-- Whether some limits are nowhere higher than others.  Without a bound a limit is higher than
with any bound. -/
structure Limits.AtMost (lower higher : Limits) : Prop where
  steps : ∀ most, higher.steps = some most → ∃ bound, lower.steps = some bound ∧ bound ≤ most
  depth : ∀ most, higher.depth = some most → ∃ bound, lower.depth = some bound ∧ bound ≤ most

theorem Limits.AtMost.within {lower higher : Limits} (atMost : lower.AtMost higher) :
    lower.Within higher where
  steps := by
    intro made left
    cases bounded : higher.steps with
    | none => simp [stepsUsedUp, bounded]
    | some most =>
        obtain ⟨bound, lowerBounded, le⟩ := atMost.steps most bounded
        simp only [stepsUsedUp, bounded, lowerBounded, decide_eq_false_iff_not] at left ⊢
        omega
  depth := by
    intro depth allowed
    cases bounded : higher.depth with
    | none => simp [tooDeep, bounded]
    | some most =>
        obtain ⟨bound, lowerBounded, le⟩ := atMost.depth most bounded
        simp only [tooDeep, bounded, lowerBounded, decide_eq_false_iff_not] at allowed ⊢
        omega

/-- A report of an interruption counts its contractions. -/
theorem Interruption.kind_report (interruption : Interruption) (term : Term) (limits : Limits) :
    (interruption.report term limits).kind = .unfinished interruption.steps.length := by
  obtain ⟨stop, steps⟩ := interruption
  cases stop <;> rfl

namespace Term

variable {limits lower higher : Limits} {levels : Nat} {avoid : List Name} {rounds depth : Nat}
variable {term : Term} {progress after : Progress} {outcome : Except Stop Term} {bound : Int}

theorem succ_le_of_left {made : Nat} (bounded : limits.steps = some bound)
    (left : limits.stepsUsedUp made = false) : ((made + 1 : Nat) : Int) ≤ max bound 0 := by
  simp only [Limits.stepsUsedUp, bounded, decide_eq_false_iff_not] at left
  omega

/-- A contraction is only made where the earlier ones are fewer than allowed. -/
theorem Reduces.size_le_bound
    (reduces : Reduces limits levels avoid rounds depth term progress outcome after)
    (bounded : limits.steps = some bound) (start : (progress.trace.size : Int) ≤ max bound 0) :
    (after.trace.size : Int) ≤ max bound 0 := by
  induction reduces with
  | tooDeep _ => exact start
  | noLevel _ _ => exact start
  | var _ _ => exact start
  | abs _ _ _ ih => exact ih start
  | spent _ _ _ _ _ => exact start
  | noRound _ _ _ _ left =>
      rw [contracted, Array.size_push]
      exact succ_le_of_left bounded left
  | contract _ _ _ _ left _ ih =>
      apply ih
      rw [contracted, Array.size_push]
      exact succ_le_of_left bounded left
  | functionStop _ _ _ ih => exact ih start
  | functionAbs _ _ _ _ below_ih redex_ih => exact redex_ih (below_ih start)
  | argument _ _ _ _ _ below_ih beside_ih => exact beside_ih (below_ih start)

/-- Whoever runs out of contractions has made all that were allowed. -/
theorem Reduces.exists_size_eq_bound
    (reduces : Reduces limits levels avoid rounds depth term progress outcome after)
    (stopped : outcome = .error .steps) (start : progress.trace.size = 0) :
    ∃ bound, limits.steps = some bound ∧ (after.trace.size : Int) = max bound 0 := by
  have due : limits.stepsUsedUp after.trace.size = true := reduces.due stopped
  cases bounded : limits.steps with
  | none => simp [Limits.stepsUsedUp, bounded] at due
  | some bound =>
      simp only [Limits.stepsUsedUp, bounded, decide_eq_true_eq] at due
      have most := reduces.size_le_bound bounded (by omega)
      exact ⟨bound, rfl, by omega⟩

/-- Under higher limits, and with no less room in the machine, a reduction that succeeded gives the
same result by the same contractions and leaves the same supply.  One that failed has reported
as many contractions as it has made, and any reduction under higher limits begins with these.  If it
ran out of contractions, then it has made all that were allowed. -/
theorem normalize_of_atMost (atMost : lower.AtMost higher) {capacity room : Capacity}
    (moreLevels : capacity.levels ≤ room.levels) (moreRounds : capacity.rounds ≤ room.rounds)
    (term : Term) (supply : Supply) :
    (∀ reduction left, term.normalize capacity lower supply = (.ok reduction, left) →
      term.normalize room higher supply = (.ok reduction, left)) ∧
    ∀ interruption, (term.normalize capacity lower supply).1 = .error interruption →
      (interruption.report term lower).kind = .unfinished interruption.steps.length ∧
      interruption.steps <+: trace room higher term supply ∧
      (interruption.stop = .steps → ∃ bound, lower.steps = some bound ∧
        (interruption.steps.length : Int) = max bound 0) := by
  obtain ⟨outcome, after, reduces⟩ :=
    exists_reduces lower capacity.levels term.names capacity.rounds 0 term ⟨#[], supply⟩
  have computed := reduceAt_of_reduces reduces
  constructor
  · intro reduction left success
    cases outcome with
    | error stop => simp [normalize, computed] at success
    | ok normal =>
        have raised := reduces.widen_ok atMost.within moreLevels moreRounds
        rw [← success, normalize, normalize, computed, reduceAt_of_reduces raised]
  · intro interruption failure
    cases outcome with
    | ok normal => simp [normalize, computed] at failure
    | error stop =>
        simp only [normalize, computed, Except.error.injEq] at failure
        subst failure
        refine ⟨Interruption.kind_report _ _ _, ?_, fun ranOut => ?_⟩
        · obtain ⟨outcome', after', raised, longer, -⟩ :=
            reduces.exists_wider atMost.within moreLevels moreRounds
          obtain ⟨_, _, same, made, -⟩ := normalize_spec room higher term supply
          rw [made, (same.unique raised).2]
          exact longer
        · rw [Array.length_toList]
          exact reduces.exists_size_eq_bound (congrArg Except.error ranOut) rfl

/-- `((λx.λy.(x y) y) z)`, which takes two contractions and a new name for the first. -/
def twoContractions : Term := app capturing (var .z)

/-- The whole reduction of `twoContractions`. -/
def bothContractions : Reduction where
  term := app (var .y) (var .z)
  steps :=
    [⟨abs .x (abs .y (app (var .x) (var .y))), var .y, captureAvoided⟩,
      ⟨captureAvoided, var .z, app (var .y) (var .z)⟩]

/-- One contraction is too few, two are enough, and then no limit at all makes no difference. -/
theorem normalize_of_atMost_twoContractions :
    Limits.AtMost ⟨some 1, some 3⟩ ⟨some 2, none⟩ ∧ Limits.AtMost ⟨some 2, none⟩ ⟨none, none⟩ ∧
    (twoContractions.normalize .standard ⟨some 1, some 3⟩ .standard).1 =
      .error ⟨.steps, bothContractions.steps.take 1⟩ ∧
    bothContractions.steps.take 1 <+:
      trace .standard ⟨some 2, none⟩ twoContractions .standard ∧
    twoContractions.normalize .standard ⟨some 2, none⟩ .standard =
      (.ok bothContractions, { Supply.standard with counter := 1 }) ∧
    twoContractions.normalize .standard ⟨none, none⟩ .standard =
      (.ok bothContractions, { Supply.standard with counter := 1 }) := by
  have first : Limits.AtMost ⟨some 1, some 3⟩ ⟨some 2, none⟩ :=
    ⟨by simp, by simp⟩
  have second : Limits.AtMost ⟨some 2, none⟩ ⟨none, none⟩ := ⟨by simp, by simp⟩
  have tooFew : (twoContractions.normalize .standard ⟨some 1, some 3⟩ .standard).1 =
      .error ⟨.steps, bothContractions.steps.take 1⟩ := by decide +kernel
  have enough : twoContractions.normalize .standard ⟨some 2, none⟩ .standard =
      (.ok bothContractions, { Supply.standard with counter := 1 }) := by decide +kernel
  have begun := (normalize_of_atMost first (Nat.le_refl Capacity.standard.levels)
    (Nat.le_refl Capacity.standard.rounds) twoContractions .standard).2 _ tooFew
  have same := (normalize_of_atMost second (Nat.le_refl Capacity.standard.levels)
    (Nat.le_refl Capacity.standard.rounds) twoContractions .standard).1 _ _ enough
  exact ⟨first, second, tooFew, begun.2.1, enough, same⟩

end Term

end BetaNormal

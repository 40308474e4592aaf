import BetaNormal.Proofs.Reduction.Fixed
import BetaNormal.Proofs.Reduction.Hygiene
import BetaNormal.Reduction.Setting

/-!
# Reductions under settings

Settings either rule out every reduction, or they reduce every term as some bounds do.  So what is
known of reductions under bounds carries over.
-/

namespace BetaNormal

namespace Breakdown

variable {breakdown : Interruption → Breakdown} {outcome : Except Interruption Reduction × Supply}

theorem ofOutcome_eq_ok {reduction : Reduction} :
    (ofOutcome breakdown outcome).1 = .ok reduction ↔ outcome.1 = .ok reduction := by
  obtain ⟨result, supply⟩ := outcome
  cases result <;> simp [ofOutcome]

theorem ofOutcome_supply : (ofOutcome breakdown outcome).2 = outcome.2 := by
  obtain ⟨result, supply⟩ := outcome
  cases result <;> rfl

end Breakdown

namespace Term

variable {term : Term} {capacity : Capacity} {settings : Settings} {supply : Supply}
variable {reduction : Reduction}

/-- `Follow capacity settings limits breakdown`: reductions under settings are reductions under
limits, with their interruptions reported in a certain way. -/
def Follow (capacity : Capacity) (settings : Settings) (limits : Limits)
    (breakdown : Interruption → Breakdown) : Prop :=
  ∀ term supply, normalizeUnder capacity settings term supply =
    Breakdown.ofOutcome breakdown (normalize capacity limits term supply)

theorem normalizeUnder_cases (capacity : Capacity) (settings : Settings) :
    (∃ kind, ∀ term supply,
      normalizeUnder capacity settings term supply = (.error (.mismatch ">" kind), supply)) ∨
    ∃ limits breakdown, Follow capacity settings limits breakdown := by
  obtain ⟨steps, depth⟩ := settings
  cases depth with
  | incomparable kind => exact .inl ⟨kind, fun _ _ => rfl⟩
  | unlimited => cases steps <;> exact .inr ⟨_, _, fun _ _ => rfl⟩
  | number bound => cases steps <;> exact .inr ⟨_, _, fun _ _ => rfl⟩

theorem exists_follow_of_normalizeUnder
    (success : (term.normalizeUnder capacity settings supply).1 = .ok reduction) :
    ∃ limits breakdown, Follow capacity settings limits breakdown ∧
      (term.normalize capacity limits supply).1 = .ok reduction := by
  rcases normalizeUnder_cases capacity settings with ⟨kind, never⟩ | ⟨limits, breakdown, follow⟩
  · rw [never] at success
    cases success
  · rw [follow, Breakdown.ofOutcome_eq_ok] at success
    exact ⟨limits, breakdown, follow, success⟩

/-- A normal form reduces to itself under the settings under which it was found. -/
theorem normalizeUnder_again
    (success : (term.normalizeUnder capacity settings supply).1 = .ok reduction)
    (other : Supply) :
    reduction.term.normalizeUnder capacity settings other = (.ok ⟨reduction.term, []⟩, other) := by
  obtain ⟨limits, breakdown, follow, normalized⟩ := exists_follow_of_normalizeUnder success
  obtain ⟨isNormal, admits⟩ := isNormal_of_normalize normalized
  rw [follow, normalize_of_normal isNormal admits]
  rfl

/-- The names of a normal form are names of the term or were made by the supply. -/
theorem names_of_normalizeUnder
    (success : (term.normalizeUnder capacity settings supply).1 = .ok reduction) :
    ∀ name ∈ reduction.term.names,
      name ∈ term.names ∨ ∃ number, name = supply.candidate number := by
  obtain ⟨limits, breakdown, follow, normalized⟩ := exists_follow_of_normalizeUnder success
  obtain ⟨whole, reached, done⟩ := exists_reached_normalize capacity limits term supply
  intro name occurs
  rw [done reduction normalized] at occurs
  refine (reached.names name occurs).imp_right fun between => ?_
  obtain ⟨number, -, -, isNumber⟩ := between
  exact ⟨number, isNumber⟩

theorem stem_normalizeUnder (capacity : Capacity) (settings : Settings) (term : Term)
    (supply : Supply) : (term.normalizeUnder capacity settings supply).2.stem = supply.stem := by
  rcases normalizeUnder_cases capacity settings with ⟨kind, never⟩ | ⟨limits, breakdown, follow⟩
  · rw [never]
  · obtain ⟨whole, reached, -⟩ := exists_reached_normalize capacity limits term supply
    rw [follow, Breakdown.ofOutcome_supply]
    exact reached.stem

end Term

end BetaNormal

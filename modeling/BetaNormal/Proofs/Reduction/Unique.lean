import BetaNormal.Proofs.Reduction.Fixed
import BetaNormal.Proofs.Reduction.Leftmost

/-!
# Normal forms are unique

The redexes of a term may be contracted anywhere and in any order, and what is drawn for the
binders on the way may differ from one contraction to the next.  If two such ways end in terms
without a redex, these are the same up to the names of their binders.

Leftmost contractions to a normal form stay leftmost contractions to that normal form, and become
no more of them, whatever else is contracted in between.  At a term without a redex none is left.
-/

namespace BetaNormal

namespace Nameless

variable {before after normal first second : Nameless} {count : Nat}

theorem LeftmostIn.eq_of_normal (steps : LeftmostIn count before after)
    (isNormal : before.isNormal = true) : after = before := by
  cases steps with
  | zero => rfl
  | succ step _ =>
      rw [step.isNormal_eq] at isNormal
      contradiction

theorem LeftmostIn.exists_of_steps (leftmost : LeftmostIn count before normal)
    (isNormal : normal.isNormal = true) (steps : Relation.ReflTransGen Step before after) :
    ∃ fewer, LeftmostIn fewer after normal := by
  induction steps with
  | refl => exact ⟨count, leftmost⟩
  | tail _ step ih =>
      obtain ⟨fewer, leftmost⟩ := ih
      obtain ⟨evenFewer, -, leftmost⟩ := leftmost.exists_of_parallel isNormal step.parallel
      exact ⟨evenFewer, leftmost⟩

theorem eq_of_steps_of_normal (steps : Relation.ReflTransGen Step before first)
    (otherSteps : Relation.ReflTransGen Step before second)
    (firstNormal : first.isNormal = true) (secondNormal : second.isNormal = true) :
    first = second := by
  obtain ⟨count, normal, leftmost, isNormal⟩ := exists_leftmostIn_of_steps steps firstNormal
  obtain ⟨_, toFirst⟩ := leftmost.exists_of_steps isNormal steps
  obtain ⟨_, toSecond⟩ := leftmost.exists_of_steps isNormal otherSteps
  exact (toFirst.eq_of_normal firstNormal).symm.trans (toSecond.eq_of_normal secondNormal)

end Nameless

namespace Term

variable {term other : Term} {capacity : Capacity} {limits : Limits} {supply : Supply}
variable {reduction : Reduction}

theorem reflTransGen_step_of_contracts (reaches : Relation.ReflTransGen Contracts term other) :
    Relation.ReflTransGen Nameless.Step term.nameless other.nameless :=
  reaches.lift nameless fun _ _ contracts => contracts.step []

/-- A reduction that succeeds has found the normal form of its term: whatever term without a redex
can be reached from there by contractions, at any places, in any order and with any supplies, is
the same up to the names of binders. -/
theorem normal_form_unique (success : (term.normalize capacity limits supply).1 = .ok reduction)
    (reaches : Relation.ReflTransGen Contracts term other)
    (noRedex : ∀ path subterm, other.subterm? path = some subterm → subterm.isRedex = false) :
    reduction.term.alphaEquals other = true := by
  obtain ⟨whole, runs, done⟩ := normalize_runs capacity limits term supply
  obtain ⟨rfl, isNormal⟩ := done reduction success
  have otherNormal : other.isNormal = true := isNormal_of_forall_subterm noRedex
  rw [alphaEquals_iff_nameless]
  refine Nameless.eq_of_steps_of_normal runs.reflTransGen
    (reflTransGen_step_of_contracts reaches) ?_ ?_
  · exact (isNormal_namelessBelow [] _).trans isNormal
  · exact (isNormal_namelessBelow [] other).trans otherNormal

/-- `(λx.λy.(x y) (λz.z y))` -/
def doubleRedex : Term :=
  app (abs .x (abs .y (app (var .x) (var .y)))) (app (abs .z (var .z)) (var .y))

/-- What the reduction of `doubleRedex` comes to: it contracts the whole term first and draws `a0`. -/
def outerFirst : Reduction where
  term := captureAvoided
  steps :=
    [⟨abs .x (abs .y (app (var .x) (var .y))), app (abs .z (var .z)) (var .y),
      abs (Supply.standard.candidate 0)
        (app (app (abs .z (var .z)) (var .y)) (var (Supply.standard.candidate 0)))⟩,
    ⟨abs .z (var .z), var .y, var .y⟩]

/-- A supply that gives out `b7` next. -/
def otherSupply : Supply := ⟨['b'], 7, rfl⟩

/-- `λb7.(y b7)` -/
def argumentFirst : Term :=
  abs (otherSupply.candidate 7) (app (var .y) (var (otherSupply.candidate 7)))

theorem doubleRedex_reaches : Relation.ReflTransGen Contracts doubleRedex argumentFirst := by
  have inner : Contracts doubleRedex capturing :=
    ⟨[.argument], .z, var .z, var .y, [], .standard, rfl, by decide +kernel⟩
  have outer : Contracts capturing argumentFirst :=
    ⟨[], .x, abs .y (app (var .x) (var .y)), var .y, [], otherSupply, rfl, by decide +kernel⟩
  exact .head inner (.single outer)

/-- The argument can also be contracted first, and the binder then be renamed to `b7`. -/
theorem normal_form_unique_argument_first :
    (doubleRedex.normalize .standard .standard .standard).1 = .ok outerFirst ∧
    Relation.ReflTransGen Contracts doubleRedex argumentFirst ∧
    argumentFirst.isNormal = true ∧
    outerFirst.term.alphaEquals argumentFirst = true := by
  have success : (doubleRedex.normalize .standard .standard .standard).1 = .ok outerFirst := by
    decide +kernel
  have isNormal : argumentFirst.isNormal = true := by decide +kernel
  refine ⟨success, doubleRedex_reaches, isNormal,
    normal_form_unique success doubleRedex_reaches ?_⟩
  exact fun path subterm stands => isRedex_of_normal (isNormal_subterm isNormal stands)

end Term

end BetaNormal

import BetaNormal.Proofs.Name
import BetaNormal.Proofs.Reduction.Run

/-!
# What a reduction leaves behind

The result of a reduction has no redex, and each part of it has been reduced at the very depth at
which it lies there, though the reduction may have started over many times on the way.  So the
result keeps to the bound on the depth, and to reduce it once more, under the same bound, is to
walk through it and give it back.
-/

namespace BetaNormal.Term

variable {limits : Limits} {levels : Nat} {avoid : List Name} {rounds depth : Nat}
variable {term normal : Term} {progress after : Progress} {outcome : Except Stop Term}

/-! ## Depth -/

theorem Admits.of_le {shallower : Nat} (admits : Admits limits levels depth)
    (le : shallower ≤ depth) : Admits limits levels shallower := by
  obtain ⟨allowed, within⟩ := admits
  refine ⟨?_, Nat.le_trans le within⟩
  cases bounded : limits.depth with
  | none => simp [Limits.tooDeep, bounded]
  | some bound =>
      simp only [Limits.tooDeep, bounded, decide_eq_false_iff_not] at allowed ⊢
      omega

/-- A contractum is reduced at the depth of its redex, so what counts is where the reduction of it
ends and not where it came from. -/
theorem Reduces.admits_height
    (reduces : Reduces limits levels avoid rounds depth term progress outcome after)
    (done : outcome = .ok normal) : Admits limits levels (depth + normal.height) := by
  induction reduces generalizing normal with
  | tooDeep _ => cases done
  | noLevel _ _ => cases done
  | var name admits =>
      cases done
      exact admits
  | @abs _ depth _ _ outcome _ binder _ _ ih =>
      cases outcome with
      | error stop => cases done
      | ok body =>
          cases done
          have below := ih rfl
          rwa [show depth + 1 + body.height = depth + (body.height + 1) by omega] at below
  | spent _ _ _ _ _ => cases done
  | noRound _ _ _ _ _ => cases done
  | contract _ _ _ _ _ _ ih => exact ih done
  | functionStop _ _ _ _ => cases done
  | functionAbs _ _ _ _ _ redex_ih => exact redex_ih done
  | @argument _ depth _ _ _ function _ outcome _ _ _ _ _ _ below_ih beside_ih =>
      cases outcome with
      | error stop => cases done
      | ok argument =>
          cases done
          have below := below_ih rfl
          have beside := beside_ih rfl
          -- the deeper one of the two parts decides
          rcases Nat.le_total function.height argument.height with less | less
          · refine beside.of_le ?_
            simp only [height, Nat.max_eq_right less]
            omega
          · refine below.of_le ?_
            simp only [height, Nat.max_eq_left less]
            omega

/-- A term without a redex is walked through and given back, if only the depth allows it. -/
theorem reduces_of_normal (isNormal : term.isNormal = true)
    (admits : Admits limits levels (depth + term.height)) :
    Reduces limits levels avoid rounds depth term progress (.ok term) progress := by
  have here : Admits limits levels depth := admits.of_le (Nat.le_add_right _ _)
  induction term generalizing depth with
  | var name => exact .var name here
  | abs binder body ih =>
      have below : Admits limits levels (depth + 1 + body.height) :=
        admits.of_le (by simp only [height]; omega)
      exact .abs binder here (ih isNormal below (below.of_le (Nat.le_add_right _ _)))
  | app function argument function_ih argument_ih =>
      simp only [Term.isNormal, Bool.and_eq_true, Bool.not_eq_true'] at isNormal
      obtain ⟨⟨neutral, functionNormal⟩, argumentNormal⟩ := isNormal
      have below : Admits limits levels (depth + 1 + function.height) :=
        admits.of_le (by simp only [height]; omega)
      have beside : Admits limits levels (depth + 1 + argument.height) :=
        admits.of_le (by simp only [height]; omega)
      have next : Admits limits levels (depth + 1) := below.of_le (Nat.le_add_right _ _)
      exact .argument here neutral (function_ih functionNormal below next) neutral
        (argument_ih argumentNormal beside next)

/-! ## The whole reduction -/

theorem normalize_of_normal {capacity : Capacity} (isNormal : term.isNormal = true)
    (admits : Admits limits capacity.levels term.height) (supply : Supply) :
    term.normalize capacity limits supply = (.ok ⟨term, []⟩, supply) := by
  have itself : Reduces limits capacity.levels term.names capacity.rounds 0 term ⟨#[], supply⟩
      (.ok term) ⟨#[], supply⟩ :=
    reduces_of_normal isNormal (by rwa [Nat.zero_add])
  rw [normalize, reduceAt_of_reduces itself]

theorem isNormal_of_normalize {capacity : Capacity} {supply : Supply} {reduction : Reduction}
    (success : (term.normalize capacity limits supply).1 = .ok reduction) :
    reduction.term.isNormal = true ∧ Admits limits capacity.levels reduction.term.height := by
  obtain ⟨outcome, after, reduces, -, -, result⟩ :=
    normalize_spec capacity limits term supply
  have done := ((result reduction).mp success).1
  obtain ⟨_, _, finished⟩ := normalize_runs capacity limits term supply
  have admits : Admits limits capacity.levels reduction.term.height := by
    simpa using reduces.admits_height done
  exact ⟨(finished reduction success).2, admits⟩

/-- What a reduction results in has no redex, lies within the bound on the depth, and reduces to
itself without a contraction under the same bound on the depth, however many contractions are
allowed.  No name is drawn for that. -/
theorem normalize_result {capacity : Capacity} {supply : Supply} {reduction : Reduction}
    (success : (term.normalize capacity limits supply).1 = .ok reduction) :
    (∀ path subterm, reduction.term.subterm? path = some subterm → subterm.isRedex = false) ∧
    (∀ bound, limits.depth = some bound → (reduction.term.height : Int) ≤ bound) ∧
    ∀ (steps : Option Int) (supply' : Supply),
      reduction.term.normalize capacity ⟨steps, limits.depth⟩ supply' =
        (.ok ⟨reduction.term, []⟩, supply') := by
  obtain ⟨isNormal, admits⟩ := isNormal_of_normalize success
  refine ⟨fun path subterm stands => ?_, fun bound bounded => ?_, fun steps supply' => ?_⟩
  · exact isRedex_of_normal (isNormal_subterm isNormal stands)
  · have allowed := admits.1
    simpa [Limits.tooDeep, bounded] using allowed
  · have again : Admits ⟨steps, limits.depth⟩ capacity.levels reduction.term.height := admits
    exact normalize_of_normal isNormal again supply'

/-- `(λx.λy.(x y) y)`, whose inner binder has to be renamed. -/
def capturing : Term :=
  app (abs .x (abs .y (app (var .x) (var .y)))) (var .y)

/-- `λa0.(y a0)` -/
def captureAvoided : Term :=
  abs (Supply.standard.candidate 0) (app (var .y) (var (Supply.standard.candidate 0)))

/-- Both bounds are as narrow as they can be, and none of the contractions is left for the second
reduction. -/
theorem normalize_result_capturing :
    (capturing.normalize .standard ⟨some 1, some 2⟩ .standard).1 =
      .ok ⟨captureAvoided, [⟨abs .x (abs .y (app (var .x) (var .y))), var .y, captureAvoided⟩]⟩ ∧
    (captureAvoided.height : Int) ≤ 2 ∧
    captureAvoided.normalize .standard ⟨some 0, some 2⟩ .standard =
      (.ok ⟨captureAvoided, []⟩, .standard) := by
  have success : (capturing.normalize .standard ⟨some 1, some 2⟩ .standard).1 =
      .ok ⟨captureAvoided,
        [⟨abs .x (abs .y (app (var .x) (var .y))), var .y, captureAvoided⟩]⟩ := by
    decide +kernel
  obtain ⟨-, shallow, again⟩ := normalize_result success
  exact ⟨success, shallow 2 rfl, again (some 0) .standard⟩

end BetaNormal.Term

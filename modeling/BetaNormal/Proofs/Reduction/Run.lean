import BetaNormal.Proofs.Path
import BetaNormal.Proofs.Reduction.Rules

/-!
# Runs on a whole term

The reduction of a subterm makes its contractions somewhere below the root of the whole term.
`Advances` is one contraction seen from the root, with the path that leads to it; a run is a list
of them.  A run of a subterm is a run of every term around it, as long as the reduction may get
there, so the runs of all nested reductions add up to one of the whole term.
-/

namespace BetaNormal

namespace Term

/-- `Advances avoid path contraction before supply after supply'`: a contraction at a path.  An
argument is entered only if its function is normal and no abstraction. -/
inductive Advances (avoid : List Name) :
    Path → Contraction → Term → Supply → Term → Supply → Prop
  | contract (binder : Name) (body argument : Term) (supply : Supply) :
      Advances avoid []
        ⟨abs binder body, argument, (substitute binder argument avoid body supply).1⟩
        (app (abs binder body) argument) supply
        (substitute binder argument avoid body supply).1
        (substitute binder argument avoid body supply).2
  | body {path contraction body body' supply supply'} (binder : Name)
      (below : Advances avoid path contraction body supply body' supply') :
      Advances avoid (.body :: path) contraction (abs binder body) supply (abs binder body')
        supply'
  | function {path contraction function function' supply supply'} (argument : Term)
      (below : Advances avoid path contraction function supply function' supply') :
      Advances avoid (.function :: path) contraction (app function argument) supply
        (app function' argument) supply'
  | argument {path contraction function argument argument' supply supply'}
      (normal : function.isNormal = true) (neutral : function.isAbstraction = false)
      (below : Advances avoid path contraction argument supply argument' supply') :
      Advances avoid (.argument :: path) contraction (app function argument) supply
        (app function argument') supply'

/-- A list of contractions, one after the other. -/
inductive Runs (avoid : List Name) :
    List Contraction → Term → Supply → Term → Supply → Prop
  | nil (term : Term) (supply : Supply) : Runs avoid [] term supply term supply
  | cons {path contraction steps before supply middle supply' after supply''}
      (first : Advances avoid path contraction before supply middle supply')
      (later : Runs avoid steps middle supply' after supply'') :
      Runs avoid (contraction :: steps) before supply after supply''

section

variable {avoid : List Name} {path : Path} {contraction : Contraction}
variable {steps moreSteps : List Contraction}
variable {before middle after : Term} {supply supply' supply'' : Supply}

/-! ## One contraction -/

theorem Advances.subterm?_eq
    (advances : Advances avoid path contraction before supply after supply') :
    before.subterm? path = some contraction.redex := by
  induction advances with
  | contract binder body argument supply => rfl
  | body binder _ ih => exact ih
  | function argument _ ih => exact ih
  | argument normal neutral _ ih => exact ih

theorem Advances.eq_put
    (advances : Advances avoid path contraction before supply after supply') :
    after = before.put path contraction.result := by
  induction advances with
  | contract binder body argument supply => rfl
  | body binder _ ih => rw [put, ← ih]
  | function argument _ ih => rw [put, ← ih]
  | argument normal neutral _ ih => rw [put, ← ih]

theorem Advances.exists_contraction_eq
    (advances : Advances avoid path contraction before supply after supply') :
    ∃ binder body, contraction.function = abs binder body ∧
      (contraction.result, supply') =
        substitute binder contraction.argument avoid body supply := by
  induction advances with
  | contract binder body argument supply => exact ⟨binder, body, rfl, rfl⟩
  | body binder _ ih => exact ih
  | function argument _ ih => exact ih
  | argument normal neutral _ ih => exact ih

/-! ## Runs -/

theorem Runs.append (first : Runs avoid steps before supply middle supply')
    (later : Runs avoid moreSteps middle supply' after supply'') :
    Runs avoid (steps ++ moreSteps) before supply after supply'' := by
  induction first with
  | nil => exact later
  | cons advances _ ih => exact .cons advances (ih later)

theorem Runs.body (binder : Name) (below : Runs avoid steps before supply after supply') :
    Runs avoid steps (abs binder before) supply (abs binder after) supply' := by
  induction below with
  | nil => exact .nil _ _
  | cons advances _ ih => exact .cons (.body binder advances) ih

theorem Runs.function (argument : Term) (below : Runs avoid steps before supply after supply') :
    Runs avoid steps (app before argument) supply (app after argument) supply' := by
  induction below with
  | nil => exact .nil _ _
  | cons advances _ ih => exact .cons (.function argument advances) ih

theorem Runs.argument {function : Term} (normal : function.isNormal = true)
    (neutral : function.isAbstraction = false)
    (below : Runs avoid steps before supply after supply') :
    Runs avoid steps (app function before) supply (app function after) supply' := by
  induction below with
  | nil => exact .nil _ _
  | cons advances _ ih => exact .cons (.argument normal neutral advances) ih

/-- The terms and supplies that a run goes through.  What every contraction preserves holds at each
of them if it holds at the first. -/
theorem Runs.exists_states {holds : Term → Supply → Prop}
    (preserved : ∀ {path contraction before after supply supply'},
      Advances avoid path contraction before supply after supply' →
        holds before supply → holds after supply')
    (runs : Runs avoid steps before supply after supply') (start : holds before supply) :
    ∃ (whole : Nat → Term) (path : Nat → Path) (left : Nat → Supply),
      whole 0 = before ∧ left 0 = supply ∧
      whole steps.length = after ∧ left steps.length = supply' ∧ holds after supply' ∧
      ∀ (i : Nat) (contraction : Contraction), steps[i]? = some contraction →
        holds (whole i) (left i) ∧
        Advances avoid (path i) contraction (whole i) (left i) (whole (i + 1))
          (left (i + 1)) := by
  induction runs with
  | nil term supply =>
      exact ⟨fun _ => term, fun _ => [], fun _ => supply, rfl, rfl, rfl, rfl, start, by simp⟩
  | @cons path contraction steps before supply middle supply' after supply'' first _ ih =>
      obtain ⟨whole, paths, left, rfl, rfl, stop, rest, last, each⟩ := ih (preserved first start)
      refine ⟨fun i => i.casesOn before whole, fun i => i.casesOn path paths,
        fun i => i.casesOn supply left, rfl, rfl, stop, rest, last, fun i contraction made => ?_⟩
      cases i with
      | zero => exact ⟨start, Option.some.inj made ▸ first⟩
      | succ i => exact each i contraction made

theorem Runs.exists_sequence (runs : Runs avoid steps before supply after supply') :
    ∃ (whole : Nat → Term) (path : Nat → Path) (left : Nat → Supply),
      whole 0 = before ∧ left 0 = supply ∧ whole steps.length = after ∧
      ∀ (i : Nat) (contraction : Contraction), steps[i]? = some contraction →
        Advances avoid (path i) contraction (whole i) (left i) (whole (i + 1))
          (left (i + 1)) := by
  have always : (fun _ _ => True : Term → Supply → Prop) before supply := trivial
  obtain ⟨whole, path, left, start, begun, stop, -, -, each⟩ :=
    runs.exists_states (fun _ _ => trivial) always
  exact ⟨whole, path, left, start, begun, stop, fun i contraction made =>
    (each i contraction made).2⟩

end

/-! ## Every reduction is a run -/

variable {limits : Limits} {levels : Nat} {avoid : List Name} {rounds depth : Nat}

/-- The reduction of a subterm is a run of it, and if it succeeds, the run ends at the result. -/
theorem Reduces.exists_runs {term : Term} {progress after : Progress}
    {outcome : Except Stop Term}
    (reduces : Reduces limits levels avoid rounds depth term progress outcome after) :
    ∃ steps whole, Runs avoid steps term progress.supply whole after.supply ∧
      after.trace.toList = progress.trace.toList ++ steps ∧
      ∀ normal, outcome = .ok normal → whole = normal ∧ normal.isNormal = true := by
  induction reduces with
  | tooDeep deep => exact ⟨[], _, .nil _ _, by simp, by simp⟩
  | noLevel allowed low => exact ⟨[], _, .nil _ _, by simp, by simp⟩
  | var name admits => exact ⟨[], _, .nil _ _, by simp, by rintro _ ⟨⟩; exact ⟨rfl, rfl⟩⟩
  | @abs _ _ _ _ outcome _ binder admits _ ih =>
      obtain ⟨steps, whole, runs, recorded, done⟩ := ih
      refine ⟨steps, _, runs.body binder, recorded, ?_⟩
      rintro normal result
      rcases outcome with stop | body
      · cases result
      · cases result
        obtain ⟨rfl, normal⟩ := done body rfl
        exact ⟨rfl, normal⟩
  | spent binder body argument admits usedUp => exact ⟨[], _, .nil _ _, by simp, by simp⟩
  | noRound binder body argument admits left =>
      exact ⟨_, _, .cons (.contract binder body argument _) (.nil _ _), by simp [contracted],
        by simp⟩
  | contract binder body argument admits left _ ih =>
      obtain ⟨steps, whole, runs, recorded, done⟩ := ih
      refine ⟨_, _, .cons (.contract binder body argument _) runs, ?_, done⟩
      simp [recorded, contracted]
  | @functionStop _ _ _ argument _ _ _ admits entered _ ih =>
      obtain ⟨steps, whole, runs, recorded, -⟩ := ih
      exact ⟨steps, _, runs.function argument, recorded, by simp⟩
  | @functionAbs _ _ _ argument _ _ _ _ _ _ admits entered _ _ below_ih redex_ih =>
      obtain ⟨steps, whole, runs, recorded, done⟩ := below_ih
      obtain ⟨moreSteps, after, moreRuns, moreRecorded, allDone⟩ := redex_ih
      obtain ⟨rfl, -⟩ := done _ rfl
      refine ⟨steps ++ moreSteps, after, (runs.function argument).append moreRuns, ?_, allDone⟩
      simp [moreRecorded, recorded]
  | @argument _ _ _ argument _ normal _ outcome _ admits entered _ neutral _ below_ih
      beside_ih =>
      obtain ⟨steps, whole, runs, recorded, done⟩ := below_ih
      obtain ⟨moreSteps, after, moreRuns, moreRecorded, allDone⟩ := beside_ih
      obtain ⟨rfl, isNormal⟩ := done _ rfl
      refine ⟨steps ++ moreSteps, _,
        (runs.function argument).append (moreRuns.argument isNormal neutral), ?_, ?_⟩
      · simp [moreRecorded, recorded]
      · intro result isResult
        rcases outcome with stop | argumentNormal
        · cases isResult
        · cases isResult
          obtain ⟨rfl, argumentIsNormal⟩ := allDone _ rfl
          exact ⟨rfl, by simp [Term.isNormal, neutral, isNormal, argumentIsNormal]⟩

def recorded : Except Interruption Reduction → List Contraction
  | .ok reduction => reduction.steps
  | .error interruption => interruption.steps

/-- The contractions that are made when a term is reduced. -/
def trace (capacity : Capacity) (limits : Limits) (term : Term) (supply : Supply) :
    List Contraction :=
  recorded (term.normalize capacity limits supply).1

theorem normalize_spec (capacity : Capacity) (limits : Limits) (term : Term) (supply : Supply) :
    ∃ outcome after,
      Reduces limits capacity.levels term.names capacity.rounds 0 term ⟨#[], supply⟩ outcome
        after ∧
      trace capacity limits term supply = after.trace.toList ∧
      (term.normalize capacity limits supply).2 = after.supply ∧
      ∀ reduction, (term.normalize capacity limits supply).1 = .ok reduction ↔
        outcome = .ok reduction.term ∧ after.trace.toList = reduction.steps := by
  obtain ⟨outcome, after, reduces⟩ :=
    exists_reduces limits capacity.levels term.names capacity.rounds 0 term ⟨#[], supply⟩
  have computed := reduceAt_of_reduces reduces
  refine ⟨outcome, after, reduces, ?_, ?_, fun reduction => ?_⟩
  all_goals rcases outcome with stop | normal
  all_goals simp only [trace, normalize, computed, recorded]
  · simp
  · cases reduction
    simp

theorem normalize_runs (capacity : Capacity) (limits : Limits) (term : Term) (supply : Supply) :
    ∃ whole, Runs term.names (trace capacity limits term supply) term supply whole
        (term.normalize capacity limits supply).2 ∧
      ∀ reduction, (term.normalize capacity limits supply).1 = .ok reduction →
        whole = reduction.term ∧ reduction.term.isNormal = true := by
  obtain ⟨outcome, after, reduces, made, left, result⟩ :=
    normalize_spec capacity limits term supply
  obtain ⟨steps, whole, runs, recorded, done⟩ := reduces.exists_runs
  have all : after.trace.toList = steps := by simpa using recorded
  refine ⟨whole, ?_, fun reduction success => done _ ((result reduction).mp success).1⟩
  rw [made, left, all]
  exact runs

end Term

end BetaNormal

import BetaNormal.Proofs.Name
import BetaNormal.Proofs.Reduction.Bounds
import BetaNormal.Proofs.Reduction.Leftmost

/-!
# Which reductions come to an end

A reduction without bounds finds the normal form of a term exactly if there is one and the
reduction makes no more than so many detours.  It can make infinitely many: a function that has
become an abstraction may contain a subterm without a normal form, which the contraction of the
application would have discarded.
-/

namespace BetaNormal.Term

/-- Without bounds a reduction comes to an end exactly if the term has a normal form and the
contractions of other redexes than the leftmost outermost one stay bounded in number.  Finite
bounds that are large enough are as good as none. -/
theorem terminates_iff (term : Term) (supply : Supply) :
    (Terminates term supply ↔
      HasNormalForm term ∧
      ∃ bound, ∀ (capacity : Capacity) (limits : Limits),
        detours term (trace capacity limits term supply) ≤ bound) ∧
    (Terminates term supply ↔
      ∃ (capacity : Capacity) (steps depth : Int) (reduction : Reduction),
        (term.normalize capacity ⟨some steps, some depth⟩ supply).1 = .ok reduction) := by
  refine ⟨⟨fun terminates => ⟨?_, ?_⟩, ?_⟩, terminates_iff_exists_limits⟩
  · obtain ⟨capacity, reduction, success⟩ := terminates
    obtain ⟨whole, runs, done⟩ := normalize_runs capacity .unlimited term supply
    obtain ⟨rfl, normal⟩ := done reduction success
    exact ⟨_, runs.reflTransGen, (isNormal_namelessBelow [] _).trans normal⟩
  · obtain ⟨steps, longest⟩ := terminates.exists_longest_trace
    refine ⟨steps.length, fun capacity limits => ?_⟩
    exact Nat.le_trans (detours_le_length _ _) (longest capacity limits).length_le
  · rintro ⟨⟨normal, steps, isNormal⟩, bound, few⟩
    obtain ⟨count, normal, leftmost, isNormal⟩ :=
      Nameless.exists_leftmostIn_of_steps steps isNormal
    refine terminates_of_trace_length_le (count + bound) fun capacity limits => ?_
    obtain ⟨whole, runs, -⟩ := normalize_runs capacity limits term supply
    have short := runs.length_le leftmost isNormal
    have fewer := few capacity limits
    omega

/-! ## A function that is never done -/

/-- Whether no reduction of a term succeeds that starts over at most so many times in a row, under
any bounds and at any depth. -/
structure Diverges (avoid : List Name) (rounds : Nat) (term : Term) : Prop where
  stops : ∀ {limits : Limits} {levels depth : Nat} {progress after : Progress}
    {outcome : Except Stop Term},
    Reduces limits levels avoid rounds depth term progress outcome after →
      ∃ stop, outcome = .error stop

section

variable {avoid : List Name} {rounds : Nat} {binder : Name} {body function argument : Term}

theorem Diverges.of_body (below : Diverges avoid rounds body) :
    Diverges avoid rounds (.abs binder body) := by
  refine ⟨fun reduces => ?_⟩
  cases reduces with
  | tooDeep _ => exact ⟨_, rfl⟩
  | noLevel _ _ => exact ⟨_, rfl⟩
  | abs _ _ reducesBelow =>
      obtain ⟨stop, rfl⟩ := below.stops reducesBelow
      exact ⟨stop, rfl⟩

theorem Diverges.of_contractum
    (resumed : ∀ fewer < rounds, ∀ supply,
      Diverges avoid fewer (substitute binder argument avoid body supply).1) :
    Diverges avoid rounds (.app (.abs binder body) argument) := by
  refine ⟨fun reduces => ?_⟩
  cases reduces with
  | tooDeep _ => exact ⟨_, rfl⟩
  | noLevel _ _ => exact ⟨_, rfl⟩
  | spent _ _ _ _ _ => exact ⟨_, rfl⟩
  | noRound _ _ _ _ _ => exact ⟨_, rfl⟩
  | contract _ _ _ _ _ reducesLater => exact (resumed _ (Nat.lt_succ_self _) _).stops reducesLater
  | functionStop _ entered _ => cases entered
  | functionAbs _ entered _ _ => cases entered
  | argument _ entered _ _ _ => cases entered

/-- A function is reduced to the end, whatever it turns into on the way. -/
theorem Diverges.of_function (entered : function.isAbstraction = false)
    (below : Diverges avoid rounds function) : Diverges avoid rounds (.app function argument) := by
  refine ⟨fun reduces => ?_⟩
  cases reduces with
  | tooDeep _ => exact ⟨_, rfl⟩
  | noLevel _ _ => exact ⟨_, rfl⟩
  | spent _ _ _ _ _ => cases entered
  | noRound _ _ _ _ _ => cases entered
  | contract _ _ _ _ _ _ => cases entered
  | functionStop _ _ _ => exact ⟨_, rfl⟩
  | functionAbs _ _ reducesBelow _ =>
      obtain ⟨stop, failed⟩ := below.stops reducesBelow
      contradiction
  | argument _ _ reducesBelow _ _ =>
      obtain ⟨stop, failed⟩ := below.stops reducesBelow
      contradiction

theorem Diverges.of_argument (name : Name) (beside : Diverges avoid rounds argument) :
    Diverges avoid rounds (.app (.var name) argument) := by
  refine ⟨fun reduces => ?_⟩
  cases reduces with
  | tooDeep _ => exact ⟨_, rfl⟩
  | noLevel _ _ => exact ⟨_, rfl⟩
  | functionStop _ _ _ => exact ⟨_, rfl⟩
  | functionAbs _ _ reducesBelow _ => cases reducesBelow
  | argument _ _ _ _ reducesBeside =>
      obtain ⟨stop, rfl⟩ := beside.stops reducesBeside
      exact ⟨stop, rfl⟩

end

/-- `(λz.(z z) λz.(z z))`, the contractum of itself. -/
def omega : Term :=
  app (abs .z (app (var .z) (var .z))) (abs .z (app (var .z) (var .z)))

theorem omega_diverges (avoid : List Name) (rounds : Nat) : Diverges avoid rounds omega := by
  induction rounds using Nat.strongRecOn with
  | ind rounds ih =>
      refine .of_contractum fun fewer less supply => ?_
      have itself : ∀ (binder : Name) (value : Term),
          (substitute binder value avoid (app (var binder) (var binder)) supply).1 =
            app value value := by
        intro binder value
        simp [substitute]
      rw [itself]
      exact ih fewer less

/-- `((λx.x λy.(y (λz.(z z) λz.(z z)))) λk.b)`: three leftmost contractions lead to `b`. -/
def strayed : Term :=
  app (app (abs .x (var .x)) (abs .y (app (var .y) omega))) (abs .k (var .b))

theorem strayed_hasNormalForm : HasNormalForm strayed := by
  let loop := omega.nameless
  let constant : Nameless := .abs (.free .b)
  have first : Nameless.Step strayed.nameless
      (.app (.abs (.app (.bound 0) loop)) constant) :=
    .function _ (.contract (.bound 0) (.abs (.app (.bound 0) loop)))
  have second : Nameless.Step (.app (.abs (.app (.bound 0) loop)) constant)
      (.app constant loop) := .contract (.app (.bound 0) loop) constant
  have third : Nameless.Step (.app constant loop) (.free .b) :=
    .contract (.free .b) loop
  exact ⟨_, .head first (.head second (.single third)), rfl⟩

theorem strayed_diverges (avoid : List Name) (rounds : Nat) : Diverges avoid rounds strayed := by
  refine .of_function rfl (.of_contractum fun fewer _ supply => ?_)
  have itself : ∀ (binder : Name) (value : Term),
      (substitute binder value avoid (var binder) supply).1 = value := by
    intro binder value
    simp [substitute]
  rw [itself]
  exact .of_body (.of_argument _ (omega_diverges avoid fewer))

/-- A normal form is missed if it can only be reached by leaving a function alone. -/
theorem not_always_terminates :
    ¬ ∀ (term : Term) (supply : Supply), HasNormalForm term → Terminates term supply := by
  intro always
  obtain ⟨capacity, reduction, success⟩ := always strayed .standard strayed_hasNormalForm
  obtain ⟨after, reduces⟩ := exists_reduces_of_normalize success
  obtain ⟨stop, failed⟩ := (strayed_diverges _ _).stops reduces
  contradiction

end BetaNormal.Term

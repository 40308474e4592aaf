import BetaNormal.Proofs.Reduction.Run

/-!
# What the bounds of a run amount to

Wider bounds never take anything back: a run that has not met one of them stays as it is, and any
other run only gets longer.  With a bound on the number of contractions some capacity is enough,
and a successful run fits into finite bounds.
-/

namespace BetaNormal

structure Limits.Within (narrow wide : Limits) : Prop where
  steps : ∀ made, narrow.stepsUsedUp made = false → wide.stepsUsedUp made = false
  depth : ∀ depth, narrow.tooDeep depth = false → wide.tooDeep depth = false

theorem Limits.Within.refl (limits : Limits) : limits.Within limits :=
  ⟨fun _ => id, fun _ => id⟩

def Limits.unlimited : Limits := ⟨none, none⟩

theorem Limits.within_unlimited (limits : Limits) : limits.Within .unlimited :=
  ⟨fun _ _ => rfl, fun _ _ => rfl⟩

/-- Whether a run that has made so many contractions may be ended by a stop. -/
def Stop.Due (limits : Limits) (made : Nat) : Stop → Prop
  | .steps => limits.stepsUsedUp made = true
  | .depth => ∃ depth, limits.tooDeep depth = true
  | .capacity => True

namespace Term

variable {limits wide : Limits} {levels levels' : Nat} {avoid : List Name}
variable {rounds rounds' depth : Nat} {term : Term} {progress middle after : Progress}
variable {outcome : Except Stop Term} {stop : Stop}

/-! ## Wider bounds -/

theorem Reduces.trace_grows
    (reduces : Reduces limits levels avoid rounds depth term progress outcome after) :
    progress.trace.toList <+: after.trace.toList := by
  obtain ⟨steps, -, -, recorded, -⟩ := reduces.exists_runs
  exact ⟨steps, recorded.symm⟩

theorem Reduces.size_le
    (reduces : Reduces limits levels avoid rounds depth term progress outcome after) :
    progress.trace.size ≤ after.trace.size :=
  reduces.trace_grows.length_le

theorem Reduces.exists_app {function : Term} (argument : Term)
    (admits : Admits limits levels depth) (entered : function.isAbstraction = false)
    (below : Reduces limits levels avoid rounds (depth + 1) function progress outcome middle) :
    ∃ outcome' after, Reduces limits levels avoid rounds depth (app function argument) progress
      outcome' after ∧ middle.trace.toList <+: after.trace.toList := by
  rcases outcome with stop | normal
  · exact ⟨_, _, .functionStop admits entered below, List.prefix_refl _⟩
  · cases neutral : normal.isAbstraction with
    | true =>
        obtain ⟨binder, body, rfl⟩ := exists_eq_abs neutral
        obtain ⟨outcome', after, redex⟩ := exists_reduces limits levels avoid rounds depth
          (.app (.abs binder body) argument) middle
        exact ⟨_, _, .functionAbs admits entered below redex, redex.trace_grows⟩
    | false =>
        obtain ⟨outcome', after, beside⟩ :=
          exists_reduces limits levels avoid rounds (depth + 1) argument middle
        exact ⟨_, _, .argument admits entered below neutral beside, beside.trace_grows⟩

/-- Under wider bounds a run that met none of the bounds stays as it is, and one that met a bound
of the machine or a bound that was widened only gets longer. -/
theorem Reduces.exists_wider
    (reduces : Reduces limits levels avoid rounds depth term progress outcome after)
    (within : limits.Within wide) (moreLevels : levels ≤ levels') (moreRounds : rounds ≤ rounds') :
    ∃ outcome' after', Reduces wide levels' avoid rounds' depth term progress outcome' after' ∧
      after.trace.toList <+: after'.trace.toList ∧
      ((outcome' = outcome ∧ after' = after) ∨
        ∃ stop, outcome = .error stop ∧ (limits = wide → stop = .capacity)) := by
  have wider : ∀ {depth}, Admits limits levels depth → Admits wide levels' depth :=
    fun admits => ⟨within.depth _ admits.1, Nat.le_trans admits.2 moreLevels⟩
  induction reduces generalizing rounds' with
  | @tooDeep _ depth term progress deep =>
      by_cases same : limits = wide
      · exact ⟨_, _, .tooDeep (same ▸ deep), List.prefix_refl _, .inl ⟨rfl, rfl⟩⟩
      · obtain ⟨_, _, reduces⟩ := exists_reduces wide levels' avoid rounds' depth term progress
        exact ⟨_, _, reduces, reduces.trace_grows,
          .inr ⟨.depth, rfl, fun equal => absurd equal same⟩⟩
  | @noLevel _ depth term progress allowed low =>
      obtain ⟨_, _, reduces⟩ := exists_reduces wide levels' avoid rounds' depth term progress
      exact ⟨_, _, reduces, reduces.trace_grows, .inr ⟨.capacity, rfl, fun _ => rfl⟩⟩
  | var name admits =>
      exact ⟨_, _, .var name (wider admits), List.prefix_refl _, .inl ⟨rfl, rfl⟩⟩
  | abs binder admits _ ih =>
      obtain ⟨_, _, below, longer, ⟨rfl, rfl⟩ | ⟨stop, rfl, widened⟩⟩ := ih moreRounds
      · exact ⟨_, _, .abs binder (wider admits) below, longer, .inl ⟨rfl, rfl⟩⟩
      · exact ⟨_, _, .abs binder (wider admits) below, longer, .inr ⟨stop, rfl, widened⟩⟩
  | @spent _ depth progress binder body argument admits usedUp =>
      by_cases same : limits = wide
      · exact ⟨_, _, .spent binder body argument (wider admits) (same ▸ usedUp),
          List.prefix_refl _, .inl ⟨rfl, rfl⟩⟩
      · obtain ⟨_, _, reduces⟩ := exists_reduces wide levels' avoid rounds' depth
          (.app (.abs binder body) argument) progress
        exact ⟨_, _, reduces, reduces.trace_grows,
          .inr ⟨.steps, rfl, fun equal => absurd equal same⟩⟩
  | @noRound depth progress binder body argument admits left =>
      cases rounds' with
      | zero =>
          exact ⟨_, _, .noRound binder body argument (wider admits) (within.steps _ left),
            List.prefix_refl _, .inl ⟨rfl, rfl⟩⟩
      | succ fewer =>
          obtain ⟨_, _, resumed⟩ := exists_reduces wide levels' avoid fewer depth
            (contracted avoid binder body argument progress).1
            (contracted avoid binder body argument progress).2
          exact ⟨_, _,
            .contract binder body argument (wider admits) (within.steps _ left) resumed,
            resumed.trace_grows, .inr ⟨.capacity, rfl, fun _ => rfl⟩⟩
  | contract binder body argument admits left _ ih =>
      cases rounds' with
      | zero => simp at moreRounds
      | succ fewer =>
          obtain ⟨_, _, resumed, longer, compared⟩ := ih (Nat.le_of_succ_le_succ moreRounds)
          exact ⟨_, _,
            .contract binder body argument (wider admits) (within.steps _ left) resumed,
            longer, compared⟩
  | @functionStop _ _ _ argument _ _ _ admits entered _ ih =>
      obtain ⟨_, _, below, longer, ⟨rfl, rfl⟩ | ⟨stop, failed, widened⟩⟩ := ih moreRounds
      · exact ⟨_, _, .functionStop (wider admits) entered below, longer, .inl ⟨rfl, rfl⟩⟩
      · -- the function comes further now, and the application goes on from there
        obtain ⟨_, _, reduces, evenLonger⟩ := below.exists_app argument (wider admits) entered
        exact ⟨_, _, reduces, longer.trans evenLonger, .inr ⟨stop, failed, widened⟩⟩
  | functionAbs admits entered _ _ below_ih redex_ih =>
      obtain ⟨_, _, below, -, ⟨rfl, rfl⟩ | ⟨stop, failed, -⟩⟩ := below_ih moreRounds
      · obtain ⟨_, _, redex, longer, compared⟩ := redex_ih moreRounds
        exact ⟨_, _, .functionAbs (wider admits) entered below redex, longer, compared⟩
      · contradiction
  | argument admits entered _ neutral _ below_ih beside_ih =>
      obtain ⟨_, _, below, -, ⟨rfl, rfl⟩ | ⟨stop, failed, -⟩⟩ := below_ih moreRounds
      · obtain ⟨_, _, beside, longer, ⟨rfl, rfl⟩ | ⟨stop, rfl, widened⟩⟩ := beside_ih moreRounds
        · exact ⟨_, _, .argument (wider admits) entered below neutral beside, longer,
            .inl ⟨rfl, rfl⟩⟩
        · exact ⟨_, _, .argument (wider admits) entered below neutral beside, longer,
            .inr ⟨stop, rfl, widened⟩⟩
      · contradiction

theorem Reduces.widen_ok {normal : Term}
    (reduces : Reduces limits levels avoid rounds depth term progress (.ok normal) after)
    (within : limits.Within wide) (moreLevels : levels ≤ levels') (moreRounds : rounds ≤ rounds') :
    Reduces wide levels' avoid rounds' depth term progress (.ok normal) after := by
  obtain ⟨_, _, wider, -, ⟨rfl, rfl⟩ | ⟨stop, failed, -⟩⟩ :=
    reduces.exists_wider within moreLevels moreRounds
  · exact wider
  · contradiction

theorem Reduces.widen_capacity
    (reduces : Reduces limits levels avoid rounds depth term progress outcome after)
    (enough : outcome ≠ .error .capacity) (moreLevels : levels ≤ levels')
    (moreRounds : rounds ≤ rounds') :
    Reduces limits levels' avoid rounds' depth term progress outcome after := by
  obtain ⟨_, _, wider, -, ⟨rfl, rfl⟩ | ⟨stop, rfl, machine⟩⟩ :=
    reduces.exists_wider (.refl limits) moreLevels moreRounds
  · exact wider
  · rw [machine rfl] at enough
    contradiction

/-! ## What a bound has to do with a stop -/

theorem Reduces.due
    (reduces : Reduces limits levels avoid rounds depth term progress outcome after)
    (stopped : outcome = .error stop) : stop.Due limits after.trace.size := by
  induction reduces with
  | tooDeep deep =>
      cases stopped
      exact ⟨_, deep⟩
  | noLevel _ _ =>
      cases stopped
      trivial
  | var _ _ => cases stopped
  | @abs _ _ _ _ outcome _ _ _ _ ih =>
      cases outcome with
      | error first =>
          cases stopped
          exact ih rfl
      | ok body => cases stopped
  | spent _ _ _ _ usedUp =>
      cases stopped
      exact usedUp
  | noRound _ _ _ _ _ =>
      cases stopped
      trivial
  | contract _ _ _ _ _ _ ih => exact ih stopped
  | functionStop _ _ _ ih => exact ih stopped
  | functionAbs _ _ _ _ _ redex_ih => exact redex_ih stopped
  | @argument _ _ _ _ _ _ _ outcome _ _ _ _ _ _ _ beside_ih =>
      cases outcome with
      | error first =>
          cases stopped
          exact beside_ih rfl
      | ok argument => cases stopped

theorem Reduces.tighten {narrow : Limits} {normal : Term}
    (reduces : Reduces limits levels avoid rounds depth term progress outcome after)
    (done : outcome = .ok normal)
    (deepEnough : ∀ depth ≤ levels, narrow.tooDeep depth = false)
    (longEnough : ∀ made < after.trace.size, narrow.stepsUsedUp made = false) :
    Reduces narrow levels avoid rounds depth term progress outcome after := by
  have admitted : ∀ {depth}, Admits limits levels depth → Admits narrow levels depth :=
    fun admits => ⟨deepEnough _ admits.2, admits.2⟩
  induction reduces generalizing normal with
  | tooDeep _ => cases done
  | noLevel _ _ => cases done
  | var name admits => exact .var name (admitted admits)
  | @abs _ _ _ _ outcome _ binder admits _ ih =>
      cases outcome with
      | error stop => cases done
      | ok body => exact .abs binder (admitted admits) (ih rfl longEnough)
  | spent _ _ _ _ _ => cases done
  | noRound _ _ _ _ _ => cases done
  | contract binder body argument admits _ resumed ih =>
      have made := resumed.size_le
      simp only [contracted, Array.size_push] at made
      exact .contract binder body argument (admitted admits) (longEnough _ (by omega))
        (ih done longEnough)
  | functionStop _ _ _ _ => cases done
  | functionAbs admits entered _ redex below_ih redex_ih =>
      have made := redex.size_le
      exact .functionAbs (admitted admits) entered
        (below_ih rfl fun earlier before => longEnough earlier (by omega))
        (redex_ih done longEnough)
  | @argument _ _ _ _ _ _ _ outcome _ admits entered _ neutral beside below_ih beside_ih =>
      have made := beside.size_le
      cases outcome with
      | error stop => cases done
      | ok argument =>
          exact .argument (admitted admits) entered
            (below_ih rfl fun earlier before => longEnough earlier (by omega)) neutral
            (beside_ih rfl longEnough)

/-! ## Enough room -/

/-- Whether some capacity is enough to come to a result or to a bound that a user has set. -/
def Settles (limits : Limits) (avoid : List Name) (depth : Nat) (term : Term)
    (progress : Progress) : Prop :=
  ∃ levels rounds outcome after,
    Reduces limits levels avoid rounds depth term progress outcome after ∧
      outcome ≠ .error .capacity

theorem Settles.of_allowed
    (allowed : limits.tooDeep depth = false → Settles limits avoid depth term progress) :
    Settles limits avoid depth term progress := by
  cases deep : limits.tooDeep depth with
  | true => exact ⟨0, 0, _, _, .tooDeep deep, by simp⟩
  | false => exact allowed deep

theorem Settles.abs (binder : Name) (allowed : limits.tooDeep depth = false)
    (below : Settles limits avoid (depth + 1) term progress) :
    Settles limits avoid depth (.abs binder term) progress := by
  obtain ⟨levels, rounds, outcome, after, reduces, enough⟩ := below
  have wider := reduces.widen_capacity enough (Nat.le_max_left levels depth) (Nat.le_refl rounds)
  refine ⟨_, _, _, _, .abs binder ⟨allowed, Nat.le_max_right levels depth⟩ wider, ?_⟩
  cases outcome with
  | error stop => exact enough
  | ok body => simp [Except.map]

theorem Settles.redex (binder : Name) (body argument : Term)
    (allowed : limits.tooDeep depth = false)
    (resumed : limits.stepsUsedUp progress.trace.size = false →
      Settles limits avoid depth (contracted avoid binder body argument progress).1
        (contracted avoid binder body argument progress).2) :
    Settles limits avoid depth (.app (.abs binder body) argument) progress := by
  cases left : limits.stepsUsedUp progress.trace.size with
  | true =>
      exact ⟨depth, 0, _, _, .spent binder body argument ⟨allowed, Nat.le_refl depth⟩ left,
        by simp⟩
  | false =>
      obtain ⟨levels, rounds, outcome, after, reduces, enough⟩ := resumed left
      have wider := reduces.widen_capacity enough (Nat.le_max_left levels depth)
        (Nat.le_refl rounds)
      exact ⟨_, rounds + 1, _, _,
        .contract binder body argument ⟨allowed, Nat.le_max_right levels depth⟩ left wider,
        enough⟩

theorem Reduces.exists_common_room {moreLevels moreRounds furtherDepth : Nat} {further : Term}
    {progress' after' : Progress} {outcome' : Except Stop Term}
    (first : Reduces limits levels avoid rounds depth term progress outcome after)
    (enough : outcome ≠ .error .capacity)
    (later : Reduces limits moreLevels avoid moreRounds furtherDepth further progress' outcome'
      after')
    (enoughLater : outcome' ≠ .error .capacity) (least : Nat) :
    ∃ levels' rounds', least ≤ levels' ∧
      Reduces limits levels' avoid rounds' depth term progress outcome after ∧
      Reduces limits levels' avoid rounds' furtherDepth further progress' outcome' after' := by
  refine ⟨max levels (max moreLevels least), max rounds moreRounds, by omega, ?_, ?_⟩
  · exact first.widen_capacity enough (by omega) (Nat.le_max_left rounds moreRounds)
  · exact later.widen_capacity enoughLater (by omega) (Nat.le_max_right rounds moreRounds)

theorem Settles.app {function argument : Term} (allowed : limits.tooDeep depth = false)
    (entered : function.isAbstraction = false)
    (below : Settles limits avoid (depth + 1) function progress)
    (redex : ∀ binder body middle, progress.trace.size ≤ middle.trace.size →
      Settles limits avoid depth (.app (.abs binder body) argument) middle)
    (beside : ∀ middle, progress.trace.size ≤ middle.trace.size →
      Settles limits avoid (depth + 1) argument middle) :
    Settles limits avoid depth (.app function argument) progress := by
  obtain ⟨levels, rounds, outcome, middle, reduces, enough⟩ := below
  cases outcome with
  | error stop =>
      obtain ⟨levels', rounds', deep, wider, -⟩ :=
        reduces.exists_common_room enough reduces enough depth
      exact ⟨_, _, _, _, .functionStop ⟨allowed, deep⟩ entered wider, enough⟩
  | ok normal =>
      cases neutral : normal.isAbstraction with
      | true =>
          obtain ⟨binder, body, rfl⟩ := exists_eq_abs neutral
          obtain ⟨_, _, outcome, after, later, enoughLater⟩ :=
            redex binder body middle reduces.size_le
          obtain ⟨levels', rounds', deep, wider, widerLater⟩ :=
            reduces.exists_common_room enough later enoughLater depth
          exact ⟨_, _, _, _, .functionAbs ⟨allowed, deep⟩ entered wider widerLater, enoughLater⟩
      | false =>
          obtain ⟨_, _, outcome, after, later, enoughLater⟩ := beside middle reduces.size_le
          obtain ⟨levels', rounds', deep, wider, widerLater⟩ :=
            reduces.exists_common_room enough later enoughLater depth
          refine ⟨_, _, _, _, .argument ⟨allowed, deep⟩ entered wider neutral widerLater, ?_⟩
          cases outcome with
          | error stop => exact enoughLater
          | ok argument => simp [Except.map]

theorem settles_of_redex {made : Nat}
    (redex : ∀ {depth progress} (binder : Name) (body argument : Term),
      limits.tooDeep depth = false → made ≤ progress.trace.size →
        Settles limits avoid depth (.app (.abs binder body) argument) progress)
    (depth : Nat) (term : Term) (progress : Progress) (later : made ≤ progress.trace.size) :
    Settles limits avoid depth term progress := by
  induction term generalizing depth progress with
  | var name =>
      refine .of_allowed fun allowed => ?_
      exact ⟨depth, 0, _, _, .var name ⟨allowed, Nat.le_refl depth⟩, by simp⟩
  | abs binder body ih =>
      refine .of_allowed fun allowed => ?_
      exact .abs binder allowed (ih (depth + 1) progress later)
  | app function argument function_ih argument_ih =>
      refine .of_allowed fun allowed => ?_
      cases entered : function.isAbstraction with
      | true =>
          obtain ⟨binder, body, rfl⟩ := exists_eq_abs entered
          exact redex binder body argument allowed later
      | false =>
          apply Settles.app allowed entered (function_ih (depth + 1) progress later)
          · intro binder body middle grown
            exact redex binder body argument allowed (Nat.le_trans later grown)
          · intro middle grown
            exact argument_ih (depth + 1) middle (Nat.le_trans later grown)

/-- With a bound on the contractions some capacity is always enough. -/
theorem settles (limits : Limits) (avoid : List Name) {bound : Int}
    (bounded : limits.steps = some bound) (depth : Nat) (term : Term) (progress : Progress) :
    Settles limits avoid depth term progress := by
  obtain ⟨remaining, close⟩ : ∃ remaining : Nat, bound ≤ progress.trace.size + remaining :=
    ⟨bound.toNat, by omega⟩
  -- every contraction takes one off what remains
  induction remaining generalizing depth term progress with
  | zero =>
      refine settles_of_redex ?_ depth term progress (Nat.le_refl _)
      intro depth middle binder body argument allowed grown
      refine .redex binder body argument allowed fun left => ?_
      simp only [Limits.stepsUsedUp, bounded, decide_eq_false_iff_not] at left
      omega
  | succ remaining ih =>
      refine settles_of_redex ?_ depth term progress (Nat.le_refl _)
      intro depth middle binder body argument allowed grown
      refine .redex binder body argument allowed fun _ => ih _ _ _ ?_
      simp only [contracted, Array.size_push]
      omega

/-! ## The whole reduction -/

/-- Whether a reduction without bounds comes to an end, if only the machine has room for it. -/
def Terminates (term : Term) (supply : Supply) : Prop :=
  ∃ capacity reduction, (term.normalize capacity .unlimited supply).1 = .ok reduction

variable {supply : Supply}

theorem normalize_of_reduces {capacity : Capacity} {normal : Term}
    (reduces : Reduces limits capacity.levels term.names capacity.rounds 0 term ⟨#[], supply⟩
      (.ok normal) after) :
    (term.normalize capacity limits supply).1 = .ok ⟨normal, after.trace.toList⟩ := by
  obtain ⟨outcome, other, same, -, -, result⟩ := normalize_spec capacity limits term supply
  obtain ⟨rfl, rfl⟩ := same.unique reduces
  exact (result _).mpr ⟨rfl, rfl⟩

theorem exists_reduces_of_normalize {capacity : Capacity} {reduction : Reduction}
    (success : (term.normalize capacity limits supply).1 = .ok reduction) :
    ∃ after, Reduces limits capacity.levels term.names capacity.rounds 0 term ⟨#[], supply⟩
      (.ok reduction.term) after := by
  obtain ⟨outcome, after, reduces, -, -, result⟩ := normalize_spec capacity limits term supply
  obtain ⟨rfl, -⟩ := (result reduction).mp success
  exact ⟨after, reduces⟩

/-- If a reduction comes to an end, all that any bound may change is where it breaks off. -/
theorem Terminates.exists_longest_trace (terminates : Terminates term supply) :
    ∃ steps, ∀ (capacity : Capacity) (limits : Limits),
      trace capacity limits term supply <+: steps := by
  obtain ⟨room, reduction, success⟩ := terminates
  obtain ⟨last, whole⟩ := exists_reduces_of_normalize success
  refine ⟨last.trace.toList, fun capacity limits => ?_⟩
  obtain ⟨outcome, after, reduces, made, -⟩ := normalize_spec capacity limits term supply
  obtain ⟨outcome', after', wider, longer, -⟩ :=
    reduces.exists_wider limits.within_unlimited (Nat.le_max_left capacity.levels room.levels)
      (Nat.le_max_left capacity.rounds room.rounds)
  have widest := whole.widen_ok (.refl .unlimited)
    (Nat.le_max_right capacity.levels room.levels) (Nat.le_max_right capacity.rounds room.rounds)
  rw [made, ← (wider.unique widest).2]
  exact longer

theorem terminates_of_trace_length_le (count : Nat)
    (short : ∀ (capacity : Capacity) (limits : Limits),
      (trace capacity limits term supply).length ≤ count) : Terminates term supply := by
  let counted : Limits := ⟨some (count + 1 : Nat), none⟩
  obtain ⟨levels, rounds, outcome, after, reduces, enough⟩ :=
    settles counted term.names rfl 0 term ⟨#[], supply⟩
  cases outcome with
  | ok normal =>
      have whole := reduces.widen_ok counted.within_unlimited (Nat.le_refl _) (Nat.le_refl _)
      exact ⟨⟨levels, rounds⟩, _, normalize_of_reduces whole⟩
  | error stop =>
      have due := reduces.due rfl
      cases stop with
      | steps =>
          obtain ⟨_, _, same, made, -⟩ := normalize_spec ⟨levels, rounds⟩ counted term supply
          obtain ⟨rfl, rfl⟩ := same.unique reduces
          have fewer := short ⟨levels, rounds⟩ counted
          simp only [made, Array.length_toList] at fewer
          simp only [Stop.Due, Limits.stepsUsedUp, counted, decide_eq_true_eq] at due
          omega
      | depth =>
          obtain ⟨depth, deep⟩ := due
          cases deep
      | capacity => exact absurd rfl enough

theorem terminates_iff_exists_limits : Terminates term supply ↔
    ∃ (capacity : Capacity) (steps depth : Int) (reduction : Reduction),
      (term.normalize capacity ⟨some steps, some depth⟩ supply).1 = .ok reduction := by
  constructor
  · rintro ⟨capacity, reduction, success⟩
    obtain ⟨after, reduces⟩ := exists_reduces_of_normalize success
    let fitting : Limits := ⟨some after.trace.size, some capacity.levels⟩
    have deepEnough : ∀ depth ≤ capacity.levels, fitting.tooDeep depth = false := by
      intro depth within
      simp [Limits.tooDeep, fitting, within]
    have longEnough : ∀ made < after.trace.size, fitting.stepsUsedUp made = false := by
      intro made before
      simp [Limits.stepsUsedUp, fitting, before]
    exact ⟨capacity, _, _, _,
      normalize_of_reduces (reduces.tighten rfl deepEnough longEnough)⟩
  · rintro ⟨capacity, steps, depth, reduction, success⟩
    obtain ⟨after, reduces⟩ := exists_reduces_of_normalize success
    have whole := reduces.widen_ok (Limits.within_unlimited _) (Nat.le_refl _) (Nat.le_refl _)
    exact ⟨capacity, _, normalize_of_reduces whole⟩

end Term

end BetaNormal

import BetaNormal.Proofs.Reduction.Hygiene
import BetaNormal.Proofs.Reduction.Limits
import BetaNormal.Proofs.Substitution.Ending

/-!
# A limit brings a reduction to an end

Step by step, a reduction starts over on the result of every contraction, which may be larger than
the redex was, and nothing but its limits ends it.  A limit on the contractions is enough for that.
The reduction then comes to a result or to an interruption, unless a number that has to be written
is too long: that of a new name, or the limit that the report of an interruption quotes.
-/

namespace BetaNormal

/-- Whether the limit that a report quotes can be written. -/
def Limits.quotes (limits : Limits) : Stop → Bool
  | .steps => limits.steps.all fun bound => Text.hasNumeral bound.natAbs
  | .depth => limits.depth.all fun bound => Text.hasNumeral bound.natAbs
  | .capacity => true

namespace Term

/-- What can come instead of the result of a reduction: an interruption, one whose report cannot be
written, or the mishap of a substitution after some contractions. -/
inductive Abort where
  | interrupted (interruption : Interruption)
  | unquotable (interruption : Interruption)
  | mishap (mishap : Mishap) (made : List Contraction)
  deriving DecidableEq

def Abort.ofInterruption (limits : Limits) (interruption : Interruption) : Abort :=
  if limits.quotes interruption.stop then interrupted interruption else unquotable interruption

def tryContract (limits : Limits) (avoid : List Name) (fuel : Nat) (binder : Name)
    (body argument : Term) (progress : Progress) : ExceptT Abort Option (Term × Progress) :=
  if limits.stepsUsedUp progress.trace.size then
    throw (.ofInterruption limits ⟨.steps, progress.trace.toList⟩)
  else do
    let result ← (trySubstitute avoid fuel binder argument body progress.supply).adapt
      (.mishap · progress.trace.toList)
    pure (result.1, ⟨progress.trace.push ⟨abs binder body, argument, result.1⟩, result.2⟩)

/-- Reduces step by step.  To start over on the result of a contraction is a call of its own. -/
def tryReduce (limits : Limits) (avoid : List Name) :
    (fuel depth : Nat) → Term → Progress → ExceptT Abort Option (Term × Progress)
  | 0, _, _, _ => ExceptT.mk none
  | fuel + 1, depth, term, progress =>
      if limits.tooDeep depth then
        throw (.ofInterruption limits ⟨.depth, progress.trace.toList⟩)
      else
        match term with
        | var name => pure (var name, progress)
        | abs binder body => do
            let below ← tryReduce limits avoid fuel (depth + 1) body progress
            pure (abs binder below.1, below.2)
        | app function argument => do
            let left ← (if function.isAbstraction then pure (function, progress)
              else tryReduce limits avoid fuel (depth + 1) function progress)
            match left.1 with
            | abs binder body => do
                let result ← tryContract limits avoid fuel binder body argument left.2
                tryReduce limits avoid fuel depth result.1 result.2
            | normal => do
                let right ← tryReduce limits avoid fuel (depth + 1) argument left.2
                pure (app normal right.1, right.2)

def tryNormalize (limits : Limits) (fuel : Nat) (term : Term) (supply : Supply) :
    ExceptT Abort Option (Reduction × Supply) := do
  let done ← tryReduce limits term.names fuel 0 term ⟨#[], supply⟩
  pure (⟨done.1, done.2.trace.toList⟩, done.2.supply)

variable {limits : Limits} {levels : Nat} {avoid : List Name} {rounds depth : Nat}
variable {term value : Term} {progress middle after : Progress} {outcome : Except Stop Term}

theorem Reduces.counter_le
    (reduces : Reduces limits levels avoid rounds depth term progress outcome after) :
    progress.supply.counter ≤ after.supply.counter := by
  obtain ⟨_, _, runs, -⟩ := reduces.exists_runs
  exact runs.gives.counter_le

/-! ## How the steps of a run end -/

def settled (limits : Limits) (outcome : Except Stop Term) (after : Progress) :
    ExceptT Abort Option (Term × Progress) :=
  match outcome with
  | .ok normal => pure (normal, after)
  | .error stop => throw (.ofInterruption limits ⟨stop, after.trace.toList⟩)

/-- Whether steps end with an outcome that is known by the rules.  If the supply has outrun the
numerals on the way, they end before that, with no other contractions. -/
inductive EndsWith (limits : Limits) (before : Supply) (outcome : Except Stop Term)
    (after : Progress) (steps : Nat → ExceptT Abort Option (Term × Progress)) : Prop
  | inTime (within : before.outran after.supply = false)
      (comes : ComesTo steps (settled limits outcome after))
  | outran {made : List Contraction} (beyond : before.outran after.supply = true)
      (begun : made <+: after.trace.toList)
      (comes : ComesTo steps (throw (.mishap (.noName .numeralTooLong) made)))

section

variable {before : Supply} {run : Nat → ExceptT Abort Option (Term × Progress)}
variable {next : Nat → Term × Progress → ExceptT Abort Option (Term × Progress)}

theorem endsWith_settled (limits : Limits) (outcome : Except Stop Term) (after : Progress) :
    EndsWith limits after.supply outcome after (fun _ => settled limits outcome after) :=
  .inTime (Supply.outran_self after.supply) (.const _)

theorem EndsWith.of_succ (ends : EndsWith limits before outcome after fun fuel => run (fuel + 1)) :
    EndsWith limits before outcome after run := by
  cases ends with
  | inTime within comes => exact .inTime within comes.of_succ
  | outran beyond begun comes => exact .outran beyond begun comes.of_succ

theorem EndsWith.succ (ends : EndsWith limits before outcome after run) :
    EndsWith limits before outcome after fun fuel => run (fuel + 1) := by
  cases ends with
  | inTime within comes => exact .inTime within comes.succ
  | outran beyond begun comes => exact .outran beyond begun comes.succ

theorem EndsWith.bind (first : EndsWith limits before (.ok value) middle run)
    (goesOn : EndsWith limits middle.supply outcome after fun fuel => next fuel (value, middle))
    (drawn : before.counter ≤ middle.supply.counter)
    (drawnLater : middle.supply.counter ≤ after.supply.counter)
    (grows : middle.trace.toList <+: after.trace.toList) :
    EndsWith limits before outcome after fun fuel => run fuel >>= next fuel := by
  have either := Supply.outran_eq_or drawn drawnLater
  cases first with
  | outran beyond begun comes =>
      rw [beyond, Bool.true_or] at either
      exact .outran either (begun.trans grows) comes.bind_throw
  | inTime within comes =>
      rw [within, Bool.false_or] at either
      cases goesOn with
      | inTime within later => exact .inTime (either.trans within) (comes.bind_pure later)
      | outran beyond begun later =>
          exact .outran (either.trans beyond) begun (comes.bind_pure later)

theorem EndsWith.stop {stop : Stop} (first : EndsWith limits before (.error stop) after run) :
    EndsWith limits before (.error stop) after fun fuel => run fuel >>= next fuel := by
  cases first with
  | inTime within comes => exact .inTime within comes.bind_throw
  | outran beyond begun comes => exact .outran beyond begun comes.bind_throw

theorem EndsWith.map (first : EndsWith limits before outcome after run) (convert : Term → Term) :
    EndsWith limits before (outcome.map convert) after
      fun fuel => run fuel >>= fun done => pure (convert done.1, done.2) := by
  cases outcome with
  | error stop => exact first.stop
  | ok value =>
      cases first with
      | inTime within comes => exact .inTime within (comes.bind_pure (.const _))
      | outran beyond begun comes => exact .outran beyond begun comes.bind_throw

end

/-! ## Every step by the rules -/

theorem endsWith_contracted (binder : Name) (body argument : Term)
    (left : limits.stepsUsedUp progress.trace.size = false) :
    EndsWith limits progress.supply (.ok (contracted avoid binder body argument progress).1)
      (contracted avoid binder body argument progress).2
      (fun fuel => tryContract limits avoid fuel binder body argument progress) := by
  have comes := (comesTo_trySubstitute binder argument avoid body progress.supply).congr
    (ExceptT.adapt (Abort.mishap · progress.trace.toList))
  simp only [tryContract, left, Bool.false_eq_true, if_false]
  unfold unlessOutrun at comes
  split at comes
  · rename_i beyond
    refine .outran beyond ?_ comes.bind_throw
    simp [contracted]
  · rename_i within
    exact .inTime (Bool.eq_false_iff.mpr within) (comes.bind_pure (.const _))

section

variable (admits : Admits limits levels depth) (fuel : Nat)

include admits

theorem tryReduce_var (name : Name) (progress : Progress) :
    tryReduce limits avoid (fuel + 1) depth (var name) progress = pure (var name, progress) := by
  rw [tryReduce, if_neg (by simp [admits.1])]

theorem tryReduce_abs (binder : Name) (body : Term) (progress : Progress) :
    tryReduce limits avoid (fuel + 1) depth (abs binder body) progress =
      tryReduce limits avoid fuel (depth + 1) body progress >>=
        fun below => pure (abs binder below.1, below.2) := by
  rw [tryReduce, if_neg (by simp [admits.1])]

theorem tryReduce_redex (binder : Name) (body argument : Term) (progress : Progress) :
    tryReduce limits avoid (fuel + 1) depth (app (abs binder body) argument) progress =
      tryContract limits avoid fuel binder body argument progress >>=
        fun result => tryReduce limits avoid fuel depth result.1 result.2 := by
  rw [tryReduce, if_neg (by simp [admits.1])]
  rfl

theorem tryReduce_app {function : Term} (entered : function.isAbstraction = false)
    (argument : Term) (progress : Progress) :
    tryReduce limits avoid (fuel + 1) depth (app function argument) progress =
      tryReduce limits avoid fuel (depth + 1) function progress >>= fun left =>
        if left.1.isAbstraction then
          tryReduce limits avoid (fuel + 1) depth (app left.1 argument) left.2
        else tryReduce limits avoid fuel (depth + 1) argument left.2 >>=
          fun right => pure (app left.1 right.1, right.2) := by
  rw [tryReduce, if_neg (by simp [admits.1])]
  simp only [entered, Bool.false_eq_true, if_false]
  congr 1
  funext left
  obtain ⟨function, middle⟩ := left
  cases function with
  | abs binder body => exact (tryReduce_redex admits fuel binder body argument middle).symm
  | var name => rfl
  | app first second => rfl

end

/-- What the rules lead to is what the steps come to, as long as the machine has room. -/
theorem Reduces.endsWith
    (reduces : Reduces limits levels avoid rounds depth term progress outcome after)
    (enough : outcome ≠ .error .capacity) :
    EndsWith limits progress.supply outcome after
      (fun fuel => tryReduce limits avoid fuel depth term progress) := by
  induction reduces with
  | @tooDeep _ depth term progress deep =>
      apply EndsWith.of_succ
      simp only [tryReduce, if_pos deep]
      exact endsWith_settled limits (.error .depth) progress
  | noLevel _ _ => exact absurd rfl enough
  | @var _ _ progress name admits =>
      apply EndsWith.of_succ
      simp only [tryReduce_var admits]
      exact endsWith_settled limits (.ok (.var name)) progress
  | abs binder admits _ ih =>
      apply EndsWith.of_succ
      simp only [tryReduce_abs admits]
      refine EndsWith.map (ih ?_) (.abs binder)
      rintro rfl
      exact enough rfl
  | @spent _ _ progress binder body argument admits usedUp =>
      apply EndsWith.of_succ
      simp only [tryReduce_redex admits, tryContract, if_pos usedUp]
      exact (endsWith_settled limits (.error .steps) progress).stop
  | noRound _ _ _ _ _ => exact absurd rfl enough
  | @contract _ _ progress _ _ binder body argument admits left resumed ih =>
      apply EndsWith.of_succ
      simp only [tryReduce_redex admits]
      refine (endsWith_contracted binder body argument left).bind (ih enough) ?_
        resumed.counter_le resumed.trace_grows
      exact counter_le_substitute binder argument avoid body progress.supply
  | functionStop admits entered _ ih =>
      apply EndsWith.of_succ
      simp only [tryReduce_app admits _ entered]
      exact (ih enough).stop
  | functionAbs admits entered below redex below_ih redex_ih =>
      apply EndsWith.of_succ
      simp only [tryReduce_app admits _ entered]
      exact (below_ih (by simp)).bind (redex_ih enough).succ below.counter_le redex.counter_le
        redex.trace_grows
  | @argument _ _ _ _ _ normal _ outcome _ admits entered below neutral beside below_ih beside_ih =>
      have enoughBeside : outcome ≠ .error .capacity := by
        rintro rfl
        exact enough rfl
      apply EndsWith.of_succ
      simp only [tryReduce_app admits _ entered]
      refine (below_ih (by simp)).bind ?_ below.counter_le beside.counter_le beside.trace_grows
      simp only [neutral, Bool.false_eq_true, if_false]
      exact (beside_ih enoughBeside).map (.app normal)

/-! ## The whole reduction -/

/-- What a reduction by the rules gives to its caller. -/
def ending (limits : Limits) :
    Except Interruption Reduction × Supply → Except Abort (Reduction × Supply)
  | (.ok reduction, left) => .ok (reduction, left)
  | (.error interruption, _) => .error (.ofInterruption limits interruption)

theorem Reduces.comesTo_tryNormalize {capacity : Capacity} {supply : Supply}
    (reduces : Reduces limits capacity.levels term.names capacity.rounds 0 term ⟨#[], supply⟩
      outcome after) (enough : outcome ≠ .error .capacity) :
    if supply.outran after.supply then
      ∃ made, made <+: after.trace.toList ∧
        ComesTo (fun fuel => (tryNormalize limits fuel term supply).run)
          (some (.error (.mishap (.noName .numeralTooLong) made)))
    else ComesTo (fun fuel => (tryNormalize limits fuel term supply).run)
      (some (ending limits (term.normalize capacity limits supply))) := by
  simp only [tryNormalize, normalize, reduceAt_of_reduces reduces]
  cases reduces.endsWith enough with
  | outran beyond begun comes =>
      rw [if_pos beyond]
      exact ⟨_, begun, comes.bind_throw.congr ExceptT.run⟩
  | inTime within comes =>
      rw [within, if_neg Bool.false_ne_true]
      cases outcome with
      | ok normal => exact (comes.bind_pure (.const _)).congr ExceptT.run
      | error stop => exact comes.bind_throw.congr ExceptT.run

/-- With a limit on the contractions the steps come to an end, after at most as many contractions,
whatever the term, the supply and the other limit are.  A machine with enough room comes to the same
end: to a result or to an interruption, unless a number is too long to be written. -/
theorem reduction_ends (bound : Int) (depth : Option Int) (term : Term) (supply : Supply) :
    ∃ room : Capacity, ∀ capacity : Capacity,
      room.levels ≤ capacity.levels → room.rounds ≤ capacity.rounds →
      ((trace capacity ⟨some bound, depth⟩ term supply).length : Int) ≤ max bound 0 ∧
      (∀ steps, (term.normalize capacity ⟨some bound, depth⟩ supply).1 ≠
        .error ⟨.capacity, steps⟩) ∧
      if supply.outran (term.normalize capacity ⟨some bound, depth⟩ supply).2 then
        ∃ made, made <+: trace capacity ⟨some bound, depth⟩ term supply ∧
          ComesTo (fun fuel => (tryNormalize ⟨some bound, depth⟩ fuel term supply).run)
            (some (.error (.mishap (.noName .numeralTooLong) made)))
      else
        ComesTo (fun fuel => (tryNormalize ⟨some bound, depth⟩ fuel term supply).run)
          (some (ending ⟨some bound, depth⟩
            (term.normalize capacity ⟨some bound, depth⟩ supply))) := by
  obtain ⟨levels, rounds, outcome, after, reduces, enough⟩ :=
    settles ⟨some bound, depth⟩ term.names rfl 0 term ⟨#[], supply⟩
  refine ⟨⟨levels, rounds⟩, fun capacity moreLevels moreRounds => ?_⟩
  have wider := reduces.widen_capacity enough moreLevels moreRounds
  have fewer := wider.size_le_bound rfl (Int.le_max_right bound 0)
  obtain ⟨other, last, same, made, left, -⟩ :=
    normalize_spec capacity ⟨some bound, depth⟩ term supply
  obtain ⟨rfl, rfl⟩ := wider.unique same
  refine ⟨?_, ?_, ?_⟩
  · rw [made, Array.length_toList]
    exact fewer
  · intro steps ended
    rw [normalize, reduceAt_of_reduces wider] at ended
    cases outcome with
    | ok normal => cases ended
    | error stop =>
        cases ended
        exact enough rfl
  · rw [made, left]
    exact wider.comesTo_tryNormalize enough

/-- The names that the first contraction has to draw come after the last number. -/
theorem not_always_reduced_or_interrupted :
    ¬ ∀ (stem : Text) (first : Int) (supply : Supply), Supply.start stem first = .ok supply →
      Text.hasNumeral supply.counter = true →
      ∀ (bound : Int) (depth : Option Int) (term : Term),
        (∃ reduced, ComesTo (fun fuel => (tryNormalize ⟨some bound, depth⟩ fuel term supply).run)
          (some (.ok reduced))) ∨
        ∃ interruption,
          ComesTo (fun fuel => (tryNormalize ⟨some bound, depth⟩ fuel term supply).run)
            (some (.error (.interrupted interruption))) := by
  intro always
  let term := app (abs .x twoClashes) (var .y)
  have ended := always _ _ _ (Supply.start_ofNat .last) Supply.hasNumeral_last 1 none term
  have comes : ComesTo (fun fuel => (tryNormalize ⟨some 1, none⟩ fuel term .last).run)
      (some (.error (.mishap (.noName .numeralTooLong) []))) := by
    have admits : Admits ⟨some 1, none⟩ 0 0 := ⟨rfl, Nat.le_refl 0⟩
    have beyond := Supply.outran_last (counter_twoClashes term.names .last)
    have clash := (comesTo_trySubstitute .x (var .y) term.names twoClashes .last).congr
      (ExceptT.adapt (Abort.mishap · []))
    rw [unlessOutrun, if_pos beyond] at clash
    apply ComesTo.of_succ
    simp only [tryNormalize, term, tryReduce_redex admits, tryContract]
    exact ((clash.bind_throw.bind_throw).bind_throw).congr ExceptT.run
  rcases ended with ⟨_, done⟩ | ⟨_, done⟩
  · cases comes.unique done
  · cases comes.unique done

end Term

end BetaNormal

import BetaNormal.Reduction

/-!
# The rules of a reduction

The function that reduces a term is taken apart once, into one rule for each way in which the
reduction of a subterm can go on or end.  Whatever holds of all reductions is proved by induction
on these rules.
-/

namespace BetaNormal.Term

/-- The contraction of a redex, and the progress with it written down. -/
def contracted (avoid : List Name) (binder : Name) (body argument : Term) (progress : Progress) :
    Term × Progress :=
  let contracted := substitute binder argument avoid body progress.supply
  (contracted.1, ⟨progress.trace.push ⟨abs binder body, argument, contracted.1⟩, contracted.2⟩)

/-- What becomes of a contraction after so many others in a row. -/
def resumeAt (limits : Limits) (levels : Nat) (avoid : List Name) :
    (rounds depth : Nat) → Term → Progress → Except Stop Term × Progress
  | 0 => fun _ _ progress => (.error .capacity, progress)
  | rounds + 1 => reduceAt limits levels avoid rounds

section

variable (limits : Limits) (levels : Nat) (avoid : List Name)

/-- Whether a subterm may be reduced at a depth. -/
def Admits (depth : Nat) : Prop := limits.tooDeep depth = false ∧ depth ≤ levels

/-- `Reduces limits levels avoid rounds depth term progress outcome after`: the reduction of a
subterm at some depth has this outcome, and the whole run has come that far then. -/
inductive Reduces :
    (rounds depth : Nat) → Term → Progress → Except Stop Term → Progress → Prop
  | tooDeep {rounds depth term progress} (deep : limits.tooDeep depth = true) :
      Reduces rounds depth term progress (.error .depth) progress
  | noLevel {rounds depth term progress} (allowed : limits.tooDeep depth = false)
      (low : levels < depth) :
      Reduces rounds depth term progress (.error .capacity) progress
  | var {rounds depth progress} (name : Name) (admits : Admits limits levels depth) :
      Reduces rounds depth (.var name) progress (.ok (.var name)) progress
  | abs {rounds depth body progress outcome after} (binder : Name)
      (admits : Admits limits levels depth)
      (below : Reduces rounds (depth + 1) body progress outcome after) :
      Reduces rounds depth (.abs binder body) progress (outcome.map (.abs binder)) after
  | spent {rounds depth progress} (binder : Name) (body argument : Term)
      (admits : Admits limits levels depth)
      (usedUp : limits.stepsUsedUp progress.trace.size = true) :
      Reduces rounds depth (.app (.abs binder body) argument) progress (.error .steps) progress
  | noRound {depth progress} (binder : Name) (body argument : Term)
      (admits : Admits limits levels depth)
      (left : limits.stepsUsedUp progress.trace.size = false) :
      Reduces 0 depth (.app (.abs binder body) argument) progress (.error .capacity)
        (contracted avoid binder body argument progress).2
  | contract {rounds depth progress outcome after} (binder : Name) (body argument : Term)
      (admits : Admits limits levels depth)
      (left : limits.stepsUsedUp progress.trace.size = false)
      (resumed : Reduces rounds depth (contracted avoid binder body argument progress).1
        (contracted avoid binder body argument progress).2 outcome after) :
      Reduces (rounds + 1) depth (.app (.abs binder body) argument) progress outcome after
  | functionStop {rounds depth function argument progress stop after}
      (admits : Admits limits levels depth) (entered : function.isAbstraction = false)
      (below : Reduces rounds (depth + 1) function progress (.error stop) after) :
      Reduces rounds depth (.app function argument) progress (.error stop) after
  | functionAbs {rounds depth function argument progress binder body middle outcome after}
      (admits : Admits limits levels depth) (entered : function.isAbstraction = false)
      (below : Reduces rounds (depth + 1) function progress (.ok (.abs binder body)) middle)
      (redex : Reduces rounds depth (.app (.abs binder body) argument) middle outcome after) :
      Reduces rounds depth (.app function argument) progress outcome after
  | argument {rounds depth function argument progress normal middle outcome after}
      (admits : Admits limits levels depth) (entered : function.isAbstraction = false)
      (below : Reduces rounds (depth + 1) function progress (.ok normal) middle)
      (neutral : normal.isAbstraction = false)
      (beside : Reduces rounds (depth + 1) argument middle outcome after) :
      Reduces rounds depth (.app function argument) progress (outcome.map (.app normal)) after

end

variable {limits : Limits} {levels : Nat} {avoid : List Name} {rounds depth : Nat}

theorem reduceAt_eq : reduceAt limits levels avoid rounds =
    reduceWith limits levels avoid (resumeAt limits levels avoid rounds) := by
  cases rounds <;> rfl

theorem exists_eq_abs {term : Term} (isAbstraction : term.isAbstraction = true) :
    ∃ binder body, term = abs binder body := by
  cases term with
  | abs binder body => exact ⟨binder, body, rfl⟩
  | _ => simp [Term.isAbstraction] at isAbstraction

/-! ## One equation for each shape of a term -/

theorem reduceAt_tooDeep (deep : limits.tooDeep depth = true) (term : Term)
    (progress : Progress) :
    reduceAt limits levels avoid rounds depth term progress = (.error .depth, progress) := by
  cases term <;> rw [reduceAt_eq, reduceWith, if_pos deep]

theorem reduceAt_noLevel (allowed : limits.tooDeep depth = false) (low : levels < depth)
    (term : Term) (progress : Progress) :
    reduceAt limits levels avoid rounds depth term progress = (.error .capacity, progress) := by
  cases term <;> rw [reduceAt_eq, reduceWith, if_neg (by simp [allowed]), if_pos low]

variable (admits : Admits limits levels depth)

include admits

theorem reduceAt_var (name : Name) (progress : Progress) :
    reduceAt limits levels avoid rounds depth (var name) progress =
      (.ok (var name), progress) := by
  rw [reduceAt_eq, reduceWith, if_neg (by simp [admits.1]), if_neg (by simp [admits.2])]

theorem reduceAt_abs (binder : Name) (body : Term) (progress : Progress) :
    reduceAt limits levels avoid rounds depth (abs binder body) progress =
      ((reduceAt limits levels avoid rounds (depth + 1) body progress).1.map (abs binder),
        (reduceAt limits levels avoid rounds (depth + 1) body progress).2) := by
  rw [reduceAt_eq, reduceWith, if_neg (by simp [admits.1]), if_neg (by simp [admits.2])]
  split <;> simp_all [Except.map]

theorem reduceAt_redex (binder : Name) (body argument : Term) (progress : Progress) :
    reduceAt limits levels avoid rounds depth (app (abs binder body) argument) progress =
      if limits.stepsUsedUp progress.trace.size then (.error .steps, progress)
      else resumeAt limits levels avoid rounds depth
        (contracted avoid binder body argument progress).1
        (contracted avoid binder body argument progress).2 := by
  rw [reduceAt_eq, reduceWith, if_neg (by simp [admits.1]), if_neg (by simp [admits.2])]
  rfl

variable {function : Term} (entered : function.isAbstraction = false)

include entered

theorem reduceAt_app_of_error {progress after : Progress} {stop : Stop} (argument : Term)
    (below : reduceAt limits levels avoid rounds (depth + 1) function progress =
      (.error stop, after)) :
    reduceAt limits levels avoid rounds depth (app function argument) progress =
      (.error stop, after) := by
  rw [reduceAt_eq] at below ⊢
  rw [reduceWith, if_neg (by simp [admits.1]), if_neg (by simp [admits.2])]
  simp [entered, below]

theorem reduceAt_app_of_abs {progress middle : Progress} {binder : Name} {body : Term}
    (argument : Term)
    (below : reduceAt limits levels avoid rounds (depth + 1) function progress =
      (.ok (abs binder body), middle)) :
    reduceAt limits levels avoid rounds depth (app function argument) progress =
      reduceAt limits levels avoid rounds depth (app (abs binder body) argument) middle := by
  rw [reduceAt_redex admits]
  rw [reduceAt_eq] at below ⊢
  rw [reduceWith, if_neg (by simp [admits.1]), if_neg (by simp [admits.2])]
  simp [entered, below, contracted]

theorem reduceAt_app_of_neutral {progress middle : Progress} {normal : Term} (argument : Term)
    (below : reduceAt limits levels avoid rounds (depth + 1) function progress =
      (.ok normal, middle))
    (neutral : normal.isAbstraction = false) :
    reduceAt limits levels avoid rounds depth (app function argument) progress =
      ((reduceAt limits levels avoid rounds (depth + 1) argument middle).1.map (app normal),
        (reduceAt limits levels avoid rounds (depth + 1) argument middle).2) := by
  rw [reduceAt_eq] at below ⊢
  rw [reduceWith, if_neg (by simp [admits.1]), if_neg (by simp [admits.2])]
  simp only [entered, below]
  cases normal with
  | abs binder body => simp [Term.isAbstraction] at neutral
  | var name =>
      simp only [Bool.false_eq_true, if_false]
      split <;> simp_all [Except.map]
  | app first second =>
      simp only [Bool.false_eq_true, if_false]
      split <;> simp_all [Except.map]

omit entered admits

/-! ## The function follows the rules -/

theorem reduceAt_of_reduces {term : Term} {progress after : Progress}
    {outcome : Except Stop Term}
    (reduces : Reduces limits levels avoid rounds depth term progress outcome after) :
    reduceAt limits levels avoid rounds depth term progress = (outcome, after) := by
  induction reduces with
  | tooDeep deep => exact reduceAt_tooDeep deep _ _
  | noLevel allowed low => exact reduceAt_noLevel allowed low _ _
  | var name admits => exact reduceAt_var admits name _
  | abs binder admits _ ih => rw [reduceAt_abs admits, ih]
  | spent binder body argument admits usedUp =>
      rw [reduceAt_redex admits, if_pos usedUp]
  | noRound binder body argument admits left =>
      rw [reduceAt_redex admits, if_neg (by simp [left])]
      rfl
  | contract binder body argument admits left _ ih =>
      rw [reduceAt_redex admits, if_neg (by simp [left])]
      exact ih
  | functionStop admits entered _ ih => exact reduceAt_app_of_error admits entered _ ih
  | functionAbs admits entered _ _ below_ih redex_ih =>
      rw [reduceAt_app_of_abs admits entered _ below_ih, redex_ih]
  | argument admits entered _ neutral _ below_ih beside_ih =>
      rw [reduceAt_app_of_neutral admits entered _ below_ih neutral, beside_ih]

theorem exists_reduces_redex (admits : Admits limits levels depth) (binder : Name)
    (body argument : Term) (progress : Progress)
    (resumed : ∀ fewer, rounds = fewer + 1 → ∀ term progress, ∃ outcome after,
      Reduces limits levels avoid fewer depth term progress outcome after) :
    ∃ outcome after, Reduces limits levels avoid rounds depth (app (abs binder body) argument)
      progress outcome after := by
  cases left : limits.stepsUsedUp progress.trace.size with
  | true => exact ⟨_, _, .spent binder body argument admits left⟩
  | false =>
      cases rounds with
      | zero => exact ⟨_, _, .noRound binder body argument admits left⟩
      | succ fewer =>
          obtain ⟨outcome, after, later⟩ := resumed fewer rfl
            (contracted avoid binder body argument progress).1
            (contracted avoid binder body argument progress).2
          exact ⟨_, _, .contract binder body argument admits left later⟩

theorem exists_reduces_of_admits {term : Term} {progress : Progress}
    (admitted : Admits limits levels depth → ∃ outcome after,
      Reduces limits levels avoid rounds depth term progress outcome after) :
    ∃ outcome after,
      Reduces limits levels avoid rounds depth term progress outcome after := by
  cases deep : limits.tooDeep depth with
  | true => exact ⟨_, _, .tooDeep deep⟩
  | false =>
      rcases Nat.lt_or_ge levels depth with low | high
      · exact ⟨_, _, .noLevel deep low⟩
      · exact admitted ⟨deep, high⟩

theorem exists_reduces (limits : Limits) (levels : Nat) (avoid : List Name) (rounds depth : Nat)
    (term : Term) (progress : Progress) :
    ∃ outcome after,
      Reduces limits levels avoid rounds depth term progress outcome after := by
  -- an abstraction that a function turns into takes one round less, everything else is smaller
  induction rounds using Nat.strongRecOn generalizing depth term progress with
  | ind rounds rounds_ih =>
    have resumed : ∀ depth fewer, rounds = fewer + 1 → ∀ term progress, ∃ outcome after,
        Reduces limits levels avoid fewer depth term progress outcome after :=
      fun depth fewer isNext term progress =>
        rounds_ih fewer (by omega) depth term progress
    induction term generalizing depth progress with
    | var name => exact exists_reduces_of_admits fun admits => ⟨_, _, .var name admits⟩
    | abs binder body ih =>
        refine exists_reduces_of_admits fun admits => ?_
        obtain ⟨outcome, after, below⟩ := ih (depth + 1) progress
        exact ⟨_, _, .abs binder admits below⟩
    | app function argument function_ih argument_ih =>
        refine exists_reduces_of_admits fun admits => ?_
        cases entered : function.isAbstraction with
        | true =>
            obtain ⟨binder, body, rfl⟩ := exists_eq_abs entered
            exact exists_reduces_redex admits binder body argument progress (resumed depth)
        | false =>
            obtain ⟨outcome, middle, below⟩ := function_ih (depth + 1) progress
            rcases outcome with stop | normal
            · exact ⟨_, _, .functionStop admits entered below⟩
            · cases neutral : normal.isAbstraction with
              | true =>
                  obtain ⟨binder, body, rfl⟩ := exists_eq_abs neutral
                  obtain ⟨outcome, after, redex⟩ :=
                    exists_reduces_redex admits binder body argument middle (resumed depth)
                  exact ⟨_, _, .functionAbs admits entered below redex⟩
              | false =>
                  obtain ⟨outcome, after, beside⟩ := argument_ih (depth + 1) middle
                  exact ⟨_, _, .argument admits entered below neutral beside⟩

/-- The rules describe the function, and they leave nothing open. -/
theorem reduces_iff {term : Term} {progress after : Progress} {outcome : Except Stop Term} :
    Reduces limits levels avoid rounds depth term progress outcome after ↔
      reduceAt limits levels avoid rounds depth term progress = (outcome, after) := by
  constructor
  · exact reduceAt_of_reduces
  · intro computed
    obtain ⟨other, otherAfter, reduces⟩ :=
      exists_reduces limits levels avoid rounds depth term progress
    have same := Prod.mk.inj ((reduceAt_of_reduces reduces).symm.trans computed)
    exact same.1 ▸ same.2 ▸ reduces

theorem Reduces.unique {term : Term} {progress after after' : Progress}
    {outcome outcome' : Except Stop Term}
    (reduces : Reduces limits levels avoid rounds depth term progress outcome after)
    (other : Reduces limits levels avoid rounds depth term progress outcome' after') :
    outcome = outcome' ∧ after = after' := by
  have same := (reduceAt_of_reduces reduces).symm.trans (reduceAt_of_reduces other)
  exact Prod.mk.inj same

end BetaNormal.Term

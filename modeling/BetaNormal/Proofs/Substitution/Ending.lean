import BetaNormal.Operand
import BetaNormal.Proofs.Fuel
import BetaNormal.Proofs.Name.Drawing
import BetaNormal.Proofs.Substitution.Rules

/-!
# Substitution comes to an end

Step by step, a substitution tries names, renames binders by substitutions of their own, and goes on
below what has become of a scope.  It might go on for ever, come to a name that is none, or refuse
to rename a binder.  None of this can happen.  Only a number that is too long to be written ends a
substitution before its time.
-/

namespace BetaNormal.Term

/-- What can come between a substitution and its result. -/
inductive Mishap where
  | noName (mishap : Supply.Mishap)
  | notRenamed (fault : RenamingFault)
  deriving DecidableEq

/-- Substitutes step by step. -/
def trySubstitute (avoid : List Name) : (fuel : Nat) → (name : Name) → (value term : Term) →
    Supply → ExceptT Mishap Option (Term × Supply)
  | 0, _, _, _, _ => ExceptT.mk none
  | _ + 1, name, value, var other, supply =>
      pure (if other = name then value else var other, supply)
  | fuel + 1, name, value, app function argument, supply => do
      let left ← trySubstitute avoid fuel name value function supply
      let right ← trySubstitute avoid fuel name value argument left.2
      pure (app left.1 right.1, right.2)
  | fuel + 1, name, value, abs binder body, supply =>
      if binder = name then pure (abs binder body, supply)
      else if value.occursFree binder then do
        let drawn ← (supply.tryFresh (value.names ++ body.names ++ name :: avoid) fuel).adapt
          .noName
        -- the binder is renamed by a substitution of its own, unless that is refused
        if binder ≠ drawn.1 ∧ body.occursFree drawn.1 then
          throw (.notRenamed (.occursFree drawn.1 body))
        else
          let renamed ← trySubstitute avoid fuel binder (var drawn.1) body drawn.2
          let below ← trySubstitute avoid fuel name value renamed.1 renamed.2
          pure (abs drawn.1 below.1, below.2)
      else do
        let below ← trySubstitute avoid fuel name value body supply
        pure (abs binder below.1, below.2)

/-- The result of steps, unless the supply has outrun the numerals on the way. -/
def unlessOutrun {α : Type} (before : Supply) (result : α × Supply) :
    ExceptT Mishap Option (α × Supply) :=
  if before.outran result.2 then throw (.noName .numeralTooLong) else pure result

section

variable {α β : Type} {before : Supply} {result : α × Supply} {further : β × Supply}
variable {steps : Nat → ExceptT Mishap Option (α × Supply)}

theorem unlessOutrun_self (supply : Supply) (result : α) :
    unlessOutrun supply (result, supply) = pure (result, supply) := by
  simp [unlessOutrun, Supply.outran_self]

theorem comesTo_tryFresh (supply : Supply) (avoid : List Name) :
    ComesTo (fun fuel => (supply.tryFresh avoid fuel).adapt .noName)
      (unlessOutrun supply (supply.fresh avoid)) := by
  refine ⟨avoid.length + 1, fun fuel enough => ?_⟩
  simp only [supply.tryFresh_eq avoid enough, unlessOutrun]
  split <;> rfl

theorem comesTo_bind {next : Nat → α × Supply → ExceptT Mishap Option (β × Supply)}
    (first : ComesTo steps (unlessOutrun before result))
    (later : ComesTo (fun fuel => next fuel result) (unlessOutrun result.2 further))
    (drawn : before.counter ≤ result.2.counter)
    (drawnLater : result.2.counter ≤ further.2.counter) :
    ComesTo (fun fuel => steps fuel >>= next fuel) (unlessOutrun before further) := by
  unfold unlessOutrun at first later ⊢
  rw [Supply.outran_eq_or drawn drawnLater]
  cases beyond : before.outran result.2 with
  | true =>
      rw [beyond] at first
      exact first.bind_throw
  | false =>
      rw [beyond] at first
      exact first.bind_pure later

theorem comesTo_map (comes : ComesTo steps (unlessOutrun before result)) (convert : α → β) :
    ComesTo (fun fuel => steps fuel >>= fun done => pure (convert done.1, done.2))
      (unlessOutrun before (convert result.1, result.2)) := by
  unfold unlessOutrun at comes ⊢
  cases beyond : before.outran result.2 with
  | true =>
      rw [beyond] at comes
      exact comes.bind_throw
  | false =>
      rw [beyond] at comes
      exact comes.bind_pure (.const _)

end

variable {avoid names : List Name} {name : Name} {value term result : Term}
variable {before after : Supply}

/-! ## Every step by the rules -/

theorem Substitutes.counter_le
    (substitutes : Substitutes avoid name value term before names result after) :
    before.counter ≤ after.counter := by
  obtain ⟨rfl, same⟩ := substitutes.eq_substitute
  have gives := gives_drawn name value avoid term before
  rw [← same] at gives
  exact gives.counter_le

/-- What the rules lead to is what the steps come to, and nothing but a number can get in their
way. -/
theorem Substitutes.comesTo
    (substitutes : Substitutes avoid name value term before names result after) :
    ComesTo (fun fuel => trySubstitute avoid fuel name value term before)
      (unlessOutrun before (result, after)) := by
  induction substitutes with
  | found =>
      apply ComesTo.of_succ
      simp only [trySubstitute, if_true, unlessOutrun_self]
      exact .const _
  | other other different =>
      apply ComesTo.of_succ
      simp only [trySubstitute, if_neg different, unlessOutrun_self]
      exact .const _
  | app left right left_ih right_ih =>
      apply ComesTo.of_succ
      simp only [trySubstitute]
      refine comesTo_bind left_ih ?_ left.counter_le right.counter_le
      exact comesTo_map right_ih _
  | shadowed =>
      apply ComesTo.of_succ
      simp only [trySubstitute, if_true, unlessOutrun_self]
      exact .const _
  | kept different harmless below ih =>
      apply ComesTo.of_succ
      simp only [trySubstitute, if_neg different, harmless, Bool.false_eq_true, if_false]
      exact comesTo_map ih _
  | @renamed name value binder body _ _ supply _ _ _ _ _ different captures fresh accepted renames
      below renames_ih below_ih =>
      have tries := comesTo_tryFresh supply (value.names ++ body.names ++ name :: avoid)
      have drawn := Nat.le_of_lt
        (supply.counter_lt_fresh (value.names ++ body.names ++ name :: avoid))
      rw [fresh] at tries drawn
      apply ComesTo.of_succ
      simp only [trySubstitute, if_neg different, captures, if_true]
      refine comesTo_bind tries ?_ drawn (Nat.le_trans renames.counter_le below.counter_le)
      simp only [if_neg accepted]
      refine comesTo_bind renames_ih ?_ renames.counter_le below.counter_le
      exact comesTo_map below_ih _

theorem comesTo_trySubstitute (name : Name) (value : Term) (avoid : List Name) (term : Term)
    (supply : Supply) :
    ComesTo (fun fuel => trySubstitute avoid fuel name value term supply)
      (unlessOutrun supply (substitute name value avoid term supply)) :=
  (substitutes_substitute name value avoid term supply).comesTo

theorem counter_le_substitute (name : Name) (value : Term) (avoid : List Name) (term : Term)
    (supply : Supply) : supply.counter ≤ (substitute name value avoid term supply).2.counter :=
  (substitutes_substitute name value avoid term supply).counter_le

/-- To look at the supply when all is done is to look at every number before it is written. -/
theorem withinNumerals_substitute (name : Name) (value : Term) (avoid : List Name) (term : Term)
    {supply : Supply} (standing : supply.isOverrun = false) :
    (substitute name value avoid term supply).2.isOverrun =
      supply.outran (substitute name value avoid term supply).2 := by
  have grown := counter_le_substitute name value avoid term supply
  unfold Supply.outran
  rcases Nat.lt_or_eq_of_le grown with more | same
  · simp [more]
  · unfold Supply.isOverrun at standing ⊢
    rw [← same, standing, Bool.and_false]

/-- Whatever is substituted for whatever name, the steps come to an end.  They come to the result of
the substitution, unless they have to draw a name whose number is too long to be written.  No name
that is drawn is none, and no binder has to keep its name.  With a supply from which names can still
be drawn, the operation on operands comes to the same. -/
theorem substitution_ends (name : Name) (value : Term) (avoid : List Name) (term : Term)
    (supply : Supply) :
    ComesTo (fun fuel => (trySubstitute avoid fuel name value term supply).run)
      (some (if supply.outran (substitute name value avoid term supply).2 then
          .error (.noName .numeralTooLong)
        else .ok (substitute name value avoid term supply))) ∧
    (supply.isOverrun = false →
      Operand.substitute (.term (.var name)) (.term value) avoid (.term term) supply =
        if supply.outran (substitute name value avoid term supply).2 then .error .numeralTooLong
        else .ok (.term (substitute name value avoid term supply).1,
          (substitute name value avoid term supply).2)) := by
  constructor
  · have comes := (comesTo_trySubstitute name value avoid term supply).congr ExceptT.run
    unfold unlessOutrun at comes
    cases beyond : supply.outran (substitute name value avoid term supply).2 with
    | true =>
        rw [beyond] at comes
        exact comes
    | false =>
        rw [beyond] at comes
        exact comes
  · intro standing
    have bound : Operand.substitute (.term (.var name)) (.term value) avoid (.term term) supply =
        Operand.withinNumerals (Operand.term (substitute name value avoid term supply).1,
          (substitute name value avoid term supply).2) := by
      simp only [Operand.substitute, Operand.toTerm, Operand.toName, bind, Except.bind]
    rw [bound, Operand.withinNumerals, withinNumerals_substitute name value avoid term standing]

/-! ## Numbers that are too long -/

/-- `(λy.x λy.x)` -/
def twoClashes : Term := app (abs .y (var .x)) (abs .y (var .x))

theorem counter_twoClashes (avoid : List Name) (supply : Supply) :
    supply.counter + 1 < (substitute .x (var .y) avoid twoClashes supply).2.counter := by
  have different : Name.y ≠ .x := by decide
  have captures : (var .y).occursFree .y = true := by decide
  have next : ∀ supply : Supply, supply.counter <
      (substitute .x (var .y) avoid (abs .y (var .x)) supply).2.counter := by
    intro supply
    rw [substitute, if_neg different, if_pos captures]
    exact Nat.lt_of_lt_of_le (supply.counter_lt_fresh _) (counter_le_substitute _ _ _ _ _)
  rw [twoClashes, substitute]
  exact Nat.lt_of_le_of_lt (next supply) (next _)

/-- The first of the two clashes takes the last number. -/
theorem not_always_substituted :
    ¬ ∀ (stem : Text) (first : Int) (supply : Supply), Supply.start stem first = .ok supply →
      Text.hasNumeral supply.counter = true →
      ∀ (name : Name) (value : Term) (avoid : List Name) (term : Term),
        ∃ result, ComesTo (fun fuel => (trySubstitute avoid fuel name value term supply).run)
          (some (.ok result)) := by
  intro always
  obtain ⟨result, done⟩ := always _ _ _ (Supply.start_ofNat .last) Supply.hasNumeral_last .x
    (var .y) [] twoClashes
  have beyond := Supply.outran_last (counter_twoClashes [] .last)
  have comes := (comesTo_trySubstitute .x (var .y) [] twoClashes .last).congr ExceptT.run
  rw [unlessOutrun, if_pos beyond] at comes
  cases comes.unique done

end BetaNormal.Term

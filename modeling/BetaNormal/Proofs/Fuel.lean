/-!
# Steps that come to an end

Steps that may go on for ever are taken with fuel, of which every call uses up a unit.  Without
fuel there is no outcome.  What the steps come to is what they come to with any amount of fuel that
is not too little.
-/

namespace BetaNormal

/-- Whether steps have an outcome with all but too little fuel. -/
def ComesTo {α : Type} (steps : Nat → α) (outcome : α) : Prop :=
  ∃ enough, ∀ fuel, enough ≤ fuel → steps fuel = outcome

namespace ComesTo

section

variable {α : Type} {steps : Nat → α} {outcome other : α}

theorem const (outcome : α) : ComesTo (fun _ => outcome) outcome :=
  ⟨0, fun _ _ => rfl⟩

theorem of_succ (later : ComesTo (fun fuel => steps (fuel + 1)) outcome) :
    ComesTo steps outcome := by
  obtain ⟨enough, comes⟩ := later
  refine ⟨enough + 1, fun fuel more => ?_⟩
  have used := comes (fuel - 1) (Nat.le_sub_one_of_lt more)
  simp only [Nat.sub_add_cancel (Nat.one_le_of_lt more)] at used
  exact used

theorem succ (comes : ComesTo steps outcome) : ComesTo (fun fuel => steps (fuel + 1)) outcome := by
  obtain ⟨enough, comes⟩ := comes
  exact ⟨enough, fun fuel more => comes (fuel + 1) (Nat.le_succ_of_le more)⟩

theorem unique (comes : ComesTo steps outcome) (comesToo : ComesTo steps other) :
    outcome = other := by
  obtain ⟨enough, comes⟩ := comes
  obtain ⟨enoughToo, comesToo⟩ := comesToo
  rw [← comes (max enough enoughToo) (by omega), comesToo (max enough enoughToo) (by omega)]

theorem congr {β : Type} (convert : α → β) (comes : ComesTo steps outcome) :
    ComesTo (fun fuel => convert (steps fuel)) (convert outcome) := by
  obtain ⟨enough, comes⟩ := comes
  exact ⟨enough, fun fuel more => congrArg convert (comes fuel more)⟩

end

variable {ε α β : Type} {steps : Nat → ExceptT ε Option α} {outcome : ExceptT ε Option β}
variable {next : Nat → α → ExceptT ε Option β} {value : α} {fault : ε}

theorem bind_pure (first : ComesTo steps (pure value))
    (later : ComesTo (fun fuel => next fuel value) outcome) :
    ComesTo (fun fuel => steps fuel >>= next fuel) outcome := by
  obtain ⟨enough, comes⟩ := first
  obtain ⟨enoughLater, comesLater⟩ := later
  refine ⟨max enough enoughLater, fun fuel more => ?_⟩
  have here := comes fuel (by omega)
  have there := comesLater fuel (by omega)
  simp only [here, pure_bind, there]

theorem bind_throw (first : ComesTo steps (throw fault)) :
    ComesTo (fun fuel => steps fuel >>= next fuel) (throw fault) := by
  obtain ⟨enough, comes⟩ := first
  refine ⟨enough, fun fuel more => ?_⟩
  simp only [comes fuel more]
  rfl

end ComesTo

end BetaNormal

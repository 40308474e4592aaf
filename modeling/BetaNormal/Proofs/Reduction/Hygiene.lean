import BetaNormal.Proofs.Reduction.Trace
import BetaNormal.Proofs.Substitution.Drawn

/-!
# Names that a reduction invents

A substitution draws a name for each binder that would capture a variable.  A reduction avoids the
names of the term that it started from, and no others from one contraction to the next.  That is
enough, because whatever else the whole term has come to contain was drawn from the same supply,
and a supply gives nothing out twice.
-/

namespace BetaNormal

/-! ## One contraction -/

namespace Contraction

/-- The names that a contraction draws from the supply, in order. -/
def drawn (avoid : List Name) (supply : Supply) (contraction : Contraction) : List Name :=
  match contraction.function with
  | .abs binder body => Term.drawn binder contraction.argument avoid body supply
  | _ => []

def left (avoid : List Name) (supply : Supply) (contraction : Contraction) : Supply :=
  match contraction.function with
  | .abs binder body =>
      (Term.substitute binder contraction.argument avoid body supply).2
  | _ => supply

def names (contraction : Contraction) : List Name :=
  contraction.redex.names ++ contraction.result.names

/-- What is asked of the names that a contraction of a whole term draws, in a reduction that
started from another one.  What has been substituted when a name is drawn has the names of the
whole term and of those drawn before, so the name occurs nowhere then. -/
structure Hygienic (origin whole : Term) (supply after : Supply) (contraction : Contraction) :
    Prop where
  gives : supply.Gives (contraction.drawn origin.names supply) after
  mem_iff : ∀ name, name ∈ contraction.drawn origin.names supply ↔
    name ∈ contraction.result.names ∧ name ∉ contraction.redex.names
  absent : ∀ name ∈ contraction.drawn origin.names supply,
    name ∉ whole.names ∧ name ∉ origin.names
  new : ∀ earlier given, Supply.Gives earlier given supply →
    (given ++ contraction.drawn origin.names supply).Nodup

end Contraction

namespace Term

variable {avoid : List Name} {path : Path} {contraction : Contraction}
variable {steps : List Contraction} {before after origin : Term} {supply supply' start : Supply}

theorem Advances.left_eq
    (advances : Advances avoid path contraction before supply after supply') :
    contraction.left avoid supply = supply' := by
  obtain ⟨binder, body, isAbs, contracted⟩ := advances.exists_contraction_eq
  simp only [Contraction.left, isAbs]
  exact (congrArg Prod.snd contracted).symm

theorem Advances.gives
    (advances : Advances avoid path contraction before supply after supply') :
    supply.Gives (contraction.drawn avoid supply) supply' := by
  rw [← advances.left_eq]
  obtain ⟨binder, body, isAbs, -⟩ := advances.exists_contraction_eq
  simp only [Contraction.drawn, Contraction.left, isAbs]
  exact gives_drawn binder contraction.argument avoid body supply

theorem Advances.not_mem_avoid
    (advances : Advances avoid path contraction before supply after supply') :
    ∀ new ∈ contraction.drawn avoid supply, new ∉ avoid := by
  obtain ⟨binder, body, isAbs, -⟩ := advances.exists_contraction_eq
  simp only [Contraction.drawn, isAbs]
  exact not_mem_avoid_of_drawn binder contraction.argument avoid body supply

theorem Advances.mem_result_of_drawn
    (advances : Advances avoid path contraction before supply after supply') :
    ∀ new ∈ contraction.drawn avoid supply, new ∈ contraction.result.names := by
  obtain ⟨binder, body, isAbs, contracted⟩ := advances.exists_contraction_eq
  have result : contraction.result = _ := congrArg Prod.fst contracted
  simp only [Contraction.drawn, isAbs, result]
  exact mem_names_substitute_of_drawn binder contraction.argument avoid body supply

theorem Advances.mem_names_result
    (advances : Advances avoid path contraction before supply after supply') :
    ∀ name ∈ contraction.result.names,
      name ∈ contraction.redex.names ∨ name ∈ contraction.drawn avoid supply := by
  intro name occurs
  obtain ⟨binder, body, isAbs, contracted⟩ := advances.exists_contraction_eq
  have result : contraction.result = _ := congrArg Prod.fst contracted
  rw [result] at occurs
  have source := mem_names_substitute binder contraction.argument avoid body supply name occurs
  simp only [Contraction.redex, Contraction.drawn, isAbs, names, List.cons_append, List.mem_cons,
    List.mem_append]
  tauto

theorem Advances.mem_names_after
    (advances : Advances avoid path contraction before supply after supply') :
    ∀ name ∈ after.names, name ∈ before.names ∨ name ∈ contraction.drawn avoid supply := by
  intro name occurs
  rw [advances.eq_put] at occurs
  rcases mem_names_put occurs with inBefore | inResult
  · exact .inl inBefore
  · refine (advances.mem_names_result name inResult).imp_left fun inRedex => ?_
    exact names_subterm?_subset advances.subterm?_eq inRedex

/-! ## What a run knows of its names -/

/-- How far a run has come that started from a term with a supply: the names of the whole term are
those of the first one and names that the supply has given out since. -/
structure Reached (origin : Term) (start : Supply) (whole : Term) (supply : Supply) : Prop where
  stem : supply.stem = start.stem
  counter : start.counter ≤ supply.counter
  names : ∀ name ∈ whole.names, name ∈ origin.names ∨ start.Between supply name

theorem Reached.refl (term : Term) (supply : Supply) : Reached term supply term supply :=
  ⟨rfl, Nat.le_refl _, fun _ => .inl⟩

theorem Reached.advance (reached : Reached origin start before supply)
    (advances : Advances avoid path contraction before supply after supply') :
    Reached origin start after supply' := by
  have gives := advances.gives
  refine ⟨gives.stem_eq.trans reached.stem, Nat.le_trans reached.counter gives.counter_le, ?_⟩
  intro name occurs
  rcases advances.mem_names_after name occurs with older | isDrawn
  · exact (reached.names name older).imp_right fun between => between.of_le gives.counter_le
  · exact .inr ((gives.between name isDrawn).of_ge reached.stem reached.counter)

theorem Reached.not_mem_of_drawn (reached : Reached origin start before supply)
    (advances : Advances origin.names path contraction before supply after supply') :
    ∀ new ∈ contraction.drawn origin.names supply, new ∉ before.names := by
  intro new isDrawn occurs
  -- a name of the original term is avoided, and any other has been given out by now
  rcases reached.names new occurs with original | earlier
  · exact advances.not_mem_avoid new isDrawn original
  · exact earlier.not_between reached.stem (advances.gives.between new isDrawn)

theorem Reached.hygienic (reached : Reached origin start before supply)
    (advances : Advances origin.names path contraction before supply after supply') :
    contraction.Hygienic origin before supply supply' where
  gives := advances.gives
  mem_iff name := by
    constructor
    · intro isDrawn
      refine ⟨advances.mem_result_of_drawn name isDrawn, fun inRedex => ?_⟩
      exact reached.not_mem_of_drawn advances name isDrawn
        (names_subterm?_subset advances.subterm?_eq inRedex)
    · rintro ⟨inResult, notInRedex⟩
      exact (advances.mem_names_result name inResult).resolve_left notInRedex
  absent name isDrawn :=
    ⟨reached.not_mem_of_drawn advances name isDrawn, advances.not_mem_avoid name isDrawn⟩
  new _ _ gives := (gives.append advances.gives).nodup

theorem Reached.names_contraction (reached : Reached origin start before supply)
    (advances : Advances avoid path contraction before supply after supply') :
    ∀ name ∈ contraction.names, name ∈ origin.names ∨ start.Between supply' name := by
  have redex : ∀ name ∈ contraction.redex.names,
      name ∈ origin.names ∨ start.Between supply' name := by
    intro name occurs
    have source := reached.names name (names_subterm?_subset advances.subterm?_eq occurs)
    exact source.imp_right fun between => between.of_le advances.gives.counter_le
  intro name occurs
  rcases List.mem_append.mp occurs with inRedex | inResult
  · exact redex name inRedex
  · rcases advances.mem_names_result name inResult with inRedex | isDrawn
    · exact redex name inRedex
    · exact .inr ((advances.gives.between name isDrawn).of_ge reached.stem reached.counter)

theorem Runs.reached (runs : Runs avoid steps before supply after supply')
    (reached : Reached origin start before supply) : Reached origin start after supply' := by
  induction runs with
  | nil term supply => exact reached
  | cons first _ ih => exact ih (reached.advance first)

/-! ## Whole reductions -/

theorem exists_reached_normalize (capacity : Capacity) (limits : Limits) (term : Term)
    (supply : Supply) :
    ∃ whole, Reached term supply whole (term.normalize capacity limits supply).2 ∧
      ∀ reduction, (term.normalize capacity limits supply).1 = .ok reduction →
        reduction.term = whole := by
  obtain ⟨whole, runs, done⟩ := normalize_runs capacity limits term supply
  exact ⟨whole, runs.reached (.refl term supply), fun reduction success =>
    (done reduction success).1.symm⟩

/-- The names that are drawn for contractions, one after the other. -/
def drawnFor (avoid : List Name) : List Contraction → Supply → List Name
  | [], _ => []
  | contraction :: steps, supply =>
      contraction.drawn avoid supply ++ drawnFor avoid steps (contraction.left avoid supply)

theorem Runs.gives (runs : Runs avoid steps before supply after supply') :
    supply.Gives (drawnFor avoid steps supply) supply' := by
  induction runs with
  | nil term supply => exact .nil supply
  | cons advances _ ih =>
      rw [drawnFor, advances.left_eq]
      exact advances.gives.append ih

theorem Runs.names_steps (runs : Runs origin.names steps before supply after supply')
    (reached : Reached origin start before supply) :
    ∀ name ∈ steps.flatMap Contraction.names,
      name ∈ origin.names ∨ start.Between supply' name := by
  induction runs with
  | nil term supply => simp
  | cons first later ih =>
      intro name occurs
      rw [List.flatMap_cons, List.mem_append] at occurs
      rcases occurs with inFirst | inLater
      · exact (reached.names_contraction first name inFirst).imp_right fun between =>
          between.of_le later.gives.counter_le
      · exact ih (reached.advance first) name inLater

/-- All names in what a reduction writes down and returns. -/
def written : Except Interruption Reduction → List Name
  | .ok reduction => reduction.steps.flatMap Contraction.names ++ reduction.term.names
  | .error interruption => interruption.steps.flatMap Contraction.names

/-- The names that are drawn when terms are reduced one after the other, each under bounds of its
own, with one supply. -/
def drawnInTurn (capacity : Capacity) : List (Term × Limits) → Supply → List Name
  | [], _ => []
  | (term, limits) :: others, supply =>
      drawnFor term.names (trace capacity limits term supply) supply ++
        drawnInTurn capacity others (term.normalize capacity limits supply).2

theorem exists_gives_drawnInTurn (capacity : Capacity) (jobs : List (Term × Limits))
    (supply : Supply) : ∃ supply', supply.Gives (drawnInTurn capacity jobs supply) supply' := by
  induction jobs generalizing supply with
  | nil => exact ⟨supply, .nil supply⟩
  | cons job others ih =>
      obtain ⟨term, limits⟩ := job
      obtain ⟨whole, runs, -⟩ := normalize_runs capacity limits term supply
      obtain ⟨supply', later⟩ := ih (term.normalize capacity limits supply).2
      exact ⟨supply', runs.gives.append later⟩

/-- Names are invented hygienically, by each contraction of a reduction and from one reduction to
the next.  Whatever a reduction writes down or returns is made of the names of its term and of
numbers between those where the supply stood before and after, and reductions that share a supply,
successful or not, never draw one name twice. -/
theorem drawn_names_new (capacity : Capacity) (limits : Limits) (term : Term)
    (supply : Supply) :
    (∃ (whole : Nat → Term) (left : Nat → Supply),
      whole 0 = term ∧ left 0 = supply ∧
      left (trace capacity limits term supply).length =
        (term.normalize capacity limits supply).2 ∧
      ∀ (i : Nat) (contraction : Contraction),
        (trace capacity limits term supply)[i]? = some contraction →
          (∃ path, (whole i).subterm? path = some contraction.redex ∧
            whole (i + 1) = (whole i).put path contraction.result) ∧
          contraction.Hygienic term (whole i) (left i) (left (i + 1))) ∧
    (∀ name ∈ written (term.normalize capacity limits supply).1,
      name ∈ term.names ∨ supply.Between (term.normalize capacity limits supply).2 name) ∧
    ∀ jobs, (drawnInTurn capacity jobs supply).Nodup := by
  obtain ⟨last, runs, done⟩ := normalize_runs capacity limits term supply
  have first := Reached.refl term supply
  obtain ⟨whole, path, left, start, begun, -, ended, reachedLast, each⟩ :=
    runs.exists_states (fun advances reached => reached.advance advances) first
  refine ⟨⟨whole, left, start, begun, ended, fun i contraction made => ?_⟩, ?_, fun jobs => ?_⟩
  · obtain ⟨reached, advances⟩ := each i contraction made
    exact ⟨⟨path i, advances.subterm?_eq, advances.eq_put⟩, reached.hygienic advances⟩
  · have inTrace := runs.names_steps first
    cases outcome : (term.normalize capacity limits supply).1 with
    | ok reduction =>
        obtain ⟨rfl, -⟩ := done reduction outcome
        rw [trace, outcome] at inTrace
        intro name occurs
        rcases List.mem_append.mp occurs with inSteps | inResult
        · exact inTrace name inSteps
        · exact reachedLast.names name inResult
    | error interruption =>
        rw [trace, outcome] at inTrace
        exact inTrace
  · obtain ⟨supply', gives⟩ := exists_gives_drawnInTurn capacity jobs supply
    exact gives.nodup

end Term

end BetaNormal

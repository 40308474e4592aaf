import BetaNormal.Proofs.Reduction.Order

/-!
# Arguments wait

A reduction enters an argument only if the function is normal and no abstraction.  An application of
such a function is no redex, and its function stays as it is until a redex around the application is
contracted.  In normal order there is never such a redex.  But a reduction that works in the
function of a redex may come to an argument before it is known whether the argument is needed.
-/

namespace BetaNormal.Term

/-- Whether an application of a normal function that is no abstraction stands at a path. -/
def NeutralAt (term : Term) (place : Path) : Prop :=
  ∃ function argument, term.subterm? place = some (app function argument) ∧
    function.isNormal = true ∧ function.isAbstraction = false

/-- Whether such an application stands at a path and none of the applications around it is a redex
or can become one. -/
inductive Settled : Term → Path → Prop
  | here {function argument} (normal : function.isNormal = true)
      (neutral : function.isAbstraction = false) : Settled (app function argument) []
  | body {body place} (binder : Name) (below : Settled body place) :
      Settled (abs binder body) (.body :: place)
  | function {function place} (argument : Term) (entered : function.isAbstraction = false)
      (below : Settled function place) : Settled (app function argument) (.function :: place)
  | argument {function argument place} (normal : function.isNormal = true)
      (neutral : function.isAbstraction = false) (below : Settled argument place) :
      Settled (app function argument) (.argument :: place)

variable {avoid : List Name} {path place : Path} {contraction : Contraction}
variable {before after : Term} {supply supply' : Supply}

/-! ## One contraction -/

theorem Advances.not_normal
    (advances : Advances avoid path contraction before supply after supply') :
    before.isNormal = false := by
  obtain ⟨outer, found, -⟩ := advances.exists_leftmostRedex?_eq
  rw [← Bool.not_eq_true]
  intro normal
  rw [leftmostRedex?_of_normal normal] at found
  cases found

theorem not_prefix_of_within (within : place ++ [.argument] <+: path) : ¬ path <+: place := by
  intro around
  have shorter := around.length_le
  have longer := within.length_le
  simp only [List.length_append, List.length_singleton] at longer
  omega

theorem exists_eq_cons {side : Side} (within : place ++ [.argument] <+: side :: path)
    (other : side ≠ .argument) : ∃ rest, place = side :: rest ∧ rest ++ [.argument] <+: path := by
  cases place with
  | nil => exact absurd (List.cons_prefix_cons.mp within).1.symm other
  | cons first rest =>
      obtain ⟨rfl, below⟩ := List.cons_prefix_cons.mp within
      exact ⟨rest, rfl, below⟩

/-- Whatever argument a contraction is made in, its function is normal and no abstraction. -/
theorem Advances.neutralAt
    (advances : Advances avoid path contraction before supply after supply')
    (within : place ++ [.argument] <+: path) : NeutralAt before place := by
  induction advances generalizing place with
  | contract binder body argument supply => simp at within
  | body binder _ ih =>
      obtain ⟨place, rfl, below⟩ := exists_eq_cons within (by decide)
      exact ih below
  | function argument _ ih =>
      obtain ⟨place, rfl, below⟩ := exists_eq_cons within (by decide)
      exact ih below
  | @argument _ _ function argument _ _ _ normal neutral _ ih =>
      cases place with
      | nil => exact ⟨function, argument, by rw [subterm?], normal, neutral⟩
      | cons side place =>
          obtain ⟨rfl, below⟩ := List.cons_prefix_cons.mp within
          exact ih below

theorem NeutralAt.ne (neutral : NeutralAt before place)
    (advances : Advances avoid path contraction before supply after supply') : path ≠ place := by
  rintro rfl
  obtain ⟨function, argument, stands, -, notAbs⟩ := neutral
  obtain ⟨binder, body, isAbs, -⟩ := advances.exists_contraction_eq
  rw [advances.subterm?_eq, Contraction.redex, isAbs] at stands
  cases stands
  cases notAbs

/-- Only a contraction around it can change the function of such an application. -/
theorem NeutralAt.advance (neutral : NeutralAt before place)
    (advances : Advances avoid path contraction before supply after supply')
    (outside : ¬ path <+: place) : NeutralAt after place := by
  induction advances generalizing place with
  | contract binder body argument supply => exact absurd (List.nil_prefix) outside
  | body binder _ ih =>
      obtain ⟨function, argument, stands, isNeutral⟩ := neutral
      match place with
      | .body :: place =>
          apply ih ⟨function, argument, stands, isNeutral⟩
          exact fun around => outside (List.cons_prefix_cons.mpr ⟨rfl, around⟩)
  | function _ below ih =>
      obtain ⟨function, argument, stands, isNeutral⟩ := neutral
      match place with
      | [] =>
          cases stands
          rw [below.not_normal] at isNeutral
          cases isNeutral.1
      | .function :: place =>
          apply ih ⟨function, argument, stands, isNeutral⟩
          exact fun around => outside (List.cons_prefix_cons.mpr ⟨rfl, around⟩)
      | .argument :: place => exact ⟨function, argument, stands, isNeutral⟩
  | argument normal notAbs below ih =>
      obtain ⟨function, argument, stands, isNeutral⟩ := neutral
      match place with
      | [] => exact ⟨_, _, by rw [subterm?], normal, notAbs⟩
      | .function :: place => exact ⟨function, argument, stands, isNeutral⟩
      | .argument :: place =>
          apply ih ⟨function, argument, stands, isNeutral⟩
          exact fun around => outside (List.cons_prefix_cons.mpr ⟨rfl, around⟩)

/-! ## One contraction in normal order -/

theorem Advances.settled
    (advances : Advances avoid path contraction before supply after supply')
    (leftmost : before.leftmostRedex? = some path) (within : place ++ [.argument] <+: path) :
    Settled before place := by
  simp only [leftmostRedex?, first?_iff] at leftmost
  induction advances generalizing place with
  | contract binder body argument supply => simp at within
  | body binder _ ih =>
      cases leftmost with
      | body fails first =>
          obtain ⟨place, rfl, below⟩ := exists_eq_cons within (by decide)
          exact .body binder (ih below first)
  | function argument _ ih =>
      cases leftmost with
      | function fails first =>
          obtain ⟨place, rfl, below⟩ := exists_eq_cons within (by decide)
          exact .function argument fails (ih below first)
  | argument normal neutral _ ih =>
      cases leftmost with
      | argument fails passed first =>
          cases place with
          | nil => exact .here normal neutral
          | cons side place =>
              obtain ⟨rfl, below⟩ := List.cons_prefix_cons.mp within
              exact .argument normal neutral (ih below first)

theorem Settled.isAbstraction_eq {term : Term} (settled : Settled term place) :
    term.isAbstraction = (place.head? == some .body) := by
  cases settled <;> rfl

/-- No contraction is ever made around such an application, nor at it. -/
theorem Settled.advance (settled : Settled before place)
    (advances : Advances avoid path contraction before supply after supply') :
    Settled after place ∧ ¬ path <+: place := by
  induction settled generalizing path after with
  | here normal neutral =>
      cases advances with
      | contract binder body argument supply => cases neutral
      | function argument below =>
          rw [below.not_normal] at normal
          cases normal
      | argument _ _ below => exact ⟨.here normal neutral, by simp⟩
  | body binder _ ih =>
      cases advances with
      | body _ below =>
          obtain ⟨later, outside⟩ := ih below
          refine ⟨.body binder later, fun around => outside ?_⟩
          exact (List.cons_prefix_cons.mp around).2
  | function argument entered settled ih =>
      cases advances with
      | contract binder body argument supply => cases entered
      | function _ below =>
          obtain ⟨later, outside⟩ := ih below
          rw [settled.isAbstraction_eq, ← later.isAbstraction_eq] at entered
          refine ⟨.function argument entered later, fun around => outside ?_⟩
          exact (List.cons_prefix_cons.mp around).2
      | argument _ _ below => exact ⟨.function _ entered settled, by simp⟩
  | argument normal neutral _ ih =>
      cases advances with
      | contract binder body argument supply => cases neutral
      | function argument below =>
          rw [below.not_normal] at normal
          cases normal
      | argument _ _ below =>
          obtain ⟨later, outside⟩ := ih below
          refine ⟨.argument normal neutral later, fun around => outside ?_⟩
          exact (List.cons_prefix_cons.mp around).2

/-! ## The whole reduction -/

section

variable {whole : Nat → Term} {paths : Nat → Path} {left : Nat → Supply}
variable {steps : List Contraction} {first last : Nat}

variable (each : ∀ (i : Nat) (contraction : Contraction), steps[i]? = some contraction →
  Advances avoid (paths i) contraction (whole i) (left i) (whole (i + 1)) (left (i + 1)))

include each

theorem neutralAt_of_not_above (start : NeutralAt (whole first) place) (later : first ≤ last)
    (made : last ≤ steps.length)
    (notAbove : ∀ i, first ≤ i → i < last → paths i <+: place → paths i = place) :
    NeutralAt (whole last) place := by
  induction later with
  | refl => exact start
  | @step last later ih =>
      have advances := each last _ (List.getElem?_eq_getElem made)
      have before := ih (by omega) fun i notBefore below => notAbove i notBefore (by omega)
      apply before.advance advances
      intro around
      exact before.ne advances (notAbove last later (Nat.lt_succ_self last) around)

theorem settled_of_settled (start : Settled (whole first) place) (later : first ≤ last)
    (made : last ≤ steps.length) : Settled (whole last) place := by
  induction later with
  | refl => exact start
  | @step last later ih =>
      have advances := each last _ (List.getElem?_eq_getElem made)
      exact ((ih (by omega)).advance advances).1

end

/-- Wherever a contraction is made in the argument of an application, the function is normal and no
abstraction.  That application is not contracted later unless an application around it has been
contracted before.  If the contraction in the argument follows normal order, nothing is contracted
there or around it any more. -/
theorem arguments_wait (capacity : Capacity) (limits : Limits) (term : Term) (supply : Supply) :
    ∃ (whole : Nat → Term) (path : Nat → Path),
      whole 0 = term ∧
      ∀ (i : Nat) (contraction : Contraction),
        (trace capacity limits term supply)[i]? = some contraction →
          (whole i).subterm? (path i) = some contraction.redex ∧
          whole (i + 1) = (whole i).put (path i) contraction.result ∧
          ∀ place, place ++ [.argument] <+: path i →
            NeutralAt (whole i) place ∧
            (∀ j, i < j → j < (trace capacity limits term supply).length → path j = place →
              ∃ k, i < k ∧ k < j ∧ path k <+: place ∧ path k ≠ place) ∧
            ((whole i).leftmostRedex? = some (path i) →
              ∀ j, i < j → j < (trace capacity limits term supply).length →
                ¬ path j <+: place) := by
  obtain ⟨last, runs, -⟩ := normalize_runs capacity limits term supply
  obtain ⟨whole, path, left, start, -, -, each⟩ := runs.exists_sequence
  refine ⟨whole, path, start, fun i contraction made => ?_⟩
  have advances := each i contraction made
  refine ⟨advances.subterm?_eq, advances.eq_put, fun place within => ⟨?_, ?_, ?_⟩⟩
  · exact advances.neutralAt within
  · intro j later below contracted
    by_contra none
    have notAbove : ∀ k, i ≤ k → k < j → path k <+: place → path k = place := by
      intro k notBefore before around
      rcases Nat.lt_or_eq_of_le notBefore with after | rfl
      · by_contra other
        exact none ⟨k, after, before, around, other⟩
      · exact absurd around (not_prefix_of_within within)
    have neutral := neutralAt_of_not_above each (advances.neutralAt within) (Nat.le_of_lt later)
      (Nat.le_of_lt below) notAbove
    exact neutral.ne (each j _ (List.getElem?_eq_getElem below)) contracted
  · intro leftmost j later below
    have settled := settled_of_settled each (advances.settled leftmost within) (Nat.le_of_lt later)
      (Nat.le_of_lt below)
    exact (settled.advance (each j _ (List.getElem?_eq_getElem below))).2

/-! ## Arguments that are reduced in vain -/

/-- Where an application that lies outside of a redex or in its body is after the contraction. -/
inductive Moves (redex : Path) : Path → Path → Prop
  | outside {place : Path} (apart : ¬ redex <+: place) : Moves redex place place
  | body (below : Path) : Moves redex (redex ++ .function :: .body :: below) (redex ++ below)

def paths : Term → List Path
  | var _ => [[]]
  | abs _ body => [] :: body.paths.map (.body :: ·)
  | app function argument =>
      [] :: (function.paths.map (.function :: ·) ++ argument.paths.map (.argument :: ·))

theorem mem_paths {term part : Term} (stands : term.subterm? path = some part) :
    path ∈ term.paths := by
  induction term, path using subterm?.induct with
  | case1 term => cases term <;> simp [paths]
  | case2 binder body path ih => simp [paths, ih stands]
  | case3 function argument path ih => simp [paths, ih stands]
  | case4 function argument path ih => simp [paths, ih stands]
  | case5 => simp_all [subterm?]

theorem path_eq_of_filter {term part : Term} {only : Path}
    (stands : term.subterm? path = some part)
    (once : (term.paths.filter fun path => term.subterm? path = some part) = [only]) :
    path = only := by
  have found : path ∈ term.paths.filter fun path => term.subterm? path = some part :=
    List.mem_filter.mpr ⟨mem_paths stands, decide_eq_true stands⟩
  rw [once] at found
  exact List.mem_singleton.mp found

/-- `((λx.x λy.(y (λz.z b))) λk.x)`: the function becomes an abstraction by its first
contraction, and its body applies the argument to a redex. -/
def vain : Term :=
  app (app (abs .x (var .x)) (abs .y (app (var .y) (app (abs .z (var .z)) (var .b)))))
    (abs .k (var .x))

/-- The redex `(λz.z b)` is contracted where `y` is applied to it, and `λk.x`, which comes in the
place of that `y`, discards what has become of it. -/
theorem not_always_needed :
    ¬ ∀ (capacity : Capacity) (limits : Limits) (term : Term) (supply : Supply),
      ∃ (whole : Nat → Term) (path : Nat → Path),
        whole 0 = term ∧
        (∀ (i : Nat) (contraction : Contraction),
          (trace capacity limits term supply)[i]? = some contraction →
            (whole i).subterm? (path i) = some contraction.redex ∧
            whole (i + 1) = (whole i).put (path i) contraction.result ∧
            ∀ place, place ++ [.argument] <+: path i → NeutralAt (whole i) place) ∧
        ∀ (i j : Nat) (place : Nat → Path) (binder : Name) (body argument result : Term), i < j →
          (trace capacity limits term supply)[j]? = some ⟨abs binder body, argument, result⟩ →
          place i ++ [.argument] <+: path i →
          (∀ k, i ≤ k → k < j → Moves (path k) (place k) (place (k + 1))) →
          path j = place j → body.occursFree binder = true := by
  intro always
  obtain ⟨whole, path, start, each, needed⟩ := always .standard .standard vain .standard
  let inner := app (abs .z (var .z)) (var .b)
  let outer := abs .y (app (var .y) inner)
  have steps : trace .standard .standard vain .standard =
      [⟨abs .x (var .x), outer, outer⟩, ⟨abs .z (var .z), var .b, var .b⟩,
        ⟨abs .y (app (var .y) (var .b)), abs .k (var .x), app (abs .k (var .x)) (var .b)⟩,
        ⟨abs .k (var .x), var .b, var .x⟩] := by decide +kernel
  rw [steps] at each needed
  -- every one of the redexes occurs only once, so the paths are known
  obtain ⟨stands, put, -⟩ := each 0 _ rfl
  rw [start] at stands put
  have first : path 0 = [.function] := path_eq_of_filter stands (by decide)
  rw [first] at put
  obtain ⟨standsNext, putNext, -⟩ := each 1 _ rfl
  rw [put] at standsNext putNext
  have second : path 1 = [.function, .body, .argument] :=
    path_eq_of_filter standsNext (by decide)
  rw [second] at putNext
  obtain ⟨standsThird, putThird, -⟩ := each 2 _ rfl
  rw [putNext] at standsThird putThird
  have third : path 2 = [] := path_eq_of_filter standsThird (by decide)
  rw [third] at putThird
  obtain ⟨standsLast, -⟩ := each 3 _ rfl
  rw [putThird] at standsLast
  have last : path 3 = [] := path_eq_of_filter standsLast (by decide)
  have occurs := needed 1 3 (fun k => if k = 3 then [] else [.function, .body]) .k (var .x)
    (var .b) (var .x) (by decide) rfl (by rw [second]; decide) ?_ last
  · cases occurs
  · intro k notBefore before
    obtain rfl | rfl : k = 1 ∨ k = 2 := by omega
    · rw [second]
      exact .outside (by decide)
    · rw [third]
      exact .body []

end BetaNormal.Term

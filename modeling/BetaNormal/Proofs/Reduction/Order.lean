import BetaNormal.Proofs.Name
import BetaNormal.Proofs.Reduction.Run

/-!
# The order of contractions

A reduction contracts the leftmost outermost redex of the whole term, with one exception: once it
reduces a function, it goes on until that function is normal, even if it has become an abstraction
on the way and the application is a redex by then.
-/

namespace BetaNormal.Term

variable {avoid : List Name} {path : Path} {contraction : Contraction}
variable {before after : Term} {supply supply' : Supply}

/-- What is contracted is the leftmost outermost redex or lies in its function. -/
theorem Advances.exists_leftmostRedex?_eq
    (advances : Advances avoid path contraction before supply after supply') :
    ∃ outer, before.leftmostRedex? = some outer ∧
      (outer = path ∨ outer ++ [.function] <+: path) := by
  simp only [leftmostRedex?, first?_iff]
  induction advances with
  | contract binder body argument supply => exact ⟨[], .here rfl, .inl rfl⟩
  | body binder _ ih =>
      obtain ⟨outer, found, place⟩ := ih
      exact ⟨.body :: outer, .body rfl found, by simpa using place⟩
  | @function path _ function _ _ _ argument _ ih =>
      obtain ⟨outer, found, place⟩ := ih
      cases entered : function.isAbstraction with
      | true => exact ⟨[], .here entered, .inr ⟨path, rfl⟩⟩
      | false => exact ⟨.function :: outer, .function entered found, by simpa using place⟩
  | argument normal neutral _ ih =>
      obtain ⟨outer, found, place⟩ := ih
      exact ⟨.argument :: outer, .argument neutral (leftmostRedex?_of_normal normal) found,
        by simpa using place⟩

/-- The leftmost outermost redex is contracted unless the contraction is made in the function of
another redex. -/
theorem Advances.leftmostRedex?_eq_iff
    (advances : Advances avoid path contraction before supply after supply') :
    before.leftmostRedex? = some path ↔
      ∀ outer enclosing, outer ++ [.function] <+: path →
        before.subterm? outer = some enclosing → enclosing.isRedex = false := by
  constructor
  · intro leftmost outer enclosing within stands
    have around : outer <+: path := (List.prefix_append outer _).trans within
    refine (first_of_first? leftmost).not_test_above around ?_ stands
    rintro rfl
    have short := within.length_le
    simp only [List.length_append, List.length_singleton] at short
    omega
  · intro apart
    obtain ⟨outer, found, rfl | within⟩ := advances.exists_leftmostRedex?_eq
    · exact found
    · obtain ⟨enclosing, stands, redex⟩ := (first_of_first? found).exists_test
      have noRedex := apart outer enclosing within stands
      rw [redex] at noRedex
      contradiction

/-- When a reduction follows normal order: contraction by contraction, exactly as long as it does
not work in a function that is an abstraction already.  Otherwise the leftmost outermost redex is
the application of such a function. -/
theorem trace_leftmost_iff (capacity : Capacity) (limits : Limits) (term : Term)
    (supply : Supply) :
    ∃ (whole : Nat → Term) (path : Nat → Path),
      whole 0 = term ∧
      ∀ (i : Nat) (contraction : Contraction),
        (trace capacity limits term supply)[i]? = some contraction →
          (whole i).subterm? (path i) = some contraction.redex ∧
          whole (i + 1) = (whole i).put (path i) contraction.result ∧
          ((whole i).leftmostRedex? = some (path i) ↔
            ∀ outer enclosing, outer ++ [.function] <+: path i →
              (whole i).subterm? outer = some enclosing → enclosing.isRedex = false) ∧
          ∃ outer, (whole i).leftmostRedex? = some outer ∧
            (outer = path i ∨ outer ++ [.function] <+: path i) := by
  obtain ⟨last, runs, -⟩ := normalize_runs capacity limits term supply
  obtain ⟨whole, path, left, start, -, -, each⟩ := runs.exists_sequence
  refine ⟨whole, path, start, fun i contraction made => ?_⟩
  have advances := each i contraction made
  exact ⟨advances.subterm?_eq, advances.eq_put, advances.leftmostRedex?_eq_iff,
    advances.exists_leftmostRedex?_eq⟩

/-! ## A function that is reduced for too long -/

/-- `((λx.x λy.(λz.z y)) b)`: the function becomes an abstraction by its first contraction. -/
def hurried : Term :=
  app (app (abs .x (var .x)) (abs .y (app (abs .z (var .z)) (var .y)))) (var .b)

/-- Normal order would leave the body of `λy.(λz.z y)` alone and contract the application to `b`
second. -/
theorem not_always_leftmost :
    ¬ ∀ (capacity : Capacity) (limits : Limits) (term : Term) (supply : Supply),
      ∃ (whole : Nat → Term) (path : Nat → Path),
        whole 0 = term ∧
        ∀ (i : Nat) (contraction : Contraction),
          (trace capacity limits term supply)[i]? = some contraction →
            (whole i).subterm? (path i) = some contraction.redex ∧
            whole (i + 1) = (whole i).put (path i) contraction.result ∧
            (whole i).leftmostRedex? = some (path i) := by
  intro always
  obtain ⟨whole, path, start, each⟩ := always .standard .standard hurried .standard
  let body := app (abs .z (var .z)) (var .y)
  obtain ⟨stands, put, leftmost⟩ := each 0
    ⟨abs .x (var .x), abs .y body, abs .y body⟩
    (by decide +kernel)
  have firstPath : hurried.leftmostRedex? = some [.function] := by decide
  rw [start, firstPath, Option.some.injEq] at leftmost
  rw [start, ← leftmost] at put
  obtain ⟨standsNext, -, leftmostNext⟩ := each 1 ⟨abs .z (var .z), var .y, var .y⟩
    (by decide +kernel)
  have secondPath : (whole 1).leftmostRedex? = some [] := by
    rw [put]
    decide
  rw [secondPath, Option.some.injEq] at leftmostNext
  rw [← leftmostNext, put] at standsNext
  exact absurd standsNext (by decide)

end BetaNormal.Term

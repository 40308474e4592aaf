import BetaNormal.Proofs.Reduction.Run
import BetaNormal.Proofs.Substitution

/-!
# The trace of a reduction

The contractions that a reduction writes down are those of the whole term, in order, though each of
them was made in some subterm.
-/

namespace BetaNormal.Term

variable {avoid : List Name} {path : Path} {contraction : Contraction}
variable {before after : Term} {supply supply' : Supply}

theorem Advances.isRedex
    (advances : Advances avoid path contraction before supply after supply') :
    contraction.redex.isRedex = true := by
  obtain ⟨binder, body, isAbs, -⟩ := advances.exists_contraction_eq
  simp [Contraction.redex, Term.isRedex, isAbs, isAbstraction]

/-- The result of a contraction is the textbook contractum of its redex. -/
theorem Advances.contractum?_eq
    (advances : Advances avoid path contraction before supply after supply')
    (environment : Name → Nameless) :
    (contraction.redex.namelessIn environment).contractum? =
      some (contraction.result.namelessIn environment) := by
  obtain ⟨binder, body, isAbs, contracted⟩ := advances.exists_contraction_eq
  have result : contraction.result =
      (substitute binder contraction.argument avoid body supply).1 :=
    congrArg Prod.fst contracted
  rw [Contraction.redex, isAbs, result, namelessIn_contract]
  rfl

/-- A reduction replays on the whole term, whether it succeeds or not: every recorded contraction
replaces one occurrence of its redex by its result, which is the textbook contractum, and if the
reduction succeeds, the last whole term is what it returns. -/
theorem trace_replays (capacity : Capacity) (limits : Limits) (term : Term) (supply : Supply) :
    ∃ whole : Nat → Term,
      whole 0 = term ∧
      (∀ (i : Nat) (contraction : Contraction),
        (trace capacity limits term supply)[i]? = some contraction →
          (∃ path, (whole i).subterm? path = some contraction.redex ∧
            whole (i + 1) = (whole i).put path contraction.result) ∧
          contraction.redex.isRedex = true ∧
          contraction.redex.nameless.contractum? = some contraction.result.nameless) ∧
      ∀ reduction, (term.normalize capacity limits supply).1 = .ok reduction →
        trace capacity limits term supply = reduction.steps ∧
        whole reduction.steps.length = reduction.term := by
  obtain ⟨last, runs, done⟩ := normalize_runs capacity limits term supply
  obtain ⟨whole, path, left, start, -, stop, each⟩ := runs.exists_sequence
  refine ⟨whole, start, fun i contraction made => ?_, fun reduction result => ?_⟩
  · have advances := each i contraction made
    refine ⟨⟨path i, advances.subterm?_eq, advances.eq_put⟩, advances.isRedex, ?_⟩
    rw [nameless_eq, nameless_eq]
    exact advances.contractum?_eq Nameless.free
  · have same : trace capacity limits term supply = reduction.steps := by
      rw [trace, result]
      rfl
    exact ⟨same, by rw [← same, stop, (done reduction result).1]⟩

end BetaNormal.Term

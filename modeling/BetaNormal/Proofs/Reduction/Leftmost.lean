import BetaNormal.Proofs.Nameless.Leftmost
import BetaNormal.Proofs.Reduction.Trace

/-!
# Contractions without the names of binders

Every contraction of a run is one of the terms without binder names, and if it is that of the
leftmost outermost redex there, it is here as well.  So what is known about the leftmost strategy
bounds the length of a run: by the leftmost contractions that lead to the normal form and by its
detours, the contractions of other redexes.
-/

namespace BetaNormal.Term

open Nameless (ofName ofName_cons Leftmost LeftmostIn Step)

variable {avoid : List Name} {path : Path} {contraction : Contraction}
variable {steps : List Contraction} {before after : Term} {supply supply' : Supply}

/-- Whether contractions of a term, chosen in any order, can end in a term without a redex. -/
def HasNormalForm (term : Term) : Prop :=
  ∃ normal, Relation.ReflTransGen Step term.nameless normal ∧ normal.isNormal = true

/-! ## The same redexes -/

theorem isAbstraction_namelessBelow (scope : List Name) (term : Term) :
    (term.namelessBelow scope).isAbstraction = term.isAbstraction := by
  cases term with
  | var name =>
      simp only [namelessBelow, ofName]
      cases scope.idxOf? name <;> rfl
  | abs binder body => rfl
  | app function argument => rfl

theorem isNormal_namelessBelow (scope : List Name) (term : Term) :
    (term.namelessBelow scope).isNormal = term.isNormal := by
  induction term generalizing scope with
  | var name =>
      simp only [namelessBelow, ofName]
      cases scope.idxOf? name <;> rfl
  | abs binder body ih => exact ih (binder :: scope)
  | app function argument function_ih argument_ih =>
      simp [namelessBelow, Nameless.isNormal, Term.isNormal, isAbstraction_namelessBelow,
        function_ih, argument_ih]

theorem namelessBelow_contract (binder : Name) (body argument : Term) (avoid : List Name)
    (supply : Supply) (scope : List Name) :
    (substitute binder argument avoid body supply).1.namelessBelow scope =
      (body.namelessBelow (binder :: scope)).instantiate (argument.namelessBelow scope) := by
  simp only [namelessBelow_eq, namelessIn_contract, ofName_cons]

/-! ## Contractions anywhere -/

/-- The contraction of one redex, wherever it stands.  Names may be drawn from any supply, and any
names may be avoided. -/
def Contracts (before after : Term) : Prop :=
  ∃ (path : Path) (binder : Name) (body argument : Term) (avoid : List Name) (supply : Supply),
    before.subterm? path = some (app (abs binder body) argument) ∧
    after = before.put path (substitute binder argument avoid body supply).1

theorem step_put {redex : Term} (result : Term)
    (contracts : ∀ scope, Step (redex.namelessBelow scope) (result.namelessBelow scope))
    (stands : before.subterm? path = some redex) (scope : List Name) :
    Step (before.namelessBelow scope) ((before.put path result).namelessBelow scope) := by
  induction before, path using subterm?.induct generalizing scope with
  | case1 term =>
      rw [subterm?, Option.some.injEq] at stands
      subst stands
      rw [put]
      exact contracts scope
  | case2 binder body path ih => exact .abs (ih stands (binder :: scope))
  | case3 function argument path ih => exact .function _ (ih stands scope)
  | case4 function argument path ih => exact .argument _ (ih stands scope)
  | case5 => simp_all [subterm?]

theorem Contracts.step (contracts : Contracts before after) (scope : List Name) :
    Step (before.namelessBelow scope) (after.namelessBelow scope) := by
  obtain ⟨path, binder, body, argument, avoid, supply, stands, rfl⟩ := contracts
  refine step_put _ (fun below => ?_) stands scope
  rw [namelessBelow_contract]
  exact .contract _ _

theorem Advances.contracts
    (advances : Advances avoid path contraction before supply after supply') :
    Contracts before after := by
  obtain ⟨binder, body, isAbs, contracted⟩ := advances.exists_contraction_eq
  have result : contraction.result = _ := congrArg Prod.fst contracted
  refine ⟨path, binder, body, contraction.argument, avoid, supply, ?_, ?_⟩
  · rw [← isAbs]
    exact advances.subterm?_eq
  · rw [← result]
    exact advances.eq_put

theorem Advances.step (advances : Advances avoid path contraction before supply after supply')
    (scope : List Name) : Step (before.namelessBelow scope) (after.namelessBelow scope) :=
  advances.contracts.step scope

/-! ## Leftmost contractions and runs -/

theorem Advances.leftmost
    (advances : Advances avoid path contraction before supply after supply')
    (first : First Term.isRedex before path) (scope : List Name) :
    Leftmost (before.namelessBelow scope) (after.namelessBelow scope) := by
  induction advances generalizing scope with
  | contract binder body argument supply =>
      rw [namelessBelow_contract]
      exact .contract _ _
  | body binder _ ih =>
      cases first with
      | body _ below => exact .abs (ih below (binder :: scope))
  | function argument _ ih =>
      cases first with
      | function entered below =>
          exact .function _ ((isAbstraction_namelessBelow scope _).trans entered)
            (ih below scope)
  | argument normal neutral _ ih =>
      cases first with
      | argument _ _ below =>
          exact .argument ((isAbstraction_namelessBelow scope _).trans neutral)
            ((isNormal_namelessBelow scope _).trans normal) (ih below scope)

theorem Runs.reflTransGen (runs : Runs avoid steps before supply after supply') :
    Relation.ReflTransGen Step before.nameless after.nameless := by
  induction runs with
  | nil => exact .refl
  | cons advances _ ih => exact .head (advances.step []) ih

/-! ## Detours -/

def replay (term : Term) (contraction : Contraction) : Term :=
  match term.first? (fun subterm => subterm = contraction.redex) with
  | some path => term.put path contraction.result
  | none => term

/-- How many of these contractions, one after the other, are not contractions of the leftmost
outermost redex. -/
def detours : Term → List Contraction → Nat
  | _, [] => 0
  | term, contraction :: steps =>
      (if term.leftmostRedex? = term.first? (fun subterm => subterm = contraction.redex) then 0
        else 1) + detours (term.replay contraction) steps

theorem detours_le_length (term : Term) (steps : List Contraction) :
    detours term steps ≤ steps.length := by
  induction steps generalizing term with
  | nil => exact Nat.le_refl 0
  | cons contraction steps ih =>
      have later := ih (term.replay contraction)
      simp only [detours, List.length_cons]
      split <;> omega

/-- A run contracts the first one of several equal redexes. -/
theorem Advances.first (advances : Advances avoid path contraction before supply after supply') :
    First (fun subterm => subterm = contraction.redex) before path := by
  induction advances with
  | contract binder body argument supply => exact .here (decide_eq_true rfl)
  | body binder below ih =>
      have smaller := sizeOf_subterm?_le below.subterm?_eq
      refine .body (decide_eq_false fun whole => ?_) ih
      simp only [← whole, abs.sizeOf_spec] at smaller
      omega
  | function argument below ih =>
      have smaller := sizeOf_subterm?_le below.subterm?_eq
      refine .function (decide_eq_false fun whole => ?_) ih
      simp only [← whole, app.sizeOf_spec] at smaller
      omega
  | argument normal neutral below ih =>
      have smaller := sizeOf_subterm?_le below.subterm?_eq
      refine .argument (decide_eq_false fun whole => ?_) (first?_of_normal normal ?_) ih
      · simp only [← whole, app.sizeOf_spec] at smaller
        omega
      · intro subterm same
        rw [of_decide_eq_true same]
        exact below.isRedex

theorem Advances.replay_eq
    (advances : Advances avoid path contraction before supply after supply') :
    before.replay contraction = after := by
  rw [replay, advances.first.first?_eq, advances.eq_put]

/-- A run is no longer than the leftmost contractions to the normal form and its detours. -/
theorem Runs.length_le {count : Nat} {normal : Nameless}
    (runs : Runs avoid steps before supply after supply')
    (leftmost : LeftmostIn count before.nameless normal) (isNormal : normal.isNormal = true) :
    steps.length ≤ count + detours before steps := by
  induction runs generalizing count with
  | nil => exact Nat.zero_le _
  | @cons path contraction steps before supply middle _ _ _ advances _ ih =>
      simp only [List.length_cons, detours, advances.replay_eq, advances.first.first?_eq]
      split
      case isTrue onTheWay =>
        have first : Leftmost before.nameless middle.nameless :=
          advances.leftmost (first_of_first? onTheWay) []
        cases leftmost with
        | zero =>
            rw [first.isNormal_eq] at isNormal
            contradiction
        | succ other later =>
            have bound := ih (other.unique first ▸ later)
            omega
      case isFalse detour =>
        obtain ⟨fewer, atMost, later⟩ :=
          leftmost.exists_of_parallel isNormal (advances.step []).parallel
        have bound := ih later
        omega

end BetaNormal.Term

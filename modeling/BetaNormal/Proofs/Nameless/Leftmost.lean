import BetaNormal.Proofs.Nameless.Parallel
import Mathlib.Logic.Relation

/-!
# Leftmost outermost contraction

Two facts about the strategy that always contracts the leftmost outermost redex.  It finds the
normal form of every term that has one.  And other contractions in between do no harm: they never
raise the number of leftmost contractions that are still to be made.

For the first, a parallel step is split into contractions at the head of the term and a parallel
step that leaves the head alone.
-/

namespace BetaNormal.Nameless

inductive Leftmost : Nameless → Nameless → Prop
  | contract (body argument : Nameless) :
      Leftmost (app (abs body) argument) (body.instantiate argument)
  | abs {body body'} (below : Leftmost body body') : Leftmost (abs body) (abs body')
  | function {function function'} (argument : Nameless)
      (entered : function.isAbstraction = false) (below : Leftmost function function') :
      Leftmost (app function argument) (app function' argument)
  | argument {function argument argument'} (neutral : function.isAbstraction = false)
      (normal : function.isNormal = true) (below : Leftmost argument argument') :
      Leftmost (app function argument) (app function argument')

inductive LeftmostIn : Nat → Nameless → Nameless → Prop
  | zero (term : Nameless) : LeftmostIn 0 term term
  | succ {count before middle after} (first : Leftmost before middle)
      (later : LeftmostIn count middle after) : LeftmostIn (count + 1) before after

/-! ## The head of a term -/

/-- The contraction of a redex that nothing but arguments stand behind. -/
inductive Head : Nameless → Nameless → Prop
  | contract (body argument : Nameless) :
      Head (app (abs body) argument) (body.instantiate argument)
  | function {function function'} (argument : Nameless) (below : Head function function') :
      Head (app function argument) (app function' argument)

inductive Heads : Nameless → Nameless → Prop
  | refl (term : Nameless) : Heads term term
  | step {before middle after} (first : Head before middle) (later : Heads middle after) :
      Heads before after

/-- A parallel step that keeps the redex at the head, if there is one. -/
inductive Inner : Nameless → Nameless → Prop
  | bound (index : Nat) : Inner (bound index) (bound index)
  | free (name : Name) : Inner (free name) (free name)
  | abs {body body'} (below : Parallel body body') : Inner (abs body) (abs body')
  | app {function function' argument argument'} (left : Inner function function')
      (right : Parallel argument argument') :
      Inner (app function argument) (app function' argument')

theorem Head.fill {before after : Nameless} (head : Head before after)
    (values : Nat → Nameless) : Head (before.fill values) (after.fill values) := by
  induction head with
  | contract body argument =>
      rw [fill_instantiate]
      exact .contract (body.fill (under values)) (argument.fill values)
  | function argument _ ih => exact .function (argument.fill values) ih

theorem Heads.fill {before after : Nameless} (heads : Heads before after)
    (values : Nat → Nameless) : Heads (before.fill values) (after.fill values) := by
  induction heads with
  | refl => exact .refl _
  | step first _ ih => exact .step (first.fill values) ih

theorem Heads.trans {before middle after : Nameless} (first : Heads before middle)
    (later : Heads middle after) : Heads before after := by
  induction first with
  | refl => exact later
  | step head _ ih => exact .step head (ih later)

theorem Heads.function {before after : Nameless} (heads : Heads before after)
    (argument : Nameless) : Heads (app before argument) (app after argument) := by
  induction heads with
  | refl => exact .refl _
  | step first _ ih => exact .step (.function argument first) ih

theorem Inner.parallel {before after : Nameless} (inner : Inner before after) :
    Parallel before after := by
  induction inner with
  | bound index => exact .bound index
  | free name => exact .free name
  | abs below => exact .abs below
  | app _ right ih => exact .app ih right

/-- A step below a substitution: the values come to the head where a variable stood there. -/
theorem Inner.exists_heads_fill {before after : Nameless} (inner : Inner before after)
    {values values' : Nat → Nameless}
    (each : ∀ index, Parallel (values index) (values' index))
    (split : ∀ index, ∃ middle, Heads (values index) middle ∧ Inner middle (values' index)) :
    ∃ middle, Heads (before.fill values) middle ∧ Inner middle (after.fill values') := by
  induction inner with
  | bound index => exact split index
  | free name => exact ⟨_, .refl _, .free name⟩
  | abs below => exact ⟨_, .refl _, .abs (below.fill (Parallel.under each))⟩
  | @app _ _ argument _ _ right ih =>
      obtain ⟨middle, heads, inner⟩ := ih
      exact ⟨_, heads.function (argument.fill values), .app inner (right.fill each)⟩

/-- A parallel step may contract the head first and everything else afterwards. -/
theorem Parallel.exists_heads {before after : Nameless} (parallel : Parallel before after) :
    ∃ middle, Heads before middle ∧ Inner middle after := by
  induction parallel with
  | bound index => exact ⟨_, .refl _, .bound index⟩
  | free name => exact ⟨_, .refl _, .free name⟩
  | abs below _ => exact ⟨_, .refl _, .abs below⟩
  | @app _ _ argument _ _ right left_ih _ =>
      obtain ⟨middle, heads, inner⟩ := left_ih
      exact ⟨_, heads.function argument, .app inner right⟩
  | @contract body body' argument argument' _ right below_ih right_ih =>
      obtain ⟨bodyMiddle, bodyHeads, bodyInner⟩ := below_ih
      have each := right.push
      have split : ∀ index, ∃ middle,
          Heads (Nameless.push argument Nameless.bound index) middle ∧
          Inner middle (Nameless.push argument' Nameless.bound index) := by
        intro index
        cases index with
        | zero => exact right_ih
        | succ index => exact ⟨_, .refl _, .bound index⟩
      obtain ⟨middle, heads, inner⟩ := bodyInner.exists_heads_fill each split
      have contracted : Heads (Nameless.app (Nameless.abs body) argument) middle :=
        .step (.contract body argument) ((bodyHeads.fill _).trans heads)
      exact ⟨middle, contracted, inner⟩

/-- A contraction at the head can be moved in front of a step that left the head alone. -/
theorem Inner.exists_head {before middle after : Nameless} (inner : Inner before middle)
    (head : Head middle after) : ∃ first, Head before first ∧ Parallel first after := by
  induction head generalizing before with
  | contract body argument =>
      cases inner with
      | app left right =>
          cases left with
          | abs below => exact ⟨_, .contract _ _, below.instantiate right⟩
  | function argument _ ih =>
      cases inner with
      | app left right =>
          obtain ⟨first, head, parallel⟩ := ih left
          exact ⟨_, .function _ head, .app parallel right⟩

/-! ## Terms that come to a normal form -/

/-- Whether a term is a variable with arguments. -/
def isNeutral : Nameless → Bool
  | bound _ => true
  | free _ => true
  | abs _ => false
  | app function _ => function.isNeutral

/-- Terms whose parts come to a normal form one after the other, once their heads have. -/
inductive Normalizes : Nameless → Prop
  | bound (index : Nat) : Normalizes (bound index)
  | free (name : Name) : Normalizes (free name)
  | abs {body} (below : Normalizes body) : Normalizes (abs body)
  | app {function argument} (neutral : function.isNeutral = true) (left : Normalizes function)
      (right : Normalizes argument) : Normalizes (app function argument)
  | head {before after} (first : Head before after) (later : Normalizes after) :
      Normalizes before

theorem isNeutral_of_normal {term : Nameless} (normal : term.isNormal = true)
    (notAbs : term.isAbstraction = false) : term.isNeutral = true := by
  induction term with
  | bound index => rfl
  | free name => rfl
  | abs body _ => simp [isAbstraction] at notAbs
  | app function argument function_ih _ =>
      obtain ⟨functionNotAbs, functionNormal, -⟩ := isNormal_app.mp normal
      exact function_ih functionNormal functionNotAbs

theorem Normalizes.of_normal {term : Nameless} (normal : term.isNormal = true) :
    Normalizes term := by
  induction term with
  | bound index => exact .bound index
  | free name => exact .free name
  | abs body ih => exact .abs (ih normal)
  | app function argument function_ih argument_ih =>
      obtain ⟨notAbs, functionNormal, argumentNormal⟩ := isNormal_app.mp normal
      exact .app (isNeutral_of_normal functionNormal notAbs) (function_ih functionNormal)
        (argument_ih argumentNormal)

theorem Normalizes.of_heads {before after : Nameless} (heads : Heads before after)
    (later : Normalizes after) : Normalizes before := by
  induction heads with
  | refl => exact later
  | step first _ ih => exact .head first (ih later)

theorem Inner.isNeutral_eq {before after : Nameless} (inner : Inner before after) :
    before.isNeutral = after.isNeutral := by
  induction inner with
  | bound index => rfl
  | free name => rfl
  | abs _ => rfl
  | app _ _ ih => exact ih

/-- Terms that come to a normal form after a parallel step do so before it. -/
theorem Normalizes.of_parallel {before after : Nameless} (later : Normalizes after)
    (parallel : Parallel before after) : Normalizes before := by
  induction later generalizing before with
  | bound index =>
      obtain ⟨middle, heads, inner⟩ := parallel.exists_heads
      cases inner
      exact .of_heads heads (.bound index)
  | free name =>
      obtain ⟨middle, heads, inner⟩ := parallel.exists_heads
      cases inner
      exact .of_heads heads (.free name)
  | abs _ ih =>
      obtain ⟨middle, heads, inner⟩ := parallel.exists_heads
      cases inner with
      | abs below => exact .of_heads heads (.abs (ih below))
  | app neutral _ _ left_ih right_ih =>
      obtain ⟨middle, heads, inner⟩ := parallel.exists_heads
      cases inner with
      | app left right =>
          have leftNeutral := left.isNeutral_eq.trans neutral
          exact .of_heads heads
            (.app leftNeutral (left_ih left.parallel) (right_ih right))
  | head first _ ih =>
      obtain ⟨middle, heads, inner⟩ := parallel.exists_heads
      obtain ⟨next, head, parallelNext⟩ := inner.exists_head first
      exact .of_heads heads (.head head (ih parallelNext))

/-! ## Leftmost contraction finds the normal form -/

theorem Head.isAbstraction_eq {before after : Nameless} (head : Head before after) :
    before.isAbstraction = false := by
  cases head <;> rfl

theorem Head.leftmost {before after : Nameless} (head : Head before after) :
    Leftmost before after := by
  induction head with
  | contract body argument => exact .contract body argument
  | function argument below ih => exact .function argument below.isAbstraction_eq ih

theorem isAbstraction_of_neutral {term : Nameless} (neutral : term.isNeutral = true) :
    term.isAbstraction = false := by
  cases term <;> simp_all [isNeutral, isAbstraction]

theorem Leftmost.isNeutral {before after : Nameless} (leftmost : Leftmost before after)
    (neutral : before.isNeutral = true) : after.isNeutral = true := by
  induction leftmost with
  | contract body argument => simp [Nameless.isNeutral] at neutral
  | abs _ _ => simp [Nameless.isNeutral] at neutral
  | function argument _ _ ih => exact ih neutral
  | argument _ _ _ _ => exact neutral

theorem LeftmostIn.abs {count : Nat} {before after : Nameless}
    (steps : LeftmostIn count before after) :
    LeftmostIn count (Nameless.abs before) (Nameless.abs after) := by
  induction steps with
  | zero => exact .zero _
  | succ first _ ih => exact .succ (.abs first) ih

theorem LeftmostIn.argument {count : Nat} {function before after : Nameless}
    (neutral : function.isAbstraction = false) (normal : function.isNormal = true)
    (steps : LeftmostIn count before after) :
    LeftmostIn count (app function before) (app function after) := by
  induction steps with
  | zero => exact .zero _
  | succ first _ ih => exact .succ (.argument neutral normal first) ih

theorem LeftmostIn.app {count more : Nat} {function function' argument argument' : Nameless}
    (neutral : function.isNeutral = true) (left : LeftmostIn count function function')
    (normal : function'.isNormal = true) (right : LeftmostIn more argument argument') :
    ∃ total, LeftmostIn total (app function argument) (app function' argument') ∧
      function'.isAbstraction = false := by
  induction left with
  | zero =>
      have notAbs := isAbstraction_of_neutral neutral
      exact ⟨more, right.argument notAbs normal, notAbs⟩
  | succ first _ ih =>
      obtain ⟨total, steps, notAbs⟩ := ih (first.isNeutral neutral) normal
      exact ⟨total + 1, .succ (.function argument (isAbstraction_of_neutral neutral) first) steps,
        notAbs⟩

theorem Normalizes.exists_leftmostIn {term : Nameless} (normalizes : Normalizes term) :
    ∃ count normal, LeftmostIn count term normal ∧ normal.isNormal = true := by
  induction normalizes with
  | bound index => exact ⟨0, _, .zero _, rfl⟩
  | free name => exact ⟨0, _, .zero _, rfl⟩
  | abs _ ih =>
      obtain ⟨count, normal, steps, isNormal⟩ := ih
      exact ⟨count, _, steps.abs, isNormal⟩
  | app neutral _ _ left_ih right_ih =>
      obtain ⟨count, function, left, leftNormal⟩ := left_ih
      obtain ⟨more, argument, right, rightNormal⟩ := right_ih
      obtain ⟨total, steps, notAbs⟩ := left.app neutral leftNormal right
      exact ⟨total, _, steps, isNormal_app.mpr ⟨notAbs, leftNormal, rightNormal⟩⟩
  | head first _ ih =>
      obtain ⟨count, normal, steps, isNormal⟩ := ih
      exact ⟨count + 1, normal, .succ first.leftmost steps, isNormal⟩

/-- If contractions in any order end in a normal form, leftmost ones do so as well. -/
theorem exists_leftmostIn_of_steps {before after : Nameless}
    (steps : Relation.ReflTransGen Step before after) (isNormal : after.isNormal = true) :
    ∃ count normal, LeftmostIn count before normal ∧ normal.isNormal = true := by
  have normalizes : Normalizes before := by
    induction steps using Relation.ReflTransGen.head_induction_on with
    | refl => exact .of_normal isNormal
    | head first _ ih => exact ih.of_parallel first.parallel
  exact normalizes.exists_leftmostIn

/-! ## Other contractions in between -/

theorem Leftmost.isNormal_eq {before after : Nameless} (leftmost : Leftmost before after) :
    before.isNormal = false := by
  induction leftmost with
  | contract body argument => rfl
  | abs _ ih => exact ih
  | function argument _ _ ih => simp [isNormal, ih]
  | argument _ _ _ ih => simp [isNormal, ih]

theorem Leftmost.unique {before first second : Nameless} (leftmost : Leftmost before first)
    (other : Leftmost before second) : first = second := by
  induction leftmost generalizing second with
  | contract body argument =>
      cases other with
      | contract => rfl
      | function _ entered _ => simp [isAbstraction] at entered
      | argument neutral _ _ => simp [isAbstraction] at neutral
  | abs _ ih =>
      cases other with
      | abs below => rw [ih below]
  | function argument entered below ih =>
      cases other with
      | contract => simp [isAbstraction] at entered
      | function _ _ otherBelow => rw [ih otherBelow]
      | argument _ normal _ =>
          rw [below.isNormal_eq] at normal
          contradiction
  | argument neutral normal _ ih =>
      cases other with
      | contract => simp [isAbstraction] at neutral
      | function _ _ otherBelow =>
          rw [otherBelow.isNormal_eq] at normal
          contradiction
      | argument _ _ otherBelow => rw [ih otherBelow]

/-- A parallel step contracts the leftmost redex, or it leaves that redex the leftmost one. -/
theorem Leftmost.exists_of_parallel {before first other : Nameless}
    (leftmost : Leftmost before first) (parallel : Parallel before other) :
    Parallel first other ∨
      ((before.isAbstraction = false → other.isAbstraction = false) ∧
        ∃ second, Leftmost other second ∧ Parallel first second) := by
  induction leftmost generalizing other with
  | contract body argument =>
      cases parallel with
      | app left right =>
          cases left with
          | abs below =>
              exact .inr ⟨fun _ => rfl, _, .contract _ _, below.instantiate right⟩
      | contract below right => exact .inl (below.instantiate right)
  | abs _ ih =>
      cases parallel with
      | abs below =>
          rcases ih below with done | ⟨-, second, leftmost, parallel⟩
          · exact .inl (.abs done)
          · exact .inr ⟨fun notAbs => by simp [isAbstraction] at notAbs, _, .abs leftmost,
              .abs parallel⟩
  | function argument entered _ ih =>
      cases parallel with
      | app left right =>
          rcases ih left with done | ⟨stays, second, leftmost, parallel⟩
          · exact .inl (.app done right)
          · exact .inr ⟨fun _ => rfl, _, .function _ (stays entered) leftmost,
              .app parallel right⟩
      | contract _ _ => simp [isAbstraction] at entered
  | argument neutral normal _ ih =>
      cases parallel with
      | app left right =>
          rw [left.eq_of_normal normal]
          rcases ih right with done | ⟨-, second, leftmost, parallel⟩
          · exact .inl (.app (.refl _) done)
          · exact .inr ⟨fun _ => rfl, _, .argument neutral normal leftmost,
              .app (.refl _) parallel⟩
      | contract _ _ => simp [isAbstraction] at neutral

/-- After any parallel step, the normal form is no more leftmost contractions away. -/
theorem LeftmostIn.exists_of_parallel {count : Nat} {before normal other : Nameless}
    (steps : LeftmostIn count before normal) (isNormal : normal.isNormal = true)
    (parallel : Parallel before other) : ∃ fewer ≤ count, LeftmostIn fewer other normal := by
  induction steps generalizing other with
  | zero term =>
      rw [parallel.eq_of_normal isNormal]
      exact ⟨0, Nat.le_refl 0, .zero term⟩
  | @succ count _ _ _ first _ ih =>
      rcases first.exists_of_parallel parallel with done | ⟨-, second, leftmost, beside⟩
      · obtain ⟨fewer, bound, steps⟩ := ih isNormal done
        exact ⟨fewer, Nat.le_succ_of_le bound, steps⟩
      · obtain ⟨fewer, bound, steps⟩ := ih isNormal beside
        exact ⟨fewer + 1, Nat.succ_le_succ bound, .succ leftmost steps⟩

end BetaNormal.Nameless

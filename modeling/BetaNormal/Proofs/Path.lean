import BetaNormal.Term

/-!
# Paths into a term

A path leads from the root of a term down to one occurrence of a subterm.  The subterms of a term
are searched in the order in which they start in print: a term before its parts, a function before
its argument.  The first redex in this order is the leftmost outermost one.
-/

namespace BetaNormal

/-- A way down from a node. -/
inductive Side where
  | body
  | function
  | argument
  deriving DecidableEq, Repr

abbrev Path := List Side

namespace Term

/-- The subterm at the end of a path. -/
def subterm? : Term → Path → Option Term
  | term, [] => some term
  | abs _ body, .body :: path => subterm? body path
  | app function _, .function :: path => subterm? function path
  | app _ argument, .argument :: path => subterm? argument path
  | _, _ :: _ => none

/-- The term with another one in the place of the subterm at the end of a path. -/
def put : Term → Path → Term → Term
  | _, [], new => new
  | abs binder body, .body :: path, new => abs binder (put body path new)
  | app function argument, .function :: path, new => app (put function path new) argument
  | app function argument, .argument :: path, new => app function (put argument path new)
  | term, _ :: _, _ => term

/-- The path to the first subterm that passes a test. -/
def first? (test : Term → Bool) (term : Term) : Option Path :=
  if test term then some []
  else match term with
    | var _ => none
    | abs _ body => (first? test body).map (.body :: ·)
    | app function argument =>
        ((first? test function).map (.function :: ·)).or
          ((first? test argument).map (.argument :: ·))

/-- The path to the leftmost outermost redex. -/
def leftmostRedex? (term : Term) : Option Path := term.first? isRedex

/-- Whether a term has no redex. -/
def isNormal : Term → Bool
  | var _ => true
  | abs _ body => body.isNormal
  | app function argument => !function.isAbstraction && function.isNormal && argument.isNormal

/-! ## Parts of a term -/

section

variable {term subterm : Term} {path : Path}

/-- What every term hands down to the terms directly below it holds of all its subterms. -/
theorem of_subterm? (holds : Term → Prop)
    (body : ∀ {binder body}, holds (abs binder body) → holds body)
    (function : ∀ {function argument}, holds (app function argument) → holds function)
    (argument : ∀ {function argument}, holds (app function argument) → holds argument)
    (whole : holds term) (stands : term.subterm? path = some subterm) : holds subterm := by
  induction term, path using subterm?.induct with
  | case1 term =>
      rw [subterm?, Option.some.injEq] at stands
      exact stands ▸ whole
  | case2 binder below path ih => exact ih (body whole) stands
  | case3 left right path ih => exact ih (function whole) stands
  | case4 left right path ih => exact ih (argument whole) stands
  | case5 => simp_all [subterm?]

theorem sizeOf_subterm?_le (stands : term.subterm? path = some subterm) :
    sizeOf subterm ≤ sizeOf term := by
  refine of_subterm? (fun part => sizeOf part ≤ sizeOf term) ?_ ?_ ?_ (Nat.le_refl _) stands
  · intro binder body smaller
    simp only [abs.sizeOf_spec] at smaller
    omega
  · intro function argument smaller
    simp only [app.sizeOf_spec] at smaller
    omega
  · intro function argument smaller
    simp only [app.sizeOf_spec] at smaller
    omega

theorem names_subterm?_subset (stands : term.subterm? path = some subterm) :
    subterm.names ⊆ term.names := by
  refine of_subterm? (fun part => part.names ⊆ term.names) ?_ ?_ ?_ (List.Subset.refl _) stands
  · intro binder body within
    exact fun name occurs => within (List.mem_cons_of_mem binder occurs)
  · intro function argument within
    exact fun name occurs => within (List.mem_append_left argument.names occurs)
  · intro function argument within
    exact fun name occurs => within (List.mem_append_right function.names occurs)

theorem mem_names_put {new : Term} {name : Name}
    (occurs : name ∈ (term.put path new).names) : name ∈ term.names ∨ name ∈ new.names := by
  induction term, path, new using put.induct with
  | case1 term new =>
      rw [put] at occurs
      exact .inr occurs
  | case2 new binder body path ih =>
      simp only [put, names, List.mem_cons] at occurs ⊢
      rcases occurs with isBinder | below
      · exact .inl (.inl isBinder)
      · exact (ih below).imp_left .inr
  | case3 new function argument path ih =>
      simp only [put, names, List.mem_append] at occurs ⊢
      rcases occurs with left | right
      · exact (ih left).imp_left .inl
      · exact .inl (.inr right)
  | case4 new function argument path ih =>
      simp only [put, names, List.mem_append] at occurs ⊢
      rcases occurs with left | right
      · exact .inl (.inl left)
      · exact (ih right).imp_left .inr
  | case5 => exact .inl (by simpa [put] using occurs)

end

/-! ## What the first subterm is like -/

/-- `First test term path`: the first subterm that passes a test stands at a path. -/
inductive First (test : Term → Bool) : Term → Path → Prop
  | here {term} (passes : test term = true) : First test term []
  | body {binder body path} (fails : test (abs binder body) = false)
      (below : First test body path) : First test (abs binder body) (.body :: path)
  | function {function argument path} (fails : test (app function argument) = false)
      (below : First test function path) : First test (app function argument) (.function :: path)
  | argument {function argument path} (fails : test (app function argument) = false)
      (passed : function.first? test = none) (below : First test argument path) :
      First test (app function argument) (.argument :: path)

variable {test : Term → Bool} {term : Term} {path : Path}

theorem First.first?_eq (first : First test term path) : term.first? test = some path := by
  induction first with
  | @here term passes => cases term <;> simp [first?, passes]
  | body fails _ ih => simp [first?, fails, ih]
  | function fails _ ih => simp [first?, fails, ih]
  | argument fails passed _ ih => simp [first?, fails, passed, ih]

theorem first_of_first? (found : term.first? test = some path) : First test term path := by
  induction term generalizing path with
  | var name =>
      cases passes : test (var name) with
      | true =>
          simp only [first?, passes, if_true, Option.some.injEq] at found
          exact found ▸ .here passes
      | false => simp [first?, passes] at found
  | abs binder body ih =>
      cases passes : test (abs binder body) with
      | true =>
          simp only [first?, passes, if_true, Option.some.injEq] at found
          exact found ▸ .here passes
      | false =>
          simp only [first?, passes, if_false, Bool.false_eq_true, Option.map_eq_some_iff] at found
          obtain ⟨below, foundBelow, rfl⟩ := found
          exact .body passes (ih foundBelow)
  | app function argument function_ih argument_ih =>
      cases passes : test (app function argument) with
      | true =>
          simp only [first?, passes, if_true, Option.some.injEq] at found
          exact found ▸ .here passes
      | false =>
          simp only [first?, passes, if_false, Bool.false_eq_true, Option.or_eq_some_iff,
            Option.map_eq_some_iff, Option.map_eq_none_iff] at found
          rcases found with ⟨below, foundBelow, rfl⟩ | ⟨passed, below, foundBelow, rfl⟩
          · exact .function passes (function_ih foundBelow)
          · exact .argument passes passed (argument_ih foundBelow)

theorem first?_iff : term.first? test = some path ↔ First test term path :=
  ⟨first_of_first?, First.first?_eq⟩

theorem First.exists_test (first : First test term path) :
    ∃ subterm, term.subterm? path = some subterm ∧ test subterm = true := by
  induction first with
  | here passes => exact ⟨_, by rw [subterm?], passes⟩
  | body _ _ ih => exact ih
  | function _ _ ih => exact ih
  | argument _ _ _ ih => exact ih

/-- No term around the first subterm that passes a test passes it as well. -/
theorem First.not_test_above {subterm : Term} {outer : Path} (first : First test term path)
    (around : outer <+: path) (proper : outer ≠ path)
    (stands : term.subterm? outer = some subterm) : test subterm = false := by
  induction first generalizing outer with
  | here _ => exact absurd (List.prefix_nil.mp around) proper
  | body fails _ ih =>
      cases outer with
      | nil => exact Option.some.inj stands ▸ fails
      | cons side outer =>
          obtain ⟨rfl, within⟩ := List.cons_prefix_cons.mp around
          exact ih within (fun same => proper (by rw [same])) stands
  | function fails _ ih =>
      cases outer with
      | nil => exact Option.some.inj stands ▸ fails
      | cons side outer =>
          obtain ⟨rfl, within⟩ := List.cons_prefix_cons.mp around
          exact ih within (fun same => proper (by rw [same])) stands
  | argument fails _ _ ih =>
      cases outer with
      | nil => exact Option.some.inj stands ▸ fails
      | cons side outer =>
          obtain ⟨rfl, within⟩ := List.cons_prefix_cons.mp around
          exact ih within (fun same => proper (by rw [same])) stands

/-! ## Terms without a redex -/

theorem isRedex_of_normal (isNormal : term.isNormal = true) : term.isRedex = false := by
  cases term with
  | var name => rfl
  | abs binder body => rfl
  | app function argument =>
      simp only [Term.isNormal, Bool.and_eq_true, Bool.not_eq_true'] at isNormal
      exact isNormal.1.1

theorem isNormal_subterm {subterm : Term} (isNormal : term.isNormal = true)
    (stands : term.subterm? path = some subterm) : subterm.isNormal = true := by
  refine of_subterm? (fun part => part.isNormal = true) ?_ ?_ ?_ isNormal stands
  · exact fun normal => normal
  · intro function argument normal
    simp only [Term.isNormal, Bool.and_eq_true] at normal
    exact normal.1.2
  · intro function argument normal
    simp only [Term.isNormal, Bool.and_eq_true] at normal
    exact normal.2

theorem isNormal_of_forall_subterm
    (noRedex : ∀ path subterm, term.subterm? path = some subterm → subterm.isRedex = false) :
    term.isNormal = true := by
  induction term with
  | var name => rfl
  | abs binder body ih => exact ih fun path => noRedex (.body :: path)
  | app function argument function_ih argument_ih =>
      have whole : (app function argument).isRedex = false := noRedex [] _ (by rw [subterm?])
      have notAbs : function.isAbstraction = false := whole
      have functionNormal := function_ih fun path => noRedex (.function :: path)
      have argumentNormal := argument_ih fun path => noRedex (.argument :: path)
      simp [Term.isNormal, notAbs, functionNormal, argumentNormal]

/-- A normal term has no subterm that passes a test for redexes of some kind. -/
theorem first?_of_normal (normal : term.isNormal = true)
    (redexes : ∀ subterm, test subterm = true → subterm.isRedex = true) :
    term.first? test = none := by
  have fails : ∀ subterm, subterm.isRedex = false → test subterm = false := by
    intro subterm noRedex
    cases passes : test subterm with
    | false => rfl
    | true =>
        rw [redexes subterm passes] at noRedex
        contradiction
  induction term with
  | var name => simp [first?, fails (var name) rfl]
  | abs binder body ih => simp [first?, fails (abs binder body) rfl, ih normal]
  | app function argument function_ih argument_ih =>
      have noRedex := isRedex_of_normal normal
      simp only [isNormal, Bool.and_eq_true] at normal
      simp [first?, fails _ noRedex, function_ih normal.1.2, argument_ih normal.2]

theorem leftmostRedex?_of_normal (normal : term.isNormal = true) : term.leftmostRedex? = none :=
  first?_of_normal normal fun _ => id

end Term

end BetaNormal

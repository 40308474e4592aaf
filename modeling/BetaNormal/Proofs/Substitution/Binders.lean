import BetaNormal.Proofs.Path
import BetaNormal.Proofs.Substitution.Rules
import Mathlib.Data.List.Forall2

/-!
# Binders that a substitution renames

A substitution renames a binder only if it would catch a variable of the value, and it never gets
below a binder of the name that it replaces.  So the binders that have to be renamed can be told
from the term and the value alone, in the order in which they stand in print.  A substitution
renames these, each of them once and in this order, and it leaves all others as they are.
-/

namespace BetaNormal

/-- The order in which the subterms of a term start in print: a term comes before its parts, and a
function before its argument. -/
def Path.Before : Path → Path → Prop :=
  List.Lex fun side other => side = .function ∧ other = .argument

namespace Term

/-- `Binds binder term path`: the abstraction at the end of a path binds a name. -/
inductive Binds (binder : Name) : Term → Path → Prop
  | here {body} : Binds binder (abs binder body) []
  | body {outer body path} (below : Binds binder body path) :
      Binds binder (abs outer body) (.body :: path)
  | function {function argument path} (below : Binds binder function path) :
      Binds binder (app function argument) (.function :: path)
  | argument {function argument path} (below : Binds binder argument path) :
      Binds binder (app function argument) (.argument :: path)

/-- Whether no abstraction binds a name on the way down a path, the last one included. -/
def Exposed (name : Name) (term : Term) (path : Path) : Prop :=
  ∀ outer, outer <+: path → ¬ Binds name term outer

/-- The paths to the binders, from left to right, that would catch a variable of a value in the
place of a name. -/
def clashes (name : Name) (value : Term) : Term → List Path
  | var _ => []
  | abs binder body =>
      if binder = name then []
      else
        let below := (clashes name value body).map (.body :: ·)
        if value.occursFree binder then [] :: below else below
  | app function argument =>
      (clashes name value function).map (.function :: ·) ++
        (clashes name value argument).map (.argument :: ·)

/-- Puts a value in the place of the free occurrences of a name and leaves the binders alone,
whatever they may catch. -/
def fillIn (name : Name) (value : Term) : Term → Term
  | var other => if other = name then value else var other
  | abs binder body =>
      if binder = name then abs binder body else abs binder (fillIn name value body)
  | app function argument => app (fillIn name value function) (fillIn name value argument)

section

variable {name binder outer : Name} {value body function argument term : Term} {path : Path}

theorem binds_iff :
    Binds binder term path ↔ ∃ body, term.subterm? path = some (abs binder body) := by
  constructor
  · intro binds
    induction binds with
    | @here body => exact ⟨body, by rw [subterm?]⟩
    | body _ ih => exact ih
    | function _ ih => exact ih
    | argument _ ih => exact ih
  · rintro ⟨body, stands⟩
    induction term, path using subterm?.induct with
    | case1 term =>
        rw [subterm?, Option.some.injEq] at stands
        exact stands ▸ .here
    | case2 outer inner path ih => exact .body (ih stands)
    | case3 function argument path ih => exact .function (ih stands)
    | case4 function argument path ih => exact .argument (ih stands)
    | case5 => simp_all [subterm?]

/-! ## Exposed places -/

theorem exposed_here : Exposed name (abs binder body) [] ↔ binder ≠ name := by
  constructor
  · rintro exposed rfl
    exact exposed [] List.prefix_rfl .here
  · intro different outer within binds
    rw [List.prefix_nil.mp within] at binds
    cases binds
    exact different rfl

theorem exposed_body :
    Exposed name (abs binder body) (.body :: path) ↔ binder ≠ name ∧ Exposed name body path := by
  constructor
  · intro exposed
    exact ⟨exposed_here.mp fun outer within => exposed outer (within.trans List.nil_prefix),
      fun outer within binds => exposed _ (List.cons_prefix_cons.mpr ⟨rfl, within⟩) (.body binds)⟩
  · rintro ⟨different, exposed⟩ outer within binds
    cases binds with
    | here => exact different rfl
    | body below => exact exposed _ (List.cons_prefix_cons.mp within).2 below

theorem exposed_function :
    Exposed name (app function argument) (.function :: path) ↔ Exposed name function path := by
  constructor
  · exact fun exposed outer within binds =>
      exposed _ (List.cons_prefix_cons.mpr ⟨rfl, within⟩) (.function binds)
  · intro exposed outer within binds
    cases binds with
    | function below => exact exposed _ (List.cons_prefix_cons.mp within).2 below
    | argument below => cases (List.cons_prefix_cons.mp within).1

theorem exposed_argument :
    Exposed name (app function argument) (.argument :: path) ↔ Exposed name argument path := by
  constructor
  · exact fun exposed outer within binds =>
      exposed _ (List.cons_prefix_cons.mpr ⟨rfl, within⟩) (.argument binds)
  · intro exposed outer within binds
    cases binds with
    | function below => cases (List.cons_prefix_cons.mp within).1
    | argument below => exact exposed _ (List.cons_prefix_cons.mp within).2 below

/-! ## Which binders clash -/

theorem clashes_abs_of_ne (different : binder ≠ name) :
    clashes name value (abs binder body) =
      (if value.occursFree binder then [[]] else []) ++
        (clashes name value body).map (.body :: ·) := by
  by_cases captures : value.occursFree binder = true <;> simp [clashes, different, captures]

theorem mem_clashes_iff :
    path ∈ clashes name value term ↔
      Exposed name term path ∧ ∃ binder, Binds binder term path ∧ value.occursFree binder = true := by
  constructor
  · intro clash
    induction term generalizing path with
    | var other => simp [clashes] at clash
    | abs binder body ih =>
        by_cases same : binder = name
        · simp [clashes, same] at clash
        · rw [clashes_abs_of_ne same, List.mem_append, List.mem_map] at clash
          rcases clash with here | ⟨path, below, rfl⟩
          · by_cases captures : value.occursFree binder = true
            · rw [if_pos captures, List.mem_singleton] at here
              subst here
              exact ⟨exposed_here.mpr same, binder, .here, captures⟩
            · simp [captures] at here
          · obtain ⟨exposed, inner, binds, captures⟩ := ih below
            exact ⟨exposed_body.mpr ⟨same, exposed⟩, inner, .body binds, captures⟩
    | app function argument function_ih argument_ih =>
        rw [clashes, List.mem_append, List.mem_map, List.mem_map] at clash
        rcases clash with ⟨path, below, rfl⟩ | ⟨path, below, rfl⟩
        · obtain ⟨exposed, inner, binds, captures⟩ := function_ih below
          exact ⟨exposed_function.mpr exposed, inner, .function binds, captures⟩
        · obtain ⟨exposed, inner, binds, captures⟩ := argument_ih below
          exact ⟨exposed_argument.mpr exposed, inner, .argument binds, captures⟩
  · rintro ⟨exposed, binder, binds, captures⟩
    induction binds with
    | here =>
        rw [clashes_abs_of_ne (exposed_here.mp exposed), if_pos captures]
        exact List.mem_cons_self
    | body _ ih =>
        obtain ⟨different, exposed⟩ := exposed_body.mp exposed
        rw [clashes_abs_of_ne different]
        exact List.mem_append_right _ (List.mem_map_of_mem (ih exposed))
    | function _ ih =>
        exact List.mem_append_left _ (List.mem_map_of_mem (ih (exposed_function.mp exposed)))
    | argument _ ih =>
        exact List.mem_append_right _ (List.mem_map_of_mem (ih (exposed_argument.mp exposed)))

theorem pairwise_before_map {paths : List Path} (side : Side) (ordered : paths.Pairwise Path.Before) :
    (paths.map (side :: ·)).Pairwise Path.Before :=
  List.pairwise_map.mpr (ordered.imp .cons)

theorem pairwise_before_clashes (name : Name) (value term : Term) :
    (clashes name value term).Pairwise Path.Before := by
  induction term with
  | var other => exact .nil
  | abs binder body ih =>
      by_cases same : binder = name
      · simp [clashes, same]
      · rw [clashes_abs_of_ne same]
        refine List.pairwise_append.mpr ⟨?_, pairwise_before_map .body ih, ?_⟩
        · split
          · exact List.pairwise_singleton _ _
          · exact .nil
        · intro outer isHere path isBelow
          obtain ⟨below, -, rfl⟩ := List.mem_map.mp isBelow
          split at isHere
          · rw [List.mem_singleton.mp isHere]
            exact .nil
          · cases isHere
  | app function argument function_ih argument_ih =>
      refine List.pairwise_append.mpr
        ⟨pairwise_before_map .function function_ih, pairwise_before_map .argument argument_ih, ?_⟩
      intro left isLeft right isRight
      obtain ⟨left, -, rfl⟩ := List.mem_map.mp isLeft
      obtain ⟨right, -, rfl⟩ := List.mem_map.mp isRight
      exact .rel ⟨rfl, rfl⟩

/-! ## Renaming below a binder -/

theorem Binds.rename (binds : Binds binder term path) (old new : Name) :
    Binds binder (rename old new term) path := by
  induction binds with
  | @here body =>
      by_cases same : binder = old <;> simp only [Term.rename, same, if_true, if_false]
      all_goals exact .here
  | @body outer body path below ih =>
      -- below a binder of the old name the renaming stops
      by_cases same : outer = old
      · rw [Term.rename, if_pos same]
        exact .body below
      · rw [Term.rename, if_neg same]
        exact .body ih
  | function _ ih => exact .function ih
  | argument _ ih => exact .argument ih

theorem clashes_rename (old new : Name) (term : Term) :
    clashes name value (rename old new term) = clashes name value term := by
  induction term with
  | var other => simp [rename, clashes]
  | abs binder body ih =>
      by_cases same : binder = old
      · rw [rename, if_pos same]
      · simp only [rename, if_neg same, clashes, ih]
  | app function argument function_ih argument_ih =>
      simp only [rename, clashes, function_ih, argument_ih]

theorem exists_subterm?_of_rename {old new : Name} {part : Term}
    (stands : (rename old new term).subterm? path = some part) :
    ∃ origin, term.subterm? path = some origin ∧
      (part = origin ∨ part = rename old new origin) := by
  induction term, path using subterm?.induct with
  | case1 term =>
      rw [subterm?, Option.some.injEq] at stands
      exact ⟨term, by rw [subterm?], .inr stands.symm⟩
  | case2 binder body path ih =>
      by_cases same : binder = old
      · rw [rename, if_pos same] at stands
        exact ⟨part, stands, .inl rfl⟩
      · rw [rename, if_neg same] at stands
        exact ih stands
  | case3 function argument path ih => exact ih stands
  | case4 function argument path ih => exact ih stands
  | case5 term side path noBody noFunction noArgument =>
      cases term with
      | var other => simp [rename, subterm?] at stands
      | abs binder body =>
          by_cases same : binder = old <;> cases side <;> simp_all [rename, subterm?]
      | app function argument => cases side <;> simp_all [rename, subterm?]

theorem mem_names_rename_of_mem {old new other : Name} (occurs : other ∈ term.names) :
    other = old ∨ other ∈ (rename old new term).names := by
  induction term with
  | var here =>
      obtain rfl := List.mem_singleton.mp occurs
      by_cases same : other = old <;> simp [rename, names, same]
  | abs binder body ih =>
      by_cases same : binder = old
      · rw [rename, if_pos same]
        exact .inr occurs
      · simp only [rename, if_neg same, names, List.mem_cons] at occurs ⊢
        rcases occurs with isBinder | below
        · exact .inr (.inl isBinder)
        · exact (ih below).imp_right .inr
  | app function argument function_ih argument_ih =>
      simp only [rename, names, List.mem_append] at occurs ⊢
      rcases occurs with left | right
      · exact (function_ih left).imp_right .inl
      · exact (argument_ih right).imp_right .inr

end

/-! ## What the binders are renamed to -/

/-- What a new name for the binder at the end of a path is kept apart from: the value, the name that
is replaced, what is to be avoided, and the abstraction of the binder itself.  What stands around
the abstraction is not looked at. -/
structure Apart (name : Name) (value : Term) (avoid : List Name) (term : Term) (path : Path)
    (new : Name) : Prop where
  fromValue : new ∉ value.names
  fromName : new ≠ name
  fromAvoided : new ∉ avoid
  fromScope : ∃ scope, term.subterm? path = some scope ∧ new ∉ scope.names

theorem Apart.of_rename {name binder new newer : Name} {value body : Term} {avoid : List Name}
    {path : Path} (apart : Apart name value avoid (rename binder new body) path newer)
    (captures : value.occursFree binder = true) :
    Apart name value avoid (abs binder body) (.body :: path) newer where
  fromValue := apart.fromValue
  fromName := apart.fromName
  fromAvoided := apart.fromAvoided
  fromScope := by
    obtain ⟨part, stands, absent⟩ := apart.fromScope
    obtain ⟨scope, standsBefore, rfl | rfl⟩ := exists_subterm?_of_rename stands
    · exact ⟨part, standsBefore, absent⟩
    · refine ⟨scope, standsBefore, fun occurs => ?_⟩
      -- the old name of the binder may be gone below it, but it occurs in the value
      rcases mem_names_rename_of_mem occurs with isBinder | below
      · exact apart.fromValue (isBinder ▸ mem_names_of_occursFree captures)
      · exact absent below

section

variable (name : Name) (value : Term) (avoid : List Name)

/-- Each binder that clashes gets the name that is drawn for it. -/
theorem renames_clashes (term : Term) (supply : Supply) :
    List.Forall₂
      (fun path new => Binds new (substitute name value avoid term supply).1 path ∧
        Apart name value avoid term path new)
      (clashes name value term) (drawn name value avoid term supply) := by
  induction term, supply using substitute.induct name value avoid with
  | case1 other supply =>
      simp only [drawn, clashes]
      exact .nil
  | case2 function argument supply left function_ih argument_ih =>
      simp only [drawn, clashes, substitute]
      refine List.rel_append ?_ ?_
      · rw [List.forall₂_map_left_iff]
        exact function_ih.imp fun _ _ below => ⟨.function below.1, { below.2 with }⟩
      · rw [List.forall₂_map_left_iff]
        exact argument_ih.imp fun _ _ below => ⟨.argument below.1, { below.2 with }⟩
  | case3 body supply =>
      simp only [drawn, clashes, if_true]
      exact .nil
  | case4 binder body supply different captures fresh ih =>
      obtain ⟨newToValue, newToBody, newToName, newToAvoided⟩ :=
        drawn_not_mem name value avoid body supply
      have inValue : binder ∈ value.names := mem_names_of_occursFree captures
      have newToScope : fresh.1 ∉ (abs binder body).names := by
        simp only [names, List.mem_cons, not_or]
        exact ⟨fun same => newToValue (same ▸ inValue), newToBody⟩
      -- the renaming neither adds nor removes a clash further down
      rw [clashes_rename] at ih
      simp only [drawn, substitute, clashes, if_neg different, if_pos captures]
      refine .cons ⟨.here, newToValue, newToName, newToAvoided, _, rfl, newToScope⟩ ?_
      rw [List.forall₂_map_left_iff]
      exact ih.imp fun _ _ below => ⟨.body below.1, below.2.of_rename captures⟩
  | case5 binder body supply different harmless ih =>
      simp only [drawn, substitute, clashes, if_neg different, if_neg harmless]
      rw [List.forall₂_map_left_iff]
      exact ih.imp fun _ _ below => ⟨.body below.1, { below.2 with }⟩

/-- A binder that does not clash keeps its name. -/
theorem binds_substitute (binder : Name) (term : Term) (supply : Supply) :
    ∀ path, Binds binder term path → path ∉ clashes name value term →
      Binds binder (substitute name value avoid term supply).1 path := by
  induction term, supply using substitute.induct name value avoid with
  | case1 other supply =>
      intro path binds
      cases binds
  | case2 function argument supply left function_ih argument_ih =>
      intro path binds noClash
      simp only [clashes, List.mem_append, not_or] at noClash
      simp only [substitute]
      cases binds with
      | function below =>
          exact .function (function_ih _ below fun clash => noClash.1 (List.mem_map_of_mem clash))
      | argument below =>
          exact .argument (argument_ih _ below fun clash => noClash.2 (List.mem_map_of_mem clash))
  | case3 body supply =>
      intro path binds noClash
      rw [substitute, if_pos rfl]
      exact binds
  | case4 outer body supply different captures fresh ih =>
      intro path binds noClash
      rw [clashes_abs_of_ne different, if_pos captures] at noClash
      rw [substitute, if_neg different, if_pos captures]
      cases binds with
      | here => exact absurd List.mem_cons_self noClash
      | body below =>
          rw [clashes_rename] at ih
          exact .body (ih _ (below.rename outer _) fun clash =>
            noClash (List.mem_append_right _ (List.mem_map_of_mem clash)))
  | case5 outer body supply different harmless ih =>
      intro path binds noClash
      rw [clashes_abs_of_ne different] at noClash
      rw [substitute, if_neg different, if_neg harmless]
      cases binds with
      | here => exact .here
      | body below =>
          exact .body (ih _ below fun clash =>
            noClash (List.mem_append_right _ (List.mem_map_of_mem clash)))

theorem substitute_of_no_clash {term : Term} (noClash : clashes name value term = [])
    (supply : Supply) :
    substitute name value avoid term supply = (fillIn name value term, supply) := by
  induction term with
  | var other => simp only [substitute, fillIn]
  | abs binder body ih =>
      by_cases same : binder = name
      · simp [substitute, fillIn, same]
      · rw [clashes_abs_of_ne same, List.append_eq_nil_iff, List.map_eq_nil_iff] at noClash
        obtain ⟨here, below⟩ := noClash
        have harmless : ¬ value.occursFree binder = true := fun captures => by
          simp [captures] at here
        simp only [substitute, fillIn, if_neg same, if_neg harmless, ih below]
  | app function argument function_ih argument_ih =>
      rw [clashes, List.append_eq_nil_iff, List.map_eq_nil_iff, List.map_eq_nil_iff] at noClash
      simp only [substitute, fillIn, function_ih noClash.1, argument_ih noClash.2]

/-- A substitution renames the binders that clash with the value and no others.  A binder clashes if
it occurs free in the value and neither it nor a binder around it is the name that is replaced.  The
binders that clash get the names that the supply gives out, renamings included, in the order in
which they stand in print.  If there are none, the value is just filled in and the supply is left
as it was. -/
theorem substitute_renames_clashes (term : Term) (supply : Supply) :
    (∀ names result after,
      Substitutes avoid name value term supply names result after ↔
        names = drawn name value avoid term supply ∧
          (result, after) = substitute name value avoid term supply) ∧
    supply.Gives (drawn name value avoid term supply)
      (substitute name value avoid term supply).2 ∧
    (∀ path, path ∈ clashes name value term ↔
      Exposed name term path ∧ ∃ binder, Binds binder term path ∧ value.occursFree binder = true) ∧
    (clashes name value term).Pairwise Path.Before ∧
    List.Forall₂ (fun path new => Binds new (substitute name value avoid term supply).1 path)
      (clashes name value term) (drawn name value avoid term supply) ∧
    (∀ path binder, Binds binder term path → path ∉ clashes name value term →
      Binds binder (substitute name value avoid term supply).1 path) ∧
    (clashes name value term = [] →
      substitute name value avoid term supply = (fillIn name value term, supply)) := by
  refine ⟨fun _ _ _ => substitutes_iff, gives_drawn name value avoid term supply,
    fun _ => mem_clashes_iff, pairwise_before_clashes name value term, ?_, ?_, ?_⟩
  · exact (renames_clashes name value avoid term supply).imp fun _ _ => And.left
  · exact fun path binder => binds_substitute name value avoid binder term supply path
  · exact fun noClash => substitute_of_no_clash name value avoid noClash supply

end

/-- `λy.(x λx.λy.x)`: the `y` below the inner `x` is not exposed. -/
def shadowing : Term := abs .y (app (var .x) (abs .x (abs .y (var .x))))

/-- With `z` for `x` no binder clashes; with `y` for `x` the first one does. -/
theorem substitute_renames_clashes_shadowing :
    clashes .x (var .z) shadowing = [] ∧
    substitute .x (var .z) [] shadowing .standard = (fillIn .x (var .z) shadowing, .standard) ∧
    clashes .x (var .y) shadowing = [[]] ∧
    Exposed .x shadowing [] := by
  have noClash : clashes .x (var .z) shadowing = [] := by decide
  have clash : clashes .x (var .y) shadowing = [[]] := by decide
  obtain ⟨-, -, -, -, -, -, filled⟩ :=
    substitute_renames_clashes .x (var .z) [] shadowing .standard
  obtain ⟨-, -, exactly, -⟩ := substitute_renames_clashes .x (var .y) [] shadowing .standard
  exact ⟨noClash, filled noClash, clash, ((exactly []).mp (by rw [clash]; simp)).1⟩

end Term

end BetaNormal

import BetaNormal.Proofs.Alpha
import BetaNormal.Proofs.Nameless.Free
import BetaNormal.Term.Inventory
import Mathlib.Logic.Relation

/-!
# Free names, all names, and nodes

A name can be looked for below its binders, the free names of a term can be listed, and all names
can be gathered from its nodes.  These are three walks of different shape over one term, and they
agree about what they find.
-/

namespace BetaNormal.Term

variable {found : List Name} {stack : List Term} {node term : Term} {name : Name}

/-- Whether a node is reached from a term, from each node to one directly below it. -/
def HasNode (term node : Term) : Prop :=
  Relation.ReflTransGen (fun parent child => child ∈ parent.children) term node

theorem hasNode_iff :
    term.HasNode node ↔ term = node ∨ ∃ child ∈ term.children, child.HasNode node :=
  Relation.ReflTransGen.cases_head_iff

/-- The nodes with a name are the variables and the binders. -/
theorem mem_names_iff_hasNode : name ∈ term.names ↔ term.HasNode (var name) := by
  induction term with
  | var other =>
      rw [hasNode_iff]
      simp [names, children, eq_comm]
  | abs binder body ih =>
      have atBinder : (var binder).HasNode (var name) ↔ name = binder := by
        rw [hasNode_iff]
        simp [children, eq_comm]
      rw [hasNode_iff]
      simp [names, children, ih, atBinder]
  | app function argument function_ih argument_ih =>
      rw [hasNode_iff]
      simp [names, children, function_ih, argument_ih]

/-! ## The walk with a stack -/

/-- Whether a name has been found, or is that of a node below the stack. -/
def InReach (found : List Name) (stack : List Term) (name : Name) : Prop :=
  name ∈ found ∨ ∃ term ∈ stack, term.HasNode (var name)

theorem mem_noted : name ∈ node.noted found ↔ name ∈ found ∨ node = var name := by
  cases node with
  | var other => simp [noted, or_comm, eq_comm]
  | abs _ _ => simp [noted]
  | app _ _ => simp [noted]

/-- Taking a node off the stack changes nothing about what is in reach. -/
theorem inReach_step :
    InReach (node.noted found) (node.children.reverse ++ stack) name ↔
      InReach found (node :: stack) name := by
  have here := @hasNode_iff (var name) node
  simp only [InReach, mem_noted, List.mem_append, List.mem_reverse, List.mem_cons]
  grind

theorem mem_gather : name ∈ gather found stack ↔ InReach found stack name := by
  induction found, stack using gather.induct with
  | case1 found => simp [gather, InReach]
  | case2 found node stack ih =>
      rw [gather, ih]
      exact inReach_step

theorem nodup_gather (distinct : found.Nodup) : (gather found stack).Nodup := by
  induction found, stack using gather.induct with
  | case1 found => rwa [gather]
  | case2 found node stack ih =>
      rw [gather]
      apply ih
      cases node with
      | var name => exact distinct.insert
      | abs _ _ => exact distinct
      | app _ _ => exact distinct

theorem mem_inventory_iff : name ∈ term.inventory ↔ term.HasNode (var name) := by
  simp [inventory, mem_gather, InReach]

/-! ## Free names -/

theorem occursFree_eq_of_alphaEquals {left right : Term} (alike : left.alphaEquals right = true)
    (name : Name) : left.occursFree name = right.occursFree name := by
  rw [alphaEquals_iff_nameless] at alike
  rw [Bool.eq_iff_iff, ← mentions_nameless, ← mentions_nameless, alike]

/-- Looking for a free name finds just those that are listed.  They are among the names that are
gathered with a stack.  These are the names of the variables and the binders of the term, each of
them once, and no others, as they are of the walk by recursion.  Terms that are the same up to the
names of their binders have the same free names. -/
theorem name_analyses_agree :
    (∀ (name : Name) (term : Term), term.occursFree name = true ↔ name ∈ term.freeNames) ∧
    (∀ term : Term, term.freeNames ⊆ term.inventory) ∧
    (∀ term : Term, term.inventory.Nodup ∧
      ∀ name, (name ∈ term.inventory ↔ term.HasNode (var name)) ∧
        (name ∈ term.inventory ↔ name ∈ term.names)) ∧
    ∀ left right : Term, left.alphaEquals right = true →
      ∀ name, name ∈ left.freeNames ↔ name ∈ right.freeNames := by
  refine ⟨fun name term => mem_freeNames_iff.symm, ?among, ?exact, ?alike⟩
  case among =>
    intro term name isFree
    rw [mem_inventory_iff, ← mem_names_iff_hasNode]
    exact mem_names_of_occursFree (mem_freeNames_iff.mp isFree)
  case exact =>
    intro term
    refine ⟨nodup_gather List.nodup_nil, fun name => ⟨mem_inventory_iff, ?_⟩⟩
    rw [mem_inventory_iff, mem_names_iff_hasNode]
  case alike =>
    intro left right alike name
    rw [mem_freeNames_iff, mem_freeNames_iff, occursFree_eq_of_alphaEquals alike]

/-- `λx.λx.(x y)` -/
def hiddenBinder : Term := abs .x (abs .x (app (var .x) (var .y)))

/-- `λk.λz.(z y)` -/
def openBinders : Term := abs .k (abs .z (app (var .z) (var .y)))

theorem name_analyses_agree_hidden : hiddenBinder.alphaEquals openBinders = true ∧
    ∀ name, name ∈ hiddenBinder.freeNames ↔ name ∈ openBinders.freeNames := by
  have alike : hiddenBinder.alphaEquals openBinders = true := by decide
  exact ⟨alike, name_analyses_agree.2.2.2 hiddenBinder openBinders alike⟩

end BetaNormal.Term

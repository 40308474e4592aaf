import BetaNormal.Term

/-!
# Inventories

The names of a term, each of them once, gathered without recursion on the term: the nodes that are
still to be looked at stand on a stack.  The order of the names has no meaning.
-/

namespace BetaNormal.Term

/-- The number of nodes of a term.  The binder of an abstraction is a node of its own. -/
def nodeCount : Term → Nat
  | var _ => 1
  | abs _ body => body.nodeCount + 2
  | app function argument => function.nodeCount + argument.nodeCount + 1

/-- The number of nodes that a walk has still to look at. -/
def remaining : (stack : List Term) → Nat
  | [] => 0
  | node :: rest => node.nodeCount + remaining rest

theorem remaining_children_lt (node : Term) (rest : List Term) :
    remaining (node.children.reverse ++ rest) < remaining (node :: rest) := by
  cases node with
  | var _ => simp [children, remaining, nodeCount]
  | abs _ _ => simp [children, remaining, nodeCount]; omega
  | app _ _ => simp [children, remaining, nodeCount]; omega

/-- The names so far, and that of a node if it is a variable. -/
def noted (found : List Name) : Term → List Name
  | var name => found.insert name
  | _ => found

/-- Takes one node after the other off a stack and puts those directly below it there instead, the
last of them on top. -/
def gather (found : List Name) : (stack : List Term) → List Name
  | [] => found
  | node :: rest => gather (node.noted found) (node.children.reverse ++ rest)
termination_by stack => remaining stack
decreasing_by exact remaining_children_lt node rest

def inventory (term : Term) : List Name := gather [] [term]

end BetaNormal.Term

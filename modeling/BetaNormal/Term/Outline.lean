import BetaNormal.Term

/-!
# Outlines

A term laid out as a tree, one node a line, every level indented by four more spaces.
-/

namespace BetaNormal.Term

def indentation (level : Nat) : Text := List.replicate (4 * level) ' '

def heading (level : Nat) (term : Term) : Text :=
  indentation level ++ term.kind ++ "(expr='" ++ term.print ++ "'"

/-- A node with two nodes below it that are laid out already. -/
def branching (level : Nat) (term : Term) (first second : Text) : Text :=
  heading level term ++ ", nodes=[\n" ++ first ++ ",\n" ++ second ++ "\n" ++ indentation level
    ++ "])"

def leaf (level : Nat) (name : Name) : Text := heading level (var name) ++ ")"

def outlineAt (level : Nat) : Term → Text
  | var name => leaf level name
  | abs binder body =>
      branching level (abs binder body) (leaf (level + 1) binder) (outlineAt (level + 1) body)
  | app function argument =>
      branching level (app function argument) (outlineAt (level + 1) function)
        (outlineAt (level + 1) argument)

def outline (term : Term) : Text := outlineAt 0 term

end BetaNormal.Term

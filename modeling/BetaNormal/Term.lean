import BetaNormal.Name

/-!
# Terms

The terms of the untyped λ-calculus with named variables, the way they are printed, and the names
that occur in them.  An application is always printed in parentheses, so a printed term can be
read in one way only.
-/

namespace BetaNormal

inductive Term where
  | var (name : Name)
  | abs (binder : Name) (body : Term)
  | app (function argument : Term)
  deriving DecidableEq

namespace Term

def size : Term → Nat
  | var _ => 1
  | abs _ body => body.size + 1
  | app function argument => function.size + argument.size + 1

/-- The longest way from the root down to a variable, in edges. -/
def height : Term → Nat
  | var _ => 0
  | abs _ body => body.height + 1
  | app function argument => max function.height argument.height + 1

def isAbstraction : Term → Bool
  | abs _ _ => true
  | _ => false

/-- Whether a term is itself a redex: an application of an abstraction. -/
def isRedex : Term → Bool
  | app function _ => function.isAbstraction
  | _ => false

/-! ## Printing -/

def lambda : Char := 'λ'

/-- The printed term: `x`, `λx.body` or `(function argument)`. -/
def print : Term → Text
  | var name => name.text
  | abs binder body => lambda :: binder.text ++ '.' :: body.print
  | app function argument => '(' :: function.print ++ ' ' :: argument.print ++ [')']

def kind : Term → Text
  | var _ => "Variable"
  | abs _ _ => "Abstraction"
  | app _ _ => "Application"

def shown (term : Term) : Text := term.kind ++ "('" ++ term.print ++ "')"

/-- The terms directly below a term, from left to right.  The binder of an abstraction counts as a
variable. -/
def children : Term → List Term
  | var _ => []
  | abs binder body => [var binder, body]
  | app function argument => [function, argument]

/-! ## Names -/

/-- The names of all variables and binders of a term, from left to right, as often as they
occur. -/
def names : Term → List Name
  | var name => [name]
  | abs binder body => binder :: body.names
  | app function argument => function.names ++ argument.names

def freeNames : Term → List Name
  | var name => [name]
  | abs binder body => body.freeNames.filter (· ≠ binder)
  | app function argument => function.freeNames ++ argument.freeNames

/-- Whether a name occurs free in a term.  A binder of the same name hides everything below it. -/
def occursFree (name : Name) : Term → Bool
  | var other => other = name
  | abs binder body => binder ≠ name && body.occursFree name
  | app function argument => function.occursFree name || argument.occursFree name

end Term

end BetaNormal

import BetaNormal.Failure
import BetaNormal.Foreign
import BetaNormal.Term.Alpha

/-!
# Operands that need not be terms

The operations on terms also take values that are not terms, such as a number or a plain text.
Such a value may be put in the place of a variable, but nothing can be built around it and
nothing can be looked up in it.
-/

namespace BetaNormal

/-- A term, or a value that is not one. -/
inductive Operand where
  | term (term : Term)
  | foreign (value : Foreign)
  deriving DecidableEq

namespace Operand

/-- Why an operation refuses its operands: it needs a term where there is none, or a part that
operands of a kind do not have, or a term cannot be built out of them, or a binder cannot be
renamed, or the numbers of fresh names get too long. -/
inductive Fault where
  | notTerm (value : Foreign)
  | lacks (kind part : Text)
  | binderNotVariable (operand : Operand)
  | bodyNotTerm (operand : Operand)
  | operandNotTerm (operand : Operand)
  | notRenamed (fault : Term.RenamingFault)
  | numeralTooLong
  deriving DecidableEq

def shown : Operand → Text
  | term inner => inner.shown
  | foreign value => value.shown

def kind : Operand → Text
  | term inner => inner.kind
  | foreign value => value.kind

def Fault.failure : Fault → Failure
  | notTerm value =>
      .reported (.notATerm [.plain "'", .snippet value.shown, .plain "' is not a λ-term"]
        value.shown)
  | lacks kind part =>
      .unforeseen .member ("'" ++ kind ++ "' object has no attribute '" ++ part ++ "'")
  | binderNotVariable operand =>
      .unforeseen .type ("abstraction must bind a Variable, got " ++ operand.shown)
  | bodyNotTerm operand =>
      .unforeseen .type ("abstraction body must be a LambdaTerm, got " ++ operand.shown)
  | operandNotTerm operand =>
      .unforeseen .type ("application operands must be LambdaTerms, got " ++ operand.shown)
  | notRenamed fault => fault.failure
  | numeralTooLong => .numeralTooLong

/-- The term that an operand has to be. -/
def toTerm : Operand → Except Fault Term
  | term inner => .ok inner
  | foreign value => .error (.notTerm value)

/-- The term that an operand has to be if something is asked of it that only terms have. -/
def termWith (part : Text) : Operand → Except Fault Term
  | term inner => .ok inner
  | foreign value => .error (.lacks value.kind part)

def toPrint : Operand → Except Fault Term := termWith "expr"

def toCompare : Operand → Except Fault Term := termWith "alpha_equals"

/-- The name that an operand has to have, which only variables do. -/
def toName : Operand → Except Fault Name
  | term (.var name) => .ok name
  | other => .error (.lacks other.kind "name")

def abstraction : (binder body : Operand) → Except Fault Term
  | term (.var binder), term body => .ok (.abs binder body)
  | term (.var _), body => .error (.bodyNotTerm body)
  | binder, _ => .error (.binderNotVariable binder)

def application : (function argument : Operand) → Except Fault Term
  | term function, term argument => .ok (.app function argument)
  | term _, argument => .error (.operandNotTerm argument)
  | function, _ => .error (.operandNotTerm function)

def alphaEquals (left : Term) : Operand → Bool
  | term right => left.alphaEquals right
  | foreign _ => false

def occursFree (sought operand : Operand) : Except Fault Bool := do
  let target ← operand.toTerm
  let name ← sought.toName
  pure (target.occursFree name)

/-- Puts a value that is not a term in the place of the free occurrences of a name.  That is
possible only where nothing has to be built around it and no binder has to be compared with it. -/
def replace (name : Name) (value : Foreign) : Term → Except Fault Operand
  | .var other => .ok (if other = name then foreign value else term (.var other))
  | .app function argument => do
      let newFunction ← replace name value function
      let newArgument ← replace name value argument
      term <$> application newFunction newArgument
  | .abs binder body =>
      if binder = name then .ok (term (.abs binder body)) else .error (.notTerm value)

/-- A result and the supply behind it, unless the supply has run over the largest numeral. -/
def withinNumerals {α : Type} (result : α × Supply) : Except Fault (α × Supply) :=
  if result.2.isOverrun then .error .numeralTooLong else .ok result

/-- Puts a value in the place of the variable that is sought. -/
def substitute (sought value : Operand) (avoid : List Name) (operand : Operand)
    (supply : Supply) : Except Fault (Operand × Supply) := do
  let target ← operand.toTerm
  let name ← sought.toName
  match value with
  | term inner =>
      let replaced := Term.substitute name inner avoid target supply
      withinNumerals (term replaced.1, replaced.2)
  | foreign value =>
      let result ← replace name value target
      pure (result, supply)

/-- Renames the binder of an operand.  Whether there is a binder is looked at before the new
one. -/
def alphaConvert (newBinder : Operand) (avoid : List Name) (operand : Operand) (supply : Supply) :
    Except Fault (Term × Supply) := do
  let target ← operand.toTerm
  if !target.isAbstraction then throw (.notRenamed (.notAbstraction target))
  let name ← newBinder.toName
  let result ← (Term.alphaConvert name avoid supply target).mapError .notRenamed
  withinNumerals result

end Operand

end BetaNormal

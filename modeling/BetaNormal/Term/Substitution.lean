import BetaNormal.Term
import BetaNormal.Name.Supply

/-!
# Substitution without capture

A value is put in the place of the free occurrences of a name.  A binder on the way whose name
occurs free in the value would capture it, so such a binder is given a fresh name first, and no
other binder is touched.
-/

namespace BetaNormal.Term

/-- Puts `new` in the place of the free occurrences of `old`.  Nothing is captured as long as
`new` does not occur in the term. -/
def rename (old new : Name) : Term → Term
  | var name => var (if name = old then new else name)
  | abs binder body => if binder = old then abs binder body else abs binder (rename old new body)
  | app function argument => app (rename old new function) (rename old new argument)

@[simp] theorem size_rename (old new : Name) (term : Term) :
    (rename old new term).size = term.size := by
  induction term with
  | var name => rfl
  | abs binder body inductive_hypothesis =>
      by_cases same : binder = old <;> simp [rename, size, same, inductive_hypothesis]
  | app function argument function_hypothesis argument_hypothesis =>
      simp [rename, size, function_hypothesis, argument_hypothesis]

/-- Puts `value` in the place of the free occurrences of `name`.  A binder that would capture a
variable of the value gets a name that occurs neither in the value nor in its own scope, and that
is neither `name` nor one of `avoid`. -/
def substitute (name : Name) (value : Term) (avoid : List Name) : Term → Supply → Term × Supply
  | var other, supply => (if other = name then value else var other, supply)
  | app function argument, supply =>
      let left := substitute name value avoid function supply
      let right := substitute name value avoid argument left.2
      (app left.1 right.1, right.2)
  | abs binder body, supply =>
      if binder = name then (abs binder body, supply)
      else if value.occursFree binder then
        let drawn := supply.fresh (value.names ++ body.names ++ name :: avoid)
        let below := substitute name value avoid (rename binder drawn.1 body) drawn.2
        (abs drawn.1 below.1, below.2)
      else
        let below := substitute name value avoid body supply
        (abs binder below.1, below.2)
termination_by term => term.size
decreasing_by all_goals simp only [size, size_rename]; omega

/-- Why the binder of a term cannot be renamed: there is no binder, or the new name occurs free
below it. -/
inductive RenamingFault where
  | notAbstraction (term : Term)
  | occursFree (binder : Name) (body : Term)
  deriving DecidableEq

def RenamingFault.message : RenamingFault → Text
  | notAbstraction term => "can only alpha-convert an Abstraction, got " ++ term.shown
  | occursFree binder body =>
      "'" ++ binder.text ++ "' occurs free in '" ++ body.print ++ "'"

/-- Renames the binder of an abstraction to a name that is not free below it. -/
def alphaConvert (newBinder : Name) (avoid : List Name) (supply : Supply) :
    Term → Except RenamingFault (Term × Supply)
  | abs binder body =>
      if binder ≠ newBinder ∧ body.occursFree newBinder then
        .error (.occursFree newBinder body)
      else
        let below := substitute binder (var newBinder) avoid body supply
        .ok (abs newBinder below.1, below.2)
  | term => .error (.notAbstraction term)

end BetaNormal.Term

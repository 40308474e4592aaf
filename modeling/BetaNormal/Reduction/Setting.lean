import BetaNormal.Failure
import BetaNormal.Reduction

/-!
# Settings of the bounds

A user may set a bound of a reduction to a number or to no bound at all.  It can also happen that
a bound is set to something that no number can be compared with.  Such a setting does no harm
until a comparison is due, and then the reduction fails for good.  The depth is compared at every
subterm, the number of contractions only where one is about to be made.
-/

namespace BetaNormal

/-- What a bound is set to.  Of a setting that is no number only its kind is known. -/
inductive Setting where
  | unlimited
  | number (bound : Int)
  | incomparable (kind : Text)
  deriving DecidableEq, Repr

def Setting.bound : Setting → Option Int
  | .number bound => some bound
  | _ => none

def Setting.ofBound : Option Int → Setting
  | none => .unlimited
  | some bound => .number bound

structure Settings where
  steps : Setting
  depth : Setting
  deriving DecidableEq, Repr

def Settings.limits (settings : Settings) : Limits := ⟨settings.steps.bound, settings.depth.bound⟩

def Settings.ofLimits (limits : Limits) : Settings := ⟨.ofBound limits.steps, .ofBound limits.depth⟩

def Settings.standard : Settings := .ofLimits .standard

/-- Why a reduction under settings ends without a normal form: it met a bound, or a number was to
be compared by some sign with a setting of another kind. -/
inductive Breakdown where
  | interrupted (interruption : Interruption)
  | mismatch (sign kind : Text)
  deriving DecidableEq

def Breakdown.mismatchFailure (sign kind : Text) : Failure :=
  .unforeseen .type
    ("'" ++ sign ++ "' not supported between instances of 'int' and '" ++ kind ++ "'")

/-- What a reduction under settings came to, without what a bound has to do with it. -/
def Breakdown.ofOutcome (breakdown : Interruption → Breakdown) :
    Except Interruption Reduction × Supply → Except Breakdown Reduction × Supply
  | (.ok reduction, supply) => (.ok reduction, supply)
  | (.error interruption, supply) => (.error (breakdown interruption), supply)

/-- Reduces a term to β-normal form under settings.  If contractions cannot be counted, the run ends
where the first one is about to be made, as it does if none is allowed. -/
def Term.normalizeUnder (capacity : Capacity) (settings : Settings) (term : Term)
    (supply : Supply) : Except Breakdown Reduction × Supply :=
  match settings.depth, settings.steps with
  | .incomparable kind, _ => (.error (.mismatch ">" kind), supply)
  | depth, .incomparable kind =>
      Breakdown.ofOutcome
        (fun interruption =>
          if interruption.stop = .steps then .mismatch ">=" kind else .interrupted interruption)
        (term.normalize capacity ⟨some 0, depth.bound⟩ supply)
  | _, _ => Breakdown.ofOutcome .interrupted (term.normalize capacity settings.limits supply)

end BetaNormal

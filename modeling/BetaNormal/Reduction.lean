import BetaNormal.Term.Substitution
import BetaNormal.Report

/-!
# Reduction to β-normal form

A term is reduced by contracting redexes until none is left.  An application whose function is an
abstraction is contracted at once, with its argument as it stands.  Otherwise the function is
reduced first, and only if it does not turn into an abstraction is the argument reduced as well.
Reduction goes on under binders, so the result has no redex anywhere.

Not every term has a normal form, so a run is bounded: by a number of contractions, by the depth
of the subterm that is being reduced, and by what the machine has room for.  A run that meets a
bound reports the contractions that it has made.
-/

namespace BetaNormal

/-- The contraction of the redex that applies `function` to `argument`, and what became of it. -/
structure Contraction where
  function : Term
  argument : Term
  result : Term
  deriving DecidableEq

namespace Contraction

def redex (contraction : Contraction) : Term := .app contraction.function contraction.argument

def arrow : Text := "\t→\t"

def print (contraction : Contraction) : Text :=
  contraction.redex.print ++ arrow ++ contraction.result.print

end Contraction

structure Reduction where
  term : Term
  steps : List Contraction
  deriving DecidableEq

/-- The bounds that a user sets: how many contractions are allowed and how deep the subterm that
is being reduced may lie.  Either may be missing. -/
structure Limits where
  steps : Option Int
  depth : Option Int
  deriving DecidableEq, Repr

namespace Limits

def standard : Limits := ⟨some 1000, some 500⟩

/-- Whether a further contraction is more than is allowed after so many. -/
def stepsUsedUp (limits : Limits) (made : Nat) : Bool :=
  match limits.steps with
  | none => false
  | some bound => bound ≤ made

def tooDeep (limits : Limits) (depth : Nat) : Bool :=
  match limits.depth with
  | none => false
  | some bound => bound < depth

end Limits

/-- The bounds that the machine sets: how many levels deep it can go, and how many times in a row
it can start over on the result of a contraction. -/
structure Capacity where
  levels : Nat
  rounds : Nat
  deriving DecidableEq, Repr

def Capacity.standard : Capacity := ⟨960, 1000000000⟩

inductive Stop where
  | steps
  | depth
  | capacity
  deriving DecidableEq, Repr

/-- A run that met a bound, and the contractions that it had made, in order. -/
structure Interruption where
  stop : Stop
  steps : List Contraction
  deriving DecidableEq

def Interruption.report (term : Term) (limits : Limits) (interruption : Interruption) : Report :=
  let made := interruption.steps.length
  match interruption.stop with
  | .steps =>
      .unfinished [.plain "'", .snippet term.print, .plain "' has no beta-normal form within ",
        .snippet (bound limits.steps), .plain " steps"] term.print made
  | .depth =>
      .unfinished [.plain "reduction nests deeper than ", .snippet (bound limits.depth),
        .plain " levels"] (bound limits.depth) made
  | .capacity =>
      .unfinished
        [.plain "beta-normal form might exist, but maximum recursion depth was exceeded after ",
          .snippet (Text.decimal made), .plain " steps"] (Text.decimal made) made
where
  bound : Option Int → Text
    | none => "none"
    | some number => Text.integer number

/-- How far a run has come: its contractions so far, in order, and the supply of fresh names. -/
structure Progress where
  trace : Array Contraction
  supply : Supply
  deriving DecidableEq

namespace Term

/-- Reduces a term down to its leaves, from left to right.  Each contraction hands its result over
to `resume`, which reduces it in the place of the redex. -/
def reduceWith (limits : Limits) (levels : Nat) (avoid : List Name)
    (resume : Nat → Term → Progress → Except Stop Term × Progress) :
    (depth : Nat) → Term → Progress → Except Stop Term × Progress
  | depth, term, progress =>
      if limits.tooDeep depth then (.error .depth, progress)
      else if levels < depth then (.error .capacity, progress)
      else match term with
        | var name => (.ok (var name), progress)
        | abs binder body =>
            match reduceWith limits levels avoid resume (depth + 1) body progress with
            | (.ok body, progress) => (.ok (abs binder body), progress)
            | (.error stop, progress) => (.error stop, progress)
        | app function argument =>
            match
              if function.isAbstraction then (.ok function, progress)
              else reduceWith limits levels avoid resume (depth + 1) function progress with
            | (.error stop, progress) => (.error stop, progress)
            | (.ok (abs binder body), progress) =>
                if limits.stepsUsedUp progress.trace.size then (.error .steps, progress)
                else
                  let contracted := substitute binder argument avoid body progress.supply
                  resume depth contracted.1
                    ⟨progress.trace.push ⟨abs binder body, argument, contracted.1⟩, contracted.2⟩
            | (.ok function, progress) =>
                match reduceWith limits levels avoid resume (depth + 1) argument progress with
                | (.ok argument, progress) => (.ok (app function argument), progress)
                | (.error stop, progress) => (.error stop, progress)

/-- Reduces a term at some depth, starting over at most `rounds` times in a row. -/
def reduceAt (limits : Limits) (levels : Nat) (avoid : List Name) :
    (rounds depth : Nat) → Term → Progress → Except Stop Term × Progress
  | 0 => reduceWith limits levels avoid fun _ _ progress => (.error .capacity, progress)
  | rounds + 1 =>
      reduceWith limits levels avoid (reduceAt limits levels avoid rounds)

/-- Reduces a term to β-normal form.  Fresh names avoid all names of the term. -/
def normalize (capacity : Capacity) (limits : Limits) (term : Term) (supply : Supply) :
    Except Interruption Reduction × Supply :=
  match reduceAt limits capacity.levels term.names capacity.rounds 0 term ⟨#[], supply⟩ with
  | (.ok normal, progress) => (.ok ⟨normal, progress.trace.toList⟩, progress.supply)
  | (.error stop, progress) => (.error ⟨stop, progress.trace.toList⟩, progress.supply)

end Term

/-- A term with the bounds to reduce it under, and its reduction once there is one. -/
structure Reducer where
  term : Term
  limits : Limits
  reduction : Option Reduction

namespace Reducer

def ofTerm (term : Term) (limits : Limits) : Reducer := ⟨term, limits, none⟩

/-- The reduction of the term.  A run that succeeds is remembered; one that meets a bound starts
over the next time, with the supply as it is then. -/
def reduce (capacity : Capacity) (reducer : Reducer) (supply : Supply) :
    Except Interruption Reduction × Reducer × Supply :=
  match reducer.reduction with
  | some reduction => (.ok reduction, reducer, supply)
  | none =>
      match reducer.term.normalize capacity reducer.limits supply with
      | (.ok reduction, supply) => (.ok reduction, { reducer with reduction }, supply)
      | (.error interruption, supply) => (.error interruption, reducer, supply)

def shown (reducer : Reducer) : Text := "NormalOrderReducer(" ++ reducer.term.shown ++ ")"

end Reducer

end BetaNormal

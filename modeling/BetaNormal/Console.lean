import BetaNormal.Failure
import BetaNormal.Foreign

/-!
# The console

Reports are written to a console as errors or warnings.  The console keeps a trail: for every
source that has been opened, in the order of opening, the line of it that is being worked on.  An
error shows the whole trail, a warning its last line.  On a fatal console an error ends the
program; otherwise the trail is cleared and work goes on.

Every operation gives back the text that it writes.
-/

namespace BetaNormal

/-- A source and the line of it that is being worked on, if any, with its number. -/
structure Mark where
  path : Text
  line : Option Text
  number : Option Int
  deriving DecidableEq, Repr

structure Console where
  fatal : Bool
  trail : List Mark
  deriving DecidableEq, Repr

namespace Mark

def shownNumber (mark : Mark) : Text :=
  match mark.number with
  | some number => Text.integer number
  | none => "None"

def cleared (mark : Mark) : Mark := ⟨mark.path, none, none⟩

/-- A mark in the trail that is shown with an error; one without text on its line is not shown. -/
def trace (mark : Mark) : Option Text :=
  match mark.line with
  | none => none
  | some [] => none
  | some line =>
      some ("  File '" ++ mark.path ++ "', line " ++ mark.shownNumber ++ ":\n    " ++ line ++ "\n")

/-- Puts a mark into a trail: in the place of an earlier one of the same source, or at the end. -/
def record (mark : Mark) : List Mark → List Mark
  | [] => [mark]
  | first :: others =>
      if first.path = mark.path then mark :: others else first :: record mark others

end Mark

namespace Console

def ofFatal (fatal : Bool) : Console := ⟨fatal, []⟩

def enterLine (path line : Text) (number : Int) (console : Console) : Console :=
  { console with trail := Mark.record ⟨path, some line, some number⟩ console.trail }

/-- Notes that a source is open and that no line of it is being worked on. -/
def leaveLine (path : Text) (console : Console) : Console :=
  { console with trail := Mark.record ⟨path, none, none⟩ console.trail }

def cleared (console : Console) : Console :=
  { console with trail := console.trail.map Mark.cleared }

/-- Where a warning comes from: the last line of the trail. -/
def location (console : Console) : Text :=
  match console.trail.reverse.find? (·.line.isSome) with
  | none => []
  | some mark => mark.path ++ ":" ++ mark.shownNumber ++ ": "

/-- The part of a report that points into its text, if there is one, or what keeps it from being
made. -/
def pointer (report : Report) (colour : Text.Colour) : Text × Option Failure :=
  if report.pointsOut then
    match report.diagnosisFault with
    | none => (report.diagnosis colour ++ "\n", none)
    | some fault => ([], some fault.failure)
  else ([], none)

def warning (console : Console) (report : Report) : Text × Option Failure :=
  let (pointer, failure) := pointer report .magenta
  (console.location.bold ++ Text.coloured .magenta "warning: " ++ report.styled ++ "\n" ++ pointer,
    failure)

def error (console : Console) (report : Report) : Text × Option Failure :=
  let traces := console.trail.filterMap Mark.trace
  let (pointer, failure) := pointer report .red
  ((if 1 < traces.length then ("Traceback:\n" : Text) else []) ++ traces.flatten
      ++ (if report.internal then Text.coloured .red "[internal] " else [])
      ++ Text.coloured .red "error: " ++ report.styled ++ "\n" ++ pointer,
    failure)

/-! ## Guarded work -/

inductive Ending where
  | finished
  | failed (failure : Failure)
  | interrupted
  | exiting (code : Foreign)
  deriving DecidableEq

/-- What follows from it: work goes on, the program ends, or a failure is handed on. -/
inductive Sequel where
  | proceeds
  | exits (code : Foreign)
  | escapes (failure : Failure)
  deriving DecidableEq

/-- Reports an error; on a fatal console the program ends with code one.  If the report cannot be
written to its end, the failure is handed on. -/
def throw (console : Console) (report : Report) : Text × Console × Sequel :=
  match console.error report with
  | (out, some failure) => (out, console, .escapes failure)
  | (out, none) =>
      if console.fatal then (out, console, .exits (.number 1))
      else (out, console.cleared, .proceeds)

/-- The report about a failure that nobody planned for. -/
def unknown (category : Failure.Category) (text : Text) : Report :=
  let description := category.label ++ ": " ++ text
  { Report.about [.plain "unknown error: '", .snippet description, .plain "'"] description with
    internal := true }

/-- Sees to the end of a piece of work.  A failure that nobody planned for is reported and, unless
the program ends with it, handed on. -/
def conclude (console : Console) : Ending → Text × Console × Sequel
  | .finished => ([], console, .proceeds)
  | .exiting code => ([], console, .exits code)
  | .interrupted => console.throw (.about [.plain "keyboard interrupt"] [])
  | .failed (.reported report) => console.throw report
  | .failed (.unforeseen category text) =>
      match console.throw (unknown category text) with
      | (out, console, .proceeds) => (out, console, .escapes (.unforeseen category text))
      | other => other

end Console

end BetaNormal

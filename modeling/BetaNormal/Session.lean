import BetaNormal.Abbreviation
import BetaNormal.Console
import BetaNormal.Reduction.Setting
import BetaNormal.Source
import BetaNormal.Term.Parser

/-!
# Sessions

A session takes expressions from one source, reads each of them as a term as soon as it is added,
and reduces all that are waiting when it is run, in the order in which they were added.  Every
normal form is printed with the contractions that led to it.  A term that meets a bound costs a
warning and nothing more.
-/

namespace BetaNormal

def Reduction.render (separator : Text) (visibleSpaces : Bool) (reduction : Reduction) :
    Text × Text :=
  let result := reduction.term.print
  let steps := Text.joined separator (reduction.steps.map Contraction.print)
  if visibleSpaces then (result.spacesShown, steps.spacesShown) else (result, steps)

/-- What a user can choose: whether abbreviations are written out, whether the contractions are
left out of the output, whether spaces are written as underscores, and the settings of the bounds
of every reduction. -/
structure Options where
  abbreviations : Bool
  quiet : Bool
  visibleSpaces : Bool
  settings : Settings
  deriving DecidableEq, Repr

def Options.standard : Options := ⟨true, false, false, .standard⟩

/-- The lines that are printed for a reduction: the normal form in bold and, unless they are left
out, one line for each contraction. -/
def Reduction.display (options : Options) (reduction : Reduction) : Text :=
  let (result, steps) := reduction.render "\n" options.visibleSpaces
  let stepLine := fun step : Text => "  " ++ Text.coloured .cyan "β" ++ " " ++ step ++ "\n"
  let stepLines :=
    if options.quiet ∨ steps = [] then [] else (steps.pieces '\n').flatMap stepLine
  result.bold ++ '\n' :: stepLines

/-- An expression that waits to be reduced: the number of its line, its text and its term. -/
structure Task where
  line : Int
  source : Text
  term : Term
  deriving DecidableEq

/-- Puts a task into a queue: in the place of an earlier one for the same line, or at the end. -/
def Task.enqueue (task : Task) : List Task → List Task
  | [] => [task]
  | first :: others =>
      if first.line = task.line then task :: others else first :: enqueue task others

/-- Where a session stands: the console that it reports to, the path of its source, the options,
the supply of fresh names for all its reductions, the waiting tasks in order, and the reductions so
far. -/
structure Session where
  console : Console
  path : Text
  options : Options
  capacity : Capacity
  supply : Supply
  queue : List Task
  results : List Reduction

namespace Session

def commandLinePath : Text := "<in>"

/-- What a file system holds at a path: its bytes, or nothing that can be opened. -/
abbrev Files := Text → Option (List UInt8)

inductive LoadFault where
  | reserved
  | nulInPath
  | unreadable (path : Text)
  | undecodable (fault : Text.DecodeFault)
  | misplaced (fault : Source.Fault)
  | unclosed (expression : Text)
  deriving DecidableEq

def LoadFault.failure : LoadFault → Failure
  | reserved => .reported (.about [.plain "'<in>' is a reserved filename"] [])
  | nulInPath => .unforeseen .value "embedded null byte"
  | unreadable path =>
      .reported { Report.about [.plain "'", .snippet path, .plain "' could not be opened"] path with
        diagnosed := false }
  | undecodable fault => fault.failure
  | misplaced fault => fault.failure
  | unclosed expression =>
      .reported
        { Report.about [.plain "'", .snippet expression, .plain "' ends inside an unclosed '('"]
            expression with
          diagnosed := false }

/-- The entries of the source at a path.  No file is looked for at a path that has the character
with number zero in it. -/
def entriesAt (files : Files) (path : Text) : Except LoadFault (List Source.Entry) := do
  if path.contains '\x00' then throw .nulInPath
  let some bytes := files path | throw (.unreadable path)
  let text ← (Text.decode bytes).mapError .undecodable
  let listing ← (Source.read text).mapError .misplaced
  match listing.extending, listing.entries.getLast? with
  | true, some last => throw (.unclosed last.text)
  | _, _ => pure listing.entries

/-- The report about an expression that is not a term.  If writing out abbreviations has changed
it, the report shows the text that was read and quotes the expression as it was given. -/
def rejection (expression : Text) (fault : ParseFault) : Report :=
  if fault.text = expression then fault.report
  else
    .malformed
      [.plain "'", .snippet fault.text,
       .plain "' is not a valid λ-term after macros expanded '", .snippet expression,
       .plain "': ", .snippet fault.report.text]
      fault.text fault.position

def readExpression (abbreviations : Bool) (expression : Text) : Except Report Term :=
  let text := if abbreviations then expand Abbreviation.standard expression else expression
  (Term.parse text).mapError (rejection expression)

/-- Adds an expression on a line.  If it is not a term, the console is left working on that line
and nothing else has changed. -/
def add (expression : Text) (line : Int) (session : Session) : Except Report Unit × Session :=
  let entered := session.console.enterLine session.path expression line
  match readExpression session.options.abbreviations expression with
  | .error report => (.error report, { session with console := entered })
  | .ok term =>
      (.ok (),
        { session with
          console := entered.leaveLine session.path
          queue := Task.enqueue ⟨line, expression, term⟩ session.queue })

def addAll : List Source.Entry → Session → Except Report Unit × Session
  | [], session => (.ok (), session)
  | entry :: rest, session =>
      match session.add entry.text entry.line with
      | (.ok (), session) => addAll rest session
      | (.error report, session) => (.error report, session)

/-- A session on a path before anything has been read.  On the command line errors are not
fatal. -/
def create (console : Console) (path : Text) (commandLine : Bool) (options : Options)
    (capacity : Capacity) (supply : Supply) : Session where
  console :=
    let opened := console.leaveLine path
    { opened with fatal := opened.fatal && !commandLine }
  path := path
  options := options
  capacity := capacity
  supply := supply
  queue := []
  results := []

/-- Reads the source of a session into its queue.  The command line has nothing to be read
beforehand, and no file may have its name. -/
def load (commandLine : Bool) (files : Files) (session : Session) :
    Except Failure Unit × Session :=
  if session.path = commandLinePath then
    if commandLine then (.ok (), session) else (.error LoadFault.reserved.failure, session)
  else match entriesAt files session.path with
    | .error fault => (.error fault.failure, session)
    | .ok entries =>
        match session.addAll entries with
        | (.ok (), session) => (.ok (), session)
        | (.error report, session) => (.error (.reported report), session)

/-- Reduces one task.  Its reduction is printed and kept; if it meets a bound, a warning is
printed instead.  In the end no line of the source is being worked on, even if there was a
failure. -/
def perform (task : Task) (session : Session) : Text × Session × Option Failure :=
  let entered := session.console.enterLine session.path task.source task.line
  let left := entered.leaveLine session.path
  let settings := session.options.settings
  match task.term.normalizeUnder session.capacity settings session.supply with
  | (.ok reduction, supply) =>
      (reduction.display session.options,
        { session with
          console := left
          supply := supply
          results := session.results ++ [reduction] },
        none)
  | (.error (.interrupted interruption), supply) =>
      let (out, failure) := entered.warning (interruption.report task.term settings.limits)
      (out, { session with console := left, supply := supply }, failure)
  | (.error (.mismatch sign kind), supply) =>
      ([], { session with console := left, supply := supply },
        some (Breakdown.mismatchFailure sign kind))

/-- Performs tasks in order, up to a failure.  The tasks behind it go on waiting. -/
def performAll : List Task → Session → Text × Session × Option Failure
  | [], session => ([], { session with queue := [] }, none)
  | task :: rest, session =>
      match session.perform task with
      | (out, session, some failure) => (out, { session with queue := rest }, some failure)
      | (out, session, none) =>
          let (more, session, failure) := performAll rest session
          (out ++ more, session, failure)

def run (session : Session) : Text × Session × Option Failure :=
  session.performAll session.queue

end Session

end BetaNormal

import BetaNormal.Session

/-!
# The interactive shell

The shell reads lines.  A line is a command if its first word is one, and otherwise an expression,
which is reduced as soon as its parentheses are closed.  Until then the shell waits for further
lines under its second prompt.
-/

namespace BetaNormal

inductive Prompt where
  | primary
  | secondary
  deriving DecidableEq, Repr

def Prompt.text : Prompt → Text
  | .primary => "> "
  | .secondary => ". "

/-- What a line asks for. -/
inductive Command where
  | nothing
  | evaluate (line : Text)
  | steps (choice : Text)
  | help
  | leave
  | endOfInput
  deriving DecidableEq, Repr

namespace Command

def isWordChar (char : Char) : Bool := char.isAlphanum || char = '_'

/-- Reads a line.  A question mark asks for help; an exclamation mark asks for no command, whatever
follows it; otherwise the first word decides, in the letters in which it is written. -/
def read (line : Text) : Command :=
  let line := line.trim
  match line with
  | [] => nothing
  | '?' :: _ => help
  | '!' :: _ => evaluate line
  | _ =>
      let word := line.takeWhile isWordChar
      if word = "steps" then steps (Text.trim (line.dropWhile isWordChar))
      else if word = "help" then help
      else if word = "exit" then leave
      else if word = "EOF" then endOfInput
      else evaluate line

end Command

/-- Where a shell stands: its session, the expression that goes on, which is empty if there is
none, the prompt, and the number of expression lines so far. -/
structure Shell where
  session : Session
  pending : Text
  prompt : Prompt
  lineNumber : Nat

/-- What comes of a line: the text that is printed, the shell from there on, what the console makes
of failures, and whether the shell is to be left. -/
structure Response where
  out : Text
  shell : Shell
  sequel : Console.Sequel
  leaves : Bool

namespace Shell

def intro : Text :=
  "Lambda calculus normalizer :: Python backend\n" ++
  "Type '?' or 'help' for more information."

def helpText : Text :=
  "Welcome to the lnorm normalizer!\n\n" ++
  "Type a λ-term to reduce it to beta-normal form. Terms are variables, abstractions\n" ++
  "'λx.body', or applications '(left right)', which always take parentheses.\n" ++
  "AND, NOT, TRUE, FALSE and COND stand for Church booleans, and '_' stands for a space.\n\n" ++
  "Try it out by typing '(λx.x y)'. This will apply 'λx.x' to 'y', giving 'y' as\n" ++
  "the result, followed by the steps taken. Type 'steps off' to hide the steps."

def ofSession (session : Session) : Shell := ⟨session, [], .primary, 0⟩

def withSession (shell : Shell) (session : Session) : Shell := { shell with session }

def submit (expression : Text) (shell : Shell) : Text × Shell × Console.Sequel :=
  match shell.session.add expression shell.lineNumber with
  | (.error report, session) =>
      let (out, console, sequel) := session.console.conclude (.failed (.reported report))
      (out, shell.withSession { session with console }, sequel)
  | (.ok (), session) =>
      match session.run with
      | (out, session, none) => (out, shell.withSession session, .proceeds)
      | (out, session, some failure) =>
          let (more, console, sequel) := session.console.conclude (.failed failure)
          (out ++ more, shell.withSession { session with console }, sequel)

/-- Takes up a line that is not a command, after the expression that goes on.  If the expression is
closed now and is not empty, it comes out. -/
def takeUp (line : Text) (shell : Shell) : Shell × Option Text :=
  let number := shell.lineNumber + 1
  let joined := if shell.pending = [] then line else shell.pending ++ ' ' :: line
  let expression := Source.content joined
  if Source.isOpen expression then
    ({ shell with pending := expression, prompt := .secondary, lineNumber := number }, none)
  else
    ({ shell with pending := [], prompt := .primary, lineNumber := number },
      if expression = [] then none else some expression)

def evaluate (line : Text) (shell : Shell) : Text × Shell × Console.Sequel :=
  match shell.takeUp line with
  | (shell, none) => ([], shell, .proceeds)
  | (shell, some expression) => shell.submit expression

def chooseSteps (choice : Text) (shell : Shell) : Text × Shell :=
  if choice ≠ "on" ∧ choice ≠ "off" ∧ choice ≠ "" then ("usage: steps [on|off]\n", shell)
  else
    let quiet :=
      if choice = "" then !shell.session.options.quiet else decide (choice = "off")
    let options := { shell.session.options with quiet }
    ("steps " ++ (if quiet then ("off" : Text) else "on") ++ "\n",
      shell.withSession { shell.session with options })

def respond (line : Text) (shell : Shell) : Response :=
  match Command.read line with
  | .nothing => ⟨[], shell, .proceeds, false⟩
  | .evaluate line =>
      let (out, shell, sequel) := shell.evaluate line
      ⟨out, shell, sequel, false⟩
  | .steps choice =>
      let (out, shell) := shell.chooseSteps choice
      ⟨out, shell, .proceeds, false⟩
  | .help => ⟨helpText ++ "\n", shell, .proceeds, false⟩
  | .leave => ⟨[], shell, .proceeds, true⟩
  | .endOfInput => ⟨"\n", shell, .proceeds, true⟩

/-- The line that stands for the end of the input. -/
def endLine : Text := "EOF"

/-- Prompts for lines and responds to them until the shell is left.  The end of the input counts as
one more line. -/
def converse : List Text → Shell → Text × Shell × Console.Sequel
  | [], shell =>
      let response := shell.respond endLine
      (shell.prompt.text ++ response.out, response.shell, response.sequel)
  | line :: rest, shell =>
      let response := shell.respond line
      let out := shell.prompt.text ++ response.out
      if response.leaves then (out, response.shell, response.sequel)
      else match response.sequel with
        | .proceeds =>
            let (more, shell, sequel) := converse rest response.shell
            (out ++ more, shell, sequel)
        | sequel => (out, response.shell, sequel)

def conversation (lines : List Text) (shell : Shell) : Text × Shell × Console.Sequel :=
  let (out, shell, sequel) := shell.converse lines
  (intro ++ "\n" ++ out, shell, sequel)

end Shell

end BetaNormal

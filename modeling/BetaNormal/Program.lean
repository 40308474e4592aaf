import BetaNormal.CommandLine.Arguments
import BetaNormal.Shell

/-!
# The program

What the program does with its arguments, its input and the files that it can read: it either
reduces the terms of a file, or talks to a user line by line.
-/

namespace BetaNormal.Program

/-- What a run leaves behind: the text on the output, the text on the error output, the exit code if
the program ends with one, and the failure that nothing has caught, if there is one. -/
structure Outcome where
  out : Text
  err : Text
  exit : Option Int
  failure : Option Failure
  deriving DecidableEq

def Outcome.lastError (outcome : Outcome) : Text := outcome.err.lastShownLine

/-- The exit code of the whole process, which is that of success where there is no other one. -/
def Outcome.code (outcome : Outcome) : Int :=
  if outcome.failure.isSome then 1 else outcome.exit.getD 0

def Outcome.ofSequel (out : Text) : Console.Sequel → Outcome
  | .proceeds => ⟨out, [], none, none⟩
  | .exits code => ⟨out, [], code.exitNumber?, none⟩
  | .escapes failure => ⟨out, [], none, some failure⟩

def usage (fault : CommandLine.UsageFault) : Outcome :=
  ⟨[], "lnorm: error: " ++ fault.message ++ "\n", some 2, none⟩

/-- A session of the program.  Errors are fatal unless it is on the command line. -/
def session (path : Text) (commandLine : Bool) (options : Options) : Session :=
  .create (.ofFatal true) path commandLine options .standard .standard

def failed (out : Text) (console : Console) (failure : Failure) : Outcome :=
  let (more, _, sequel) := console.conclude (.failed failure)
  .ofSequel (out ++ more) sequel

/-- Reduces the terms of a file.  Nothing is reduced unless the whole file can be read. -/
def reduceFile (path : Text) (options : Options) (files : Session.Files) : Outcome :=
  match (session path false options).load false files with
  | (.error failure, session) => failed [] session.console failure
  | (.ok (), loaded) =>
      match loaded.run with
      | (out, _, none) => .ofSequel out .proceeds
      | (out, session, some failure) => failed out session.console failure

def shell (options : Options) : Shell :=
  .ofSession (session Session.commandLinePath true options)

/-- The outcome of a conversation.  A failure that it ended with is reported once more. -/
def closing (out : Text) (shell : Shell) : Console.Sequel → Outcome
  | .escapes failure => failed out shell.session.console failure
  | sequel => .ofSequel out sequel

/-- The lines of an input, which end at line feeds only. -/
def inputLines (input : Text) : List Text :=
  let lines := input.pieces '\n'
  if lines.getLast? = some [] then lines.dropLast else lines

def run (words : List Text) (input : Text) (files : Session.Files) : Outcome :=
  match CommandLine.readArguments words with
  | .error fault => usage fault
  | .ok ⟨some path, options⟩ => reduceFile path options files
  | .ok ⟨none, options⟩ =>
      let (out, shell, sequel) := (shell options).conversation (inputLines input)
      closing out shell sequel

end BetaNormal.Program

import BetaNormal.Program

/-!
# Command line

Runs the program on the real terminal and file system.  Everything that is written and every exit
code comes from `BetaNormal.Program`.
-/

namespace BetaNormal

def writeTo (stream : IO.FS.Stream) (text : Text) : IO Unit := do
  stream.putStr (String.ofList text)
  stream.flush

def bytesAt (path : Text) : IO (Option (List UInt8)) := do
  try
    return some (← IO.FS.readBinFile (String.ofList path)).toList
  catch _ => return none

/-- Prompts for lines and responds to them until the shell is left. -/
partial def converseWith (input output : IO.FS.Stream) (shell : Shell) :
    IO (Shell × Console.Sequel) := do
  writeTo output shell.prompt.text
  let line ← input.getLine
  let ended := line.isEmpty
  let response := shell.respond (if ended then Shell.endLine else line.toList)
  writeTo output response.out
  if ended || response.leaves || response.sequel ≠ .proceeds then
    return (response.shell, response.sequel)
  converseWith input output response.shell

/-- What the words on the command line ask for, up to what is still to be written. -/
def perform (words : List Text) : IO Program.Outcome := do
  match CommandLine.readArguments words with
  | .error fault => return Program.usage fault
  | .ok ⟨some path, options⟩ =>
      let bytes ← bytesAt path
      return Program.reduceFile path options fun _ => bytes
  | .ok ⟨none, options⟩ =>
      let output ← IO.getStdout
      writeTo output (Shell.intro ++ "\n")
      let (shell, sequel) ← converseWith (← IO.getStdin) output (Program.shell options)
      return Program.closing [] shell sequel

def runMain (words : List String) : IO UInt32 := do
  let outcome ← perform (words.map String.toList)
  writeTo (← IO.getStdout) outcome.out
  writeTo (← IO.getStderr) outcome.err
  return outcome.code.toNat.toUInt32

end BetaNormal

def main (words : List String) : IO UInt32 := BetaNormal.runMain words

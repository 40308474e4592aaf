import BetaNormal.CommandLine.Limit
import BetaNormal.Session
import BetaNormal.Text.Quoted

/-!
# Arguments

The words on the command line: at most one file, and options in any order before and behind it.
The value of an option is the next word, or is joined to the option by an equals sign.  A long
option may be cut short as long as no other one starts in the same way.  The last of several
choices for one option holds.
-/

namespace BetaNormal.CommandLine

inductive Flag where
  | maxSteps
  | maxDepth
  | noAbbreviations
  | quiet
  | visibleSpaces
  deriving DecidableEq, Repr

def Flag.takesValue : Flag → Bool
  | .maxSteps | .maxDepth => true
  | _ => false

def Flag.title : Flag → Text
  | .maxSteps => "--max-steps"
  | .maxDepth => "--max-depth"
  | .noAbbreviations => "--no-macros"
  | .quiet => "-q/--quiet"
  | .visibleSpaces => "--visible-spaces"

def flagWords : List (Text × Flag) :=
  [("--max-steps", .maxSteps), ("--max-depth", .maxDepth), ("--no-macros", .noAbbreviations),
   ("-q", .quiet), ("--quiet", .quiet), ("--visible-spaces", .visibleSpaces)]

/-- Why the words on the command line make no sense. -/
inductive UsageFault where
  | badLimit (flag : Flag) (fault : LimitFault)
  | valueMissing (flag : Flag)
  | valueUnwanted (flag : Flag) (value : Text)
  | ambiguous (word : Text) (candidates : List Text)
  | unrecognized (words : List Text)
  deriving DecidableEq, Repr

def UsageFault.message : UsageFault → Text
  | badLimit flag fault => "argument " ++ flag.title ++ ": " ++ fault.message
  | valueMissing flag => "argument " ++ flag.title ++ ": expected one argument"
  | valueUnwanted flag value =>
      "argument " ++ flag.title ++ ": ignored explicit argument " ++ value.quoted
  | ambiguous word candidates =>
      "ambiguous option: " ++ word ++ " could match " ++ Text.joined ", " candidates
  | unrecognized words => "unrecognized arguments: " ++ Text.joined " " words

/-- What a single word is: the name of a file, an option with or without a value joined to it, the
sign that only file names follow, or an option that does not exist. -/
inductive Word where
  | file (path : Text)
  | option (flag : Flag) (value : Option Text)
  | filesOnly
  | unknown (word : Text)
  deriving DecidableEq, Repr

def withoutLineFeed (text : Text) : Text :=
  if text.getLast? = some '\n' then text.dropLast else text

/-- Whether a word looks like a negative number, which is not taken for an option.  A line feed at
its end does not count. -/
def isNegativeNumber (word : Text) : Bool :=
  let isDigit := fun char => (Text.digitValue? char).isSome
  match withoutLineFeed word with
  | '-' :: rest =>
      let whole := rest.takeWhile isDigit
      match rest.dropWhile isDigit with
      | [] => !whole.isEmpty
      | '.' :: places => !places.isEmpty && places.all isDigit
      | _ => false
  | _ => false

def splitValue (word : Text) : Text × Option Text :=
  match word.dropWhile (· ≠ '=') with
  | [] => (word, none)
  | _ :: value => (word.takeWhile (· ≠ '='), some value)

/-- The options that a word may be short for, with the value that is joined to it.  Behind a
single hyphen the value follows the letter of the option at once. -/
def candidates (word : Text) : List (Text × Flag × Option Text) :=
  match word with
  | '-' :: '-' :: _ =>
      let (stem, value) := splitValue word
      (flagWords.filter fun entry => stem.isPrefixOf entry.1).map fun entry =>
        (entry.1, entry.2, value)
  | _ =>
      (flagWords.filter fun entry => entry.1 = word.take 2).map fun entry =>
        (entry.1, entry.2, some (word.drop 2))

def filesOnlySign : Text := "--"

def readWord (word : Text) : Except UsageFault Word :=
  if word = filesOnlySign then .ok .filesOnly
  else match word with
    | [] => .ok (.file word)
    | ['-'] => .ok (.file word)
    | '-' :: _ =>
        let (stem, value) := splitValue word
        match flagWords.lookup word, flagWords.lookup stem, candidates word with
        | some flag, _, _ => .ok (.option flag none)
        | none, some flag, _ => .ok (.option flag value)
        | none, none, [(_, flag, value)] => .ok (.option flag value)
        | none, none, _ :: _ :: _ => .error (.ambiguous word ((candidates word).map (·.1)))
        | none, none, [] =>
            if isNegativeNumber word ∨ ' ' ∈ word then .ok (.file word) else .ok (.unknown word)
    | _ => .ok (.file word)

/-- What the command line asks for: a file, if one is named, under some options. -/
structure Invocation where
  file : Option Text
  options : Options
  deriving DecidableEq, Repr

/-- Reads the setting of a bound.  The sign that only file names follow is no value, also where it
is joined to an option, so the option is left with an empty list of values. -/
def readSetting (value : Text) : Except LimitFault Setting :=
  if value = filesOnlySign then .ok (.incomparable "list")
  else (readLimit value).map Setting.ofBound

def Flag.setBound (flag : Flag) (value : Text) (options : Options) :
    Except UsageFault Options :=
  match readSetting value with
  | .error fault => .error (.badLimit flag fault)
  | .ok setting =>
      let settings := options.settings
      .ok { options with
        settings := if flag = .maxDepth then { settings with depth := setting }
          else { settings with steps := setting } }

def Flag.set (flag : Flag) (options : Options) : Options :=
  match flag with
  | .noAbbreviations => { options with abbreviations := false }
  | .quiet => { options with quiet := true }
  | .visibleSpaces => { options with visibleSpaces := true }
  | _ => options

/-- What is left of the text joined to an option that has no value.  Behind the single hyphen of a
short option its letter may be repeated, so that nothing is left; otherwise, and if the text is
empty from the start, the text is an unwanted value. -/
def unwanted (flag : Flag) (word value : Text) : Option Text :=
  if flag = .quiet ∧ !filesOnlySign.isPrefixOf word ∧ !value.isEmpty then
    let rest := value.dropWhile (· = 'q')
    if rest.isEmpty then none else some rest
  else some value

def isValue (word : Text) : Bool :=
  match readWord word with
  | .ok (.file _) => true
  | _ => false

def takeFiles : List Text → Invocation × List Text → Invocation × List Text
  | [], taken => taken
  | word :: rest, (invocation, extra) =>
      match invocation.file with
      | none => takeFiles rest ({ invocation with file := some word }, extra)
      | some _ => takeFiles rest (invocation, extra ++ [word])

/-- Takes words one after the other.  Words that nothing can be made of are collected.  The sign
that only file names follow is one of them, unless it stands next to the file or there is none. -/
def takeWords : List Text → Invocation × List Text → Except UsageFault (Invocation × List Text)
  | [], taken => .ok taken
  | word :: rest, (invocation, extra) =>
      match readWord word with
      | .error fault => .error fault
      | .ok .filesOnly =>
          if invocation.file.isSome then .ok (invocation, extra ++ word :: rest)
          else .ok (takeFiles rest (invocation, extra))
      | .ok (.unknown word) => takeWords rest (invocation, extra ++ [word])
      | .ok (.file path) =>
          let taken := takeFiles [path] (invocation, extra)
          if invocation.file.isNone ∧ rest.head? = some filesOnlySign then
            .ok (takeFiles rest.tail taken)
          else takeWords rest taken
      | .ok (.option flag joined) =>
          if flag.takesValue then
            match joined, rest with
            | some value, rest =>
                match flag.setBound value invocation.options with
                | .error fault => .error fault
                | .ok options => takeWords rest ({ invocation with options }, extra)
            | none, [] => .error (.valueMissing flag)
            | none, value :: rest =>
                if isValue value then
                  match flag.setBound value invocation.options with
                  | .error fault => .error fault
                  | .ok options => takeWords rest ({ invocation with options }, extra)
                else .error (.valueMissing flag)
          else
            match joined with
            | none =>
                takeWords rest ({ invocation with options := flag.set invocation.options }, extra)
            | some value =>
                match unwanted flag word value with
                | some value => .error (.valueUnwanted flag value)
                | none =>
                    takeWords rest
                      ({ invocation with options := flag.set invocation.options }, extra)

/-- Reads the words on the command line.  All of them are looked at, up to the sign that only file
names follow, before any is taken. -/
def readArguments (words : List Text) : Except UsageFault Invocation := do
  let _ ← (words.takeWhile (· ≠ filesOnlySign)).mapM readWord
  let (invocation, extra) ← takeWords words (⟨none, .standard⟩, [])
  if extra.isEmpty then pure invocation else throw (.unrecognized extra)

end BetaNormal.CommandLine

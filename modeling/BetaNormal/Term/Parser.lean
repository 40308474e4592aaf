import BetaNormal.Term
import BetaNormal.Report

/-!
# Reading terms

A term is read from the front of a text by recursive descent; a whole text is a term if nothing is
left behind it.  Names are as long as they can be, so two names in a row need blank space between
them.  Blank space may stand between the two terms of an application and nowhere else.

Only parentheses nest: the binders in front of a term are read one after the other.  The readers
below give back what they have read and the rest of the text.  They fail with a cause and the rest
that starts with the character to blame.
-/

namespace BetaNormal

inductive ParseCause where
  /-- The text ends where a term has to start. -/
  | termMissing
  /-- The text ends where a name has to start. -/
  | nameMissing
  /-- The text ends where a certain character has to stand. -/
  | charMissing (expected : Char)
  /-- Another character stands where a name has to start. -/
  | notName (found : Char)
  /-- Another character stands where a certain one has to. -/
  | notChar (expected found : Char)
  | notTerm (found : Char)
  | leftOver (rest : Text)
  | tooDeep
  deriving DecidableEq, Repr

/-- A cause and the position of the character to blame in the text that was read. -/
structure ParseFault where
  text : Text
  cause : ParseCause
  position : Nat
  deriving DecidableEq, Repr

namespace ParseCause

def pieces (text : Text) (cause : ParseCause) : List Piece :=
  .plain "'" :: .snippet text :: match cause with
    | termMissing => [.plain "' ended early: expected a λ-term"]
    | nameMissing => [.plain "' ended early: expected a variable"]
    | charMissing expected =>
        [.plain "' ended early: expected '", .snippet [expected], .plain "'"]
    | notName found =>
        [.plain "' expected a variable but found '", .snippet [found], .plain "'"]
    | notChar expected found =>
        [.plain "' expected '", .snippet [expected], .plain "' but found '", .snippet [found],
         .plain "'"]
    | notTerm found => [.plain "' has unexpected character '", .snippet [found], .plain "'"]
    | leftOver rest => [.plain "' has unexpected trailing input '", .snippet rest, .plain "'"]
    | tooDeep => [.plain "' is nested too deeply to parse"]

end ParseCause

def ParseFault.report (fault : ParseFault) : Report :=
  .malformed (fault.cause.pieces fault.text) fault.text fault.position

namespace Term

/-- The blank space that may stand between the two terms of an application. -/
def isSpacing (char : Char) : Bool :=
  char = ' ' || char = '\t' || char = '\n' || char = '\r'

/-- A cause, and what was left of the text when it arose. -/
abbrev ParseStop := ParseCause × Text

def readName (text : Text) : Except ParseStop (Name × Text) :=
  if text_ne_nil : text.takeWhile Name.allows = [] then
    match text with
    | [] => .error (.nameMissing, [])
    | found :: rest => .error (.notName found, found :: rest)
  else
    .ok (⟨text.takeWhile Name.allows, text_ne_nil, List.all_takeWhile⟩,
      text.dropWhile Name.allows)

def readChar (expected : Char) : Text → Except ParseStop Text
  | [] => .error (.charMissing expected, [])
  | found :: rest =>
      if found = expected then .ok rest else .error (.notChar expected found, found :: rest)

theorem length_le_of_readName {text rest : Text} {name : Name}
    (reads : readName text = .ok (name, rest)) : rest.length ≤ text.length := by
  unfold readName at reads
  split at reads
  · split at reads <;> cases reads
  · cases reads
    exact (List.dropWhile_suffix _).length_le

theorem length_lt_of_readChar {expected : Char} {text rest : Text}
    (reads : readChar expected text = .ok rest) : rest.length < text.length := by
  unfold readChar at reads
  split at reads
  · cases reads
  · split at reads <;> cases reads
    exact Nat.lt_succ_self _

/-- Reads all binders at the front, each of them a `λ`, a name and a point. -/
def readBinders : Text → Except ParseStop (List Name × Text)
  | [] => .ok ([], [])
  | char :: rest =>
      if char = lambda then
        match name_read : readName rest with
        | .error stop => .error stop
        | .ok (binder, afterName) =>
            match point_read : readChar '.' afterName with
            | .error stop => .error stop
            | .ok afterPoint =>
                have := length_le_of_readName name_read
                have := length_lt_of_readChar point_read
                match readBinders afterPoint with
                | .error stop => .error stop
                | .ok (binders, rest) => .ok (binder :: binders, rest)
      else .ok ([], char :: rest)
termination_by text => text.length
decreasing_by simp only [List.length_cons]; omega

/-- Reads a term in which parentheses nest at most `depth` deep. -/
def readTerm : (depth : Nat) → Text → Except ParseStop (Term × Text)
  | depth, text => do
      let (binders, rest) ← readBinders text
      let (body, rest) ← match rest with
        | [] => throw (.termMissing, [])
        | char :: rest =>
            if char = '(' then
              match depth with
              | 0 => throw (.tooDeep, char :: rest)
              | depth + 1 => do
                  let (function, rest) ← readTerm depth rest
                  let (argument, rest) ← readTerm depth (rest.dropWhile isSpacing)
                  let rest ← readChar ')' rest
                  pure (app function argument, rest)
            else if Name.allows char then do
              let (name, rest) ← readName (char :: rest)
              pure (var name, rest)
            else throw (.notTerm char, char :: rest)
      pure (binders.foldr abs body, rest)

/-- How deep parentheses may nest in a text. -/
def nestingAllowance : Nat := 490

def parse (text : Text) : Except ParseFault Term :=
  match readTerm nestingAllowance text with
  | .error (cause, rest) => .error ⟨text, cause, text.length - rest.length⟩
  | .ok (term, []) => .ok term
  | .ok (_, rest) => .error ⟨text, .leftOver rest, text.length - rest.length⟩

end Term

end BetaNormal

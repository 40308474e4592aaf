import BetaNormal.Text.Blank
import BetaNormal.Text.Digit

/-!
# Limits in words

A limit on the command line is a positive integer or the word `none`.  The integer may have blank
space around it, though no information separators.  It may have a sign, digits of any script, and
single underscores between digits, and it has at most 4300 digits.
-/

namespace BetaNormal.CommandLine

/-- Reads digits with single underscores between them.  The arguments are the number so far and
whether a digit was read last. -/
def readDigitsFrom (number : Nat) (afterDigit : Bool) : Text → Option Nat
  | [] => if afterDigit then some number else none
  | char :: rest =>
      if char = '_' then if afterDigit then readDigitsFrom number false rest else none
      else match Text.digitValue? char with
        | some value => readDigitsFrom (number * 10 + value) true rest
        | none => none

def readNumeral (text : Text) : Option Nat :=
  if Text.numeralAllowance < (text.filter (· ≠ '_')).length then none
  else readDigitsFrom 0 false text

def readInteger (text : Text) : Option Int :=
  match text.trimWhere fun char => Text.isBlank char && !Text.isSeparator char with
  | '-' :: rest => (readNumeral rest).map fun magnitude => -(magnitude : Int)
  | '+' :: rest => (readNumeral rest).map Int.ofNat
  | rest => (readNumeral rest).map Int.ofNat

structure LimitFault where
  value : Text
  deriving DecidableEq, Repr

def LimitFault.message (fault : LimitFault) : Text :=
  "expected a positive integer or 'none', got '" ++ fault.value ++ "'"

/-- Reads a limit; the word `none`, in letters of either case, stands for no limit. -/
def readLimit (value : Text) : Except LimitFault (Option Int) :=
  if value.map Char.toLower = "none" then .ok none
  else match readInteger value with
    | some number => if 0 < number then .ok (some number) else .error ⟨value⟩
    | none => .error ⟨value⟩

end BetaNormal.CommandLine

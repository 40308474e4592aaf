import BetaNormal.Report.Layout

/-!
# Numerals in layouts

How a natural number is written into a slot of a message: as an integer in some base, as the
character with that number, as a decimal fraction, or with an exponent of ten.  All of them have a
whole part, whose digits can be grouped, with a sign and the mark of a base in front of it and a
fraction and an exponent behind it.  A slot that is too wide can be filled up on either side, or
between the marks and the digits, in the latter case with zeros that are grouped like digits.
-/

namespace BetaNormal.Layout

/-- A numeral in parts: what stands in front of the digits of the whole part, these digits, and what
stands behind them. -/
structure Numeral where
  front : Text
  whole : Text
  behind : Text
  deriving DecidableEq, Repr

namespace Numeral

/-! ## Digits -/

def significant (all : Bool) (fraction : Text) : Text :=
  if all then fraction else (fraction.reverse.dropWhile (· = '0')).reverse

/-- A fraction behind its point.  Without digits it has a point only if it is to have one. -/
def pointed (always : Bool) (fraction : Text) : Text :=
  if fraction.isEmpty && !always then [] else '.' :: fraction

/-- The first digits of a number, rounded to so many, and the power of ten of the first of them.
What lies halfway between two candidates goes to the even one. -/
def rounded (count number : Nat) : Text × Nat :=
  let digits := Text.decimal number
  let exponent := digits.length - 1
  if digits.length ≤ count then
    (digits ++ List.replicate (count - digits.length) '0', exponent)
  else
    let unit := Nat.pow 10 (digits.length - count)
    let kept := number / unit
    let twice := 2 * (number % unit)
    let up := unit < twice || (twice = unit && kept % 2 = 1)
    let result := Text.decimal (if up then kept + 1 else kept)
    if count < result.length then (result.take count, exponent + 1) else (result, exponent)

def exponentShown (letter : Char) (exponent : Nat) : Text :=
  letter :: '+' :: (if exponent < 10 then ['0'] else []) ++ Text.decimal exponent

def scientific (letter : Char) (digits : Text) (always : Bool) (exponent : Nat) : Numeral :=
  ⟨[], digits.take 1, pointed always (digits.drop 1) ++ exponentShown letter exponent⟩

/-! ## Numbers -/

def fixed (places : Nat) (always : Bool) (number : Nat) : Numeral :=
  ⟨[], Text.decimal number, pointed always (List.replicate places '0')⟩

/-- A number with so many significant digits: with an exponent if the number is too large for them,
and without the zeros at the end of the fraction unless these are to be kept. -/
def general (letter : Char) (count : Nat) (always : Bool) (number : Nat) : Numeral :=
  let count := max count 1
  let (digits, exponent) := rounded count number
  if exponent < count then
    ⟨[], digits.take (exponent + 1),
      pointed always (significant always (digits.drop (exponent + 1)))⟩
  else
    scientific letter (digits.take 1 ++ significant always (digits.drop 1)) always exponent

def baseOf (type : Char) : Text × Nat :=
  if type = 'b' then ("0b", 2)
  else if type = 'o' then ("0o", 8)
  else if type = 'x' then ("0x", 16)
  else if type = 'X' then ("0X", 16)
  else ([], 10)

def integer (type : Char) (marked : Bool) (number : Nat) : Numeral :=
  let (mark, base) := baseOf type
  let digits := Nat.toDigits base number
  ⟨if marked then mark else [], if type = 'X' then digits.map Char.toUpper else digits, []⟩

/-! ## Descriptions -/

def signOf (parts : Description) : Text :=
  match parts.sign with
  | none | some '-' => []
  | some sign => [sign]

def largestPrecision : Nat := 0x7fffffff

def ofInteger (parts : Description) (number : Nat) : Except Fault Numeral :=
  if parts.precision.isSome then .error .precisionOfInteger
  else if parts.zeroSign.isSome then .error .zeroSignOfInteger
  else if parts.type = 'c' then
    if parts.sign.isSome then .error .signOfCharacter
    else if parts.alternate.isSome then .error .alternateCharacter
    else if 0x110000 ≤ number then .error .noCharacter
    else .ok ⟨[], [Char.ofNat number], []⟩
  else .ok (integer parts.type parts.alternate.isSome number)

/-- The numeral of a fraction that is described.  It has six places unless it says otherwise. -/
def ofFraction (parts : Description) (number : Nat) : Except Fault Numeral :=
  let places := parts.precision.getD 6
  let always := parts.alternate.isSome
  if largestPrecision < places then .error .precisionTooLarge
  else match parts.type with
    | 'e' | 'E' =>
        let (digits, exponent) := rounded (places + 1) number
        .ok (scientific parts.type digits always exponent)
    | 'g' => .ok (general 'e' places always number)
    | 'G' => .ok (general 'E' places always number)
    | '%' =>
        let hundredths := fixed places always (100 * number)
        .ok { hundredths with behind := hundredths.behind ++ "%" }
    | _ => .ok (fixed places always number)

def ofDescription (object : Text) (parts : Description) (number : Nat) : Except Fault Numeral :=
  let numeral :=
    if "bcdoxXn".toList.contains parts.type then ofInteger parts number
    else if "eEfFgG%".toList.contains parts.type then ofFraction parts number
    else .error (.unknownType object parts.type)
  numeral.map fun numeral => { numeral with front := signOf parts ++ numeral.front }

/-! ## Slots -/

/-- Cuts digits, the last of which comes first, into groups, the last of which comes first.  Zeros
are put in front until the groups and the marks between them are so many characters wide. -/
def groups (size : Nat) : (bound width : Nat) → Text → List Text
  | 0, _, digits => [digits.reverse]
  | bound + 1, width, digits =>
      let length := min size (max (max digits.length width) 1)
      let group := digits.take length ++ List.replicate (length - digits.length) '0'
      if digits.length ≤ length ∧ width ≤ length then [group.reverse]
      else group.reverse :: groups size bound (width - length - 1) (digits.drop length)

def groupSize (type : Char) : Nat := if "boxX".toList.contains type then 4 else 3

/-- Digits with a mark between groups of them, and with zeros in front until they are so wide. -/
def grouped (mark : Option Char) (size width : Nat) (digits : Text) : Text :=
  match mark with
  | none => List.replicate (width - digits.length) '0' ++ digits
  | some mark =>
      Text.joined [mark] (groups size (digits.length + width) width digits.reverse).reverse

def fit (parts : Description) (numeral : Numeral) : Text :=
  let fill := (parts.fill <|> parts.zero).getD ' '
  let alignment := parts.alignment.getD (if parts.zero.isSome then '=' else '>')
  let others := numeral.front.length + numeral.behind.length
  let zeros := if fill = '0' ∧ alignment = '=' then parts.width - others else 0
  let whole := grouped parts.grouping (groupSize parts.type) zeros numeral.whole
  let missing := parts.width - (others + whole.length)
  let filling := fun (count : Nat) => List.replicate count fill
  if alignment = '=' then numeral.front ++ filling missing ++ whole ++ numeral.behind
  else
    let before :=
      if alignment = '<' then 0 else if alignment = '^' then missing / 2 else missing
    filling before ++ numeral.front ++ whole ++ numeral.behind ++ filling (missing - before)

end Numeral

/-- Reads the description of the layout of a number whose kind has a name.  Its type is that of
integers unless it names another one. -/
def Description.readForNumber (object description : Text) : Except Fault Description :=
  match Description.read object 'd' description with
  | .error fault => .error fault
  | .ok parts =>
      match parts.groupingFault with
      | some fault => .error fault
      | none => .ok parts

end BetaNormal.Layout

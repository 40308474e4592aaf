import BetaNormal.Text.Digit

/-!
# Layouts

How a text is fitted into a slot of a message.  A layout is described by up to nine parts in a
fixed order: an alignment with a character to fill up with, a sign, the letter `z`, the sign `#`,
a zero, a width, a mark that groups digits, a point with a precision, and a type.  Every part may
be missing.  The sign, the letter, the grouping and most types are for numbers, so for a text a
description that has them is understood and refused.
-/

namespace BetaNormal

/-- Where a text stands in a slot that is wider than the text. -/
inductive Alignment where
  | left
  | right
  | centre
  deriving DecidableEq, Repr

/-- A slot of at least `width` characters that takes at most `precision` characters of a text and
is filled up with one character. -/
structure Layout where
  fill : Char
  alignment : Alignment
  width : Nat
  precision : Option Nat
  deriving DecidableEq, Repr

namespace Layout

def plain : Layout := ⟨' ', .left, 0, none⟩

def shorten (layout : Layout) (text : Text) : Text :=
  match layout.precision with
  | none => text
  | some precision => text.take precision

/-- Of the characters that a slot is filled up with, the number of those in front of the text. -/
def leading (alignment : Alignment) (missing : Nat) : Nat :=
  match alignment with
  | .left => 0
  | .right => missing
  | .centre => missing / 2

def fit (layout : Layout) (text : Text) : Text :=
  let taken := layout.shorten text
  let missing := layout.width - taken.length
  let front := leading layout.alignment missing
  List.replicate front layout.fill ++ taken ++ List.replicate (missing - front) layout.fill

/-! ## Descriptions -/

inductive Fault where
  | countTooLarge
  | twoGroupings
  | precisionMissing
  | leftOver (object description : Text)
  | misplacedGrouping (mark type : Char)
  | unknownType (object : Text) (type : Char)
  | spaceForSign
  | sign
  | zeroSign
  | alternateForm
  | innerFilling
  | precisionOfInteger
  | zeroSignOfInteger
  | signOfCharacter
  | alternateCharacter
  | noCharacter
  | precisionTooLarge
  deriving DecidableEq, Repr

/-- A character in a message, by its number unless it is a visible character of ASCII.  The number
of the last character that counts as visible is given. -/
def characterShown (lastVisible : Nat) (char : Char) : Text :=
  if 32 < char.toNat ∧ char.toNat ≤ lastVisible then [char]
  else "\\x" ++ Text.hexNumeral char.toNat

def Fault.message : Fault → Text
  | countTooLarge => "Too many decimal digits in format string"
  | twoGroupings => "Cannot specify both ',' and '_'."
  | precisionMissing => "Format specifier missing precision"
  | leftOver object description =>
      "Invalid format specifier '" ++ description ++ "' for object of type '" ++ object ++ "'"
  | misplacedGrouping mark type =>
      "Cannot specify '" ++ mark :: "' with '" ++ characterShown 127 type ++ "'."
  | unknownType object type =>
      "Unknown format code '" ++ characterShown 127 type ++ "' for object of type '" ++ object
        ++ "'"
  | spaceForSign => "Space not allowed in string format specifier"
  | sign => "Sign not allowed in string format specifier"
  | zeroSign => "Negative zero coercion (z) not allowed in string format specifier"
  | alternateForm => "Alternate form (#) not allowed in string format specifier"
  | innerFilling => "'=' alignment not allowed in string format specifier"
  | precisionOfInteger => "Precision not allowed in integer format specifier"
  | zeroSignOfInteger => "Negative zero coercion (z) not allowed in integer format specifier"
  | signOfCharacter => "Sign not allowed with integer format specifier 'c'"
  | alternateCharacter => "Alternate form (#) not allowed with integer format specifier 'c'"
  | noCharacter => "%c arg not in range(0x110000)"
  | precisionTooLarge => "precision too big"

structure Description where
  fill : Option Char
  alignment : Option Char
  sign : Option Char
  zeroSign : Option Char
  alternate : Option Char
  zero : Option Char
  width : Nat
  grouping : Option Char
  precision : Option Nat
  type : Char
  deriving DecidableEq, Repr

/-- Whether a character is a mark of alignment.  The last one fills a number up between its sign
and its digits. -/
def isAlignment (char : Char) : Bool := char = '<' || char = '>' || char = '^' || char = '='

def isSign (char : Char) : Bool := char = '+' || char = '-' || char = ' '

def takeMark (allows : Char → Bool) : Text → Option Char × Text
  | [] => (none, [])
  | char :: rest => if allows char then (some char, rest) else (none, char :: rest)

/-- Takes the alignment at the front of a description, with the character in front of the mark if
there is one.  Any character may be filled up with, also a mark. -/
def takeAlignment : Text → Option Char × Option Char × Text
  | fill :: mark :: rest =>
      if isAlignment mark then (some fill, some mark, rest)
      else (none, takeMark isAlignment (fill :: mark :: rest))
  | description => (none, takeMark isAlignment description)

def takeCount (text : Text) : Except Fault (Nat × Text) :=
  match Text.readCount text with
  | some taken => .ok taken
  | none => .error .countTooLarge

def takeGrouping (text : Text) : Except Fault (Option Char × Text) :=
  match text with
  | ',' :: '_' :: _ => .error .twoGroupings
  | '_' :: ',' :: _ => .error .twoGroupings
  | _ => .ok (takeMark (fun char => char = ',' || char = '_') text)

def takePrecision (text : Text) : Except Fault (Option Nat × Text) :=
  match text with
  | '.' :: rest =>
      match takeCount rest with
      | .error fault => .error fault
      | .ok (precision, behind) =>
          if behind.length = rest.length then .error .precisionMissing
          else .ok (some precision, behind)
  | _ => .ok (none, text)

/-- Reads a description for an object of some kind.  If it names no type, it has the usual one of
that kind. -/
def Description.read (object : Text) (usualType : Char) (description : Text) :
    Except Fault Description := do
  let (fill, alignment, rest) := takeAlignment description
  let (sign, rest) := takeMark isSign rest
  let (zeroSign, rest) := takeMark (· = 'z') rest
  let (alternate, rest) := takeMark (· = '#') rest
  let (zero, rest) := if fill.isSome then (none, rest) else takeMark (· = '0') rest
  let (width, rest) ← takeCount rest
  let (grouping, rest) ← takeGrouping rest
  let (precision, rest) ← takePrecision rest
  let parts := Description.mk fill alignment sign zeroSign alternate zero width grouping precision
  match rest with
  | [] => .ok (parts usualType)
  | [type] => .ok (parts type)
  | _ => .error (.leftOver object description)

/-- Whether digits can be grouped by a mark in numbers of a type.  The groups of numerals in other
bases than ten are marked in one way only. -/
def canGroup (mark type : Char) : Bool :=
  "defgEG%F\x00".toList.contains type || (mark = '_' && "boxX".toList.contains type)

def Description.groupingFault (parts : Description) : Option Fault :=
  (parts.grouping.filter fun mark => !canGroup mark parts.type).map fun mark =>
    .misplacedGrouping mark parts.type

def Description.layout (parts : Description) : Except Fault Layout :=
  match parts.groupingFault with
  | some fault => .error fault
  | none =>
      if parts.type ≠ 's' then .error (.unknownType "str" parts.type)
      else if parts.sign = some ' ' then .error .spaceForSign
      else if parts.sign.isSome then .error .sign
      else if parts.zeroSign.isSome then .error .zeroSign
      else if parts.alternate.isSome then .error .alternateForm
      else
        let layout := Layout.mk ((parts.fill <|> parts.zero).getD ' ')
        match parts.alignment with
        | some '=' => .error .innerFilling
        | some '>' => .ok (layout .right parts.width parts.precision)
        | some '^' => .ok (layout .centre parts.width parts.precision)
        | _ => .ok (layout .left parts.width parts.precision)

/-- The layout with a description; an empty one leaves a text as it is. -/
def read (description : Text) : Except Fault Layout :=
  if description.isEmpty then .ok plain
  else match Description.read "str" 's' description with
    | .error fault => .error fault
    | .ok parts => parts.layout

end Layout

end BetaNormal

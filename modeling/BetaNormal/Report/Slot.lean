import BetaNormal.Report.Finding
import BetaNormal.Report.Layout.Numeral

/-!
# Slots

A slot of a template names one of the arguments, by its number or by being the next one.  It may
take steps into that argument, to one of its characters or to its kind, convert what it has found
to text, and describe a layout.
-/

namespace BetaNormal

/-- A slot as it is written: what it names, the letter of a conversion if there is one, and the
description of a layout. -/
structure Slot where
  target : Text
  conversion : Option Char
  layout : Text
  deriving DecidableEq, Repr

namespace Slot

inductive Fault where
  | numberingAfterNumbers
  | numbersAfterNumbering
  | missingArgument (index : Nat)
  | unknownArgument (name : Text)
  | numberTooLarge (kind : Kind)
  | notNumbered (finding : Finding)
  | nameForNumber (kind : Kind)
  | missingEntry (entry : Text)
  | noArgument (finding : Finding)
  | missingPart (finding : Finding) (name : Text)
  | emptyStep
  | unclosedStep
  | missingStep
  | unknownConversion (letter : Char)
  | layout (fault : Layout.Fault)
  | noLayout (kind : Kind)
  | noRoom
  deriving DecidableEq, Repr

def Fault.message : Fault → Text
  | numberingAfterNumbers =>
      "cannot switch from manual field specification to automatic field numbering"
  | numbersAfterNumbering =>
      "cannot switch from automatic field numbering to manual field specification"
  | missingArgument index =>
      "Replacement index " ++ Text.decimal index ++ " out of range for positional args tuple"
  | unknownArgument name => name.quoted
  | numberTooLarge .text => "string index out of range"
  | numberTooLarge kind => kind.name ++ " index out of range"
  | notNumbered (.kind kind) => "type '" ++ kind.fullName ++ "' is not subscriptable"
  | notNumbered finding => "'" ++ finding.kindOf.fullName ++ "' object is not subscriptable"
  | nameForNumber .text => "string indices must be integers, not 'str'"
  | nameForNumber kind => kind.name ++ " indices must be integers or slices, not str"
  | missingEntry entry => entry
  | noArgument finding => finding.shown ++ " is not a generic class"
  | missingPart finding name => finding.lackShown name
  | emptyStep => "Empty attribute in format string"
  | unclosedStep => "Missing ']' in format string"
  | missingStep => "Only '.' or '[' may follow ']' in format field specifier"
  | unknownConversion letter =>
      "Unknown conversion specifier " ++ Layout.characterShown 126 letter
  | layout fault => fault.message
  | noLayout kind => "unsupported format string passed to " ++ kind.fullName ++ ".__format__"
  | noRoom => Text.RoomFault.noRoom.message

/-! ## Arguments -/

/-- How the slots so far have named their arguments: there was none yet, they were empty and the
next argument is known, or they had numbers. -/
inductive Numbering where
  | undecided
  | counted (next : Nat)
  | numbered
  deriving DecidableEq, Repr

def number? (text : Text) : Except Fault (Option Nat) :=
  match text, Text.readCount text with
  | _, none => .error (.layout .countTooLarge)
  | [], _ => .ok none
  | _, some (number, []) => .ok (some number)
  | _, some (_, _ :: _) => .ok none

/-- The index of the argument that a slot names, and the numbering from there on. -/
def index (numbering : Numbering) (name : Text) : Except Fault (Nat × Numbering) :=
  match name, number? name, numbering with
  | [], _, .undecided => .ok (0, .counted 1)
  | [], _, .counted next => .ok (next, .counted (next + 1))
  | [], _, .numbered => .error .numberingAfterNumbers
  | _, .error fault, _ => .error fault
  | name, .ok none, _ => .error (.unknownArgument name)
  | _, .ok (some _), .counted _ => .error .numbersAfterNumbering
  | _, .ok (some number), _ => .ok (number, .numbered)

def argument (arguments : List Text) (numbering : Numbering) (name : Text) :
    Except Fault (Text × Numbering) :=
  match index numbering name with
  | .error fault => .error fault
  | .ok (number, numbering) =>
      match arguments[number]? with
      | none => .error (.missingArgument number)
      | some argument => .ok (argument, numbering)

/-! ## Steps into an argument -/

def startsStep (char : Char) : Bool := char = '.' || char = '['

def numberedPart (finding : Finding) (place : Nat) : Except Fault Finding :=
  match finding with
  | .text text =>
      match text[place]? with
      | none => .error (.numberTooLarge .text)
      | some char => .ok (.text [char])
  | .kinds row =>
      match row[place]? with
      | none => .error (.numberTooLarge .row)
      | some kind => .ok (.kind kind)
  | .sole item => if place = 0 then .ok item else .error (.numberTooLarge .row)
  | .table _ => .error (.missingEntry (Text.decimal place))
  | .kind kind =>
      if kind.takesArgument then .ok (.applied kind (.number place))
      else .error (.notNumbered (.kind kind))
  | .applied origin argument => .error (.noArgument (.applied origin argument))
  | other => .error (.notNumbered other)

/-- The part of a finding with a name that stands in brackets.  Only tables have such parts. -/
def entry (finding : Finding) (name : Text) : Except Fault Finding :=
  match finding with
  | .text _ => .error (.nameForNumber .text)
  | .kinds _ | .sole _ => .error (.nameForNumber .row)
  | .table kind =>
      match kind.ownMember? name with
      | none => .error (.missingEntry name.quoted)
      | some own => .ok (.ofMember kind own)
  | .kind kind =>
      if kind.takesArgument then .ok (.applied kind (.text name))
      else .error (.notNumbered (.kind kind))
  | .applied origin argument => .error (.noArgument (.applied origin argument))
  | other => .error (.notNumbered other)

def bracketedPart (finding : Finding) (number : Text) : Except Fault Finding :=
  match number, number? number with
  | _, .error fault => .error fault
  | [], _ => .error .emptyStep
  | name, .ok none => entry finding name
  | _, .ok (some place) => numberedPart finding place

def namedPart (finding : Finding) (name : Text) : Except Fault Finding :=
  if name.isEmpty then .error .emptyStep
  else match finding.part? name with
    | none => .error (.missingPart finding name)
    | some part => .ok part

/-- What is being read of the steps into an argument: the start of a step, a name, or a number in
brackets.  Of the latter two the last character comes first. -/
inductive Step where
  | start
  | name (name : Text)
  | number (number : Text)

/-- Takes the steps into a finding one after the other. -/
def follow : Finding → Step → Text → Except Fault Finding
  | finding, .start, [] => .ok finding
  | finding, .name name, [] => namedPart finding name.reverse
  | _, .number _, [] => .error .unclosedStep
  | finding, .start, char :: rest =>
      if char = '[' then follow finding (.number []) rest
      else if char = '.' then follow finding (.name []) rest
      else .error .missingStep
  | finding, .name name, char :: rest =>
      if startsStep char then
        match namedPart finding name.reverse with
        | .error fault => .error fault
        | .ok part => follow part (if char = '[' then .number [] else .name []) rest
      else follow finding (.name (char :: name)) rest
  | finding, .number number, char :: rest =>
      if char = ']' then
        match bracketedPart finding number.reverse with
        | .error fault => .error fault
        | .ok part => follow part .start rest
      else follow finding (.number (char :: number)) rest

/-! ## Conversions -/

def convert (conversion : Option Char) (finding : Finding) : Except Fault Finding :=
  match conversion with
  | none => .ok finding
  | some letter =>
      if letter = 's' then .ok (.text finding.inserted)
      else if letter = 'r' then .ok (.text finding.shown)
      else if letter = 'a' then .ok (.text finding.shownAscii)
      else .error (.unknownConversion letter)

/-! ## Contents -/

def value (arguments : List Text) (numbering : Numbering) (slot : Slot) :
    Except Fault (Finding × Numbering) := do
  let name := slot.target.takeWhile (!startsStep ·)
  let steps := slot.target.dropWhile (!startsStep ·)
  let (argument, numbering) ← argument arguments numbering name
  let found ← follow (.text argument) .start steps
  let converted ← convert slot.conversion found
  pure (converted, numbering)

def placeText (description text : Text) : Except Fault Text :=
  match Layout.read description with
  | .error fault => .error (.layout fault)
  | .ok layout =>
      if Text.roomAllowance < layout.width then .error .noRoom else .ok (layout.fit text)

/-- A number of some kind in the layout with a description, if there is room for it.  What is wrong
with the number itself comes before the lack of room. -/
def placeNumber (kind : Kind) (description : Text) (number : Nat) : Except Fault Text :=
  match Layout.Description.readForNumber kind.name description with
  | .error fault => .error (.layout fault)
  | .ok parts =>
      match Layout.Numeral.ofDescription kind.name parts number with
      | .error fault => .error (.layout fault)
      | .ok numeral =>
          if Text.roomAllowance < parts.width then .error .noRoom else .ok (numeral.fit parts)

/-- A finding in the layout with a description.  Only texts and numbers can have a layout.  What is
true counts as one, and what is false as zero. -/
def place (description : Text) (finding : Finding) : Except Fault Text :=
  if description.isEmpty then .ok finding.inserted
  else match finding with
    | .text text => placeText description text
    | .number number => placeNumber .number description number
    | .truth value => placeNumber .truth description (if value then 1 else 0)
    | other => .error (.noLayout other.kindOf)

end Slot

end BetaNormal

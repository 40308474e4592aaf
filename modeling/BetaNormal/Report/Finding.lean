import BetaNormal.Report.Kind.Catalogue
import BetaNormal.Text.Quoted

/-!
# Findings

What a slot of a message can find.  An argument is a text, and by the names of members the slot gets
from there to its kind, to the members of that, and to what is known about them.
-/

namespace BetaNormal

namespace Kind

def name (which : Kind) : Text := which.facts.name

def home (which : Kind) : Text := if which = applied then "types" else "builtins"

def fullName (which : Kind) : Text :=
  if which = applied then which.home ++ '.' :: which.name else which.name

def shown (which : Kind) : Text := "<class '" ++ which.fullName ++ "'>"

def above : Kind → Option Kind
  | general => none
  | truth => some number
  | _ => some general

def lineage : Kind → List Kind
  | general => [general]
  | truth => [truth, number, general]
  | which => [which, general]

def ownMember? (which : Kind) (name : Text) : Option Member :=
  which.ownMembers.find? fun member => decide (member.name.toList = name)

/-- The member that is found under a name in the things of a kind, and the kind that it belongs to.
The kind itself comes before the kinds above it. -/
def member? (which : Kind) (name : Text) : Option (Kind × Member) :=
  which.lineage.findSome? fun owner => (owner.ownMember? name).map fun member => (owner, member)

def takesArgument (which : Kind) : Bool :=
  which = ofKinds || (which.ownMember? "__class_getitem__").isSome

end Kind

/-- What a slot can find: a text, a number, a truth value, nothing, a kind, a row of kinds or of a
single finding, the table of the members of a kind, a member that stands on its own or is bound to
something, and a kind with an argument. -/
inductive Finding where
  | text (content : Text)
  | number (value : Nat)
  | truth (value : Bool)
  | nothing
  | kind (which : Kind)
  | kinds (row : List Kind)
  | sole (item : Finding)
  | table (which : Kind)
  | member (owner : Kind) (own : Member)
  | bound (receiver : Finding) (owner : Kind) (own : Member)
  | applied (origin : Kind) (argument : Finding)
  deriving DecidableEq, Repr

namespace Finding

def ofText? : Option String → Finding
  | none => nothing
  | some content => text content

def ofKind? : Option Kind → Finding
  | none => nothing
  | some which => kind which

def kindOf : Finding → Kind
  | text _ => .text
  | number _ => .number
  | truth _ => .truth
  | nothing => .nothing
  | kind _ => .ofKinds
  | kinds _ | sole _ => .row
  | table _ => .table
  | member _ own => own.shape.kind
  | bound _ _ own => own.shape.boundKind
  | applied .. => .applied

/-! ## In print -/

/-- Parts in a row between parentheses.  A single one is followed by a comma. -/
def rowShown : List Text → Text
  | [part] => '(' :: part ++ ",)"
  | parts => '(' :: Text.joined ", " parts ++ ")"

def memberShown (owner : Kind) (member : Member) : Text :=
  '<' :: member.shape.words ++ " '" ++ member.name.toList ++ "' of '" ++ owner.fullName
    ++ "' objects>"

/-- A member that is bound to a thing of some kind.  Where that thing lies is left out. -/
def boundShown (receiver : Kind) (member : Member) : Text :=
  match member.shape with
  | .operator =>
      "<method-wrapper '" ++ member.name.toList ++ "' of " ++ receiver.fullName ++ " object>"
  | _ =>
      "<built-in method " ++ member.name.toList ++ " of " ++ receiver.fullName ++ " object>"

def entryShown (owner : Kind) (member : Member) : Text :=
  match member.shape with
  | .creator => boundShown .ofKinds member
  | .description => (owner.facts.description.map fun content => Text.quoted content).getD "None"
  | .absent => "None"
  | _ => memberShown owner member

def entriesShown (which : Kind) : Text :=
  let entries := which.ownMembers.map fun member =>
    Text.quoted member.name ++ ": " ++ entryShown which member
  '\x7b' :: Text.joined ", " entries ++ "\x7d"

def shown : Finding → Text
  | text content => content.quoted
  | number value => Text.decimal value
  | truth true => "True"
  | truth false => "False"
  | nothing => "None"
  | kind which => which.shown
  | kinds row => rowShown (row.map Kind.shown)
  | sole item => rowShown [item.shown]
  | table which => "mappingproxy(" ++ entriesShown which ++ ")"
  | member owner own => memberShown owner own
  | bound receiver _ own => boundShown receiver.kindOf own
  | applied origin argument => origin.name ++ '[' :: argument.shown ++ "]"

/-- A finding as it stands in a message: a text is taken as it is, and so are the entries of a
table. -/
def inserted : Finding → Text
  | text content => content
  | table which => entriesShown which
  | other => other.shown

def shownAscii : Finding → Text
  | text content => content.quotedAscii
  | other =>
      other.shown.flatMap fun char => if char.toNat < 128 then [char] else Text.numericEscape char

/-! ## Members -/

/-- What a kind gives for its description: the description itself if there is one, and otherwise the
member that computes the descriptions of its things if there is one. -/
def descriptionOf (which : Kind) : Finding :=
  match which.facts.description, which.ownMember? "__doc__" with
  | some content, _ => text content
  | none, some own => if own.shape = .computed then member which own else nothing
  | none, none => nothing

def ofMember (owner : Kind) (own : Member) : Finding :=
  match own.shape with
  | .creator => bound (kind owner) owner own
  | .description => ofText? owner.facts.description
  | .absent => nothing
  | _ => member owner own

/-- The value that a kind has under a name, if it has one. -/
def valueOfKind (which : Kind) (name : Text) : Option Finding :=
  let facts := which.facts
  if name = "__name__" ∨ name = "__qualname__" then some (text facts.name)
  else if name = "__module__" then some (text which.home)
  else if name = "__doc__" then some (descriptionOf which)
  else if name = "__text_signature__" then some (ofText? facts.signature)
  else if name = "__base__" then some (ofKind? which.above)
  else if name = "__bases__" then some (kinds which.above.toList)
  else if name = "__mro__" then some (kinds which.lineage)
  else if name = "__dict__" then some (table which)
  else if name = "__basicsize__" then some (number facts.size)
  else if name = "__itemsize__" then some (number facts.itemSize)
  else if name = "__dictoffset__" then some (number facts.tablePlace)
  else if name = "__weakrefoffset__" then some (number facts.weakPlace)
  else if name = "__flags__" then some (number facts.flags)
  else none

def valueOfMember (owner : Kind) (own : Member) (name : Text) : Finding :=
  if name = "__name__" then text own.name
  else if name = "__qualname__" then text (owner.name ++ '.' :: own.name.toList)
  else if name = "__objclass__" then kind owner
  else if name = "__doc__" then ofText? own.description
  else if name = "__text_signature__" then ofText? own.signature
  else nothing

def nearestKind : Finding → Kind
  | kind which => which
  | other => other.kindOf

/-- The value that a bound member has under a name.  A bound operator is named after the kind that
it belongs to, and a bound method after the kind in which it was found. -/
def valueOfBound (receiver : Finding) (owner : Kind) (own : Member) (name : Text) : Finding :=
  if name = "__self__" then receiver
  else
    valueOfMember (if own.shape = .operator then owner else receiver.nearestKind) own name

/-- The value that a number has under a name: a part of it as a complex number or as a quotient. -/
def partOfNumber (value : Nat) (name : Text) : Nat :=
  if name = "imag" then 0 else if name = "denominator" then 1 else value

/-- The value that a finding has under the name of one of its computed or stored members, if it has
one. -/
def value? (finding : Finding) (name : Text) : Option Finding :=
  if name = "__class__" then some (kind finding.kindOf)
  else match finding with
    | kind which => valueOfKind which name
    | member owner own => some (valueOfMember owner own name)
    | bound receiver owner own => some (valueOfBound receiver owner own name)
    | number value => some (number (partOfNumber value name))
    | truth value => some (number (partOfNumber (if value then 1 else 0) name))
    | applied origin argument =>
        some (if name = "__origin__" then kind origin
          else if name = "__args__" then sole argument
          else if name = "__parameters__" then kinds []
          else if name = "__unpacked__" then truth false else nothing)
    | _ => none

def ofMemberIn (finding : Finding) (owner : Kind) (own : Member) : Option Finding :=
  match own.shape with
  | .computed | .stored => finding.value? own.name
  | .operator | .method => some (bound finding owner own)
  | .methodOfKind => some (bound (kind finding.kindOf) owner own)
  | _ => some (ofMember owner own)

def partOfThing? (finding : Finding) (name : Text) : Option Finding :=
  (finding.kindOf.member? name).bind fun (owner, own) => finding.ofMemberIn owner own

/-- What is found under a name in a kind.  Values of the kind come first, then the members of its
things, and then what is bound to the kind. -/
def partOfKind? (which : Kind) (name : Text) : Option Finding :=
  match Kind.ofKinds.member? name, which.member? name with
  | some (owner, own), among =>
      if own.shape.isValue || among.isNone then (kind which).ofMemberIn owner own
      else among.map (memberOf which)
  | none, among => among.map (memberOf which)
where
  memberOf (which : Kind) : Kind × Member → Finding
    | (owner, own) =>
        if own.shape = .methodOfKind then bound (kind which) owner own else ofMember owner own

/-- The names that a kind with an argument does not leave to the kind. -/
def ownNamesOfApplied : List Text := [
  "__class__", "__origin__", "__args__", "__unpacked__", "__parameters__",
  "__typing_unpacked_tuple_args__", "__mro_entries__", "__reduce_ex__", "__reduce__", "__copy__",
  "__deepcopy__"]

def part? (finding : Finding) (name : Text) : Option Finding :=
  match finding with
  | kind which => partOfKind? which name
  | applied origin _ =>
      if name ∈ ownNamesOfApplied then finding.partOfThing? name else partOfKind? origin name
  | _ => finding.partOfThing? name

/-- What is said if nothing is found under a name.  Of its abstract methods a kind says no more than
their name. -/
def lackShown (finding : Finding) (name : Text) : Text :=
  let lack := fun (what : Text) => what ++ " has no attribute '" ++ name ++ "'"
  let ofKind := fun (which : Kind) =>
    if name = "__abstractmethods__" then name else lack ("type object '" ++ which.fullName ++ "'")
  let ofThing := lack ('\'' :: finding.kindOf.fullName ++ "' object")
  match finding with
  | kind which => ofKind which
  | applied origin _ => if name ∈ ownNamesOfApplied then ofThing else ofKind origin
  | _ => ofThing

end Finding

end BetaNormal

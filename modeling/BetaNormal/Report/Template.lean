import BetaNormal.Report
import BetaNormal.Report.Slot

/-!
# Message templates

A template is a message with slots in braces that are filled from a list of arguments; doubled
braces stand for single ones.  A slot names an argument, then may have a conversion behind an
exclamation mark and the description of a layout behind a colon.  The description may have slots
itself, but those of the inner slots may not.

The slots are filled from left to right, and a fault counts only when the filling gets there.
-/

namespace BetaNormal

namespace Template

inductive Fault where
  | loneOpening
  | loneClosing
  | unclosedSlot
  | openingInSlot
  | conversionMissing
  | afterConversion
  | unclosedLayout
  | nestedTooDeeply
  | slot (fault : Slot.Fault)
  | noSubject
  deriving DecidableEq, Repr

def Fault.message : Fault → Text
  | loneOpening => "Single '\x7b' encountered in format string"
  | loneClosing => "Single '\x7d' encountered in format string"
  | unclosedSlot => "expected '\x7d' before end of string"
  | openingInSlot => "unexpected '\x7b' in field name"
  | conversionMissing => "end of string while looking for conversion specifier"
  | afterConversion => "expected ':' after conversion specifier"
  | unclosedLayout => "unmatched '\x7b' in format spec"
  | nestedTooDeeply => "Max string recursion exceeded"
  | slot fault => fault.message
  | noSubject => "list index out of range"

/-- A part of a template.  Behind a part that is broken nothing is read. -/
inductive Segment where
  | char (char : Char)
  | slot (slot : Slot)
  | broken (fault : Fault)
  deriving DecidableEq, Repr

/-- What is being read: the message itself, what a slot names, a step in brackets within that, a
conversion, the colon behind one, or a layout with so many braces open.  What has been read of a
slot has its last character first. -/
inductive Mode where
  | message
  | target (target : Text)
  | step (target : Text)
  | conversion (target : Text)
  | colon (target : Text) (conversion : Char)
  | layout (target : Text) (conversion : Option Char) (layout : Text) (nesting : Nat)

/-- The slot with parts that were read from left to right.  The character with number zero is no
conversion. -/
def slotOf (target : Text) (conversion : Option Char) (layout : Text) : Segment :=
  .slot ⟨target.reverse, conversion.filter (· ≠ '\x00'), layout.reverse⟩

def Mode.ending : Mode → List Segment
  | message => []
  | target [] => [.broken .loneOpening]
  | target _ | step _ => [.broken .unclosedSlot]
  | conversion _ => [.broken .conversionMissing]
  | colon .. | layout .. => [.broken .unclosedLayout]

def segmentsFrom : Mode → Text → List Segment
  | mode, [] => mode.ending
  | .message, '\x7b' :: '\x7b' :: rest => .char '\x7b' :: segmentsFrom .message rest
  | .message, '\x7d' :: '\x7d' :: rest => .char '\x7d' :: segmentsFrom .message rest
  | .message, char :: rest =>
      if char = '\x7b' then segmentsFrom (.target []) rest
      else if char = '\x7d' then [.broken .loneClosing]
      else .char char :: segmentsFrom .message rest
  | .target target, char :: rest =>
      if char = '\x7b' then [.broken .openingInSlot]
      else if char = '\x7d' then slotOf target none [] :: segmentsFrom .message rest
      else if char = '!' then segmentsFrom (.conversion target) rest
      else if char = ':' then segmentsFrom (.layout target none [] 0) rest
      else if char = '[' then segmentsFrom (.step (char :: target)) rest
      else segmentsFrom (.target (char :: target)) rest
  | .step target, char :: rest =>
      if char = ']' then segmentsFrom (.target (char :: target)) rest
      else segmentsFrom (.step (char :: target)) rest
  | .conversion target, char :: rest => segmentsFrom (.colon target char) rest
  | .colon target conversion, char :: rest =>
      if char = '\x7d' then slotOf target conversion [] :: segmentsFrom .message rest
      else if char = ':' then segmentsFrom (.layout target conversion [] 0) rest
      else [.broken .afterConversion]
  | .layout target conversion layout nesting, char :: rest =>
      if char = '\x7b' then
        segmentsFrom (.layout target conversion (char :: layout) (nesting + 1)) rest
      else if char = '\x7d' then
        match nesting with
        | 0 => slotOf target conversion layout :: segmentsFrom .message rest
        | nesting + 1 =>
            segmentsFrom (.layout target conversion (char :: layout) nesting) rest
      else segmentsFrom (.layout target conversion (char :: layout) nesting) rest

def segments (template : Text) : List Segment := segmentsFrom .message template

/-- Fills one slot.  A description of a layout that has braces is a template itself, which `inner`
fills. -/
def fillSlot (arguments : List Text)
    (inner : Slot.Numbering → Text → Except Fault (Text × Slot.Numbering))
    (numbering : Slot.Numbering) (slot : Slot) : Except Fault (Text × Slot.Numbering) := do
  let (value, numbering) ← (slot.value arguments numbering).mapError .slot
  let (layout, numbering) ←
    if slot.layout.contains '\x7b' then inner numbering slot.layout
    else pure (slot.layout, numbering)
  let placed ← (Slot.place layout value).mapError .slot
  pure (placed, numbering)

def fillSegments (arguments : List Text)
    (inner : Slot.Numbering → Text → Except Fault (Text × Slot.Numbering)) :
    Slot.Numbering → List Segment → Except Fault (Text × Slot.Numbering)
  | numbering, [] => .ok ([], numbering)
  | _, .broken fault :: _ => .error fault
  | numbering, .char char :: rest =>
      match fillSegments arguments inner numbering rest with
      | .error fault => .error fault
      | .ok (text, numbering) => .ok (char :: text, numbering)
  | numbering, .slot slot :: rest =>
      match fillSlot arguments inner numbering slot with
      | .error fault => .error fault
      | .ok (placed, numbering) =>
          match fillSegments arguments inner numbering rest with
          | .error fault => .error fault
          | .ok (text, numbering) => .ok (placed ++ text, numbering)

/-- Fills a template whose layouts may nest so many levels deep, itself included. -/
def fillNested (arguments : List Text) :
    (levels : Nat) → Slot.Numbering → Text → Except Fault (Text × Slot.Numbering)
  | 0, _, _ => .error .nestedTooDeeply
  | levels + 1, numbering, template =>
      fillSegments arguments (fillNested arguments levels) numbering (segments template)

def fill (template : Text) (arguments : List Text) : Except Fault Text :=
  (fillNested arguments 2 .undecided template).map (·.1)

end Template

/-- A report whose message is a filled template and whose subject is the first argument.  The
arguments are filled in twice, in bold and as they are; the subject is looked up in between. -/
def Report.ofTemplate (kind : Report.Kind) (template : Text) (arguments : List Text)
    (start stop : Int) (diagnosed internal : Bool) : Except Template.Fault Report := do
  let styled ← Template.fill template (arguments.map Text.bold)
  let subject :: _ := arguments | throw .noSubject
  let text ← Template.fill template arguments
  pure ⟨kind, ⟨text, styled⟩, subject, start, stopIn subject stop, diagnosed, internal⟩

end BetaNormal

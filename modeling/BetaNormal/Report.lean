import BetaNormal.Text.Room
import BetaNormal.Text.Style

/-!
# Reports

A report says what is wrong with a text: a message in which the quoted snippets stand out, the
text itself, and the part of it that is to blame.
-/

namespace BetaNormal

/-- A part of a message: words of its own, or a snippet of what the message is about. -/
inductive Piece where
  | plain (text : Text)
  | snippet (text : Text)
  deriving DecidableEq, Repr

namespace Piece

def text : Piece → Text
  | plain text => text
  | snippet text => text

/-- A piece as it is written to a terminal: snippets are in bold. -/
def styled : Piece → Text
  | plain text => text
  | snippet text => text.bold

end Piece

structure Message where
  text : Text
  styled : Text
  deriving DecidableEq, Repr

def Message.ofPieces (pieces : List Piece) : Message :=
  ⟨pieces.flatMap Piece.text, pieces.flatMap Piece.styled⟩

/-- What kind of trouble a report is about: anything in general, a malformed text and the position
of the fault in it, a reduction that was given up after some steps, or a value that is not a
term. -/
inductive Report.Kind where
  | general
  | malformed (position : Int)
  | unfinished (steps : Int)
  | notATerm
  deriving DecidableEq, Repr

/-- A message, the text that it is about, and the part of that text from `start` to `stop` that is
to blame.  `diagnosed` says whether that part is to be pointed out.  An internal report blames the
program and not the text, which is then never pointed at. -/
structure Report where
  kind : Report.Kind
  message : Message
  subject : Text
  start : Int
  stop : Int
  diagnosed : Bool
  internal : Bool
  deriving DecidableEq, Repr

namespace Report

/-- The position that a stop stands for: `-1` is the end of the text. -/
def stopIn (subject : Text) (stop : Int) : Int := if stop = -1 then subject.length else stop

def about (pieces : List Piece) (subject : Text) : Report where
  kind := .general
  message := .ofPieces pieces
  subject := subject
  start := 0
  stop := subject.length
  diagnosed := true
  internal := false

def malformed (pieces : List Piece) (subject : Text) (position : Int) : Report where
  kind := .malformed position
  message := .ofPieces pieces
  subject := subject
  start := position
  stop := stopIn subject (position + 1)
  diagnosed := true
  internal := false

def unfinished (pieces : List Piece) (subject : Text) (steps : Int) : Report :=
  { about pieces subject with kind := .unfinished steps, diagnosed := false }

def notATerm (pieces : List Piece) (subject : Text) : Report :=
  { about pieces subject with kind := .notATerm, internal := true }

def text (report : Report) : Text := report.message.text

def styled (report : Report) : Text := report.message.styled

def pointsOut (report : Report) : Bool :=
  !report.internal && !report.subject.isEmpty && report.diagnosed

/-- Where the part to blame stops in print.  At least one character is to blame. -/
def shownStop (report : Report) : Int := max report.stop (report.start + 1)

/-- The text with the part to blame coloured, and under it a pointer to that part. -/
def diagnosis (report : Report) (colour : Text.Colour) : Text :=
  let stop := report.shownStop
  let pointer := '^' :: Text.run (stop - report.start - 1) '~'
  "  " ++ report.subject.before report.start
    ++ Text.coloured colour (report.subject.between report.start stop)
    ++ report.subject.since stop ++ "\n"
    ++ "  " ++ Text.run report.start ' ' ++ Text.coloured colour pointer

/-- What keeps the diagnosis from being made, if anything does: the space in front of the pointer or
the pointer itself is longer than the text and finds no room. -/
def diagnosisFault (report : Report) : Option Text.RoomFault :=
  (report.subject.runFault report.start).orElse fun _ =>
    report.subject.runFault (report.shownStop - report.start - 1)

end Report

end BetaNormal

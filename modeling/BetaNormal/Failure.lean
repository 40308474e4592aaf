import BetaNormal.Name
import BetaNormal.Report.Template
import BetaNormal.Term.Substitution
import BetaNormal.Text.Utf8

/-!
# Failures

What can come out of an operation instead of a result: a report that is meant for the user, or
something that nobody planned for, of which only a category and a text are known.
-/

namespace BetaNormal

inductive Failure.Category where
  | type
  | value
  | index
  | key
  | member
  | overflow
  | room
  | decoding
  deriving DecidableEq, Repr

def Failure.Category.label : Failure.Category → Text
  | .type => "TypeError"
  | .value => "ValueError"
  | .index => "IndexError"
  | .key => "KeyError"
  | .member => "AttributeError"
  | .overflow => "OverflowError"
  | .room => "MemoryError"
  | .decoding => "UnicodeDecodeError"

/-- A report for the user, or a failure of some category with a text. -/
inductive Failure where
  | reported (report : Report)
  | unforeseen (category : Failure.Category) (text : Text)
  deriving DecidableEq

def Slot.Fault.category : Slot.Fault → Failure.Category
  | .missingArgument _ | .numberTooLarge _ => .index
  | .unknownArgument _ | .missingEntry _ => .key
  | .missingPart .. => .member
  | .notNumbered _ | .nameForNumber _ | .noArgument _ | .noLayout _ => .type
  | .layout .noCharacter => .overflow
  | .noRoom => .room
  | _ => .value

def Template.Fault.category : Template.Fault → Failure.Category
  | .slot fault => fault.category
  | .noSubject => .index
  | _ => .value

def Template.Fault.failure (fault : Template.Fault) : Failure :=
  .unforeseen fault.category fault.message

def Text.RoomFault.failure (fault : Text.RoomFault) : Failure :=
  .unforeseen (match fault with
    | .uncountable => .overflow
    | .noRoom => .room) fault.message

def Failure.numeralTooLong : Failure :=
  .unforeseen .value
    ("Exceeds the limit (" ++ Text.decimal Text.numeralAllowance
      ++ " digits) for integer string conversion; "
      ++ "use sys.set_int_max_str_digits() to increase the limit")

/-- A supply that has not run over the largest numeral. -/
def Supply.withinNumerals (supply : Supply) : Except Failure Supply :=
  if supply.isOverrun then .error .numeralTooLong else .ok supply

def Text.DecodeFault.failure (fault : Text.DecodeFault) : Failure :=
  .unforeseen .decoding fault.message

def Term.RenamingFault.failure (fault : Term.RenamingFault) : Failure :=
  .unforeseen .value fault.message

end BetaNormal

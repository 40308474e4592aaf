import BetaNormal.Text

/-!
# Room for texts

How long a text can get.  Characters are counted by numbers of a limited size, and of the lengths
that can be counted only the smaller ones find room.  A text that is there already has found it.
-/

namespace BetaNormal.Text

/-- The largest number that is small enough to count characters. -/
def largestCount : Nat := 0x7fffffffffffffff

/-- The length of the longest text that finds room. -/
def roomAllowance : Nat := 0x1000000000

/-- Why a text cannot be made: its length is no count, or it is too long. -/
inductive RoomFault where
  | uncountable
  | noRoom
  deriving DecidableEq, Repr

/-- The fault in words; there is no room for words about the lack of room. -/
def RoomFault.message : RoomFault → Text
  | .uncountable => "cannot fit 'int' into an index-sized integer"
  | .noRoom => []

/-- What keeps a run of some length from being made beside a text, if anything does.  A run that
is no longer than the text always finds room, and so does an empty one, for which any negative
number may stand that is as small as a count is large. -/
def runFault (text : Text) (length : Int) : Option RoomFault :=
  if length < -(largestCount : Int) - 1 then some .uncountable
  else if length ≤ text.length then none
  else if (largestCount : Int) < length then some .uncountable
  else if (roomAllowance : Int) < length then some .noRoom
  else none

end BetaNormal.Text

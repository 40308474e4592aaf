/-!
# Text

A text is a list of code points, so that every length, position and cut counts code points and
every function on it can recurse on the list.  This file holds the operations on plain text that
the rest of the library shares: numerals, cutting at a separator, and cuts at positions
that may be counted from either end.
-/

namespace BetaNormal

abbrev Text := List Char

instance : Coe String Text := ⟨String.toList⟩

namespace Text

/-! ## Numerals -/

def digit (number : Nat) : Char := Char.ofNat (48 + number % 10)

def decimal (number : Nat) : Text :=
  if number < 10 then [digit number] else decimal (number / 10) ++ [digit number]

def integer : Int → Text
  | .ofNat magnitude => decimal magnitude
  | .negSucc below => '-' :: decimal (below + 1)

/-- The most digits that a numeral may have. -/
def numeralAllowance : Nat := 4300

def hasNumeral (number : Nat) : Bool := number < Nat.pow 10 numeralAllowance

def hexDigit (value : Nat) : Char :=
  if value < 10 then Char.ofNat (48 + value) else Char.ofNat (87 + value)

def hexNumeral (number : Nat) : Text :=
  if number < 16 then [hexDigit number]
  else hexNumeral (number / 16) ++ [hexDigit (number % 16)]

/-- The hexadecimal numeral of a number in exactly `width` digits, higher places dropped. -/
def hexadecimal : (width number : Nat) → Text
  | 0, _ => []
  | width + 1, number => hexadecimal width (number / 16) ++ [hexDigit (number % 16)]

/-! ## Pieces -/

/-- Cuts a text at every occurrence of `separator`.  A text without one is a single piece, so the
result is never empty. -/
def pieces (separator : Char) : Text → List Text
  | [] => [[]]
  | char :: rest =>
      if char = separator then [] :: pieces separator rest
      else match pieces separator rest with
        | [] => [[char]]
        | first :: others => (char :: first) :: others

def joined (separator : Text) (texts : List Text) : Text := separator.intercalate texts

/-- The text before the first occurrence of `mark`, or all of it if there is none. -/
def upTo (mark : Text) : Text → Text
  | [] => []
  | char :: rest => if mark.isPrefixOf (char :: rest) then [] else char :: upTo mark rest

def spacesShown (text : Text) : Text := text.map fun char => if char = ' ' then '_' else char

/-- Whether one text comes before another, or is it, in the order of code points. -/
def atMost : (left right : Text) → Bool
  | [], _ => true
  | _ :: _, [] => false
  | char :: left, other :: right =>
      if char = other then atMost left right else decide (char.toNat < other.toNat)

/-! ## Positions counted from either end

A position `0, 1, …` counts from the front and `-1, -2, …` from the back.  A position outside the
text stands for the nearer end. -/

/-- The number of code points in front of a position. -/
def place (text : Text) (position : Int) : Nat :=
  if position < 0 then (text.length + position).toNat else min position.toNat text.length

def before (text : Text) (position : Int) : Text := text.take (text.place position)

def since (text : Text) (position : Int) : Text := text.drop (text.place position)

/-- What stands between two positions; nothing if they are out of order. -/
def between (text : Text) (start stop : Int) : Text :=
  (text.take (text.place stop)).drop (text.place start)

/-- A run of one character; a negative length counts as zero. -/
def run (length : Int) (char : Char) : Text := List.replicate length.toNat char

end Text

end BetaNormal

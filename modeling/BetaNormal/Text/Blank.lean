import BetaNormal.Text

/-!
# Blank space

The characters that count as blank space at the ends of a line, which are those of Unicode's white
space together with the four ASCII information separators.
-/

namespace BetaNormal.Text

/-- First and last code points of the runs of blank characters, in ascending order. -/
def blankRuns : List (Nat × Nat) :=
  [(0x09, 0x0d), (0x1c, 0x20), (0x85, 0x85), (0xa0, 0xa0), (0x1680, 0x1680), (0x2000, 0x200a),
   (0x2028, 0x2029), (0x202f, 0x202f), (0x205f, 0x205f), (0x3000, 0x3000)]

def isBlank (char : Char) : Bool :=
  blankRuns.any fun (first, last) => first ≤ char.toNat && char.toNat ≤ last

def isSeparator (char : Char) : Bool := 0x1c ≤ char.toNat && char.toNat ≤ 0x1f

def trimWhere (strips : Char → Bool) (text : Text) : Text :=
  ((text.dropWhile strips).reverse.dropWhile strips).reverse

def trim (text : Text) : Text := trimWhere isBlank text

end BetaNormal.Text

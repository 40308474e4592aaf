import BetaNormal.Text.Room

/-!
# Decimal digits

The decimal digits of all scripts, and the small numbers that are written with them.  Every script
that has decimal digits has ten of them in a row, from zero to nine, so a table of the zeros
describes them all.
-/

namespace BetaNormal.Text

/-- The digits zero of all scripts, in ascending order. -/
def zeros : List Nat :=
  [0x0030, 0x0660, 0x06f0, 0x07c0, 0x0966, 0x09e6, 0x0a66, 0x0ae6, 0x0b66, 0x0be6, 0x0c66, 0x0ce6,
   0x0d66, 0x0de6, 0x0e50, 0x0ed0, 0x0f20, 0x1040, 0x1090, 0x17e0, 0x1810, 0x1946, 0x19d0, 0x1a80,
   0x1a90, 0x1b50, 0x1bb0, 0x1c40, 0x1c50, 0xa620, 0xa8d0, 0xa900, 0xa9d0, 0xa9f0, 0xaa50, 0xabf0,
   0xff10, 0x104a0, 0x10d30, 0x11066, 0x110f0, 0x11136, 0x111d0, 0x112f0, 0x11450, 0x114d0, 0x11650,
   0x116c0, 0x11730, 0x118e0, 0x11950, 0x11c50, 0x11d50, 0x11da0, 0x16a60, 0x16ac0, 0x16b50,
   0x1d7ce, 0x1d7d8, 0x1d7e2, 0x1d7ec, 0x1d7f6, 0x1e140, 0x1e2f0, 0x1e950, 0x1fbf0]

def digitValue? (char : Char) : Option Nat :=
  (zeros.find? fun start => start ≤ char.toNat && char.toNat ≤ start + 9).map (char.toNat - ·)

/-- Reads the digits at the front of a text as a number, after digits that make up `number`.  The
result is the number and the rest of the text; nothing if the number gets too large. -/
def readCountFrom (number : Nat) : Text → Option (Nat × Text)
  | [] => some (number, [])
  | char :: rest =>
      match digitValue? char with
      | none => some (number, char :: rest)
      | some value =>
          if largestCount < number * 10 + value then none
          else readCountFrom (number * 10 + value) rest

/-- Reads the digits at the front of a text as a number, which is zero if there are none. -/
def readCount (text : Text) : Option (Nat × Text) := readCountFrom 0 text

end BetaNormal.Text

import BetaNormal.Text

/-!
# Strict UTF-8

Reads bytes as UTF-8 and refuses everything that the encoding does not allow: stray continuation
bytes, overlong forms, surrogates, numbers above the last code point, and a character that is cut
off.  A mark of byte order at the front is kept as the character that it is.  Bytes are read in
blocks, which shows only in the positions of faults.
-/

namespace BetaNormal.Text

inductive DecodeCause where
  | badStart
  | badContinuation
  | cutOff
  deriving DecidableEq, Repr

/-- The offending bytes and the position of the first of them in the block that they came in.  The
bytes of a character that is cut off by the end of a block are kept back and counted as the first
ones of the next block. -/
structure DecodeFault where
  cause : DecodeCause
  position : Nat
  bytes : List UInt8
  deriving DecidableEq, Repr

def DecodeCause.message : DecodeCause → Text
  | .badStart => "invalid start byte"
  | .badContinuation => "invalid continuation byte"
  | .cutOff => "unexpected end of data"

def DecodeFault.message (fault : DecodeFault) : Text :=
  let place : Text := match fault.bytes with
    | [byte] => "byte 0x" ++ hexadecimal 2 byte.toNat ++ " in position " ++ decimal fault.position
    | bytes => "bytes in position " ++ decimal fault.position ++ "-"
        ++ decimal (fault.position + bytes.length - 1)
  "'utf-8' codec can't decode " ++ place ++ ": " ++ fault.cause.message

/-- The ranges that the bytes after the first one have to lie in, by the first byte of a
character; nothing if no character starts with it.  The narrower ranges of some second bytes keep
out overlong forms, surrogates and numbers that are too large. -/
def continuations? (first : UInt8) : Option (List (UInt8 × UInt8)) :=
  if first < 0x80 then some []
  else if first < 0xc2 then none
  else if first < 0xe0 then some [(0x80, 0xbf)]
  else if first = 0xe0 then some [(0xa0, 0xbf), (0x80, 0xbf)]
  else if first = 0xed then some [(0x80, 0x9f), (0x80, 0xbf)]
  else if first < 0xf0 then some [(0x80, 0xbf), (0x80, 0xbf)]
  else if first = 0xf0 then some [(0x90, 0xbf), (0x80, 0xbf), (0x80, 0xbf)]
  else if first < 0xf4 then some [(0x80, 0xbf), (0x80, 0xbf), (0x80, 0xbf)]
  else if first = 0xf4 then some [(0x80, 0x8f), (0x80, 0xbf), (0x80, 0xbf)]
  else none

def leadBits (continuationCount : Nat) (first : UInt8) : Nat :=
  match continuationCount with
  | 0 => first.toNat
  | 1 => first.toNat % 0x20
  | 2 => first.toNat % 0x10
  | _ => first.toNat % 0x08

/-- A character that is being read: the bytes so far, last one first, the bits that they
contribute, and the ranges of the bytes still to come. -/
structure PartialCharacter where
  taken : List UInt8
  bits : Nat
  expected : List (UInt8 × UInt8)

def blockSize : Nat := 8192

/-- Where a character starts in its block, and how many bytes of the block are still to come. -/
structure BlockPlace where
  start : Nat
  room : Nat

/-- The place after one more byte of the same character has been taken.  What is taken of the
character when a block runs out becomes the start of the next block. -/
def BlockPlace.advance (place : BlockPlace) : BlockPlace :=
  match place.room with
  | 0 => ⟨0, blockSize - 1⟩
  | room + 1 => ⟨place.start, room⟩

def BlockPlace.after (length : Nat) (place : BlockPlace) : BlockPlace :=
  { place with start := place.start + length }

/-- Whether a block ends with the first two bytes of a surrogate, of which `byte` is the second.
They are kept back until the next block. -/
def cutsSurrogate (taken : List UInt8) (byte : UInt8) (blockEnds : Bool) : Bool :=
  taken = [0xed] && 0xa0 ≤ byte && byte ≤ 0xbf && blockEnds

def decodeFrom (place : BlockPlace) :
    Option PartialCharacter → List UInt8 → Except DecodeFault Text
  | none, [] => .ok []
  | some pending, [] => .error ⟨.cutOff, 0, pending.taken.reverse⟩
  | none, byte :: rest =>
      let place := place.advance
      match continuations? byte with
      | none => .error ⟨.badStart, place.start, [byte]⟩
      | some [] => (decodeFrom (place.after 1) none rest).map (Char.ofNat byte.toNat :: ·)
      | some expected =>
          decodeFrom place (some ⟨[byte], leadBits expected.length byte, expected⟩) rest
  | some pending, byte :: rest =>
      let place := place.advance
      let bits := pending.bits * 0x40 + byte.toNat % 0x40
      match pending.expected with
      | (low, high) :: later =>
          if low ≤ byte ∧ byte ≤ high then
            match later with
            | [] =>
                (decodeFrom (place.after (pending.taken.length + 1)) none rest).map
                  (Char.ofNat bits :: ·)
            | _ :: _ => decodeFrom place (some ⟨byte :: pending.taken, bits, later⟩) rest
          else
            let blockEnds := rest.isEmpty || place.room = 0
            let start := if cutsSurrogate pending.taken byte blockEnds then 0 else place.start
            .error ⟨.badContinuation, start, pending.taken.reverse⟩
      | [] => .error ⟨.badContinuation, place.start, pending.taken.reverse⟩

def decode (bytes : List UInt8) : Except DecodeFault Text := decodeFrom ⟨0, blockSize⟩ none bytes

end BetaNormal.Text

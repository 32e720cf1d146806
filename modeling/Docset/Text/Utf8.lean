/-!
# Bytes that may not be text

What another program writes is decoded leniently. Bytes that are no UTF-8 become
replacement characters: one for every byte that cannot start a character, and one
for every character that is begun and then broken off, however many of its bytes
there were. The byte that breaks a character off is read afresh.
-/
namespace Docset.Text

def replacementChar : Char := '\uFFFD'

/-- A character of several bytes that has begun. -/
structure Begun where
  /-- The bits of the code point so far. -/
  bits : Nat
  /-- How many bytes are missing after the next one. -/
  later : Nat
  /-- Least and greatest value of the next byte. -/
  low : Nat := 0x80
  high : Nat := 0xBF
  deriving DecidableEq, Repr

/-- What the first byte of a character says. -/
inductive Lead where
  | whole (c : Char)
  | begun (b : Begun)
  | refused
  deriving DecidableEq, Repr

/-- The first byte of a character. The bounds on the second byte keep out surrogates, code points
beyond the last one and forms that are longer than needed. -/
def lead (b : Nat) : Lead :=
  if b < 0x80 then .whole (Char.ofNat b)
  else if b < 0xC2 then .refused
  else if b < 0xE0 then .begun ⟨b - 0xC0, 0, 0x80, 0xBF⟩
  else if b = 0xE0 then .begun ⟨0, 1, 0xA0, 0xBF⟩
  else if b = 0xED then .begun ⟨0xD, 1, 0x80, 0x9F⟩
  else if b < 0xF0 then .begun ⟨b - 0xE0, 1, 0x80, 0xBF⟩
  else if b = 0xF0 then .begun ⟨0, 2, 0x90, 0xBF⟩
  else if b < 0xF4 then .begun ⟨b - 0xF0, 2, 0x80, 0xBF⟩
  else if b = 0xF4 then .begun ⟨4, 2, 0x80, 0x8F⟩
  else .refused

/-- One more byte of a character that has begun. -/
def Begun.next (s : Begun) (b : Nat) : Lead :=
  let bits := s.bits * 64 + (b - 0x80)
  if b < s.low ∨ s.high < b then .refused
  else
    match s.later with
    | 0 => .whole (Char.ofNat bits)
    | later + 1 => .begun ⟨bits, later, 0x80, 0xBF⟩

/-- Decodes bytes, after a character that may have begun. -/
def decodeFrom : Option Begun → List UInt8 → List Char
  | none, [] => []
  | some _, [] => [replacementChar]
  | none, b :: rest => start b rest
  | some s, b :: rest =>
      match s.next b.toNat with
      | .whole c => c :: decodeFrom none rest
      | .begun s => decodeFrom (some s) rest
      | .refused => replacementChar :: start b rest
where
  start (b : UInt8) (rest : List UInt8) : List Char :=
    match lead b.toNat with
    | .whole c => c :: decodeFrom none rest
    | .begun s => decodeFrom (some s) rest
    | .refused => replacementChar :: decodeFrom none rest

/-- The text of bytes, with replacement characters where they are none. -/
def decodeLossy (bytes : ByteArray) : String := String.ofList (decodeFrom none bytes.toList)

end Docset.Text

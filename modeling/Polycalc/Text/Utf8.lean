/-!
# Decoding UTF-8

A file is read as UTF-8.  Bytes that are no UTF-8 are refused, with the place
and the number of the bytes at fault: a byte that begins no character, the
beginning of a character up to a byte that does not continue it, or the
beginning of a character that the end of the file cuts off.
-/

namespace Polycalc.Text.Utf8

/-- What is wrong with the bytes at fault. -/
inductive Flaw
  | invalidStart
  | invalidContinuation
  | unexpectedEnd
  deriving DecidableEq, Repr

/-- The bytes at fault: the first of them, its offset, and how many they
are. -/
structure DecodeError where
  first : UInt8
  offset : Nat
  count : Nat
  flaw : Flaw
  deriving DecidableEq, Repr

/-- A character of which only some bytes have been read. -/
structure Partial where
  first : UInt8
  offset : Nat
  /-- how many of its bytes have been read -/
  taken : Nat
  /-- how many of its bytes are still to come -/
  missing : Nat
  /-- the least and the greatest byte that may come next -/
  low : UInt8
  high : UInt8
  /-- the bits read so far -/
  bits : Nat
  deriving DecidableEq, Repr

/-- What the first byte of a longer character says about the rest of it. -/
def Partial.ofLead? (byte : UInt8) (offset : Nat) : Option Partial :=
  let lead (missing : Nat) (low high : UInt8) (bits : Nat) : Option Partial :=
    some ⟨byte, offset, 1, missing, low, high, bits⟩
  if byte < 0xc2 then none
  else if byte < 0xe0 then lead 1 0x80 0xbf (byte.toNat - 0xc0)
  else if byte < 0xf0 then
    lead 2 (if byte = 0xe0 then 0xa0 else 0x80) (if byte = 0xed then 0x9f else 0xbf)
      (byte.toNat - 0xe0)
  else if byte < 0xf5 then
    lead 3 (if byte = 0xf0 then 0x90 else 0x80) (if byte = 0xf4 then 0x8f else 0xbf)
      (byte.toNat - 0xf0)
  else none

/-- A partial character one byte later. -/
def Partial.push (character : Partial) (byte : UInt8) : Partial :=
  { character with
    taken := character.taken + 1
    missing := character.missing - 1
    low := 0x80
    high := 0xbf
    bits := character.bits * 64 + (byte.toNat - 0x80) }

/-- Decode the bytes from an offset on, after the beginning of a character. -/
def decodeFrom (offset : Nat) : Option Partial → List UInt8 → Except DecodeError (List Char)
  | none, [] => .ok []
  | some character, [] =>
    .error ⟨character.first, character.offset, character.taken, .unexpectedEnd⟩
  | none, byte :: rest =>
    if byte < 0x80 then
      return Char.ofNat byte.toNat :: (← decodeFrom (offset + 1) none rest)
    else
      match Partial.ofLead? byte offset with
      | none => .error ⟨byte, offset, 1, .invalidStart⟩
      | some character => decodeFrom (offset + 1) (some character) rest
  | some character, byte :: rest =>
    if character.low ≤ byte ∧ byte ≤ character.high then
      let longer := character.push byte
      if longer.missing = 0 then
        return Char.ofNat longer.bits :: (← decodeFrom (offset + 1) none rest)
      else decodeFrom (offset + 1) (some longer) rest
    else .error ⟨character.first, character.offset, character.taken, .invalidContinuation⟩

/-- The text that bytes stand for. -/
def decode (bytes : List UInt8) : Except DecodeError String :=
  (decodeFrom 0 none bytes).map String.ofList

end Polycalc.Text.Utf8

import Polycalc.Text.Blank

/-!
# Numerals

Numbers are read from and written in decimal digits.  Numerals that a user
types as the value of an option are read more generously: white space around
them other than information separators, a sign, single underscores between
digits and the digits of every script are allowed.
-/

namespace Polycalc.Text.Numeral

/-- The number that a run of decimal digits denotes. -/
def value (digits : String) : Nat :=
  Nat.ofDigitChars 10 digits.toList 0

/-- The zeros of the scripts that have decimal digits; the nine other digits
follow each of them. -/
def zeros : List Nat :=
  [0x30, 0x660, 0x6f0, 0x7c0, 0x966, 0x9e6, 0xa66, 0xae6, 0xb66, 0xbe6, 0xc66, 0xce6, 0xd66,
    0xde6, 0xe50, 0xed0, 0xf20, 0x1040, 0x1090, 0x17e0, 0x1810, 0x1946, 0x19d0, 0x1a80,
    0x1a90, 0x1b50, 0x1bb0, 0x1c40, 0x1c50, 0xa620, 0xa8d0, 0xa900, 0xa9d0, 0xa9f0, 0xaa50,
    0xabf0, 0xff10, 0x104a0, 0x10d30, 0x11066, 0x110f0, 0x11136, 0x111d0, 0x112f0, 0x11450,
    0x114d0, 0x11650, 0x116c0, 0x11730, 0x118e0, 0x11950, 0x11c50, 0x11d50, 0x11da0, 0x16a60,
    0x16ac0, 0x16b50, 0x1d7ce, 0x1d7d8, 0x1d7e2, 0x1d7ec, 0x1d7f6, 0x1e140, 0x1e2f0, 0x1e950,
    0x1fbf0]

/-- The value of a decimal digit of any script. -/
def digit? (c : Char) : Option Nat :=
  (zeros.find? fun base => base ≤ c.toNat && c.toNat < base + 10).map (c.toNat - ·)

/-- The values of a run of digits of any script, with single underscores
between them. -/
def digits? : List Char → Option (List Nat)
  | [] => none
  | [c] => (digit? c).map ([·])
  | c :: '_' :: rest => do return (← digit? c) :: (← digits? rest)
  | c :: rest => do return (← digit? c) :: (← digits? rest)

/-- The natural number that a run of digits of any script denotes, if there
are not too many of them. -/
def natural? (limit : Option Nat) (text : List Char) : Option Nat := do
  let digits ← digits? text
  if limit.any (· < digits.length) then none
  return digits.foldl (fun n d => 10 * n + d) 0

/-- The integer that a typed numeral denotes. -/
def integer? (limit : Option Nat) (text : String) : Option Int :=
  match trimWhile (fun c => isBlank c && !isInformationSeparator c) text.toList with
  | '-' :: rest => (natural? limit rest).map fun n => -(n : Int)
  | '+' :: rest => (natural? limit rest).map Int.ofNat
  | rest => (natural? limit rest).map Int.ofNat

end Polycalc.Text.Numeral

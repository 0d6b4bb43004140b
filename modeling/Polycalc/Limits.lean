import Polycalc.Fault
import Polycalc.Text.Numeral

/-!
# Limits

Integers are as long as memory allows, but numerals are not: only so many
digits may be read or written at once.  Calls may be nested only so deep in a
text, and only so many may be live at a time; how deep and how many depends on
the room that the machine has, so whatever meets these two limits is given them
as numbers.
-/

namespace Polycalc

/-- How long numerals and how deep nests may get; `none` means that there is
no limit. -/
structure Limits where
  /-- most digits of a numeral -/
  digits : Option Nat
  /-- most calls that may be nested in a text -/
  nesting : Option Nat
  /-- most calls that may be live during an evaluation -/
  liveCalls : Nat
  deriving DecidableEq, Repr

namespace Limits

/-- Limits of a usual machine.  The number of digits is the one in force unless
another one is set.  The two numbers behind it are an example of how much room
there may be, and no more. -/
def standard : Limits where
  digits := some 4300
  nesting := some 250
  liveCalls := 320

/-- Whether a nest of calls is not too deep. -/
def allowsNesting (limits : Limits) (depth : Nat) : Bool :=
  limits.nesting.all (depth ≤ ·)

/-- Refuse a run of digits that is too long to be read. -/
def checkDigits (limits : Limits) (digits : String) : Except Fault Unit :=
  match limits.digits with
  | none => .ok ()
  | some limit =>
    if digits.length ≤ limit then .ok ()
    else .error (.numeralTooLong limit digits.length)

/-- An integer in decimal digits, unless it has too many of them. -/
def write (limits : Limits) (value : Int) : Except Fault String :=
  match limits.digits with
  | none => .ok (toString value)
  | some limit =>
    if value.natAbs < Nat.pow 10 limit then .ok (toString value)
    else .error (.valueTooLong limit)

end Limits

end Polycalc

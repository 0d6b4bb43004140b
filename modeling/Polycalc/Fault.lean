import Polycalc.Text.Escape
import Polycalc.Text.Utf8

/-!
# Internal faults

A fault is a failure that is no error in a program: a limit of the arithmetic
was hit, something was asked of a value that it cannot give, a file held no
text.  Every fault has a kind and a message; both are shown to the user when a
fault comes up that nobody expected.
-/

namespace Polycalc

/-- Why something failed other than through an error in a program. -/
inductive Fault
  /-- a numeral of a text has more digits than may be read -/
  | numeralTooLong (limit digits : Nat)
  /-- a value has more digits than may be written -/
  | valueTooLong (limit : Nat)
  /-- something stands in an expression's place that is none -/
  | notAnExpression (shown : String)
  /-- something stands in a call's place that lacks a part of a call -/
  | notACall (kind lacking : String)
  /-- a call has an argument, and no number says how many it may have -/
  | noArgumentBound
  /-- a function was asked for by a name that has none -/
  | noFunction (name : String)
  /-- the last live call was taken off when there was none -/
  | noLiveCall
  /-- a template has a place for a snippet that is not there -/
  | missingSnippet (index : Nat)
  /-- a diagnostic was given an empty list of snippets -/
  | noSnippets
  /-- a line was to be underlined for a diagnostic that has no column -/
  | noColumn
  /-- a character was to be repeated so many times that the number has more than
  64 bits -/
  | countOutOfRange
  /-- the path of a file contains a null character -/
  | nullInPath
  /-- a file is not encoded in UTF-8 -/
  | malformedText (error : Text.Utf8.DecodeError)
  deriving DecidableEq, Repr

namespace Fault

/-- The kind of a fault, as it is shown in front of its message. -/
def kind : Fault → String
  | numeralTooLong _ _ => "ValueError"
  | valueTooLong _ => "ValueError"
  | notAnExpression _ => "TypeError"
  | notACall _ _ => "AttributeError"
  | noArgumentBound => "TypeError"
  | noFunction _ => "KeyError"
  | noLiveCall => "IndexError"
  | missingSnippet _ => "IndexError"
  | noSnippets => "IndexError"
  | noColumn => "TypeError"
  | countOutOfRange => "OverflowError"
  | nullInPath => "ValueError"
  | malformedText _ => "UnicodeDecodeError"

/-- The beginning of a message about too many digits. -/
def exceeds (limit : Nat) : String :=
  "Exceeds the limit (" ++ toString limit ++ " digits) for integer string conversion"

/-- How to have more digits. -/
def raiseLimit : String :=
  "; use sys.set_int_max_str_digits() to increase the limit"

/-- What is wrong with the bytes of a file. -/
def describeFlaw : Text.Utf8.Flaw → String
  | .invalidStart => "invalid start byte"
  | .invalidContinuation => "invalid continuation byte"
  | .unexpectedEnd => "unexpected end of data"

/-- Which bytes of a file are no text, and why. -/
def describeBytes (error : Text.Utf8.DecodeError) : String :=
  let place :=
    if error.count = 1 then
      "byte 0x" ++ Text.hex 2 error.first.toNat ++ " in position " ++ toString error.offset
    else
      "bytes in position " ++ toString error.offset ++ "-"
        ++ toString (error.offset + error.count - 1)
  "'utf-8' codec can't decode " ++ place ++ ": " ++ describeFlaw error.flaw

/-- What a fault says. -/
def message : Fault → String
  | numeralTooLong limit digits =>
    exceeds limit ++ ": value has " ++ toString digits ++ " digits" ++ raiseLimit
  | valueTooLong limit => exceeds limit ++ raiseLimit
  | notAnExpression shown => "not a deflang expression: " ++ shown
  | notACall kind lacking => "'" ++ kind ++ "' object has no attribute '" ++ lacking ++ "'"
  | noArgumentBound => "'>=' not supported between instances of 'int' and 'list'"
  | noFunction name => Text.quoted name
  | noLiveCall => "pop from empty list"
  | missingSnippet index =>
    "Replacement index " ++ toString index ++ " out of range for positional args tuple"
  | noSnippets => "list index out of range"
  | noColumn => "unsupported operand type(s) for -: 'NoneType' and 'int'"
  | countOutOfRange => "cannot fit 'int' into an index-sized integer"
  | nullInPath => "embedded null byte"
  | malformedText error => describeBytes error

end Fault

end Polycalc

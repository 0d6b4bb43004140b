import Polycalc.Text.Printable

/-!
# Escaped characters and quoted texts

An unexpected character is named by its escaped form, which is plain ASCII.
A text that a message quotes as a value stands between quotation marks, with
everything escaped that could not be shown as it is.
-/

namespace Polycalc.Text

/-- A number in hexadecimal, filled up with zeros on the left. -/
def hex (width : Nat) (n : Nat) : String :=
  String.ofList ((Nat.toDigits 16 n).leftpad width '0')

/-- The numbered escape of a character: two, four or eight hexadecimal digits,
whichever is the first to suffice. -/
def numberedEscape (c : Char) : String :=
  if c.toNat ≤ 0xff then "\\x" ++ hex 2 c.toNat
  else if c.toNat ≤ 0xffff then "\\u" ++ hex 4 c.toNat
  else "\\U" ++ hex 8 c.toNat

/-- The escape of a backslash or of a control character that has a name. -/
def namedEscape? : Char → Option String
  | '\t' => some "\\t"
  | '\n' => some "\\n"
  | '\r' => some "\\r"
  | '\\' => some "\\\\"
  | _ => none

/-- A character in ASCII. -/
def escape (c : Char) : String :=
  match namedEscape? c with
  | some escaped => escaped
  | none =>
    if 0x20 ≤ c.toNat && c.toNat < 0x7f then String.singleton c else numberedEscape c

/-- A character as it stands between two quotation marks. -/
def escapeWithin (mark : Char) (c : Char) : String :=
  if c = mark then "\\" ++ String.singleton c
  else
    match namedEscape? c with
    | some escaped => escaped
    | none => if isPrintable c then String.singleton c else numberedEscape c

/-- A text between quotation marks: single ones, unless it has single but no
double ones inside. -/
def quoted (text : String) : String :=
  let mark := if text.toList.contains '\'' && !text.toList.contains '"' then '"' else '\''
  String.singleton mark ++ String.join (text.toList.map (escapeWithin mark))
    ++ String.singleton mark

end Polycalc.Text

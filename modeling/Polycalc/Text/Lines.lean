/-!
# Lines of a text

A source text is shown line by line.  Every Unicode line boundary ends a line
of it, whereas a line that is typed into a terminal ends at a carriage return
or a line feed only.  In both, a carriage return and a line feed together end
one line, and no empty line follows the last line end.
-/

namespace Polycalc.Text

/-- Whether a character is a line boundary. -/
def isLineBreak (c : Char) : Bool :=
  let n := c.toNat
  (0x0a ≤ n && n ≤ 0x0d) || (0x1c ≤ n && n ≤ 0x1e) || n == 0x85
    || n == 0x2028 || n == 0x2029

/-- Whether a character ends a line that is typed into a terminal. -/
def isReturn (c : Char) : Bool :=
  c == '\r' || c == '\n'

/-- Put a character in front of the first line, which is begun if there is
none. -/
def consToFirst (c : Char) : List (List Char) → List (List Char)
  | [] => [[c]]
  | line :: lines => (c :: line) :: lines

/-- Split a text into lines, without their line ends. -/
def splitLines (isBreak : Char → Bool) : List Char → List (List Char)
  | [] => []
  | '\r' :: '\n' :: rest => [] :: splitLines isBreak rest
  | c :: rest =>
    if isBreak c then [] :: splitLines isBreak rest
    else consToFirst c (splitLines isBreak rest)

/-- The lines of a source text. -/
def lines (text : String) : List String :=
  (splitLines isLineBreak text.toList).map String.ofList

/-- The lines that are typed into a terminal. -/
def inputLines (text : String) : List String :=
  (splitLines isReturn text.toList).map String.ofList

end Polycalc.Text

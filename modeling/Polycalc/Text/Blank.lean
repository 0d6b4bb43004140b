/-!
# Blank characters

The characters that count as white space when the ends of a text are trimmed.
Around a line that is typed they are those that Unicode gives a bidirectional
type of white space or a separator, or the category of a space separator.
Around a numeral the four information separators do not count.
-/

namespace Polycalc.Text

/-- Whether a character is white space. -/
def isBlank (c : Char) : Bool :=
  let n := c.toNat
  (0x09 ≤ n && n ≤ 0x0d) || (0x1c ≤ n && n ≤ 0x20) || n == 0x85 || n == 0xa0
    || n == 0x1680 || (0x2000 ≤ n && n ≤ 0x200a) || n == 0x2028 || n == 0x2029
    || n == 0x202f || n == 0x205f || n == 0x3000

/-- Whether a character is one of the four information separators. -/
def isInformationSeparator (c : Char) : Bool :=
  0x1c ≤ c.toNat && c.toNat ≤ 0x1f

/-- A text without the characters of a class at its two ends. -/
def trimWhile (inClass : Char → Bool) (text : List Char) : List Char :=
  ((text.dropWhile inClass).reverse.dropWhile inClass).reverse

/-- A text without the characters of a class at its end. -/
def trimEndWhile (inClass : Char → Bool) (text : List Char) : List Char :=
  (text.reverse.dropWhile inClass).reverse

/-- A text without the white space at its two ends. -/
def trim (text : List Char) : List Char :=
  trimWhile isBlank text

end Polycalc.Text

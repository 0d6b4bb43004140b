import Polycalc.Position

/-!
# Lexemes and tokens

A lexeme is one of the indivisible pieces that a text consists of, together
with everything that its spelling leaves open: the letters of a name, the
digits of a number, the kind of line end after a semicolon.  Its spelling is
therefore a function of it.  A token is a lexeme at a position.

A single space is a lexeme of its own, because the grammar says exactly where
one has to stand.
-/

namespace Polycalc

/-- An indivisible piece of a text. -/
inductive Lexeme
  | plus
  | times
  | openParen
  | closeParen
  | openBrace
  | closeBrace
  /-- the word that begins a definition -/
  | define
  /-- the name of the entry function -/
  | entry
  /-- any other run of capital letters -/
  | function (name : String)
  /-- a run of small letters -/
  | parameter (name : String)
  /-- a run of digits, leading zeros included -/
  | number (digits : String)
  | space
  /-- a semicolon and the line end after it, which may begin with a carriage
  return -/
  | endOfStatement (carriageReturn : Bool)
  | endOfInput
  deriving DecidableEq, Repr, Inhabited

/-- The name of the function that a program evaluates to. -/
def entryName : String := "MAIN"

namespace Lexeme

/-- The lexeme that a whole run of capital letters is. -/
def ofCapitals (word : String) : Lexeme :=
  if word = "DEF" then define
  else if word = entryName then entry
  else function word

/-- The spelling of a lexeme. -/
def text : Lexeme → String
  | plus => "+"
  | times => "*"
  | openParen => "("
  | closeParen => ")"
  | openBrace => "\x7b"
  | closeBrace => "\x7d"
  | define => "DEF"
  | entry => entryName
  | function name => name
  | parameter name => name
  | number digits => digits
  | space => " "
  | endOfStatement false => ";\n"
  | endOfStatement true => ";\r\n"
  | endOfInput => ""

/-- How many characters a lexeme takes up. -/
def length (lexeme : Lexeme) : Nat :=
  lexeme.text.length

/-- How many columns are underlined when a lexeme is out of place: its visible
characters, and one column if it has none. -/
def visibleLength : Lexeme → Nat
  | space => 1
  | endOfStatement _ => 1
  | endOfInput => 1
  | lexeme => max lexeme.length 1

/-- How a message speaks of a lexeme. -/
def describe : Lexeme → String
  | space => "space"
  | endOfStatement _ => "end of statement"
  | endOfInput => "end of input"
  | lexeme => "'" ++ lexeme.text ++ "'"

/-- The position right after a lexeme: only the end of a statement begins a
new line. -/
def after (lexeme : Lexeme) (position : Position) : Position :=
  match lexeme with
  | endOfStatement _ => position.nextLine
  | lexeme => position.advance lexeme.length

end Lexeme

/-- A lexeme and the position of its first character. -/
structure Token where
  lexeme : Lexeme
  position : Position
  deriving DecidableEq, Repr, Inhabited

end Polycalc

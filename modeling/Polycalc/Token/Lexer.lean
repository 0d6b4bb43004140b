import Polycalc.Token

/-!
# Splitting a text into tokens

`Lexeme.scan` reads the one lexeme that a text begins with.  A `Cursor` is a
place in a text; `Cursor.next` reads the token there, and `Cursor.scanAll`
repeats that until the end of the text or the first character that begins no
lexeme.  A cursor that has reached either stays where it is.
-/

namespace Polycalc

/-- Why no lexeme begins at a place. -/
inductive LexError.Cause
  /-- a semicolon without a line end after it -/
  | unterminatedStatement
  /-- a character that no lexeme begins with -/
  | unexpectedCharacter (character : Char)
  deriving DecidableEq, Repr

/-- A place in a text where no lexeme begins. -/
structure LexError where
  cause : LexError.Cause
  position : Position
  deriving DecidableEq, Repr

namespace Lexeme

/-- The lexemes that are a single character and never part of a longer one. -/
def ofSymbol? : Char → Option Lexeme
  | ' ' => some space
  | '+' => some plus
  | '*' => some times
  | '(' => some openParen
  | ')' => some closeParen
  | '\x7b' => some openBrace
  | '\x7d' => some closeBrace
  | _ => none

/-- The line end that has to follow a semicolon, and the text after it. -/
def scanLineEnd? : List Char → Option (Lexeme × List Char)
  | '\n' :: rest => some (endOfStatement false, rest)
  | '\r' :: '\n' :: rest => some (endOfStatement true, rest)
  | _ => none

/-- A maximal run of characters of one kind, and the text after it. -/
def scanRun (kind : Char → Bool) (make : String → Lexeme) (text : List Char) :
    Lexeme × List Char :=
  (make (String.ofList (text.takeWhile kind)), text.dropWhile kind)

/-- The lexeme that a text begins with, and the text after it. -/
def scan : List Char → Except LexError.Cause (Lexeme × List Char)
  | [] => .ok (endOfInput, [])
  | c :: rest =>
    if c = ';' then
      match scanLineEnd? rest with
      | some scanned => .ok scanned
      | none => .error .unterminatedStatement
    else
      match ofSymbol? c with
      | some lexeme => .ok (lexeme, rest)
      | none =>
        if c.isUpper then .ok (scanRun Char.isUpper ofCapitals (c :: rest))
        else if c.isLower then .ok (scanRun Char.isLower parameter (c :: rest))
        else if c.isDigit then .ok (scanRun Char.isDigit number (c :: rest))
        else .error (.unexpectedCharacter c)

theorem length_scanLineEnd?_lt {text rest : List Char} {lexeme : Lexeme}
    (scanned : scanLineEnd? text = some (lexeme, rest)) :
    rest.length < text.length := by
  unfold scanLineEnd? at scanned
  split at scanned
  · cases scanned
    exact Nat.lt_succ_self _
  · cases scanned
    exact Nat.lt_succ_of_lt (Nat.lt_succ_self _)
  · simp at scanned

theorem length_dropWhile_lt {kind : Char → Bool} {c : Char} (holds : kind c = true)
    (rest : List Char) : ((c :: rest).dropWhile kind).length < (c :: rest).length := by
  have shorter := (List.dropWhile_sublist kind (l := rest)).length_le
  simp only [List.dropWhile_cons, holds, if_true, List.length_cons]
  omega

/-- Every scan of a text that is not empty uses up some of it. -/
theorem length_scan_lt {text rest : List Char} {lexeme : Lexeme}
    (scanned : scan text = .ok (lexeme, rest)) (nonempty : text ≠ []) :
    rest.length < text.length := by
  cases text with
  | nil => exact absurd rfl nonempty
  | cons c tail =>
      unfold scan at scanned
      simp only at scanned
      split at scanned
      · split at scanned
        · rename_i found
          cases scanned
          exact Nat.lt_succ_of_lt (length_scanLineEnd?_lt found)
        · simp at scanned
      · split at scanned
        · cases scanned
          simp
        · split at scanned
          · rename_i upper
            cases scanned
            exact length_dropWhile_lt upper tail
          · split at scanned
            · rename_i lower
              cases scanned
              exact length_dropWhile_lt lower tail
            · split at scanned
              · rename_i digit
                cases scanned
                exact length_dropWhile_lt digit tail
              · simp at scanned

end Lexeme

/-- A place in a text: what is left of it, how many characters lie before it,
and its position. -/
structure Cursor where
  rest : List Char
  offset : Nat
  position : Position
  deriving DecidableEq, Repr

namespace Cursor

/-- The cursor at the first character of a text. -/
def start (text : String) : Cursor :=
  ⟨text.toList, 0, .start⟩

/-- The token at the cursor and the cursor after it. -/
def next (cursor : Cursor) : Except LexError (Token × Cursor) :=
  match Lexeme.scan cursor.rest with
  | .error cause => .error ⟨cause, cursor.position⟩
  | .ok (lexeme, rest) =>
    .ok
      (⟨lexeme, cursor.position⟩,
        { rest
          offset := cursor.offset + lexeme.length
          position := lexeme.after cursor.position })

theorem length_rest_next_lt {cursor after : Cursor} {token : Token}
    (read : cursor.next = .ok (token, after)) (nonempty : cursor.rest ≠ []) :
    after.rest.length < cursor.rest.length := by
  unfold next at read
  split at read
  · simp at read
  · rename_i scanned
    cases read
    exact Lexeme.length_scan_lt scanned nonempty

end Cursor

/-- All tokens of a text up to its end or its first lexical error, and the
cursor there. -/
structure Scan where
  tokens : List Token
  stop : Cursor

namespace Scan

/-- What the cursor meets where the scan stopped: the end of the input, or the
reason why nothing more can be read. -/
def ending (scan : Scan) : Except LexError Token :=
  scan.stop.next.map Prod.fst

end Scan

namespace Cursor

/-- Read tokens until the end of the text or the first lexical error. -/
def scanAll (cursor : Cursor) : Scan :=
  if _ : cursor.rest = [] then ⟨[], cursor⟩
  else
    match _ : cursor.next with
    | .error _ => ⟨[], cursor⟩
    | .ok (token, after) =>
      let scan := after.scanAll
      ⟨token :: scan.tokens, scan.stop⟩
termination_by cursor.rest.length
decreasing_by exact length_rest_next_lt ‹_› ‹_›

end Cursor

/-- Every token of a text, the end of the input included. -/
def tokenize (text : String) : Except LexError (List Token) := do
  let scan := (Cursor.start text).scanAll
  let last ← scan.ending
  return scan.tokens ++ [last]

end Polycalc

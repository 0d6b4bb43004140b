import Polycalc.Position
import Polycalc.Text.Paint

/-!
# Diagnostics

A diagnostic is what a user is told about a problem: a message in which some
snippets stand out, and the place in the source text that the first snippet
comes from, if there is one.
-/

namespace Polycalc

/-- What a diagnostic is about. -/
inductive Category
  | general
  /-- the characters of a text -/
  | lexical
  /-- the grammar of a text, or its calls -/
  | parse
  /-- an evaluation -/
  | evaluation
  /-- an evaluation that would never end -/
  | divergence
  deriving DecidableEq, Repr

/-- A part of a message. -/
inductive Piece
  | plain (text : String)
  /-- a part that stands out -/
  | snippet (text : String)
  deriving DecidableEq, Repr

namespace Piece

/-- The text of a part. -/
def text : Piece → String
  | plain text => text
  | snippet text => text

/-- The text of a part, bold if it stands out. -/
def highlighted (painting : Text.Painting) : Piece → String
  | plain text => text
  | snippet text => painting.paint .bold none text

/-- The text of a part that stands out. -/
def snippet? : Piece → Option String
  | plain _ => none
  | snippet text => some text

end Piece

/-- A problem as it is reported. -/
structure Diagnostic where
  category : Category
  message : List Piece
  /-- the snippets of the problem, the offending one first -/
  snippets : List String
  line : Option Int := none
  col : Option Int := none
  /-- how many columns are underlined -/
  length : Int
  /-- whether the source line is shown -/
  diagnosed : Bool := true
  /-- whether the problem is not the user's -/
  internal : Bool := false
  deriving DecidableEq, Repr

namespace Diagnostic

/-- How many columns a snippet takes up, if it is underlined: at least one. -/
def widthOf (snippet : String) : Nat :=
  max snippet.length 1

/-- The snippets of a message; a message without any counts as having an empty
one. -/
def snippetsOf (message : List Piece) : List String :=
  match message.filterMap Piece.snippet? with
  | [] => [""]
  | snippets => snippets

/-- A diagnostic that is tied to no place and shows no source line. -/
def unplaced (category : Category) (message : List Piece) : Diagnostic where
  category
  message
  snippets := snippetsOf message
  length := widthOf ((snippetsOf message).headD "")
  diagnosed := false

/-- A diagnostic that underlines so many columns at a position. -/
def placed (category : Category) (message : List Piece) (position : Position)
    (length : Nat) : Diagnostic where
  category
  message
  snippets := snippetsOf message
  line := some position.line
  col := some position.col
  length

/-- The message of a diagnostic. -/
def text (diagnostic : Diagnostic) : String :=
  String.join (diagnostic.message.map Piece.text)

/-- The message of a diagnostic, with the snippets bold. -/
def highlighted (painting : Text.Painting) (diagnostic : Diagnostic) : String :=
  String.join (diagnostic.message.map (Piece.highlighted painting))

/-- The offending snippet. -/
def offending (diagnostic : Diagnostic) : String :=
  diagnostic.snippets.headD ""

/-- The place of a diagnostic, if both its line and its column are known. -/
def position (diagnostic : Diagnostic) : Option Position := do
  return ⟨← diagnostic.line, ← diagnostic.col⟩

end Diagnostic

end Polycalc

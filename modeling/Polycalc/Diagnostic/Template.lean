import Polycalc.Diagnostic
import Polycalc.Fault

/-!
# Message templates

A message may be given as a text in which a pair of braces marks the place of
the next snippet, and a doubled brace stands for a brace.
-/

namespace Polycalc

/-- A part of a template. -/
inductive Slot
  | literal (character : Char)
  | hole
  deriving DecidableEq, Repr

namespace Slot

/-- The parts of a template. -/
def ofTemplate : List Char → List Slot
  | [] => []
  | '\x7b' :: '\x7d' :: rest => hole :: ofTemplate rest
  | '\x7b' :: '\x7b' :: rest => literal '\x7b' :: ofTemplate rest
  | '\x7d' :: '\x7d' :: rest => literal '\x7d' :: ofTemplate rest
  | c :: rest => literal c :: ofTemplate rest

/-- Put a character in front of a message. -/
def consToMessage (c : Char) : List Piece → List Piece
  | .plain text :: rest => .plain (String.singleton c ++ text) :: rest
  | pieces => .plain (String.singleton c) :: pieces

/-- Fill the holes of a template with snippets in their order, of which
`index` were used up before.  Snippets may be left over. -/
def fill (index : Nat) : List Slot → List String → Except Fault (List Piece)
  | [], _ => .ok []
  | literal c :: slots, snippets => (fill index slots snippets).map (consToMessage c)
  | hole :: _, [] => .error (.missingSnippet index)
  | hole :: slots, snippet :: snippets =>
    (fill (index + 1) slots snippets).map (.snippet snippet :: ·)

end Slot

/-- A diagnostic before its message is filled in. -/
structure DiagnosticSpec where
  category : Category
  template : String
  snippets : List String
  line : Option Int := none
  col : Option Int := none
  /-- how many columns are underlined, if not as many as the first snippet
  has -/
  length : Option Int := none
  diagnosed : Bool := true
  internal : Bool := false

/-- Fill in a diagnostic.  There has to be a first snippet. -/
def DiagnosticSpec.build (spec : DiagnosticSpec) : Except Fault Diagnostic := do
  let message ← Slot.fill 0 (Slot.ofTemplate spec.template.toList) spec.snippets
  match spec.snippets with
  | [] => throw .noSnippets
  | first :: _ =>
    return {
      category := spec.category
      message
      snippets := spec.snippets
      line := spec.line
      col := spec.col
      length := spec.length.getD (Diagnostic.widthOf first)
      diagnosed := spec.diagnosed
      internal := spec.internal }

end Polycalc

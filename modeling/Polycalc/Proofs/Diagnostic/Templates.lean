import Polycalc.Diagnostic.Template
import Polycalc.Diagnostic.Wording
import Polycalc.Proofs.Text.Painting

/-!
# The wordings as templates

Every wording is a template filled in with its snippets.  A message is what the
template that it determines fills in to (`Slot.fill_template`), and so a diagnostic is
built from that template and the snippets (`DiagnosticSpec.build_eq`).  Beside each
cause of a failure stands the template that it is worded by.

To let the snippets of a message stand out is to fill in the same template with painted
snippets (`DiagnosticSpec.exists_highlighted`), and it changes nothing of the text
(`Diagnostic.shows_highlighted`).
-/

namespace Polycalc

open Piece (plain snippet)

/-! ## Templates of messages -/

namespace Piece

/-- How a template writes a character. -/
def escape (c : Char) : List Char :=
  if c = '\x7b' ∨ c = '\x7d' then [c, c] else [c]

/-- How a template writes a part of a message. -/
def template : Piece → List Char
  | plain text => text.toList.flatMap escape
  | snippet _ => ['\x7b', '\x7d']

/-- A part of a message with its snippet changed. -/
def mapSnippet (change : String → String) : Piece → Piece
  | plain text => plain text
  | snippet text => snippet (change text)

/-- No part of a message is the empty text, and a snippet stands between two texts. -/
def Separated : List Piece → Prop
  | [] => True
  | plain text :: rest => text ≠ "" ∧ (∀ next, plain next ∉ rest.head?) ∧ Separated rest
  | snippet _ :: rest => Separated rest

end Piece

namespace Slot

theorem ofTemplate_escape (c : Char) (rest : List Char) :
    ofTemplate (Piece.escape c ++ rest) = literal c :: ofTemplate rest := by
  unfold Piece.escape
  split
  · rename_i brace
    rcases brace with rfl | rfl
    · rfl
    · rfl
  · rename_i other
    rw [not_or] at other
    apply ofTemplate.eq_5
    · rintro _ rfl
      exact absurd rfl other.1
    · rintro _ rfl
      exact absurd rfl other.1
    · rintro _ rfl
      exact absurd rfl other.2

theorem ofTemplate_text (text rest : List Char) :
    ofTemplate (text.flatMap Piece.escape ++ rest) = text.map literal ++ ofTemplate rest := by
  induction text with
  | nil => rfl
  | cons c text ih =>
      rw [List.flatMap_cons, List.append_assoc, ofTemplate_escape, ih]
      rfl

theorem fill_text {index : Nat} {slots : List Slot} {snippets : List String}
    {message : List Piece} (filled : fill index slots snippets = .ok message)
    (text : List Char) :
    fill index (text.map literal ++ slots) snippets =
      .ok (text.foldr consToMessage message) := by
  induction text with
  | nil => exact filled
  | cons c text ih =>
      rw [List.map_cons, List.cons_append, fill, ih]
      rfl

/-- The characters up to a snippet or the end become one text. -/
theorem foldr_consToMessage {message : List Piece}
    (apart : ∀ next, plain next ∉ message.head?) (c : Char) (text : List Char) :
    (c :: text).foldr consToMessage message = plain (String.ofList (c :: text)) :: message := by
  induction text generalizing c with
  | nil =>
      rw [List.foldr_cons, List.foldr_nil]
      match message with
      | [] => rfl
      | plain next :: _ => exact absurd rfl (apart next)
      | snippet _ :: _ => rfl
  | cons next text ih =>
      rw [List.foldr_cons, ih, consToMessage, ← String.ofList_cons]

/-- The template of a message fills in to the message, whatever snippets are left
over. -/
theorem fill_template {message : List Piece} (separated : Piece.Separated message)
    (index : Nat) (spare : List String) :
    fill index (ofTemplate (message.flatMap Piece.template))
      (message.filterMap Piece.snippet? ++ spare) = .ok message := by
  induction message generalizing index with
  | nil => rfl
  | cons piece rest ih =>
      cases piece with
      | plain text =>
          rcases separated with ⟨nonempty, apart, separated⟩
          rw [List.flatMap_cons, Piece.template, ofTemplate_text]
          apply (fill_text (ih separated index) text.toList).trans
          cases characters : text.toList with
          | nil => exact absurd (String.toList_eq_nil_iff.mp characters) nonempty
          | cons c tail => rw [foldr_consToMessage apart, ← characters, String.ofList_toList]
      | snippet text =>
          have filled := ih separated (index + 1)
          change (fill (index + 1) (ofTemplate (rest.flatMap Piece.template))
            (rest.filterMap Piece.snippet? ++ spare)).map (snippet text :: ·) = _
          rw [filled]
          rfl

end Slot

/-- The snippets of a message fill the holes of its template; behind them stands at
most the empty snippet of a message without any. -/
theorem Diagnostic.exists_spare (message : List Piece) :
    ∃ spare, snippetsOf message = message.filterMap Piece.snippet? ++ spare := by
  unfold snippetsOf
  split
  · rename_i none
    exact ⟨[""], by rw [none]; rfl⟩
  · exact ⟨[], (List.append_nil _).symm⟩

theorem Diagnostic.snippetsOf_ne_nil (message : List Piece) : snippetsOf message ≠ [] := by
  unfold snippetsOf
  split
  · exact List.cons_ne_nil _ _
  · assumption

namespace DiagnosticSpec

/-- A diagnostic that is described by the template and the snippets of a message has
this message. -/
theorem build_eq {spec : DiagnosticSpec} {message : List Piece}
    (template : spec.template = String.ofList (message.flatMap Piece.template))
    (snippets : spec.snippets = Diagnostic.snippetsOf message)
    (separated : Piece.Separated message) :
    spec.build = .ok {
      category := spec.category
      message
      snippets := Diagnostic.snippetsOf message
      line := spec.line
      col := spec.col
      length := spec.length.getD (Diagnostic.widthOf ((Diagnostic.snippetsOf message).headD ""))
      diagnosed := spec.diagnosed
      internal := spec.internal } := by
  rcases Diagnostic.exists_spare message with ⟨spare, listed⟩
  have filled := Slot.fill_template separated 0 spare
  rw [← listed] at filled
  unfold build
  rw [template, String.toList_ofList, snippets, filled]
  cases listed' : Diagnostic.snippetsOf message with
  | nil => exact absurd listed' (Diagnostic.snippetsOf_ne_nil message)
  | cons first rest => rfl

end DiagnosticSpec

/-! ## Messages whose snippets stand out -/

theorem Slot.consToMessage_map (change : String → String) (c : Char) (message : List Piece) :
    consToMessage c (message.map (Piece.mapSnippet change)) =
      (consToMessage c message).map (Piece.mapSnippet change) := by
  rcases message with _ | ⟨_ | _, _⟩
  all_goals rfl

/-- Snippets that are changed are filled in where they were before. -/
theorem Slot.fill_map (change : String → String) (index : Nat) (slots : List Slot)
    (snippets : List String) :
    fill index slots (snippets.map change) =
      (fill index slots snippets).map (List.map (Piece.mapSnippet change)) := by
  fun_induction fill index slots snippets with
  | case1 => rfl
  | case2 index c slots snippets ih =>
      rw [fill, ih]
      cases fill index slots snippets with
      | error fault => rfl
      | ok message => exact congrArg Except.ok (consToMessage_map change c message)
  | case3 => rfl
  | case4 index slots snippet snippets ih =>
      rw [List.map_cons, fill, ih]
      cases fill (index + 1) slots snippets with
      | error fault => rfl
      | ok message => rfl

theorem Piece.text_mapSnippet (painting : Text.Painting) (piece : Piece) :
    (piece.mapSnippet (painting.paint .bold none)).text = piece.highlighted painting := by
  cases piece
  all_goals rfl

/-- The message of a diagnostic that is built is the template with the snippets. -/
theorem DiagnosticSpec.fill_of_build {spec : DiagnosticSpec} {diagnostic : Diagnostic}
    (built : spec.build = .ok diagnostic) :
    Slot.fill 0 (Slot.ofTemplate spec.template.toList) spec.snippets =
      .ok diagnostic.message := by
  unfold build at built
  cases filled : Slot.fill 0 (Slot.ofTemplate spec.template.toList) spec.snippets with
  | error fault =>
      rw [filled] at built
      cases built
  | ok message =>
      rw [filled] at built
      cases snippets : spec.snippets with
      | nil =>
          rw [snippets] at built
          cases built
      | cons first rest =>
          rw [snippets] at built
          cases built
          rfl

/-- The text of a message whose snippets stand out is that of the template with the
painted snippets. -/
theorem DiagnosticSpec.exists_highlighted {spec : DiagnosticSpec} {diagnostic : Diagnostic}
    (built : spec.build = .ok diagnostic) (painting : Text.Painting) :
    ∃ painted,
      Slot.fill 0 (Slot.ofTemplate spec.template.toList)
        (spec.snippets.map (painting.paint .bold none)) = .ok painted ∧
      String.join (painted.map Piece.text) = diagnostic.highlighted painting := by
  refine ⟨_, by rw [Slot.fill_map, fill_of_build built]; rfl, ?_⟩
  rw [List.map_map, Diagnostic.highlighted]
  exact congrArg String.join (List.map_congr_left fun piece _ => piece.text_mapSnippet painting)

/-- What stands out can be seen as it is. -/
theorem Diagnostic.shows_highlighted {diagnostic : Diagnostic}
    (ordinary : '\x1b' ∉ diagnostic.text.toList) (painting : Text.Painting) :
    Text.Shows (diagnostic.highlighted painting) diagnostic.text := by
  unfold highlighted text at *
  generalize diagnostic.message = message at *
  induction message with
  | nil => exact .of_ordinary ordinary
  | cons piece message ih =>
      rw [List.map_cons, String.join_cons, String.toList_append, List.mem_append,
        not_or] at ordinary
      rw [List.map_cons, List.map_cons, String.join_cons, String.join_cons]
      apply Text.Shows.append _ (ih ordinary.2)
      cases piece with
      | plain text => exact .of_ordinary ordinary.1
      | snippet text => exact (Text.Shows.of_ordinary ordinary.1).paint painting .bold none

/-! ## The template of each wording

A column count is given only where something else than the first snippet is underlined. -/

/-- The wording of a character that begins no lexeme. -/
def LexError.spec (error : LexError) : DiagnosticSpec :=
  match error.cause with
  | .unterminatedStatement =>
      { category := .lexical
        template := "'\x7b\x7d' must be followed by a newline"
        snippets := [";"]
        line := error.position.line
        col := error.position.col }
  | .unexpectedCharacter c =>
      { category := .lexical
        template := "unexpected character '\x7b\x7d'"
        snippets := [Text.escape c]
        line := error.position.line
        col := error.position.col
        length := some 1 }

/-- What is said about a character is built from its template. -/
theorem LexError.build_spec (error : LexError) : error.spec.build = .ok error.diagnostic := by
  rcases error with ⟨cause, position⟩
  cases cause
  all_goals exact DiagnosticSpec.build_eq rfl rfl (by simp [Piece.Separated])

/-- The wording of a call of a function that is not defined. -/
def unknownFunctionSpec (category : Category) (text : String) (position : Position) :
    DiagnosticSpec where
  category
  template := "call to non-existent function '\x7b\x7d'"
  snippets := [text]
  line := position.line
  col := position.col

/-- The wording of a token that does not fit or a call that is bad. -/
def ParseError.spec : ParseError → DiagnosticSpec
  | unexpected expected found =>
      { category := .parse
        template := "expected \x7b\x7d, got \x7b\x7d"
        snippets := [expected.describe, found.lexeme.describe]
        line := found.position.line
        col := found.position.col
        length := some found.lexeme.visibleLength }
  | unknownParameter name position =>
      { category := .parse
        template := "unknown parameter '\x7b\x7d'"
        snippets := [name]
        line := position.line
        col := position.col }
  | tooManyArguments callee allowed found =>
      { category := .parse
        template := "too many parameters in call to '\x7b\x7d' (at most \x7b\x7d allowed)"
        snippets := [callee, toString allowed]
        line := found.position.line
        col := found.position.col
        length := some (max found.lexeme.length 1 : Nat) }
  | entryParameter found =>
      { category := .parse
        template := "'\x7b\x7d' takes no parameters"
        snippets := [entryName]
        line := found.position.line
        col := found.position.col
        length := some found.lexeme.length }
  | nestedTooDeeply =>
      { category := .parse
        template := "program nested too deeply"
        snippets := [""]
        diagnosed := false }
  | noEntry =>
      { category := .parse
        template := "no entry function: '\x7b\x7d' is not defined"
        snippets := [entryName]
        diagnosed := false }
  | unknownFunction reference text => unknownFunctionSpec .parse text reference.position
  | wrongArity call text target =>
      { category := .parse
        template :=
          "call to non-existent function '\x7b\x7d': '\x7b\x7d' takes \x7b\x7d argument(s)"
        snippets := [text, target.name, toString target.arity]
        line := call.position.line
        col := call.position.col }

/-- What is said about a token or a call is built from its template. -/
theorem ParseError.build_spec (error : ParseError) :
    error.spec.build = .ok error.diagnostic := by
  cases error
  all_goals
    exact DiagnosticSpec.build_eq rfl rfl (by simp [Piece.Separated, unknownFunctionMessage])

/-- The wording of an evaluation that fails. -/
def EvalError.spec : EvalError → DiagnosticSpec
  | unboundParameter name position =>
      { category := .evaluation
        template := "unbound parameter '\x7b\x7d'"
        snippets := [name]
        line := position.line
        col := position.col }
  | unknownFunction call text => unknownFunctionSpec .evaluation text call.position
  | wrongArgumentCount name expected found =>
      { category := .evaluation
        template :=
          "incorrect number of arguments for '\x7b\x7d': expected \x7b\x7d, got \x7b\x7d"
        snippets := [name, toString expected, toString found]
        diagnosed := false }
  | tooManyLiveCalls =>
      { category := .evaluation
        template := "maximum recursion depth exceeded"
        snippets := [""]
        diagnosed := false }
  | diverges call text =>
      { category := .divergence
        template :=
          "'\x7b\x7d' calls itself again before returning: the program never terminates"
        snippets := [text]
        line := call.position.line
        col := call.position.col
        length := some call.name.length }

/-- What is said about an evaluation is built from its template. -/
theorem EvalError.build_spec (error : EvalError) : error.spec.build = .ok error.diagnostic := by
  cases error
  all_goals
    exact DiagnosticSpec.build_eq rfl rfl (by simp [Piece.Separated, unknownFunctionMessage])

namespace Diagnostic

theorem build_notOpened (path : String) :
    DiagnosticSpec.build {
      category := .general
      template := "'\x7b\x7d' could not be opened"
      snippets := [path]
      diagnosed := false } = .ok (notOpened path) :=
  DiagnosticSpec.build_eq rfl rfl (by simp [Piece.Separated])

theorem build_notDefined (name : String) :
    DiagnosticSpec.build {
      category := .general
      template := "'\x7b\x7d' is not defined"
      snippets := [name]
      diagnosed := false } = .ok (notDefined name) :=
  DiagnosticSpec.build_eq rfl rfl (by simp [Piece.Separated])

/-- The name of the definition stands behind the first keyword of its line. -/
theorem build_redefined (definition : Definition) :
    DiagnosticSpec.build {
      category := .general
      template := "'\x7b\x7d' is defined more than once, only the last definition is used"
      snippets := [definition.name]
      line := definition.line
      col := some 5 } = .ok (redefined definition) :=
  DiagnosticSpec.build_eq rfl rfl (by simp [Piece.Separated])

theorem build_interrupted :
    DiagnosticSpec.build {
      category := .general
      template := "keyboard interrupt"
      snippets := [""]
      diagnosed := false } = .ok interrupted :=
  DiagnosticSpec.build_eq rfl rfl (by simp [Piece.Separated])

theorem build_unknownError (kind message : String) :
    DiagnosticSpec.build {
      category := .general
      template := "unknown error: '\x7b\x7d: \x7b\x7d'"
      snippets := [kind, message]
      internal := true } = .ok (unknownError kind message) :=
  DiagnosticSpec.build_eq rfl rfl (by simp [Piece.Separated])

end Diagnostic

end Polycalc

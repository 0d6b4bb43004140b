import Polycalc.Proofs.Grammar.Spelling

/-!
# Programs that were read are grammatical

A reader of programs holds the beginning of a definition together with its text
(`Phase.Spells`), and a path to the end of a text makes the text a program of
the grammar (`ProgramReader.Path.isProgram`), none of whose bodies is nested too
deeply (`ProgramReader.Path.shallow`).
-/

namespace Polycalc

open Grammar

/-- A heading that the grammar allows. -/
structure Heading.Formed (heading : Heading) : Prop where
  named : IsFunctionName heading.name
  words : ∀ parameter ∈ heading.parameters, IsParameterName parameter
  entry : heading.name = entryName → heading.parameters = []

/-- The text of a definition up to its parameters. -/
def Heading.text (heading : Heading) : List Char :=
  "DEF ".toList ++ headingText heading.name heading.parameters

/-- The text that has been read of a definition. -/
inductive Phase.Spells (bounds : Bounds) : Phase → List Char → Prop
  | start : Spells bounds .start []
  | define : Spells bounds .define "DEF".toList
  | name : Spells bounds .name "DEF ".toList
  | word {heading : Heading} (formed : heading.Formed) :
      Spells bounds (.word heading) heading.text
  | parameters {heading : Heading} (formed : heading.Formed) :
      Spells bounds (.parameters heading) (heading.text ++ [' '])
  | brace {heading : Heading} (formed : heading.Formed) :
      Spells bounds (.brace heading) (heading.text ++ " \x7b".toList)
  | body {heading : Heading} {reader : ExprReader} {text : List Char} (formed : heading.Formed)
      (spells : reader.Spells bounds heading.parameters text) :
      Spells bounds (.body heading reader) (heading.text ++ " \x7b ".toList ++ text)
  | bodyEnd {heading : Heading} {body : Expr} {text : List Char} (formed : heading.Formed)
      (isSum : IsSum bounds heading.parameters text body) :
      Spells bounds (.bodyEnd heading body) (heading.text ++ " \x7b ".toList ++ text ++ [' '])
  | closed {heading : Heading} {body : Expr} {text : List Char} (formed : heading.Formed)
      (isSum : IsSum bounds heading.parameters text body) :
      Spells bounds (.closed heading body)
        (heading.text ++ " \x7b ".toList ++ text ++ " \x7d".toList)
  | statementEnd {heading : Heading} {body : Expr} {text : List Char} (formed : heading.Formed)
      (isSum : IsSum bounds heading.parameters text body) :
      Spells bounds (.statementEnd heading body)
        (heading.text ++ " \x7b ".toList ++ text ++ " \x7d ".toList)

variable {settings : Settings} {bounds : Bounds}

theorem Heading.text_parameter (heading : Heading) (name : String) :
    text ⟨heading.name, heading.parameters ++ [name]⟩ =
      heading.text ++ [' '] ++ name.toList := by
  simp [text, headingText]

theorem Heading.Formed.parameter {heading : Heading} (formed : heading.Formed) {name : String}
    (word : IsParameterName name) (ordinary : heading.name ≠ entryName) :
    Heading.Formed ⟨heading.name, heading.parameters ++ [name]⟩ where
  named := formed.named
  words := by
    rw [List.forall_mem_append, List.forall_mem_singleton]
    exact ⟨formed.words, word⟩
  entry := fun entry => absurd entry ordinary

theorem Heading.Formed.isDefinition {heading : Heading} (formed : heading.Formed)
    {text lineEnd : List Char} {body : Expr} {line : Int}
    (isSum : IsSum bounds heading.parameters text body)
    (ended : lineEnd = ['\n'] ∨ lineEnd = ['\r', '\n']) :
    IsDefinition bounds
      (heading.text ++ " \x7b ".toList ++ text ++ " \x7d ".toList ++ ';' :: lineEnd)
      ⟨heading.name, heading.parameters, body, line⟩ := by
  have spelled : heading.text ++ " \x7b ".toList ++ text ++ " \x7d ".toList ++ ';' :: lineEnd =
      "DEF ".toList ++ headingText heading.name heading.parameters ++ " \x7b ".toList ++ text ++
        " \x7d ;".toList ++ lineEnd := by
    simp [Heading.text]
  rw [spelled]
  exact .intro formed.named formed.words formed.entry isSum ended

/-- An expression that is finished is a sum. -/
theorem ExprReader.Spells.finished {scope : List String} {reader : ExprReader}
    {text : List Char} {next : Lexeme} {expr : Expr}
    (spells : reader.Spells bounds scope text) (finished : reader.finished? next = some expr) :
    IsSum bounds scope text expr := by
  rcases exists_of_finished?_eq_some finished with ⟨pending, operand, calls, rfl, rfl⟩
  cases spells with
  | continuation enclosing waits isAtom =>
      cases enclosing with
      | nil => exact waits.isSum_closeSum isAtom

namespace Phase.Spells

variable {reader reader' : ProgramReader} {token : Token} {text : List Char}

theorem of_eq {phase : Phase} {other : List Char} (spells : phase.Spells bounds other)
    (same : text = other) : phase.Spells bounds text :=
  same ▸ spells

/-- A token takes the text of a definition along or completes it. -/
theorem step (imposes : settings.Imposes bounds) (spells : reader.phase.Spells bounds text)
    (formed : token.lexeme.Formed) (short : token.checkDigits settings.limits = .ok ())
    (reads : ProgramReader.Reads settings reader token reader') :
    (reader.completed token = [] ∧
        reader'.phase.Spells bounds (text ++ token.lexeme.text.toList)) ∨
      ∃ definition, reader.completed token = [definition] ∧
        IsDefinition bounds (text ++ token.lexeme.text.toList) definition ∧
        reader'.phase.Spells bounds [] := by
  cases reads with
  | define =>
      left
      cases spells
      exact ⟨rfl, Spells.define.of_eq (by simp [Lexeme.text])⟩
  | defineSpace =>
      left
      cases spells
      exact ⟨rfl, Spells.name.of_eq (by simp [Lexeme.text])⟩
  | name names =>
      left
      cases spells
      rcases formed.callee names with ⟨named, spelled⟩
      have heading : Heading.Formed ⟨_, []⟩ := ⟨named, by simp, fun _ => rfl⟩
      refine ⟨rfl, (Spells.word heading).of_eq ?_⟩
      simp [spelled, Heading.text, headingText]
  | wordSpace =>
      left
      cases spells with
      | word heading => exact ⟨rfl, (Spells.parameters heading).of_eq (by simp [Lexeme.text])⟩
  | parameter ordinary =>
      left
      cases spells with
      | parameters heading =>
          refine ⟨rfl, (Spells.word (heading.parameter formed ordinary)).of_eq ?_⟩
          exact (Heading.text_parameter _ _).symm
  | openBrace =>
      left
      cases spells with
      | parameters heading =>
          exact ⟨rfl, (Spells.brace heading).of_eq (by simp [Lexeme.text])⟩
  | braceSpace =>
      left
      cases spells with
      | brace heading =>
          exact ⟨rfl, (Spells.body heading (.start _)).of_eq (by simp [Lexeme.text])⟩
  | body _ reads =>
      left
      cases spells with
      | body heading spells =>
          refine ⟨rfl, (Spells.body heading (spells.step imposes formed short reads)).of_eq ?_⟩
          rw [List.append_assoc _ _ (String.toList _)]
  | bodySpace finished =>
      left
      cases spells with
      | body heading spells =>
          exact ⟨rfl, (Spells.bodyEnd heading (spells.finished finished)).of_eq
            (by simp [Lexeme.text])⟩
  | closeBrace =>
      left
      cases spells with
      | bodyEnd heading isSum =>
          exact ⟨rfl, (Spells.closed heading isSum).of_eq (by simp [Lexeme.text])⟩
  | closedSpace =>
      left
      cases spells with
      | closed heading isSum =>
          exact ⟨rfl, (Spells.statementEnd heading isSum).of_eq (by simp [Lexeme.text])⟩
  | @endOfStatement program count heading body carriageReturn position =>
      right
      cases spells with
      | @statementEnd _ _ text heading isSum =>
          refine ⟨_, rfl, ?_, .start⟩
          cases carriageReturn with
          | false =>
              have ended : (Lexeme.endOfStatement false).text.toList = [';', '\n'] := by
                simp [Lexeme.text]
              rw [ended]
              exact heading.isDefinition isSum (Or.inl rfl)
          | true =>
              have ended : (Lexeme.endOfStatement true).text.toList = [';', '\r', '\n'] := by
                simp [Lexeme.text]
              rw [ended]
              exact heading.isDefinition isSum (Or.inr rfl)

end Phase.Spells

/-! ## Nesting -/

/-- Nothing that has been read of a definition is nested too deeply. -/
def Phase.Shallow (limits : Limits) : Phase → Prop
  | .body _ reader => reader.Shallow limits
  | .bodyEnd _ expr | .closed _ expr | .statementEnd _ expr =>
    limits.allowsNesting expr.nesting = true
  | _ => True

theorem ExprReader.Shallow.finished {limits : Limits} {reader : ExprReader} {next : Lexeme}
    {expr : Expr} (shallow : reader.Shallow limits)
    (finished : reader.finished? next = some expr) :
    limits.allowsNesting expr.nesting = true := by
  rcases exists_of_finished?_eq_some finished with ⟨pending, operand, calls, rfl, rfl⟩
  have allowed := shallow.allowsAt_closeSum
  rwa [Limits.AllowsAt, List.length_nil, Nat.zero_add] at allowed

theorem Phase.Shallow.step {reader reader' : ProgramReader} {token : Token}
    (shallow : reader.phase.Shallow settings.limits)
    (reads : ProgramReader.Reads settings reader token reader') :
    reader'.phase.Shallow settings.limits ∧
      ∀ definition ∈ reader.completed token,
        settings.limits.allowsNesting definition.body.nesting = true := by
  cases reads with
  | braceSpace => exact ⟨.start _, by simp [ProgramReader.completed]⟩
  | body _ reads => exact ⟨ExprReader.Shallow.step shallow reads, by simp [ProgramReader.completed]⟩
  | bodySpace finished =>
      exact ⟨ExprReader.Shallow.finished shallow finished, by simp [ProgramReader.completed]⟩
  | closeBrace => exact ⟨shallow, by simp [ProgramReader.completed]⟩
  | closedSpace => exact ⟨shallow, by simp [ProgramReader.completed]⟩
  | endOfStatement =>
      constructor
      · trivial
      · rw [ProgramReader.completed, List.forall_mem_singleton]
        exact shallow
  | _ => exact ⟨trivial, by simp [ProgramReader.completed]⟩

/-! ## Paths -/

theorem Cursor.next_sound {cursor after : Cursor} {token : Token}
    (next : cursor.next = .ok (token, after)) :
    token.lexeme.Formed ∧ cursor.rest = token.lexeme.text.toList ++ after.rest :=
  Lexeme.scan_sound (scan_of_next next)

theorem Cursor.endsAt_of_next {cursor after : Cursor} {token : Token}
    (next : cursor.next = .ok (token, after)) : token.lexeme.EndsAt after.rest :=
  Lexeme.endsAt_of_scan (scan_of_next next)

/-- Before the end of a text every lexeme has characters. -/
theorem Cursor.length_pos_of_next {cursor after : Cursor} {token : Token}
    (next : cursor.next = .ok (token, after)) (more : cursor.rest ≠ []) :
    0 < token.lexeme.length := by
  have shorter := length_rest_next_lt next more
  rw [(next_sound next).2, List.length_append, String.length_toList] at shorter
  exact Nat.lt_of_add_lt_add_right (by rwa [Nat.zero_add])

namespace ProgramReader

variable {cursor final : Cursor} {reader last : ProgramReader} {definitions : List Definition}

/-- What is left of a text on a path to its end completes the definition that
was begun, and the rest are definitions. -/
theorem Path.isProgram (imposes : settings.Imposes bounds)
    (path : Path settings cursor reader definitions final last) (atEnd : final.rest = [])
    (complete : last.phase = .start) {text : List Char}
    (spells : reader.phase.Spells bounds text) :
    IsProgram bounds (text ++ cursor.rest) definitions := by
  induction path generalizing text with
  | refl =>
      rw [complete] at spells
      cases spells
      rw [atEnd]
      exact isProgram_nil bounds
  | step _ next short reads _ ih =>
      rcases Cursor.next_sound next with ⟨formed, here⟩
      rw [here, ← List.append_assoc]
      rcases spells.step imposes formed short reads with
        ⟨goesOn, spells'⟩ | ⟨definition, completes, isDefinition, spells'⟩
      · rw [goesOn]
        exact ih atEnd complete spells'
      · rw [completes]
        exact .cons isDefinition (ih atEnd complete spells')

theorem Path.shallow (path : Path settings cursor reader definitions final last)
    (shallow : reader.phase.Shallow settings.limits) :
    ∀ definition ∈ definitions,
      settings.limits.allowsNesting definition.body.nesting = true := by
  induction path with
  | refl => simp
  | step _ _ _ reads _ ih =>
      rcases shallow.step reads with ⟨shallow', completes⟩
      rw [List.forall_mem_append]
      exact ⟨completes, ih shallow'⟩

end ProgramReader

end Polycalc

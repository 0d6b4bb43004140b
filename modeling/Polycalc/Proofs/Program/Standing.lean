import Polycalc.Proofs.Expr.Spans

/-!
# Where definitions stand

A text that is read consists of the definitions that are completed, one behind the
other, and in each of them the body stands behind the opening brace
(`ProgramReader.Path.definitionsStand`).  Hence the calls of a whole text close in the
order in which they are registered (`DefinitionsStand.closeInOrder`), and every part of
every body occupies a piece of the text (`DefinitionsStand.exists_span`).
-/

namespace Polycalc

/-- The text at the place is that of a definition, the end of the line included, whose
body stands in it. -/
inductive Definition.Stands (place : Position) : List Char → Definition → Prop
  | intro {heading : Heading} {text lineEnd : List Char} {body : Expr} {line : Int}
      (formed : heading.Formed)
      (stands : body.Stands (place.past (heading.text ++ " \x7b ".toList)) text)
      (ended : lineEnd = ['\n'] ∨ lineEnd = ['\r', '\n']) :
      Stands place (heading.text ++ " \x7b ".toList ++ text ++ " \x7d ;".toList ++ lineEnd)
        ⟨heading.name, heading.parameters, body, line⟩

/-- The text at the place consists of the definitions. -/
inductive DefinitionsStand : Position → List Char → List Definition → Prop
  | nil {place : Position} : DefinitionsStand place [] []
  | cons {place : Position} {first rest : List Char} {definition : Definition}
      {definitions : List Definition} (stands : definition.Stands place first)
      (others : DefinitionsStand (place.past first) rest definitions) :
      DefinitionsStand place (first ++ rest) (definition :: definitions)

/-- The text that has been read of a definition. -/
inductive Phase.Stands (place : Position) : List Char → Phase → Prop
  | start : Stands place [] .start
  | define : Stands place "DEF".toList .define
  | name : Stands place "DEF ".toList .name
  | word {heading : Heading} (formed : heading.Formed) :
      Stands place heading.text (.word heading)
  | parameters {heading : Heading} (formed : heading.Formed) :
      Stands place (heading.text ++ [' ']) (.parameters heading)
  | brace {heading : Heading} (formed : heading.Formed) :
      Stands place (heading.text ++ " \x7b".toList) (.brace heading)
  | body {heading : Heading} {reader : ExprReader} {text : List Char} (formed : heading.Formed)
      (stands : reader.Stands (place.past (heading.text ++ " \x7b ".toList)) text) :
      Stands place (heading.text ++ " \x7b ".toList ++ text) (.body heading reader)
  | bodyEnd {heading : Heading} {body : Expr} {text : List Char} (formed : heading.Formed)
      (stands : body.Stands (place.past (heading.text ++ " \x7b ".toList)) text) :
      Stands place (heading.text ++ " \x7b ".toList ++ text ++ [' ']) (.bodyEnd heading body)
  | closed {heading : Heading} {body : Expr} {text : List Char} (formed : heading.Formed)
      (stands : body.Stands (place.past (heading.text ++ " \x7b ".toList)) text) :
      Stands place (heading.text ++ " \x7b ".toList ++ text ++ " \x7d".toList)
        (.closed heading body)
  | statementEnd {heading : Heading} {body : Expr} {text : List Char} (formed : heading.Formed)
      (stands : body.Stands (place.past (heading.text ++ " \x7b ".toList)) text) :
      Stands place (heading.text ++ " \x7b ".toList ++ text ++ " \x7d ".toList)
        (.statementEnd heading body)

variable {settings : Settings} {place : Position} {text : List Char}

/-! ## Reading -/

namespace Phase.Stands

variable {reader reader' : ProgramReader} {token : Token}

theorem of_eq {phase : Phase} {other : List Char} (stands : phase.Stands place other)
    (same : text = other) : phase.Stands place text :=
  same ▸ stands

/-- A token that stands behind the text takes it along or completes a definition. -/
theorem step (stands : reader.phase.Stands place text) (formed : token.lexeme.Formed)
    (here : token.position = place.past text)
    (reads : ProgramReader.Reads settings reader token reader') :
    (reader.completed token = [] ∧
        reader'.phase.Stands place (text ++ token.lexeme.text.toList)) ∨
      ∃ definition, reader.completed token = [definition] ∧
        definition.Stands place (text ++ token.lexeme.text.toList) ∧
        reader'.phase = .start := by
  cases reads with
  | define =>
      left
      cases stands
      exact ⟨rfl, Stands.define.of_eq (by simp [Lexeme.text])⟩
  | defineSpace =>
      left
      cases stands
      exact ⟨rfl, Stands.name.of_eq (by simp [Lexeme.text])⟩
  | name names =>
      left
      cases stands
      rcases formed.callee names with ⟨named, spelled⟩
      have heading : Heading.Formed ⟨_, []⟩ := ⟨named, by simp, fun _ => rfl⟩
      refine ⟨rfl, (Stands.word heading).of_eq ?_⟩
      simp [spelled, Heading.text, Grammar.headingText]
  | wordSpace =>
      left
      cases stands with
      | word heading => exact ⟨rfl, (Stands.parameters heading).of_eq (by simp [Lexeme.text])⟩
  | parameter ordinary =>
      left
      cases stands with
      | parameters heading =>
          refine ⟨rfl, (Stands.word (heading.parameter formed ordinary)).of_eq ?_⟩
          exact (Heading.text_parameter _ _).symm
  | openBrace =>
      left
      cases stands with
      | parameters heading => exact ⟨rfl, (Stands.brace heading).of_eq (by simp [Lexeme.text])⟩
  | braceSpace =>
      left
      cases stands with
      | brace heading =>
          exact ⟨rfl, (Stands.body heading (.start _ _)).of_eq (by simp [Lexeme.text])⟩
  | body _ reads =>
      left
      cases stands with
      | body heading stands =>
          rw [Position.past_append] at here
          refine ⟨rfl, (Stands.body heading (stands.step formed here reads)).of_eq ?_⟩
          rw [List.append_assoc _ _ (String.toList _)]
  | bodySpace finished =>
      left
      cases stands with
      | body heading stands =>
          exact ⟨rfl, (Stands.bodyEnd heading (stands.finished finished)).of_eq
            (by simp [Lexeme.text])⟩
  | closeBrace =>
      left
      cases stands with
      | bodyEnd heading stands =>
          exact ⟨rfl, (Stands.closed heading stands).of_eq (by simp [Lexeme.text])⟩
  | closedSpace =>
      left
      cases stands with
      | closed heading stands =>
          exact ⟨rfl, (Stands.statementEnd heading stands).of_eq (by simp [Lexeme.text])⟩
  | @endOfStatement program count heading body carriageReturn position =>
      right
      cases stands with
      | @statementEnd _ _ text heading stands =>
          obtain ⟨lineEnd, spelled, ended⟩ : ∃ lineEnd,
              (Lexeme.endOfStatement carriageReturn).text.toList = ';' :: lineEnd ∧
                (lineEnd = ['\n'] ∨ lineEnd = ['\r', '\n']) := by
            cases carriageReturn with
            | false => exact ⟨['\n'], by simp [Lexeme.text], Or.inl rfl⟩
            | true => exact ⟨['\r', '\n'], by simp [Lexeme.text], Or.inr rfl⟩
          have regrouped : ∀ front : List Char,
              front ++ text ++ " \x7d ".toList ++ ';' :: lineEnd =
                front ++ text ++ " \x7d ;".toList ++ lineEnd := by
            simp
          refine ⟨_, rfl, ?_, rfl⟩
          rw [spelled, regrouped]
          exact .intro heading stands ended

end Phase.Stands

/-- A token leads a cursor behind its text. -/
theorem Cursor.position_next_eq_past {cursor after : Cursor} {token : Token}
    (next : cursor.next = .ok (token, after)) :
    after.position = cursor.position.past token.lexeme.text.toList := by
  rw [position_next next, Lexeme.after_eq_past (next_sound next).1]

/-- What is left of a text on a path to its end completes the definition that was begun
at a place, and the rest are definitions. -/
theorem ProgramReader.Path.definitionsStand {cursor final : Cursor}
    {reader last : ProgramReader} {definitions : List Definition}
    (path : Path settings cursor reader definitions final last) (atEnd : final.rest = [])
    (complete : last.phase = .start) (stands : reader.phase.Stands place text)
    (here : cursor.position = place.past text) :
    DefinitionsStand place (text ++ cursor.rest) definitions := by
  induction path generalizing place text with
  | refl =>
      rw [complete] at stands
      cases stands
      rw [atEnd]
      exact .nil
  | @step cursor after _ _ reader' _ token _ _ next _ reads _ ih =>
      rcases Cursor.next_sound next with ⟨formed, split⟩
      have behind : after.position = place.past (text ++ token.lexeme.text.toList) := by
        rw [Cursor.position_next_eq_past next, here, Position.past_append]
      have tokenHere : token.position = place.past text := by
        rw [Cursor.token_position_of_next next, here]
      rw [split, ← List.append_assoc]
      rcases stands.step formed tokenHere reads with
        ⟨goesOn, stands'⟩ | ⟨definition, completes, definitionStands, begins⟩
      · rw [goesOn]
        exact ih atEnd complete stands' behind
      · rw [completes]
        have begun : reader'.phase.Stands
            (place.past (text ++ token.lexeme.text.toList)) [] := by
          rw [begins]
          exact .start
        exact .cons definitionStands (ih atEnd complete begun behind)

/-- A text that is read consists of definitions, of which the program results. -/
theorem Program.exists_definitionsStand {text : String} {program : Program}
    (parsed : Program.parse settings text = .ok program) :
    ∃ definitions, DefinitionsStand .start text.toList definitions ∧
      program = .ofDefinitions definitions ∧ Numbered program.calls ∧
      ∀ definition ∈ definitions,
        settings.limits.allowsNesting definition.body.nesting = true := by
  rcases Program.parse_eq_ok_iff.mp parsed with
    ⟨definitions, final, last, path, atEnd, complete, rfl⟩
  rcases path.program_eq complete with ⟨same, numbered, _⟩
  exact ⟨definitions, path.definitionsStand atEnd complete .start rfl, same, numbered,
    path.shallow trivial⟩

/-! ## Pieces of the text -/

namespace Definition.Stands

variable {definition : Definition}

theorem exists_span (stands : definition.Stands place text) :
    ∀ part ∈ definition.body.parts, ∃ span, part.Occupies place text span := by
  cases stands with
  | intro _ stands _ =>
      intro part inBody
      rcases stands.exists_span part inBody with ⟨span, occupies⟩
      exact ⟨_, (occupies.append_left.append_right _).append_right _⟩

theorem closeInOrder (stands : definition.Stands place text) :
    CloseInOrder place text definition.body.calls := by
  cases stands with
  | intro _ stands _ => exact (stands.closeInOrder.append_left.append_right _).append_right _

end Definition.Stands

namespace DefinitionsStand

variable {definitions : List Definition}

/-- Every part of a body occupies a piece of the text. -/
theorem exists_span (stand : DefinitionsStand place text definitions) :
    ∀ definition ∈ definitions, ∀ part ∈ definition.body.parts,
      ∃ span, part.Occupies place text span := by
  induction stand with
  | nil => simp
  | cons stands _ ih =>
      rw [List.forall_mem_cons]
      constructor
      · intro part inBody
        rcases stands.exists_span part inBody with ⟨span, occupies⟩
        exact ⟨span, occupies.append_right _⟩
      · intro definition member part inBody
        rcases ih definition member part inBody with ⟨span, occupies⟩
        exact ⟨_, occupies.append_left⟩

/-- The calls of all bodies close in their order. -/
theorem closeInOrder (stand : DefinitionsStand place text definitions) :
    CloseInOrder place text (definitions.flatMap fun definition => definition.body.calls) := by
  induction stand with
  | nil => exact .nil
  | cons stands _ ih =>
      rw [List.flatMap_cons]
      exact stands.closeInOrder.append ih

end DefinitionsStand

end Polycalc

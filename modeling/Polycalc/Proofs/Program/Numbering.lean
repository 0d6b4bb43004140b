import Polycalc.Proofs.Expr.Quoting
import Polycalc.Proofs.Program.DeadEnds
import Polycalc.Proofs.Program.Standing
import Polycalc.Proofs.Token.Exact

/-!
# Definitions and lines

Definitions are counted when a text is read, and the number of a definition is used as
that of a line.  It is one: every definition ends with the only line end in it, so in a
text that is read each definition takes up one line (`DefinitionsStand.lines`), and all
of its tokens are on the line with its number (`Defines.exists_groups`).

The definitions that replace an earlier one are those whose name is defined on an
earlier line (`Definition.repetitions_eq_filter`).
-/

namespace Polycalc

open Text Grammar

variable {settings : Settings}

/-! ## A definition is a line -/

/-- What stands before the body of a definition has no line boundary in it. -/
theorem Heading.Formed.unbroken {heading : Heading} (formed : heading.Formed) :
    ∀ c ∈ heading.text, isLineBreak c = false := by
  rw [Heading.text, headingText, List.forall_mem_append, List.forall_mem_append]
  refine ⟨by simp [isLineBreak], formed.named.unbroken, ?_⟩
  intro c member
  rcases List.mem_flatMap.mp member with ⟨parameter, declared, inWord⟩
  rcases List.mem_cons.mp inWord with rfl | inWord
  · decide
  · exact (formed.words parameter declared).unbroken c inWord

/-- Behind the name of a definition stands a space. -/
theorem Heading.exists_text_eq (heading : Heading) (body : List Char) :
    ∃ rest, heading.text ++ " \x7b ".toList ++ body =
      "DEF ".toList ++ heading.name.toList ++ ' ' :: rest := by
  rcases heading with ⟨name, parameters⟩
  cases parameters with
  | nil => exact ⟨_, by simp [Heading.text, headingText]; rfl⟩
  | cons parameter parameters => exact ⟨_, by simp [Heading.text, headingText]; rfl⟩

/-- The text of a definition is a line, which begins with the word that begins a
definition and the name. -/
theorem Definition.Stands.exists_line {place : Position} {text : List Char}
    {definition : Definition} (stands : definition.Stands place text) :
    ∃ rest carriageReturn, IsFunctionName definition.name ∧
      text = "DEF ".toList ++ definition.name.toList ++ ' ' :: rest ++
        (Lexeme.endOfStatement carriageReturn).text.toList ∧
      ∀ c ∈ "DEF ".toList ++ definition.name.toList ++ ' ' :: rest, isLineBreak c = false := by
  cases stands with
  | @intro heading body lineEnd _ _ formed stands ended =>
      obtain ⟨carriageReturn, spelled⟩ : ∃ carriageReturn,
          (Lexeme.endOfStatement carriageReturn).text.toList = ';' :: lineEnd := by
        rcases ended with rfl | rfl
        · exact ⟨false, rfl⟩
        · exact ⟨true, rfl⟩
      rcases heading.exists_text_eq (body ++ " \x7d ".toList) with ⟨rest, whole⟩
      refine ⟨rest, carriageReturn, formed.named, ?_, ?_⟩
      · rw [← whole, spelled]
        simp
      · rw [← whole, List.forall_mem_append, List.forall_mem_append, List.forall_mem_append]
        refine ⟨⟨formed.unbroken, ?_⟩, stands.unbroken, ?_⟩
        · simp [isLineBreak]
        · simp [isLineBreak]

/-- The lines of a text are those of its definitions. -/
theorem DefinitionsStand.lines {place : Position} {text : List Char}
    {definitions : List Definition} (stand : DefinitionsStand place text definitions) :
    List.Forall₂ (fun definition line => IsFunctionName definition.name ∧
        ∃ rest, line = "DEF ".toList ++ definition.name.toList ++ ' ' :: rest)
      definitions (splitLines isLineBreak text) := by
  induction stand with
  | nil => exact .nil
  | cons stands _ ih =>
      rcases stands.exists_line with ⟨rest, carriageReturn, named, rfl, unbroken⟩
      rw [List.append_assoc, Lexeme.splitLines_endOfStatement unbroken]
      refine .cons ⟨named, rest ++ [';'], ?_⟩ ih
      rw [List.append_assoc, List.cons_append]

/-! ## Tokens of a definition -/

/-- The tokens are those of the definition: their text is that of the definition at the
beginning of the line with its number, and this is the line of every one of them. -/
structure Definition.ReadFrom (definition : Definition) (tokens : List Token) : Prop where
  stands : definition.Stands ⟨definition.line, 1⟩ (Token.spelled tokens)
  line : ∀ token ∈ tokens, token.position.line = definition.line

namespace ProgramReader

/-- The tokens are those that were read of the definition that is being read. -/
structure Begun (cursor : Cursor) (reader : ProgramReader) (tokens : List Token) : Prop where
  onLine : OnLine cursor reader
  stands : reader.phase.Stands ⟨(reader.count + 1 : Nat), 1⟩ (Token.spelled tokens)
  here : cursor.position = Position.past ⟨(reader.count + 1 : Nat), 1⟩ (Token.spelled tokens)
  line : ∀ token ∈ tokens, token.position.line = (reader.count + 1 : Nat)
  nothing : reader.phase = .start → tokens = []

variable {cursor after final : Cursor} {reader reader' last : ProgramReader} {token : Token}
  {tokens : List Token} {definitions : List Definition}

/-- At the beginning of a line nothing of a definition has been read. -/
theorem OnLine.begun_nil (onLine : OnLine cursor reader) (complete : reader.phase = .start) :
    Begun cursor reader [] where
  onLine := onLine
  stands := by
    rw [complete]
    exact .start
  here := by
    rw [← onLine.line, ← onLine.col complete]
    rfl
  line := by simp
  nothing := fun _ => rfl

/-- A token either is read of the same definition or completes it. -/
theorem Begun.step (begun : Begun cursor reader tokens) (more : cursor.rest ≠ [])
    (next : cursor.next = .ok (token, after)) (reads : Reads settings reader token reader') :
    (reader.completed token = [] ∧ Begun after reader' (tokens ++ [token])) ∨
      ∃ definition, reader.completed token = [definition] ∧
        definition.ReadFrom (tokens ++ [token]) ∧ Begun after reader' [] := by
  have spelled : Token.spelled (tokens ++ [token]) =
      Token.spelled tokens ++ token.lexeme.text.toList := by
    rw [Token.spelled_append]
    exact congrArg _ (List.append_nil _)
  have tokenHere := Cursor.token_position_of_next next
  have line : ∀ other ∈ tokens ++ [token], other.position.line = (reader.count + 1 : Nat) := by
    rw [List.forall_mem_append, List.forall_mem_singleton, tokenHere]
    exact ⟨begun.line, begun.onLine.line⟩
  have onLine := begun.onLine.step more next reads
  have count := reads.count
  rcases begun.stands.step (Cursor.next_sound next).1 (tokenHere.trans begun.here) reads with
    ⟨goesOn, stands⟩ | ⟨definition, completes, stands, complete⟩
  · left
    -- the count stays, so the next token is expected on the same line
    rw [goesOn, List.length_nil, Nat.add_zero] at count
    refine ⟨goesOn, onLine, ?_, ?_, ?_, ?_⟩
    · rwa [count, spelled]
    · rw [count, spelled, Cursor.position_next_eq_past next, begun.here, Position.past_append]
    · rwa [count]
    · intro complete
      cases reads with
      | endOfStatement => cases goesOn
      | _ => cases complete
  · right
    have number : definition.line = (reader.count + 1 : Nat) := by
      have numbers := line_completed reader token
      rw [completes] at numbers
      exact List.head_eq_of_cons_eq numbers
    refine ⟨definition, completes, ⟨?_, ?_⟩, onLine.begun_nil complete⟩
    · rwa [number, spelled]
    · rwa [number]

/-- The tokens of a text that is read are those of its definitions, one after the
other.  By induction on the path, with the tokens of the definition that is being read
carried along. -/
theorem Path.exists_groups (path : Path settings cursor reader definitions final last)
    (atEnd : final.rest = []) (complete : last.phase = .start)
    (begun : Begun cursor reader tokens) :
    ∃ groups, tokens ++ cursor.scanAll.tokens = groups.flatten ∧
      List.Forall₂ Definition.ReadFrom definitions groups := by
  induction path generalizing tokens with
  | refl =>
      rw [begun.nothing complete, Cursor.scanAll_of_rest_eq_nil atEnd]
      exact ⟨[], rfl, .nil⟩
  | step more next _ reads _ ih =>
      rw [Cursor.scanAll_of_next_eq_ok more next]
      rcases begun.step more next reads with
        ⟨goesOn, begun'⟩ | ⟨definition, completes, readFrom, begun'⟩
      · rcases ih atEnd complete begun' with ⟨groups, split, areRead⟩
        rw [List.append_assoc] at split
        rw [goesOn]
        exact ⟨groups, split, areRead⟩
      · rcases ih atEnd complete begun' with ⟨groups, split, areRead⟩
        rw [List.nil_append] at split
        rw [completes]
        refine ⟨_ :: groups, ?_, .cons readFrom areRead⟩
        rw [List.flatten_cons, ← split, List.append_assoc, List.singleton_append]

end ProgramReader

/-! ## Numbers of lines -/

namespace Defines

open ProgramReader

variable {text : String} {definitions : List Definition}

theorem definitionsStand (defines : Defines settings text definitions) :
    DefinitionsStand .start text.toList definitions := by
  rcases defines with ⟨final, last, path, atEnd, complete⟩
  exact path.definitionsStand atEnd complete .start rfl

/-- The tokens of a text are those of its definitions and the end of the input. -/
theorem exists_groups (defines : Defines settings text definitions) :
    ∃ groups position, tokenize text = .ok (groups.flatten ++ [⟨.endOfInput, position⟩]) ∧
      List.Forall₂ Definition.ReadFrom definitions groups := by
  rcases defines with ⟨final, last, path, atEnd, complete⟩
  rcases path.exists_groups atEnd complete ((onLine_start text).begun_nil rfl) with
    ⟨groups, split, areRead⟩
  rw [List.nil_append] at split
  refine ⟨groups, final.position, tokenize_eq_ok_iff.mpr ?_, areRead⟩
  rw [(path.readsAll atEnd).1, split]
  exact ⟨atEnd, rfl⟩

theorem lines (defines : Defines settings text definitions) :
    definitions.map Definition.line = (List.range' 1 definitions.length).map Nat.cast := by
  rcases defines with ⟨final, last, path, _⟩
  exact path.lines

/-- No two definitions are on one line, and they follow one another downwards. -/
theorem pairwise_line (defines : Defines settings text definitions) :
    definitions.Pairwise fun first second => first.line < second.line := by
  rw [← List.pairwise_map (f := Definition.line) (R := (· < ·)), defines.lines, List.pairwise_map]
  exact (List.pairwise_lt_range' 1 Nat.one_pos).imp Int.ofNat_lt.mpr

/-- The line with the number of a definition begins with the word that begins a
definition and the name. -/
theorem exists_line (defines : Defines settings text definitions) {definition : Definition}
    (member : definition ∈ definitions) :
    IsFunctionName definition.name ∧
      ∃ above : Nat, ∃ rest, definition.line = (above + 1 : Nat) ∧
        (Text.lines text)[above]? =
          some (String.ofList ("DEF ".toList ++ definition.name.toList ++ ' ' :: rest)) := by
  rcases List.mem_iff_getElem.mp member with ⟨above, within, rfl⟩
  rcases List.forall₂_iff_get.mp defines.definitionsStand.lines with ⟨sameLength, areLines⟩
  have within' : above < (splitLines isLineBreak text.toList).length := sameLength ▸ within
  rcases areLines above within within' with ⟨named, rest, line⟩
  refine ⟨named, above, rest, ?_, ?_⟩
  · have number := congrArg (·[above]?) defines.lines
    simp [within] at number
    omega
  · rw [Text.lines, List.getElem?_map, List.getElem?_eq_getElem within']
    exact congrArg (fun line => some (String.ofList line)) line

end Defines

/-! ## Replaced definitions -/

namespace Definition

/-- The name of the definition is also that of a definition on a line above it. -/
def NamedAbove (definitions : List Definition) (definition : Definition) : Prop :=
  ∃ other ∈ definitions, other.line < definition.line ∧ other.name = definition.name

instance (definitions : List Definition) : DecidablePred (NamedAbove definitions) :=
  fun definition => inferInstanceAs (Decidable (∃ other ∈ definitions,
    other.line < definition.line ∧ other.name = definition.name))

variable {first : Definition} {rest : List Definition}

/-- Nothing is above the first definition. -/
theorem not_namedAbove_first (above : ∀ other ∈ rest, first.line < other.line) :
    ¬ first.NamedAbove (first :: rest) := by
  rintro ⟨other, member, before, _⟩
  rcases List.mem_cons.mp member with rfl | later
  · exact Int.lt_irrefl _ before
  · exact Int.lt_asymm before (above other later)

theorem namedAbove_cons_iff {definition : Definition} (above : first.line < definition.line) :
    definition.NamedAbove (first :: rest) ↔
      definition.name = first.name ∨ definition.NamedAbove rest := by
  simp only [NamedAbove, List.exists_mem_cons_iff, above, true_and, eq_comm]

/-- If definitions follow one another downwards, those that repeat a name are those whose
name is defined further up. -/
theorem repetitions_eq_filter {definitions : List Definition}
    (downwards : definitions.Pairwise fun first second => first.line < second.line)
    (earlier : List String) :
    repetitions earlier definitions = definitions.filter fun definition =>
      definition.name ∈ earlier ∨ definition.NamedAbove definitions := by
  induction definitions generalizing earlier with
  | nil => rfl
  | cons first rest ih =>
      rcases List.pairwise_cons.mp downwards with ⟨above, downwards⟩
      have below : ∀ definition ∈ rest,
          (definition.name ∈ first.name :: earlier ∨ definition.NamedAbove rest) ↔
            (definition.name ∈ earlier ∨ definition.NamedAbove (first :: rest)) := by
        intro definition member
        rw [namedAbove_cons_iff (above definition member), List.mem_cons, or_assoc, or_left_comm]
      rw [repetitions, ih downwards, List.filter_cons,
        List.filter_congr fun definition member => decide_eq_decide.mpr (below definition member)]
      simp only [not_namedAbove_first above, or_false, decide_eq_true_eq]
      by_cases known : first.name ∈ earlier
      · rw [if_pos known, if_pos known, List.singleton_append]
      · rw [if_neg known, if_neg known, List.nil_append]

end Definition

/-- The definitions that are noted as replacing one are those whose name is defined on an
earlier line, in the order of the lines. -/
theorem Defines.redefined_eq_filter {text : String} {definitions : List Definition}
    (defines : Defines settings text definitions) :
    (Program.ofDefinitions definitions).redefined =
      definitions.filter (Definition.NamedAbove definitions ·) := by
  rw [Program.redefined_ofDefinitions,
    Definition.repetitions_eq_filter defines.pairwise_line []]
  simp only [List.not_mem_nil, false_or]

end Polycalc

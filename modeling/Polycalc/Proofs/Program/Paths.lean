import Polycalc.Proofs.Program.Transitions
import Mathlib.Logic.Relation

/-!
# Paths through a text

Reading a text is a path of transitions from its beginning to its end
(`Program.parse_eq_ok_iff`).  A path is labelled with the definitions that are
completed on the way, those included that are replaced later, and the text
determines the label (`Path.definitions_unique`).
-/

namespace Polycalc

/-! ## Scanning token by token -/

namespace Cursor

section

variable {cursor after : Cursor} {token : Token}

/-- The token at a place is what is scanned there, and leads behind it. -/
theorem next_eq_ok_iff :
    cursor.next = .ok (token, after) ↔
      Lexeme.scan cursor.rest = .ok (token.lexeme, after.rest) ∧
        token.position = cursor.position ∧
        after.offset = cursor.offset + token.lexeme.length ∧
        after.position = token.lexeme.after cursor.position := by
  rcases token with ⟨lexeme, position⟩
  rcases after with ⟨rest, offset, further⟩
  rw [next]
  constructor
  · intro read
    split at read
    · cases read
    · cases read
      exact ⟨‹_›, rfl, rfl, rfl⟩
  · rintro ⟨scanned, rfl, rfl, rfl⟩
    rw [scanned]

theorem next_eq_error_iff {error : LexError} :
    cursor.next = .error error ↔
      Lexeme.scan cursor.rest = .error error.cause ∧ error.position = cursor.position := by
  rcases error with ⟨cause, position⟩
  rw [next]
  constructor
  · intro read
    split at read
    · cases read
      exact ⟨‹_›, rfl⟩
    · cases read
  · rintro ⟨scanned, rfl⟩
    rw [scanned]

theorem scan_of_next (next : cursor.next = .ok (token, after)) :
    Lexeme.scan cursor.rest = .ok (token.lexeme, after.rest) :=
  (next_eq_ok_iff.mp next).1

/-- The token at a place stands there. -/
theorem token_position_of_next (next : cursor.next = .ok (token, after)) :
    token.position = cursor.position :=
  (next_eq_ok_iff.mp next).2.1

/-- How far a token takes a cursor. -/
theorem offset_next (next : cursor.next = .ok (token, after)) :
    after.offset = cursor.offset + token.lexeme.length :=
  (next_eq_ok_iff.mp next).2.2.1

theorem position_next (next : cursor.next = .ok (token, after)) :
    after.position = token.lexeme.after cursor.position :=
  (next_eq_ok_iff.mp next).2.2.2

end

theorem next_of_rest_eq_nil {cursor : Cursor} (atEnd : cursor.rest = []) :
    cursor.next = .ok (⟨.endOfInput, cursor.position⟩, ⟨[], cursor.offset, cursor.position⟩) := by
  rcases cursor with ⟨rest, offset, position⟩
  subst atEnd
  simp [next, Lexeme.scan, Lexeme.length, Lexeme.text, Lexeme.after, Position.advance]

theorem scanAll_of_rest_eq_nil {cursor : Cursor} (atEnd : cursor.rest = []) :
    cursor.scanAll = ⟨[], cursor⟩ := by
  rw [scanAll, dif_pos atEnd]

theorem scanAll_of_next_eq_error {cursor : Cursor} {error : LexError} (more : cursor.rest ≠ [])
    (next : cursor.next = .error error) : cursor.scanAll = ⟨[], cursor⟩ := by
  rw [scanAll, dif_neg more]
  split
  · rfl
  · simp_all

theorem scanAll_of_next_eq_ok {cursor after : Cursor} {token : Token} (more : cursor.rest ≠ [])
    (next : cursor.next = .ok (token, after)) :
    cursor.scanAll = ⟨token :: after.scanAll.tokens, after.scanAll.stop⟩ := by
  rw [scanAll, dif_neg more]
  split
  · simp_all
  · rename_i next'
    rw [next] at next'
    cases next'
    rfl

/-- The token at the cursor leads from one place of a text to the other. -/
def Advances (cursor after : Cursor) : Prop :=
  cursor.rest ≠ [] ∧ ∃ token, cursor.next = .ok (token, after)

/-- Tokens lead from one place of a text to another. -/
def Reaches : Cursor → Cursor → Prop :=
  Relation.ReflTransGen Advances

/-- The token that comes next is the one at the cursor. -/
theorem following_scanAll (cursor : Cursor) :
    Token.following cursor.scanAll.tokens cursor.scanAll.ending = cursor.next.map Prod.fst := by
  by_cases more : cursor.rest = []
  · rw [scanAll_of_rest_eq_nil more]
    rfl
  · cases next : cursor.next with
    | error error =>
        rw [scanAll_of_next_eq_error more next]
        simp only [Token.following, Scan.ending, next]
    | ok read =>
        rcases read with ⟨token, after⟩
        rw [scanAll_of_next_eq_ok more next]
        rfl

end Cursor

namespace ProgramReader

/-! ## Paths -/

/-- The definition that a token completes, if it completes one. -/
def completed (reader : ProgramReader) (token : Token) : List Definition :=
  match reader.phase, token.lexeme with
  | .statementEnd heading body, .endOfStatement _ =>
    [⟨heading.name, heading.parameters, body, (reader.count + 1 : Nat)⟩]
  | _, _ => []

/-- `Path settings cursor reader definitions final last`: the tokens from one
place of a text to another take the reader from one state to another, and
complete these definitions. -/
inductive Path (settings : Settings) :
    Cursor → ProgramReader → List Definition → Cursor → ProgramReader → Prop
  | refl {cursor : Cursor} {reader : ProgramReader} :
      Path settings cursor reader [] cursor reader
  | step {cursor after final : Cursor} {reader reader' last : ProgramReader} {token : Token}
      {definitions : List Definition} (more : cursor.rest ≠ [])
      (next : cursor.next = .ok (token, after))
      (short : token.checkDigits settings.limits = .ok ())
      (reads : Reads settings reader token reader')
      (later : Path settings after reader' definitions final last) :
      Path settings cursor reader (reader.completed token ++ definitions) final last

namespace Path

variable {settings : Settings} {cursor middle final : Cursor}
  {reader between last : ProgramReader} {definitions others : List Definition}

theorem trans (first : Path settings cursor reader definitions middle between)
    (second : Path settings middle between others final last) :
    Path settings cursor reader (definitions ++ others) final last := by
  induction first with
  | refl => exact second
  | step more next short reads _ ih =>
      rw [List.append_assoc]
      exact .step more next short reads (ih second)

/-- What is read on a path are places that tokens lead to. -/
theorem reaches (path : Path settings cursor reader definitions final last) :
    cursor.Reaches final := by
  induction path with
  | refl => exact .refl
  | step more next _ _ _ ih => exact ih.head ⟨more, _, next⟩

/-- At every place of a path to the end of a text there is a token. -/
theorem exists_next (path : Path settings cursor reader definitions final last)
    (atEnd : final.rest = []) : ∃ read, cursor.next = .ok read := by
  cases path with
  | refl => exact ⟨_, Cursor.next_of_rest_eq_nil atEnd⟩
  | step _ next _ _ _ => exact ⟨_, next⟩

/-- A text determines the definitions that are completed on a path to its
end. -/
theorem definitions_unique (path : Path settings cursor reader definitions final last)
    (atEnd : final.rest = []) {final' : Cursor} {last' : ProgramReader}
    (path' : Path settings cursor reader others final' last') (atEnd' : final'.rest = []) :
    definitions = others := by
  induction path generalizing others with
  | refl =>
      cases path' with
      | refl => rfl
      | step more _ _ _ _ => exact absurd atEnd more
  | step more next _ reads _ ih =>
      cases path' with
      | refl => exact absurd atEnd' more
      | step _ next' _ reads' later' =>
          rw [next, Except.ok.injEq, Prod.mk.injEq] at next'
          rcases next' with ⟨rfl, rfl⟩
          have same := reads.step_eq_ok.symm.trans reads'.step_eq_ok
          rw [Except.ok.injEq] at same
          subst same
          rw [ih atEnd later']

end Path

/-! ## Numbers of definitions -/

variable {settings : Settings}

theorem Reads.count {reader reader' : ProgramReader} {token : Token}
    (reads : Reads settings reader token reader') :
    reader'.count = reader.count + (reader.completed token).length := by
  cases reads <;> rfl

theorem line_completed (reader : ProgramReader) (token : Token) :
    (reader.completed token).map Definition.line =
      (List.range' (reader.count + 1) (reader.completed token).length).map Nat.cast := by
  unfold completed
  split <;> rfl

namespace Path

variable {cursor final : Cursor} {reader last : ProgramReader} {definitions : List Definition}

theorem count (path : Path settings cursor reader definitions final last) :
    last.count = reader.count + definitions.length := by
  induction path with
  | refl => rfl
  | step _ _ _ reads _ ih => rw [ih, reads.count, List.length_append, Nat.add_assoc]

/-- The definitions on a path are numbered in their order. -/
theorem lines (path : Path settings cursor reader definitions final last) :
    definitions.map Definition.line =
      (List.range' (reader.count + 1) definitions.length).map Nat.cast := by
  induction path with
  | refl => rfl
  | @step _ _ _ reader _ _ token _ _ _ _ reads _ ih =>
      rw [List.map_append, line_completed, ih, reads.count, List.length_append,
        ← List.range'_append_1, List.map_append, Nat.add_right_comm]

end Path

/-! ## Runs are paths -/

/-- What reading a text from a place on gives. -/
def runFrom (settings : Settings) (cursor : Cursor) (reader : ProgramReader) :
    Except Failure Program :=
  reader.run settings cursor.scanAll.ending cursor.scanAll.tokens

section

variable {cursor after : Cursor} {token : Token}

theorem runFrom_of_rest_eq_nil (atEnd : cursor.rest = []) (reader : ProgramReader) :
    reader.runFrom settings cursor = reader.finish settings ⟨.endOfInput, cursor.position⟩ := by
  rw [runFrom, Cursor.scanAll_of_rest_eq_nil atEnd, Scan.ending,
    Cursor.next_of_rest_eq_nil atEnd]
  rfl

theorem runFrom_of_next_eq_error {error : LexError} (more : cursor.rest ≠ [])
    (next : cursor.next = .error error) (reader : ProgramReader) :
    reader.runFrom settings cursor = .error (.lexical error) := by
  rw [runFrom, Cursor.scanAll_of_next_eq_error more next, Scan.ending, next]
  rfl

theorem runFrom_of_next_eq_ok (more : cursor.rest ≠ [])
    (next : cursor.next = .ok (token, after)) (reader : ProgramReader) :
    reader.runFrom settings cursor =
      (do
        let reader ← reader.step settings token
        let _ ← after.next.mapError .lexical
        Failure.ofFault (token.checkDigits settings.limits)
        reader.runFrom settings after) := by
  have following := after.following_scanAll
  rw [runFrom, Cursor.scanAll_of_next_eq_ok more next, run]
  simp only [Scan.ending] at following ⊢
  rw [following]
  cases after.next <;> rfl

end

/-- Reading on from the end of a path is reading from its beginning. -/
theorem Path.runFrom_eq {cursor final : Cursor} {reader last : ProgramReader}
    {definitions : List Definition}
    (path : Path settings cursor reader definitions final last) :
    reader.runFrom settings cursor = last.runFrom settings final := by
  induction path with
  | refl => rfl
  | @step cursor after _ reader reader' _ token _ nonempty next short reads _ ih =>
      rw [← ih, runFrom_of_next_eq_ok nonempty next, reads.step_eq_ok, short]
      cases following : after.next with
      | error error =>
          have more : after.rest ≠ [] := by
            intro nothing
            rw [Cursor.next_of_rest_eq_nil nothing] at following
            cases following
          rw [runFrom_of_next_eq_error more following]
          rfl
      | ok read => rfl

theorem run_of_path {cursor final : Cursor} {reader last : ProgramReader}
    {definitions : List Definition}
    (path : Path settings cursor reader definitions final last) (atEnd : final.rest = [])
    (complete : last.phase = .start) :
    reader.run settings cursor.scanAll.ending cursor.scanAll.tokens = .ok last.program := by
  induction path with
  | @refl cursor reader =>
      rw [Cursor.scanAll_of_rest_eq_nil atEnd, Scan.ending, Cursor.next_of_rest_eq_nil atEnd]
      exact finish_eq_ok_iff.mpr ⟨complete, rfl⟩
  | @step _ after _ _ _ _ _ _ more next short reads later ih =>
      rw [Cursor.scanAll_of_next_eq_ok more next]
      apply run_cons_eq_ok_iff.mpr
      rcases later.exists_next atEnd with ⟨⟨token, further⟩, following⟩
      refine ⟨_, reads, ⟨token, ?_⟩, short, ih atEnd complete⟩
      have scanned := after.following_scanAll
      rw [following] at scanned
      exact scanned

theorem exists_path_of_run {cursor : Cursor} {reader : ProgramReader} {program : Program}
    (ran : reader.run settings cursor.scanAll.ending cursor.scanAll.tokens = .ok program) :
    ∃ definitions final last, Path settings cursor reader definitions final last ∧
      final.rest = [] ∧ last.phase = .start ∧ last.program = program := by
  induction remaining : cursor.rest.length using Nat.strongRecOn
    generalizing cursor reader with
  | ind remaining ih =>
      subst remaining
      by_cases more : cursor.rest = []
      · rw [Cursor.scanAll_of_rest_eq_nil more, Scan.ending,
          Cursor.next_of_rest_eq_nil more] at ran
        exact ⟨[], cursor, reader, .refl, more, finish_eq_ok_iff.mp ran⟩
      · cases next : cursor.next with
        | error error =>
            rw [Cursor.scanAll_of_next_eq_error more next, Scan.ending, next] at ran
            cases ran
        | ok read =>
            rcases read with ⟨token, after⟩
            rw [Cursor.scanAll_of_next_eq_ok more next] at ran
            rcases run_cons_eq_ok_iff.mp ran with ⟨reader', reads, _, short, ran'⟩
            obtain ⟨definitions, final, last, path, ended⟩ :=
              ih _ (Cursor.length_rest_next_lt next more) ran' rfl
            exact ⟨_, final, last, .step more next short reads path, ended⟩

end ProgramReader

/-- A text is read by following a path to its end. -/
theorem Program.parse_eq_ok_iff {settings : Settings} {text : String} {program : Program} :
    Program.parse settings text = .ok program ↔
      ∃ definitions final last,
        ProgramReader.Path settings (.start text) .start definitions final last ∧
          final.rest = [] ∧ last.phase = .start ∧ last.program = program := by
  constructor
  · exact ProgramReader.exists_path_of_run
  · rintro ⟨definitions, final, last, path, atEnd, complete, rfl⟩
    exact ProgramReader.run_of_path path atEnd complete

end Polycalc

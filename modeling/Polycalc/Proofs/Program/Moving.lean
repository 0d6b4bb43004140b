import Polycalc.Proofs.Expr.Moving
import Polycalc.Proofs.Program.Reading

/-!
# Programs further down

Reading a text after other definitions is reading it further down: every step
has its counterpart (`ProgramReader.Follows.step`), so a path to the end of the
text has one (`ProgramReader.Path.moved`), and where the reading fails, it fails
in the same way (`ProgramReader.Follows.runFrom`).
-/

namespace Polycalc

/-- The definition further down. -/
def Definition.moved (move : Move) (definition : Definition) : Definition :=
  ⟨definition.name, definition.parameters, definition.body.moved move,
    definition.line + move.lines⟩

/-! ## Cursors -/

theorem Lexeme.after_moved (lexeme : Lexeme) (lines : Nat) (position : Position) :
    lexeme.after (position.moved lines) = (lexeme.after position).moved lines := by
  cases lexeme with
  | endOfStatement carriageReturn =>
      simp only [after, Position.nextLine, Position.moved, Position.mk.injEq, and_true]
      omega
  | _ => rfl

/-- The second cursor stands at the same text so many lines further down. -/
structure Cursor.IsMoved (lines : Nat) (cursor cursor' : Cursor) : Prop where
  rest : cursor'.rest = cursor.rest
  position : cursor'.position = cursor.position.moved lines

namespace Cursor.IsMoved

variable {lines : Nat} {cursor cursor' : Cursor}

theorem next_eq_ok (isMoved : cursor.IsMoved lines cursor') {token : Token} {after : Cursor}
    (next : cursor.next = .ok (token, after)) :
    ∃ after', cursor'.next = .ok (token.moved lines, after') ∧ after.IsMoved lines after' := by
  rcases Cursor.next_eq_ok_iff.mp next with ⟨scanned, stands, _, position⟩
  refine ⟨⟨after.rest, cursor'.offset + token.lexeme.length, after.position.moved lines⟩,
    Cursor.next_eq_ok_iff.mpr ⟨?_, ?_, rfl, ?_⟩, rfl, rfl⟩
  · rw [isMoved.rest]
    exact scanned
  · rw [isMoved.position, ← stands]
    rfl
  · rw [isMoved.position, position]
    exact (token.lexeme.after_moved lines cursor.position).symm

theorem next_eq_error (isMoved : cursor.IsMoved lines cursor') {error : LexError}
    (next : cursor.next = .error error) : cursor'.next = .error (error.moved lines) := by
  rcases Cursor.next_eq_error_iff.mp next with ⟨scanned, stands⟩
  apply Cursor.next_eq_error_iff.mpr
  constructor
  · rw [isMoved.rest]
    exact scanned
  · rw [isMoved.position, ← stands]
    rfl

/-- Whether there is a token does not depend on the place. -/
theorem mapError_next (isMoved : cursor.IsMoved lines cursor') :
    Alongside lines (fun _ _ => True) (cursor.next.mapError Failure.lexical)
      (cursor'.next.mapError Failure.lexical) := by
  cases next : cursor.next with
  | error error =>
      rw [isMoved.next_eq_error next]
      exact .error (.lexical error)
  | ok read =>
      rcases isMoved.next_eq_ok next with ⟨after', next', _⟩
      rw [next']
      exact .ok trivial

end Cursor.IsMoved

/-! ## Readers -/

namespace ExprReader

variable {move : Move} {before : List Call} {scope : List String} {reader : ExprReader}

theorem Keeps.pending_genuine {registered : List Call} (keeps : reader.Keeps scope registered) :
    ∀ expr ∈ reader.pending.held, expr.Genuine := by
  intro expr waiting
  have held : expr ∈ reader.held :=
    List.mem_append_left _ (List.mem_append_right _ waiting)
  exact (keeps.readIn expr held).genuine

theorem finished?_moved (genuine : ∀ expr ∈ reader.pending.held, expr.Genuine) (next : Lexeme) :
    (reader.moved move before).finished? next = (reader.finished? next).map (Expr.moved move) := by
  rcases reader with ⟨stack, pending, awaiting, calls⟩
  cases awaiting with
  | continuation operand =>
      cases stack with
      | nil =>
          simp only [finished?, moved, Awaiting.moved, List.map_nil]
          split
          · rfl
          · rw [Pending.closeSum_moved move genuine, Option.map_some]
      | cons innermost outer => rfl
  | _ => cases stack <;> rfl

end ExprReader

/-- The part of a definition that has been read, further down. -/
def Phase.moved (move : Move) (before : List Call) : Phase → Phase
  | start => start
  | define => define
  | name => name
  | word heading => word heading
  | parameters heading => parameters heading
  | brace heading => brace heading
  | body heading reader => body heading (reader.moved move before)
  | bodyEnd heading expr => bodyEnd heading (expr.moved move)
  | closed heading expr => closed heading (expr.moved move)
  | statementEnd heading expr => statementEnd heading (expr.moved move)

namespace ProgramReader

/-- The second reader is as far as the first one, further down, where these
calls were met before. -/
structure Follows (move : Move) (before : List Call) (reader reader' : ProgramReader) :
    Prop where
  phase : reader'.phase = reader.phase.moved move before
  count : reader'.count = move.lines + reader.count
  calls : reader'.program.calls = before ++ reader.program.calls.map (Call.moved move)

variable {settings : Settings} {move : Move} {before : List Call}
  {reader reader' : ProgramReader} {token : Token}

namespace Follows

theorem enter (follows : reader.Follows move before reader') (phase : Phase) :
    (reader.enter phase).Follows move before (reader'.enter (phase.moved move before)) :=
  ⟨rfl, follows.count, follows.calls⟩

/-- What a token completes is completed further down. -/
theorem completed (follows : reader.Follows move before reader') (token : Token) :
    reader'.completed (token.moved move.lines) =
      (reader.completed token).map (Definition.moved move) := by
  rcases reader with ⟨program, count, phase⟩
  rcases reader' with ⟨program', count', phase'⟩
  rcases follows with ⟨rfl, rfl, _⟩
  rcases token with ⟨lexeme, position⟩
  cases phase with
  | statementEnd heading expr =>
      cases lexeme with
      | endOfStatement carriageReturn =>
          simp only [ProgramReader.completed, Phase.moved, Token.moved, List.map_singleton,
            Definition.moved, List.cons.injEq, Definition.mk.injEq, and_true, true_and]
          omega
      | _ => rfl
  | _ => rfl

/-- A token that may be one lexeme only. -/
theorem require (follows : reader.Follows move before reader') (lexeme : Lexeme)
    (expected : Expected) (token : Token) (phase : Phase) :
    Alongside move.lines (Follows move before) (reader.require lexeme expected token phase)
      (reader'.require lexeme expected (token.moved move.lines) (phase.moved move before)) := by
  rw [ProgramReader.require, ProgramReader.require, Token.lexeme_moved]
  by_cases fits : token.lexeme = lexeme
  · rw [if_pos fits, if_pos fits]
    exact .ok (follows.enter phase)
  · rw [if_neg fits, if_neg fits]
    exact .error (.unexpected expected token)

theorem readName (follows : reader.Follows move before reader') (token : Token) :
    Alongside move.lines (Follows move before) (reader.readName token)
      (reader'.readName (token.moved move.lines)) := by
  rcases token with ⟨lexeme, position⟩
  cases lexeme with
  | entry => exact .ok (follows.enter _)
  | function name => exact .ok (follows.enter _)
  | _ => exact .error (.unexpected .functionName _)

theorem readParameter (follows : reader.Follows move before reader') (heading : Heading)
    (token : Token) :
    Alongside move.lines (Follows move before) (reader.readParameter heading token)
      (reader'.readParameter heading (token.moved move.lines)) := by
  rcases token with ⟨lexeme, position⟩
  cases lexeme with
  | parameter name =>
      simp only [ProgramReader.readParameter, Token.moved]
      split
      · exact .error (.entryParameter ⟨.parameter name, position⟩)
      · exact .ok (follows.enter (.word _))
  | openBrace => exact .ok (follows.enter _)
  | _ => exact .error (.unexpected .openBrace _)

theorem readBody (follows : reader.Follows move before reader')
    (many : before.length = move.calls) {body : ExprReader}
    (genuine : ∀ expr ∈ body.pending.held, expr.Genuine) (heading : Heading) (token : Token) :
    Alongside move.lines (Follows move before) (reader.readBody settings heading body token)
      (reader'.readBody settings heading (body.moved move before) (token.moved move.lines)) := by
  rw [ProgramReader.readBody, ProgramReader.readBody, Token.lexeme_moved,
    ExprReader.finished?_moved genuine]
  cases body.finished? token.lexeme with
  | none =>
      refine (ExprReader.step_moved many genuine).bind fun next next' _ isMoved => ?_
      subst isMoved
      exact .ok (follows.enter (.body heading next))
  | some expr =>
      simp only [Option.map_some]
      by_cases ends : token.lexeme = .space
      · rw [if_pos ends, if_pos ends]
        exact .ok ⟨rfl, follows.count, rfl⟩
      · rw [if_neg ends, if_neg ends]
        exact .error (.unexpected .space token)

/-- A step that a reader makes is made further down. -/
theorem step (settings : Settings) (follows : reader.Follows move before reader')
    (many : before.length = move.calls) {definitions : List Definition}
    (keeps : reader.Keeps definitions) (token : Token) :
    Alongside move.lines (Follows move before) (reader.step settings token)
      (reader'.step settings (token.moved move.lines)) := by
  rcases reader with ⟨program, count, phase⟩
  rcases reader' with ⟨program', count', phase'⟩
  have same := follows.phase
  simp only at same
  subst same
  have held := keeps.phase
  cases phase with
  | start => exact follows.require .define .definition token .define
  | define => exact follows.require .space .space token .name
  | name => exact follows.readName token
  | word heading => exact follows.require .space .space token (.parameters heading)
  | parameters heading => exact follows.readParameter heading token
  | brace heading =>
      simp only [ProgramReader.step, Phase.moved]
      by_cases ends : token.lexeme = .space
      · have ends' : (token.moved move.lines).lexeme = .space := ends
        rw [if_pos ends, if_pos ends']
        refine .ok ⟨?_, follows.count, follows.calls⟩
        have calls := follows.calls
        simp only at calls
        simp only [beginBody, ProgramReader.enter, calls]
        rfl
      · have ends' : (token.moved move.lines).lexeme ≠ .space := ends
        rw [if_neg ends, if_neg ends']
        exact .error (.unexpected .space token)
  | body heading body => exact follows.readBody many held.2.2.pending_genuine heading token
  | bodyEnd heading expr =>
      exact follows.require .closeBrace .closeBrace token (.closed heading expr)
  | closed heading expr => exact follows.require .space .space token (.statementEnd heading expr)
  | statementEnd heading expr =>
      rcases token with ⟨lexeme, position⟩
      cases lexeme with
      | endOfStatement carriageReturn =>
          refine .ok ⟨rfl, ?_, follows.calls⟩
          have count := follows.count
          simp only at count
          simp only [endDefinition, count]
          omega
      | _ => exact .error (.unexpected .endOfStatement _)

end Follows

/-! ## Paths -/

/-- A path has its counterpart further down, which completes the same
definitions further down. -/
theorem Path.moved {cursor final cursor' : Cursor} {last : ProgramReader}
    {definitions earlier : List Definition}
    (path : Path settings cursor reader definitions final last) (keeps : reader.Keeps earlier)
    (many : before.length = move.calls) (isMoved : cursor.IsMoved move.lines cursor')
    (follows : reader.Follows move before reader') :
    ∃ final' last', Path settings cursor' reader' (definitions.map (Definition.moved move))
        final' last' ∧
      final.IsMoved move.lines final' ∧ last.Follows move before last' := by
  induction path generalizing earlier cursor' reader' with
  | refl => exact ⟨cursor', reader', .refl, isMoved, follows⟩
  | @step cursor after _ reader next _ token _ more nextToken short reads _ ih =>
      rcases isMoved.next_eq_ok nextToken with ⟨after', nextToken', afterMoved⟩
      have stepped := follows.step settings many keeps token
      rw [reads.step_eq_ok] at stepped
      generalize stepped' : reader'.step settings (token.moved move.lines) = result at stepped
      cases stepped with
      | ok nextFollows =>
          have reads' := step_eq_ok_iff.mp stepped'
          obtain ⟨final', last', path', finalMoved, lastFollows⟩ :=
            ih (keeps.step reads) afterMoved nextFollows
          refine ⟨final', last', ?_, finalMoved, lastFollows⟩
          rw [List.map_append, ← follows.completed]
          exact .step (by rwa [isMoved.rest]) nextToken' short reads' path'

/-! ## Runs -/

namespace Follows

/-- What the end of the input leads to further down. -/
theorem finish (follows : reader.Follows move before reader') (many : before.length = move.calls)
    {definitions : List Definition} (keeps : reader.Keeps definitions) (last : Token) :
    Alongside move.lines (fun _ _ => True) (reader.finish settings last)
      (reader'.finish settings (last.moved move.lines)) := by
  have stepped := follows.step settings many keeps last
  rcases reader with ⟨program, count, phase⟩
  rcases reader' with ⟨program', count', phase'⟩
  have same := follows.phase
  simp only at same
  subst same
  cases phase with
  | start => exact .ok trivial
  | _ =>
      simp only [ProgramReader.finish, Phase.moved] at stepped ⊢
      generalize ProgramReader.step settings _ last = result at stepped ⊢
      generalize ProgramReader.step settings _ (last.moved move.lines) = result' at stepped ⊢
      cases stepped with
      | ok _ => exact .error (.unexpected .definition last)
      | error further => exact .error further

/-- A text that is read further down is accepted, or refused for the same
reason. -/
theorem runFrom {cursor cursor' : Cursor} (follows : reader.Follows move before reader')
    (many : before.length = move.calls) {definitions : List Definition}
    (keeps : reader.Keeps definitions) (isMoved : cursor.IsMoved move.lines cursor') :
    Alongside move.lines (fun _ _ => True) (reader.runFrom settings cursor)
      (reader'.runFrom settings cursor') := by
  induction remaining : cursor.rest.length using Nat.strongRecOn
    generalizing cursor cursor' reader reader' definitions with
  | ind remaining ih =>
      subst remaining
      by_cases more : cursor.rest = []
      · have more' : cursor'.rest = [] := isMoved.rest.trans more
        rw [runFrom_of_rest_eq_nil more, runFrom_of_rest_eq_nil more', isMoved.position]
        exact follows.finish many keeps ⟨.endOfInput, cursor.position⟩
      · have more' : cursor'.rest ≠ [] := by rwa [isMoved.rest]
        cases next : cursor.next with
        | error error =>
            rw [runFrom_of_next_eq_error more next,
              runFrom_of_next_eq_error more' (isMoved.next_eq_error next)]
            exact .error (.lexical error)
        | ok read =>
            rcases read with ⟨token, after⟩
            rcases isMoved.next_eq_ok next with ⟨after', next', afterMoved⟩
            rw [runFrom_of_next_eq_ok more next, runFrom_of_next_eq_ok more' next']
            apply (follows.step settings many keeps token).bind
            intro _ _ stepped nextFollows
            apply afterMoved.mapError_next.bind
            intro _ _ _ _
            apply (Alongside.ofFault _).bind
            intro _ _ _ _
            exact ih _ (Cursor.length_rest_next_lt next more) nextFollows
              (keeps.step (step_eq_ok_iff.mp stepped)) afterMoved rfl

end Follows

end ProgramReader

end Polycalc

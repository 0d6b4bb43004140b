import Polycalc.Proofs.Program.Paths
import Polycalc.Proofs.Token.LineEnds

/-!
# Reading with other line ends

A reader does the same with either spelling of the end of a statement: it goes on in
the same way, or it fails in the same way, and all that can differ is the spelling of
the token that the failure names (`ProgramReader.step_lineEnd`).  So texts that differ
in line ends are read as the same program or refused for the same reason
(`Program.parse_lineEnds`).
-/

namespace Polycalc

/-- The failures are the same, or they name the end of a statement as it is spelled. -/
inductive Failure.SameButLineEnd : Failure → Failure → Prop
  | same (failure : Failure) : SameButLineEnd failure failure
  | unexpected (expected : Expected) (carriageReturn carriageReturn' : Bool)
      (position : Position) :
      SameButLineEnd (.parse (.unexpected expected ⟨.endOfStatement carriageReturn, position⟩))
        (.parse (.unexpected expected ⟨.endOfStatement carriageReturn', position⟩))
  | tooManyArguments (callee : String) (allowed : Int) (carriageReturn carriageReturn' : Bool)
      (position : Position) :
      SameButLineEnd
        (.parse (.tooManyArguments callee allowed ⟨.endOfStatement carriageReturn, position⟩))
        (.parse (.tooManyArguments callee allowed ⟨.endOfStatement carriageReturn', position⟩))

/-- The results are the same, up to the spelling of a token that a failure names. -/
inductive ReadAlike {α : Type} : Except Failure α → Except Failure α → Prop
  | ok (value : α) : ReadAlike (.ok value) (.ok value)
  | error {failure failure' : Failure} (same : failure.SameButLineEnd failure') :
      ReadAlike (.error failure) (.error failure')

namespace ReadAlike

variable {α β : Type}

theorem refl (result : Except Failure α) : ReadAlike result result := by
  cases result with
  | error failure => exact .error (.same failure)
  | ok value => exact .ok value

/-- Results of two stages, if what follows the same value is alike. -/
theorem bind {first second : Except Failure α} {rest rest' : α → Except Failure β}
    (alike : ReadAlike first second) (each : ∀ value, ReadAlike (rest value) (rest' value)) :
    ReadAlike (first >>= rest) (second >>= rest') := by
  cases alike with
  | ok value => exact each value
  | error same => exact .error same

end ReadAlike

/-! ## Steps -/

variable {settings : Settings}

namespace ExprReader

/-- The end of a statement does not begin an operand. -/
theorem readOperand_lineEnd (scope : List String) (reader : ExprReader)
    (carriageReturn carriageReturn' : Bool) (position : Position) :
    ReadAlike (reader.readOperand scope ⟨.endOfStatement carriageReturn, position⟩)
      (reader.readOperand scope ⟨.endOfStatement carriageReturn', position⟩) :=
  .error (.unexpected .operand _ _ _)

/-- Nor does it begin another argument of a call that may not have one. -/
theorem overfull_lineEnd (limits : Limits) (call : OpenCall) (allowed : Int)
    (carriageReturn carriageReturn' : Bool) (position : Position) :
    ReadAlike (α := Unit)
      (.error (call.overfull limits allowed ⟨.endOfStatement carriageReturn, position⟩))
      (.error (call.overfull limits allowed ⟨.endOfStatement carriageReturn', position⟩)) := by
  unfold OpenCall.overfull
  cases limits.write allowed with
  | ok _ => exact .error (.tooManyArguments _ _ _ _ _)
  | error fault => exact .refl _

theorem readArgument_lineEnd (scope : List String) (reader : ExprReader)
    (carriageReturn carriageReturn' : Bool) (position : Position) :
    ReadAlike (reader.readArgument settings scope ⟨.endOfStatement carriageReturn, position⟩)
      (reader.readArgument settings scope ⟨.endOfStatement carriageReturn', position⟩) := by
  rcases reader with ⟨stack, pending, awaiting, calls⟩
  cases stack with
  | nil => exact readOperand_lineEnd scope ⟨[], pending, awaiting, calls⟩ _ _ _
  | cons innermost outer =>
      have room : ReadAlike
          (innermost.checkRoom settings ⟨.endOfStatement carriageReturn, position⟩)
          (innermost.checkRoom settings ⟨.endOfStatement carriageReturn', position⟩) := by
        unfold OpenCall.checkRoom
        split
        · exact .refl _
        · split
          · exact overfull_lineEnd _ innermost _ _ _ _
          · exact .refl _
      exact room.bind fun _ => readOperand_lineEnd scope _ _ _ _

theorem step_lineEnd (scope : List String) (reader : ExprReader)
    (carriageReturn carriageReturn' : Bool) (position : Position) :
    ReadAlike (reader.step settings scope ⟨.endOfStatement carriageReturn, position⟩)
      (reader.step settings scope ⟨.endOfStatement carriageReturn', position⟩) := by
  rcases reader with ⟨stack, pending, awaiting, calls⟩
  cases awaiting with
  | operand => exact readOperand_lineEnd scope ⟨stack, pending, .operand, calls⟩ _ _ _
  | parenthesis name place => exact .error (.unexpected .openParen _ _ _)
  | firstArgument => exact readArgument_lineEnd scope _ _ _ _
  | nextArgument => exact readArgument_lineEnd scope _ _ _ _
  | continuation operand => exact .error (.unexpected .closeParen _ _ _)

/-- An expression is finished before the end of a statement, however it is spelled. -/
theorem finished?_lineEnd (reader : ExprReader) (carriageReturn carriageReturn' : Bool) :
    reader.finished? (.endOfStatement carriageReturn) =
      reader.finished? (.endOfStatement carriageReturn') := by
  rcases reader with ⟨stack, pending, awaiting, calls⟩
  cases stack with
  | nil => cases awaiting <;> rfl
  | cons _ _ => rfl

end ExprReader

namespace ProgramReader

/-- Where another lexeme has to stand, either spelling is refused. -/
theorem require_lineEnd (reader : ProgramReader) {lexeme : Lexeme}
    (other : ∀ carriageReturn, .endOfStatement carriageReturn ≠ lexeme) (expected : Expected)
    (carriageReturn carriageReturn' : Bool) (position : Position) (phase : Phase) :
    ReadAlike (reader.require lexeme expected ⟨.endOfStatement carriageReturn, position⟩ phase)
      (reader.require lexeme expected ⟨.endOfStatement carriageReturn', position⟩ phase) := by
  rw [require, require, if_neg (other carriageReturn), if_neg (other carriageReturn')]
  exact .error (.unexpected expected _ _ _)

theorem readBody_lineEnd (reader : ProgramReader) (heading : Heading) (body : ExprReader)
    (carriageReturn carriageReturn' : Bool) (position : Position) :
    ReadAlike
      (reader.readBody settings heading body ⟨.endOfStatement carriageReturn, position⟩)
      (reader.readBody settings heading body ⟨.endOfStatement carriageReturn', position⟩) := by
  unfold readBody
  dsimp only
  rw [body.finished?_lineEnd carriageReturn carriageReturn']
  split
  · exact .error (.unexpected .space _ _ _)
  · exact (body.step_lineEnd heading.parameters _ _ _).bind fun _ => .refl _

/-- A reader does the same with either spelling of the end of a statement. -/
theorem step_lineEnd (reader : ProgramReader) (carriageReturn carriageReturn' : Bool)
    (position : Position) :
    ReadAlike (reader.step settings ⟨.endOfStatement carriageReturn, position⟩)
      (reader.step settings ⟨.endOfStatement carriageReturn', position⟩) := by
  rcases reader with ⟨program, count, phase⟩
  cases phase with
  | start => exact require_lineEnd _ (by simp) _ _ _ _ _
  | define => exact require_lineEnd _ (by simp) _ _ _ _ _
  | name => exact .error (.unexpected .functionName _ _ _)
  | word heading => exact require_lineEnd _ (by simp) _ _ _ _ _
  | parameters heading => exact .error (.unexpected .openBrace _ _ _)
  | brace heading => exact .error (.unexpected .space _ _ _)
  | body heading body => exact readBody_lineEnd _ heading body _ _ _
  | bodyEnd heading body => exact require_lineEnd _ (by simp) _ _ _ _ _
  | closed heading body => exact require_lineEnd _ (by simp) _ _ _ _ _
  | statementEnd heading body => exact .ok _

/-! ## Runs -/

/-- Reading on is the same before texts that differ in line ends. -/
theorem runFrom_lineEnds {cursor cursor' : Cursor} (ends : cursor.LineEnds cursor')
    (reader : ProgramReader) :
    ReadAlike (reader.runFrom settings cursor) (reader.runFrom settings cursor') := by
  induction remaining : cursor.rest.length using Nat.strongRecOn
    generalizing cursor cursor' reader with
  | ind remaining ih =>
      subst remaining
      by_cases more : cursor.rest = []
      · have more' := ends.rest.eq_nil_iff.mpr more
        rw [runFrom_of_rest_eq_nil more, runFrom_of_rest_eq_nil more', ends.position]
        exact .refl _
      · have more' : cursor'.rest ≠ [] := mt ends.rest.eq_nil_iff.mp more
        rcases ends.next with ⟨error, next, next'⟩ |
          ⟨token, token', after, after', next, next', same, later⟩
        · rw [runFrom_of_next_eq_error more next, runFrom_of_next_eq_error more' next']
          exact .refl _
        · have stepped : ReadAlike (reader.step settings token) (reader.step settings token') ∧
              token'.checkDigits settings.limits = token.checkDigits settings.limits := by
            cases same with
            | same => exact ⟨.refl _, rfl⟩
            | endOfStatement => exact ⟨reader.step_lineEnd _ _ _, rfl⟩
          have following : ∀ {α : Type} {rest rest' : Except Failure α}, ReadAlike rest rest' →
              ReadAlike (do let _ ← after.next.mapError Failure.lexical; rest)
                (do let _ ← after'.next.mapError Failure.lexical; rest') := by
            intro α rest rest' alike
            rcases later.next with ⟨error, failed, failed'⟩ |
              ⟨_, _, _, _, found, found', _⟩
            · rw [failed, failed']
              exact .error (.same _)
            · rw [found, found']
              exact alike
          rw [runFrom_of_next_eq_ok more next, runFrom_of_next_eq_ok more' next', stepped.2]
          apply stepped.1.bind
          intro reader'
          apply following
          apply (ReadAlike.refl _).bind
          intro _
          exact ih _ (Cursor.length_rest_next_lt next more) later reader' rfl

end ProgramReader

/-- Texts that differ in line ends are read as the same program, or both are refused,
for the same reason. -/
theorem Program.parse_lineEnds {text text' : String} (ends : LineEnds text.toList text'.toList) :
    ReadAlike (Program.parse settings text) (Program.parse settings text') := by
  have start : (Cursor.start text).LineEnds (.start text') := ⟨ends, rfl⟩
  exact ProgramReader.runFrom_lineEnds start .start

end Polycalc

import Polycalc.Proofs.Diagnostic.Lines
import Polycalc.Proofs.Evaluation.Recursion
import Polycalc.Proofs.Program.Origins
import Polycalc.Proofs.Program.Refusal

/-!
# Where diagnostics point

Whatever goes wrong when a text is run, what is said about it either names no place
or points at a place of the text that its tokens lead to, where there is something
on the line (`Program.grounded_of_outcomeOfText`).  A character or a token that does
not fit is such a place itself; the end of the input is refused in the middle of a
definition only, that is, behind something; and the calls that validation and
evaluation complain about stand where a token named their function.
-/

namespace Polycalc

/-- Tokens of the text lead to a place with this position, and there is something on
its line. -/
def PointsInto (text : String) (position : Position) : Prop :=
  ∃ here, (Cursor.start text).Reaches here ∧ here.position = position ∧
    (here.rest ≠ [] ∨ 1 < position.col)

/-- The diagnostic names no place, or it is placed at one that is in the text. -/
inductive Diagnostic.Grounded (text : String) : Diagnostic → Prop
  | unplaced (category : Category) (message : List Piece) :
      Grounded text (.unplaced category message)
  | placed (category : Category) (message : List Piece) {position : Position} (length : Nat)
      (points : PointsInto text position) :
      Grounded text (.placed category message position length)

/-- So is whatever is said about the failure. -/
def Failure.Grounded (text : String) : Failure → Prop
  | source error => error.diagnostic.Grounded text
  | evaluation error => error.diagnostic.Grounded text
  | fault _ => True

variable {settings : Settings} {limits : Limits} {text : String} {failure : Failure}

/-! ## Reading -/

theorem LexError.grounded {error : LexError} (points : PointsInto text error.position) :
    (Failure.lexical error).Grounded text := by
  rcases error with ⟨cause, position⟩
  cases cause with
  | unterminatedStatement => exact .placed _ _ _ points
  | unexpectedCharacter c => exact .placed _ _ _ points

theorem Token.IsRefused.grounded {token : Token} (refused : token.IsRefused settings failure)
    (points : PointsInto text token.position) : failure.Grounded text := by
  cases refused with
  | unexpected expected => exact .placed _ _ _ points
  | unknownParameter named => exact .placed _ _ _ points
  | tooManyArguments bound => exact .placed _ _ _ points
  | unwrittenBound bound unwritten => trivial
  | entryParameter named => exact .placed _ _ _ points
  | nestedTooDeeply => exact .unplaced _ _
  | noArgumentBound unbounded => trivial

theorem Cursor.pointsInto_of_next {here after : Cursor} {token : Token}
    (reaches : (Cursor.start text).Reaches here) (more : here.rest ≠ [])
    (next : here.next = .ok (token, after)) : PointsInto text token.position :=
  ⟨here, reaches, (token_position_of_next next).symm, Or.inl more⟩

theorem Cursor.pointsInto_of_next_eq_error {here : Cursor} {error : LexError}
    (reaches : (Cursor.start text).Reaches here) (more : here.rest ≠ [])
    (next : here.next = .error error) : PointsInto text error.position :=
  ⟨here, reaches, (next_eq_error_iff.mp next).2.symm, Or.inl more⟩

theorem ProgramReader.FailsFrom.grounded
    (fails : ProgramReader.FailsFrom settings (.start text) .start failure) :
    failure.Grounded text := by
  cases fails with
  | lexical reaches more next =>
      exact LexError.grounded (Cursor.pointsInto_of_next_eq_error reaches more next)
  | refused reaches more next refused =>
      exact refused.grounded (Cursor.pointsInto_of_next reaches more next)
  | tooLong _ _ _ _ => trivial
  | atEnd path atEnd begun refused =>
      have behind := ((onLine_start text).path path).begun begun
      exact refused.grounded ⟨_, path.reaches, rfl, Or.inr behind⟩

/-! ## Validation and evaluation -/

namespace Program

variable {program : Program}

/-- A call that was read stands at a place of the text. -/
theorem pointsInto_call (parsed : Program.parse settings text = .ok program) {call : Call}
    (member : call ∈ program.calls) : PointsInto text call.position := by
  rcases calls_readFrom parsed call member _ (Expr.self_mem_parts _) with
    ⟨lexeme, _, _, here, after, reaches, more, next⟩
  exact Cursor.pointsInto_of_next reaches more next

theorem grounded_of_validate (parsed : Program.parse settings text = .ok program)
    (refused : program.validate limits = .error failure) : failure.Grounded text := by
  rcases of_validate_eq_error (registered_of_parse parsed) refused with
    rfl | ⟨call, member, refuses⟩
  · exact .unplaced _ _
  · have points := pointsInto_call parsed member
    cases refuses with
    | unknownFunction written => exact .placed _ _ _ points
    | wrongArity written => exact .placed _ _ _ points
    | nestedTooDeeply => exact .unplaced _ _
    | unwritten unwritten => trivial

/-- The guard stops an evaluation at a call that was read, and no other error of an
evaluation of a sound program names a place. -/
theorem Sound.grounded_of_run (sound : program.Sound)
    (parsed : Program.parse settings text = .ok program)
    (ended : (program.run limits).onNewMachine.1 = .error failure) : failure.Grounded text := by
  rcases sound.of_run_eq_error ended with ⟨fault, rfl⟩ | rfl | ⟨call, quoted, rfl⟩
  · trivial
  · exact .unplaced _ _
  · rcases sound.cited_of_diverges ended with ⟨name, ⟨definition, found, inBody⟩, _⟩
    have member := bodyCalls_subset_calls parsed (calls_body_subset found inBody)
    exact .placed _ _ _ (pointsInto_call parsed member)

end Program

/-! ## Outcomes -/

theorem Outcome.grounded_of_ofResult {ending : Outcome} {diagnostic : Diagnostic}
    {result : Except Failure Int} (ended : Outcome.ofResult result = .ok ending)
    (grounded : ∀ failure, result = .error failure → failure.Grounded text)
    (reported : ending.diagnostic? = some diagnostic) : diagnostic.Grounded text := by
  cases result with
  | ok value =>
      cases ended
      cases reported
  | error failure =>
      have said := grounded failure rfl
      cases failure with
      | source error =>
          cases ended
          cases reported
          exact said
      | fault fault => cases ended
      | evaluation error =>
          cases error
          all_goals
            cases ended
            cases reported
            exact said

/-- What is said about running a text names no place or one that is in the text. -/
theorem Program.grounded_of_outcomeOfText {ending : Outcome} {diagnostic : Diagnostic}
    (ended : (outcomeOfText settings text).1 = .ok ending)
    (reported : ending.diagnostic? = some diagnostic) : diagnostic.Grounded text := by
  unfold outcomeOfText at ended
  split at ended
  · rename_i failure refused
    apply Outcome.grounded_of_ofResult ended _ reported
    rintro _ ⟨⟩
    exact (failsFrom_of_parse refused).grounded
  · rename_i program parsed
    unfold outcome at ended
    split at ended
    · rename_i failure refused
      apply Outcome.grounded_of_ofResult ended _ reported
      rintro _ ⟨⟩
      exact grounded_of_validate parsed refused
    · rename_i valid
      have sound := sound_of_parseValid (parseValid_eq_ok_iff.mpr ⟨parsed, valid⟩)
      apply Outcome.grounded_of_ofResult ended _ reported
      intro failure failed
      exact sound.grounded_of_run parsed failed

end Polycalc

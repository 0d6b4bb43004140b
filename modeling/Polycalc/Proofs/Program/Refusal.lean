import Polycalc.Outcome
import Polycalc.Proofs.Expr.Rendering
import Polycalc.Proofs.Program.Paths
import Polycalc.Proofs.Program.Reading
import Mathlib.Data.List.Induction

/-!
# How a text is refused

A token is refused with an error that is about this token, or because calls are
nested too deeply (`Token.IsRefused`).  Hence reading fails at a place that the
tokens before it lead to, where a character or a token does not fit or a number
is too long (`ProgramReader.FailsFrom`).  Validating a text fails without its
entry function or at one of its calls (`Program.RefusesCall`).  None of these
failures is an error of evaluation, although all of them share one type.
-/

namespace Polycalc

namespace Failure

variable {α : Type} {result : Except Fault α}

theorem ofFault_eq_ok_iff {value : α} : ofFault result = .ok value ↔ result = .ok value := by
  cases result <;> simp [ofFault, Except.mapError]

theorem ofFault_eq_error_iff {failure : Failure} :
    ofFault result = .error failure ↔
      ∃ reason, result = .error reason ∧ failure = fault reason := by
  cases result <;> simp [ofFault, Except.mapError, eq_comm]

end Failure

/-! ## Tokens -/

/-- The token is refused with this failure. -/
inductive Token.IsRefused (settings : Settings) (token : Token) : Failure → Prop
  | unexpected (expected : Expected) :
      IsRefused settings token (.parse (.unexpected expected token))
  | unknownParameter {name : String} (named : token.lexeme = .parameter name) :
      IsRefused settings token (.parse (.unknownParameter name token.position))
  | tooManyArguments {callee : String} {allowed : Int}
      (bound : settings.maxArguments = some allowed) :
      IsRefused settings token (.parse (.tooManyArguments callee allowed token))
  | unwrittenBound {allowed : Int} {fault : Fault} (bound : settings.maxArguments = some allowed)
      (unwritten : settings.limits.write allowed = .error fault) :
      IsRefused settings token (.fault fault)
  | entryParameter {name : String} (named : token.lexeme = .parameter name) :
      IsRefused settings token (.parse (.entryParameter token))
  | nestedTooDeeply : IsRefused settings token (.parse .nestedTooDeeply)
  | noArgumentBound (unbounded : settings.maxArguments = none) :
      IsRefused settings token (.fault .noArgumentBound)

namespace ExprReader

variable {settings : Settings} {scope : List String} {reader : ExprReader} {token : Token}
  {failure : Failure}

theorem isRefused_of_readOperand (failed : reader.readOperand scope token = .error failure) :
    token.IsRefused settings failure := by
  unfold readOperand at failed
  split at failed
  · cases failed
  · rename_i name named
    split at failed
    · cases failed
    · cases failed
      exact .unknownParameter named
  · cases failed
  · cases failed
  · cases failed
    exact .unexpected _

theorem isRefused_overfull {allowed : Int} (bound : settings.maxArguments = some allowed)
    (call : OpenCall) : token.IsRefused settings (call.overfull settings.limits allowed token) := by
  unfold OpenCall.overfull
  cases written : settings.limits.write allowed with
  | ok _ => exact .tooManyArguments bound
  | error fault => exact .unwrittenBound bound written

theorem isRefused_of_checkRoom {call : OpenCall}
    (failed : call.checkRoom settings token = .error failure) :
    token.IsRefused settings failure := by
  unfold OpenCall.checkRoom at failed
  split at failed
  · rename_i unbounded
    cases failed
    exact .noArgumentBound unbounded
  · rename_i allowed bound
    split at failed
    · cases failed
      exact isRefused_overfull bound call
    · cases failed

theorem isRefused_of_readArgument
    (failed : reader.readArgument settings scope token = .error failure) :
    token.IsRefused settings failure := by
  unfold readArgument at failed
  split at failed
  · exact isRefused_of_readOperand failed
  · rcases Except.of_bind_eq_error failed with noRoom | ⟨_, _, unread⟩
    · exact isRefused_of_checkRoom noRoom
    · exact isRefused_of_readOperand unread

/-- A step of a reader of expressions fails by refusing the token. -/
theorem isRefused_of_step (failed : reader.step settings scope token = .error failure) :
    token.IsRefused settings failure := by
  unfold step at failed
  split at failed
  · exact isRefused_of_readOperand failed
  · split at failed
    · unfold openCall at failed
      split at failed
      · cases failed
      · cases failed
        exact .nestedTooDeeply
    · cases failed
      exact .unexpected _
  · unfold readFirstArgument at failed
    split at failed
    · cases failed
    · exact isRefused_of_readArgument failed
  · exact isRefused_of_readArgument failed
  · unfold readContinuation at failed
    split at failed
    · cases failed
    · cases failed
    · cases failed
    · cases failed
    · cases failed
      exact .unexpected _

end ExprReader

namespace ProgramReader

variable {settings : Settings} {reader : ProgramReader} {token : Token} {failure : Failure}

theorem isRefused_of_require {lexeme : Lexeme} {expected : Expected} {phase : Phase}
    (failed : reader.require lexeme expected token phase = .error failure) :
    token.IsRefused settings failure := by
  unfold require at failed
  split at failed
  · cases failed
  · cases failed
    exact .unexpected _

/-- A step of a reader of programs fails by refusing the token. -/
theorem isRefused_of_step (failed : reader.step settings token = .error failure) :
    token.IsRefused settings failure := by
  unfold step at failed
  split at failed
  · exact isRefused_of_require failed
  · exact isRefused_of_require failed
  · unfold readName at failed
    split at failed
    · cases failed
    · cases failed
    · cases failed
      exact .unexpected _
  · exact isRefused_of_require failed
  · unfold readParameter at failed
    split at failed
    · rename_i name named
      split at failed
      · cases failed
        exact .entryParameter named
      · cases failed
    · cases failed
    · cases failed
      exact .unexpected _
  · split at failed
    · cases failed
    · cases failed
      exact .unexpected _
  · unfold readBody at failed
    split at failed
    · split at failed
      · cases failed
      · cases failed
        exact .unexpected _
    · rcases Except.of_bind_eq_error failed with refused | ⟨_, _, entered⟩
      · exact ExprReader.isRefused_of_step refused
      · cases entered
  · exact isRefused_of_require failed
  · exact isRefused_of_require failed
  · split at failed
    · cases failed
    · cases failed
      exact .unexpected _

/-- The end of the input is refused only in the middle of a definition. -/
theorem isRefused_of_finish {last : Token} (failed : reader.finish settings last = .error failure) :
    reader.phase ≠ .start ∧ last.IsRefused settings failure := by
  unfold finish at failed
  split at failed
  · cases failed
  · rename_i begun
    constructor
    · exact begun
    · split at failed
      · rename_i refused
        cases failed
        exact isRefused_of_step refused
      · cases failed
        exact .unexpected _

/-! ## Texts -/

/-- How reading a text from a place on may fail. -/
inductive FailsFrom (settings : Settings) (cursor : Cursor) (reader : ProgramReader) :
    Failure → Prop
  /-- at a character that begins no lexeme -/
  | lexical {here : Cursor} {error : LexError} (reaches : cursor.Reaches here)
      (more : here.rest ≠ []) (next : here.next = .error error) :
      FailsFrom settings cursor reader (.lexical error)
  /-- at a token that is refused -/
  | refused {here after : Cursor} {token : Token} {failure : Failure}
      (reaches : cursor.Reaches here) (more : here.rest ≠ [])
      (next : here.next = .ok (token, after)) (refused : token.IsRefused settings failure) :
      FailsFrom settings cursor reader failure
  /-- at a number that is too long -/
  | tooLong {here after : Cursor} {token : Token} {fault : Fault}
      (reaches : cursor.Reaches here) (more : here.rest ≠ [])
      (next : here.next = .ok (token, after))
      (tooLong : token.checkDigits settings.limits = .error fault) :
      FailsFrom settings cursor reader (.fault fault)
  /-- at the end of the input, in the middle of a definition -/
  | atEnd {definitions : List Definition} {final : Cursor} {last : ProgramReader}
      {failure : Failure} (path : Path settings cursor reader definitions final last)
      (atEnd : final.rest = []) (begun : last.phase ≠ .start)
      (refused : Token.IsRefused settings ⟨.endOfInput, final.position⟩ failure) :
      FailsFrom settings cursor reader failure

/-- What fails further on fails. -/
theorem FailsFrom.head {cursor after : Cursor} {reader' : ProgramReader}
    (fails : FailsFrom settings after reader' failure) (more : cursor.rest ≠ [])
    (next : cursor.next = .ok (token, after)) (short : token.checkDigits settings.limits = .ok ())
    (reads : Reads settings reader token reader') : FailsFrom settings cursor reader failure := by
  have advances : cursor.Advances after := ⟨more, token, next⟩
  cases fails with
  | lexical reaches more' next' => exact .lexical (reaches.head advances) more' next'
  | refused reaches more' next' refused =>
      exact .refused (reaches.head advances) more' next' refused
  | tooLong reaches more' next' tooLong =>
      exact .tooLong (reaches.head advances) more' next' tooLong
  | atEnd path atEnd begun refused =>
      exact .atEnd (.step more next short reads path) atEnd begun refused

theorem failsFrom_of_runFrom {cursor : Cursor}
    (failed : reader.runFrom settings cursor = .error failure) :
    FailsFrom settings cursor reader failure := by
  induction remaining : cursor.rest.length using Nat.strongRecOn
    generalizing cursor reader with
  | ind remaining ih =>
      subst remaining
      by_cases more : cursor.rest = []
      · rw [runFrom_of_rest_eq_nil more] at failed
        rcases isRefused_of_finish failed with ⟨begun, refused⟩
        exact .atEnd .refl more begun refused
      · cases next : cursor.next with
        | error error =>
            rw [runFrom_of_next_eq_error more next] at failed
            cases failed
            exact .lexical .refl more next
        | ok read =>
            rcases read with ⟨token, after⟩
            have advances : cursor.Advances after := ⟨more, token, next⟩
            rw [runFrom_of_next_eq_ok more next] at failed
            rcases Except.of_bind_eq_error failed with refused | ⟨reader', stepped, failed⟩
            · exact .refused .refl more next (isRefused_of_step refused)
            rcases Except.of_bind_eq_error failed with noToken | ⟨_, _, failed⟩
            · -- The token after this one is looked at before the digits are counted.
              have more' : after.rest ≠ [] := by
                intro atEnd
                rw [Cursor.next_of_rest_eq_nil atEnd] at noToken
                cases noToken
              cases next' : after.next with
              | error error =>
                  rw [next'] at noToken
                  cases noToken
                  exact .lexical (.single advances) more' next'
              | ok _ =>
                  rw [next'] at noToken
                  cases noToken
            rcases Except.of_bind_eq_error failed with tooLong | ⟨_, short, failed⟩
            · rcases Failure.ofFault_eq_error_iff.mp tooLong with ⟨fault, checked, rfl⟩
              exact .tooLong .refl more next checked
            · have later := ih _ (Cursor.length_rest_next_lt next more) failed rfl
              exact later.head more next (Failure.ofFault_eq_ok_iff.mp short)
                (step_eq_ok_iff.mp stepped)

theorem FailsFrom.ne_evaluation {cursor : Cursor} (fails : FailsFrom settings cursor reader failure)
    (error : EvalError) : failure ≠ .evaluation error := by
  cases fails with
  | lexical _ _ _ => exact nofun
  | refused _ _ _ refused => cases refused <;> exact nofun
  | tooLong _ _ _ _ => exact nofun
  | atEnd _ _ _ refused => cases refused <;> exact nofun

end ProgramReader

/-! ## Validation -/

namespace Program

variable {settings : Settings} {limits : Limits} {program : Program} {failure : Failure}

theorem failsFrom_of_parse {text : String} (failed : Program.parse settings text = .error failure) :
    ProgramReader.FailsFrom settings (.start text) .start failure :=
  ProgramReader.failsFrom_of_runFrom failed

theorem registered_ofDefinitions (definitions : List Definition) :
    (ofDefinitions definitions).registered = [] := by
  induction definitions using List.reverseRecOn with
  | nil => rfl
  | append_singleton definitions definition ih =>
      rw [ofDefinitions_append]
      exact ih

/-- Nothing is registered by hand in a program that was read. -/
theorem registered_of_parse {text : String} (parsed : Program.parse settings text = .ok program) :
    program.registered = [] := by
  rcases exists_definitions parsed with ⟨definitions, rfl, _⟩
  exact registered_ofDefinitions definitions

/-- Validation refuses the call with this failure. -/
inductive RefusesCall (limits : Limits) (call : Call) : Failure → Prop
  | unknownFunction {text : String} (written : call.render limits = .ok text) :
      RefusesCall limits call (.parse (.unknownFunction call.toExpr text))
  | wrongArity {text : String} {target : Definition} (written : call.render limits = .ok text) :
      RefusesCall limits call (.parse (.wrongArity call text target))
  | nestedTooDeeply : RefusesCall limits call (.parse .nestedTooDeeply)
  | unwritten {fault : Fault} (unwritten : call.render limits = .error fault) :
      RefusesCall limits call (.fault fault)

theorem refusesCall_of_badCallText {call : Call}
    (failed : badCallText limits call.toExpr = .error failure) :
    RefusesCall limits call failure := by
  unfold badCallText at failed
  split at failed
  · rcases Failure.ofFault_eq_error_iff.mp failed with ⟨fault, unwritten, rfl⟩
    exact .unwritten unwritten
  · cases failed
    exact .nestedTooDeeply

theorem render_of_badCallText {call : Call} {text : String}
    (quoted : badCallText limits call.toExpr = .ok text) : call.render limits = .ok text := by
  unfold badCallText at quoted
  split at quoted
  · exact Failure.ofFault_eq_ok_iff.mp quoted
  · cases quoted

theorem refusesCall_of_checkCall {call : Call}
    (failed : program.checkCall limits call = .error failure) :
    RefusesCall limits call failure := by
  unfold checkCall at failed
  split at failed
  · rcases Except.of_bind_eq_error failed with unquoted | ⟨text, quoted, thrown⟩
    · exact refusesCall_of_badCallText unquoted
    · cases thrown
      exact .unknownFunction (render_of_badCallText quoted)
  · split at failed
    · cases failed
    · rcases Except.of_bind_eq_error failed with unquoted | ⟨text, quoted, thrown⟩
      · exact refusesCall_of_badCallText unquoted
      · cases thrown
        exact .wrongArity (render_of_badCallText quoted)

theorem exists_of_forM_eq_error {ε α : Type} {check : α → Except ε Unit} {values : List α}
    {reason : ε} (failed : values.forM check = .error reason) :
    ∃ value ∈ values, check value = .error reason := by
  induction values with
  | nil => cases failed
  | cons value rest ih =>
      rcases Except.of_bind_eq_error failed with first | ⟨_, _, others⟩
      · exact ⟨value, List.mem_cons_self, first⟩
      · rcases ih others with ⟨other, member, failed⟩
        exact ⟨other, List.mem_cons_of_mem _ member, failed⟩

/-- A program that was read is refused without its entry function or for one of
its calls. -/
theorem of_validate_eq_error (nothing : program.registered = [])
    (failed : program.validate limits = .error failure) :
    failure = .parse .noEntry ∨ ∃ call ∈ program.calls, RefusesCall limits call failure := by
  unfold validate at failed
  split at failed
  · rcases Except.of_bind_eq_error failed with bad | ⟨_, _, bad⟩
    · rcases exists_of_forM_eq_error bad with ⟨call, member, failed⟩
      exact Or.inr ⟨call, member, refusesCall_of_checkCall failed⟩
    · rw [nothing] at bad
      cases bad
  · cases failed
    exact Or.inl rfl

theorem validate_ne_evaluation (nothing : program.registered = []) (error : EvalError) :
    program.validate limits ≠ .error (.evaluation error) := by
  intro failed
  rcases of_validate_eq_error nothing failed with noEntry | ⟨call, _, refused⟩
  · cases noEntry
  · cases refused

end Program

/-! ## Failed evaluations -/

theorem Outcome.of_ofResult_eq_evaluationFailed {result : Except Failure Int} {error : EvalError}
    (failed : ofResult result = .ok (.evaluationFailed error)) :
    result = .error (.evaluation error) ∧ ∀ call text, error ≠ .diverges call text := by
  unfold ofResult at failed
  split at failed
  · cases failed
  · cases failed
  · cases failed
  · rename_i notDiverges
    cases failed
    exact ⟨rfl, notDiverges⟩
  · cases failed

/-- An error of a text that cannot be read is its outcome. -/
theorem Program.outcomeOfText_of_parse_eq_error {settings : Settings} {text : String}
    {error : SourceError} (refused : Program.parse settings text = .error (.source error)) :
    (outcomeOfText settings text).1 = .ok (.parseFailed error) := by
  rw [outcomeOfText, refused]
  rfl

/-- Only the evaluation of a program that was read and has passed validation
counts as one that fails. -/
theorem Program.of_outcomeOfText_eq_evaluationFailed {settings : Settings} {text : String}
    {error : EvalError}
    (failed : (outcomeOfText settings text).1 = .ok (.evaluationFailed error)) :
    ∃ program, Program.parse settings text = .ok program ∧
      program.validate settings.limits = .ok () ∧
      (program.run settings.limits).onNewMachine.1 = .error (.evaluation error) ∧
      ∀ call quoted, error ≠ .diverges call quoted := by
  unfold outcomeOfText at failed
  split at failed
  · rename_i failure refused
    cases (Outcome.of_ofResult_eq_evaluationFailed failed).1
    exact absurd rfl ((failsFrom_of_parse refused).ne_evaluation error)
  · rename_i program parsed
    unfold outcome at failed
    split at failed
    · rename_i failure refused
      cases (Outcome.of_ofResult_eq_evaluationFailed failed).1
      exact absurd refused (validate_ne_evaluation (registered_of_parse parsed) error)
    · rename_i valid
      exact ⟨program, parsed, valid, Outcome.of_ofResult_eq_evaluationFailed failed⟩

end Polycalc

import Polycalc.Program.Validation
import Polycalc.Proofs.Program.Refusal

/-!
# Reading within wider limits

Limits come in at three places while a text is read: where a call is nested one deeper,
where a number is left behind that may be too long, and where an error quotes how many
arguments a call may have.  Within wider limits a text is read in the same way up to the
first place where one of them is met (`Program.parse_sameUnlessLimited`).  Afterwards the
calls are compared with the definitions in the same way, unless one of them is nested too
deeply to be quoted (`Program.validate_sameUnlessLimited`).
-/

namespace Polycalc

/-- The limits of the freer settings are wider, and nothing else is different. -/
structure Settings.Freer (settings freer : Settings) : Prop where
  maxArguments : freer.maxArguments = settings.maxArguments
  nesting : ∀ depth, settings.limits.allowsNesting depth = true →
    freer.limits.allowsNesting depth = true
  digits : freer.limits.digits = settings.limits.digits ∨ freer.limits.digits = none

/-- The first result is the same as the second one, which is that within wider limits, or
it comes from a limit that was met and is wider for the second one. -/
inductive SameUnlessLimited (settings freer : Settings) (tokens : List Token) {α : Type} :
    Except Failure α → Except Failure α → Prop
  | same (result : Except Failure α) : SameUnlessLimited settings freer tokens result result
  | nesting {depth : Nat} (deep : settings.limits.allowsNesting depth = false)
      (allowed : freer.limits.allowsNesting depth = true) (other : Except Failure α) :
      SameUnlessLimited settings freer tokens (.error (.parse .nestedTooDeeply)) other
  | numeral {token : Token} {fault : Fault} (member : token ∈ tokens)
      (long : token.checkDigits settings.limits = .error fault)
      (allowed : token.checkDigits freer.limits = .ok ()) (other : Except Failure α) :
      SameUnlessLimited settings freer tokens (.error (.fault fault)) other
  /-- the error that there is within the wider limits quotes the bound on arguments -/
  | bound {allowed : Int} {fault : Fault} {callee text : String} {found : Token}
      (bound : settings.maxArguments = some allowed)
      (unwritten : settings.limits.write allowed = .error fault)
      (written : freer.limits.write allowed = .ok text) :
      SameUnlessLimited settings freer tokens (.error (.fault fault))
        (.error (.parse (.tooManyArguments callee allowed found)))

namespace SameUnlessLimited

variable {settings freer : Settings} {tokens : List Token} {α β : Type}

/-- Results of two stages, if those that follow one value compare. -/
theorem bind {first second : Except Failure α} {rest rest' : α → Except Failure β}
    (compares : SameUnlessLimited settings freer tokens first second)
    (each : ∀ value, SameUnlessLimited settings freer tokens (rest value) (rest' value)) :
    SameUnlessLimited settings freer tokens (first >>= rest) (second >>= rest') := by
  cases compares with
  | same =>
      cases first with
      | error failure => exact .same _
      | ok value => exact each value
  | nesting deep allowed other => exact .nesting deep allowed _
  | numeral member long allowed other => exact .numeral member long allowed _
  | bound bound unwritten written => exact .bound bound unwritten written

theorem forM {γ : Type} {check check' : γ → Except Failure Unit}
    (each : ∀ value, SameUnlessLimited settings freer tokens (check value) (check' value))
    (values : List γ) :
    SameUnlessLimited settings freer tokens (values.forM check) (values.forM check') := by
  induction values with
  | nil => exact .same _
  | cons value rest ih => exact (each value).bind fun _ => ih

/-- With the same limit on numerals only a nest that is too deep makes a difference. -/
theorem eq_of_room {first second : Except Failure α}
    (compares : SameUnlessLimited settings freer tokens first second)
    (digits : freer.limits.digits = settings.limits.digits)
    (room : first ≠ .error (.parse .nestedTooDeeply)) : first = second := by
  cases compares with
  | same => rfl
  | nesting => exact absurd rfl room
  | @numeral token fault member long allowed =>
      have same : token.checkDigits freer.limits = token.checkDigits settings.limits := by
        unfold Token.checkDigits Limits.checkDigits
        rw [digits]
      cases long.symm.trans (same.symm.trans allowed)
  | bound _ unwritten written =>
      rw [Limits.write_congr digits, unwritten] at written
      cases written

end SameUnlessLimited

variable {settings freer : Settings} {tokens : List Token}

/-! ## Steps -/

section

variable (isFreer : settings.Freer freer)

include isFreer

theorem OpenCall.overfull_sameUnlessLimited {α : Type} (call : OpenCall) {allowed : Int}
    (bound : settings.maxArguments = some allowed) (token : Token) :
    SameUnlessLimited settings freer tokens
      (.error (call.overfull settings.limits allowed token) : Except Failure α)
      (.error (call.overfull freer.limits allowed token)) := by
  cases unwritten : settings.limits.write allowed with
  | ok text =>
      have written : freer.limits.write allowed = .ok text := by
        rcases isFreer.digits with same | unbounded
        · rw [Limits.write_congr same, unwritten]
        · rw [← Limits.write_eq_of_unbounded ⟨text, unwritten⟩ unbounded, unwritten]
      simp only [overfull, unwritten, written]
      exact .same _
  | error fault =>
      cases written : freer.limits.write allowed with
      | ok text =>
          simp only [overfull, unwritten, written]
          exact .bound bound unwritten written
      | error fault' =>
          have same : freer.limits.digits = settings.limits.digits := by
            rcases isFreer.digits with same | unbounded
            · exact same
            · rw [Limits.write_eq_ok unbounded] at written
              cases written
          rw [Limits.write_congr same, unwritten] at written
          cases written
          simp only [overfull, unwritten, Limits.write_congr same]
          exact .same _

theorem OpenCall.checkRoom_sameUnlessLimited (call : OpenCall) (token : Token) :
    SameUnlessLimited settings freer tokens (call.checkRoom settings token)
      (call.checkRoom freer token) := by
  unfold checkRoom
  rw [isFreer.maxArguments]
  cases bound : settings.maxArguments with
  | none => exact .same _
  | some allowed =>
      dsimp only
      split
      · exact call.overfull_sameUnlessLimited isFreer bound token
      · exact .same _

namespace ExprReader

theorem openCall_sameUnlessLimited (reader : ExprReader) (name : String) (position : Position) :
    SameUnlessLimited settings freer tokens (reader.openCall settings name position)
      (reader.openCall freer name position) := by
  unfold openCall
  cases shallow : settings.limits.allowsNesting (reader.stack.length + 1) with
  | true =>
      rw [isFreer.nesting _ shallow]
      exact .same _
  | false =>
      cases allowed : freer.limits.allowsNesting (reader.stack.length + 1) with
      | true => exact .nesting shallow allowed _
      | false => exact .same _

theorem readArgument_sameUnlessLimited (scope : List String) (reader : ExprReader)
    (token : Token) :
    SameUnlessLimited settings freer tokens (reader.readArgument settings scope token)
      (reader.readArgument freer scope token) := by
  unfold readArgument
  split
  · exact .same _
  · exact (OpenCall.checkRoom_sameUnlessLimited isFreer _ token).bind fun _ => .same _

theorem step_sameUnlessLimited (scope : List String) (reader : ExprReader) (token : Token) :
    SameUnlessLimited settings freer tokens (reader.step settings scope token)
      (reader.step freer scope token) := by
  unfold step
  split
  · exact .same _
  · split
    · exact reader.openCall_sameUnlessLimited isFreer _ _
    · exact .same _
  · unfold readFirstArgument
    split
    · exact .same _
    · exact reader.readArgument_sameUnlessLimited isFreer scope token
  · exact reader.readArgument_sameUnlessLimited isFreer scope token
  · exact .same _

end ExprReader

namespace ProgramReader

theorem step_sameUnlessLimited (reader : ProgramReader) (token : Token) :
    SameUnlessLimited settings freer tokens (reader.step settings token)
      (reader.step freer token) := by
  rcases reader with ⟨program, count, phase⟩
  cases phase with
  | body heading body =>
      simp only [step, readBody]
      split
      · exact .same _
      · exact (body.step_sameUnlessLimited isFreer heading.parameters token).bind fun _ => .same _
  | _ => exact .same _

omit isFreer in
/-- In the middle of a definition the end of the input is read and refused. -/
theorem finish_eq_bind {reader : ProgramReader} (begun : reader.phase ≠ .start) (last : Token) :
    reader.finish settings last =
      reader.step settings last >>= fun _ => .error (.parse (.unexpected .definition last)) := by
  unfold finish
  split
  · exact absurd ‹_› begun
  · cases reader.step settings last <;> rfl

theorem finish_sameUnlessLimited (reader : ProgramReader) (last : Token) :
    SameUnlessLimited settings freer tokens (reader.finish settings last)
      (reader.finish freer last) := by
  by_cases begun : reader.phase = .start
  · unfold finish
    rw [begun]
    exact .same _
  · rw [finish_eq_bind begun, finish_eq_bind begun]
    exact (reader.step_sameUnlessLimited isFreer last).bind fun _ => .same _

/-- A number that may be left behind within the limits may be so within wider ones. -/
theorem checkDigits_sameUnlessLimited {token : Token} (member : token ∈ tokens) :
    SameUnlessLimited settings freer tokens
      (Failure.ofFault (token.checkDigits settings.limits))
      (Failure.ofFault (token.checkDigits freer.limits)) := by
  rcases token with ⟨lexeme, position⟩
  cases lexeme with
  | number digits =>
      rcases isFreer.digits with same | unbounded
      · simp only [Token.checkDigits, Limits.checkDigits, same]
        exact .same _
      · have allowed : Token.checkDigits freer.limits ⟨.number digits, position⟩ = .ok () := by
          simp only [Token.checkDigits, Limits.checkDigits, unbounded]
        rw [allowed]
        cases long : Token.checkDigits settings.limits ⟨.number digits, position⟩ with
        | ok _ => exact .same _
        | error fault => exact .numeral member long allowed _
  | _ => exact .same _

/-- Tokens are read in the same way within wider limits, up to where a limit is met. -/
theorem run_sameUnlessLimited (ending : Except LexError Token) {remaining : List Token}
    (subset : remaining ⊆ tokens) (reader : ProgramReader) :
    SameUnlessLimited settings freer tokens (reader.run settings ending remaining)
      (reader.run freer ending remaining) := by
  induction remaining generalizing reader with
  | nil =>
      unfold run
      cases ending with
      | error error => exact .same _
      | ok last => exact reader.finish_sameUnlessLimited isFreer last
  | cons token remaining ih =>
      rw [List.cons_subset] at subset
      rw [run, run]
      apply (reader.step_sameUnlessLimited isFreer token).bind
      intro reader'
      apply (SameUnlessLimited.same _).bind
      intro _
      apply (checkDigits_sameUnlessLimited isFreer subset.1).bind
      exact fun _ => ih subset.2 reader'

end ProgramReader

namespace Program

/-- A text is read in the same way within wider limits, unless a limit is met. -/
theorem parse_sameUnlessLimited (text : String) :
    SameUnlessLimited settings freer (Cursor.start text).scanAll.tokens
      (Program.parse settings text) (Program.parse freer text) :=
  ProgramReader.run_sameUnlessLimited isFreer _ (List.Subset.refl _) .start

end Program

end

/-! ## Validation -/

namespace Program

variable (isFreer : settings.Freer freer)
  (digits : freer.limits.digits = settings.limits.digits)

include isFreer digits

theorem badCallText_sameUnlessLimited (reference : Expr) :
    SameUnlessLimited settings freer tokens (badCallText settings.limits reference)
      (badCallText freer.limits reference) := by
  have same : reference.render freer.limits = reference.render settings.limits :=
    Expr.render_congr fun value _ _ => Limits.write_congr digits value
  unfold badCallText
  rw [same]
  cases shallow : settings.limits.allowsNesting reference.nesting with
  | true =>
      rw [isFreer.nesting _ shallow]
      exact .same _
  | false =>
      cases allowed : freer.limits.allowsNesting reference.nesting with
      | true => exact .nesting shallow allowed _
      | false => exact .same _

theorem refuseUnknown_sameUnlessLimited (reference : Expr) :
    SameUnlessLimited settings freer tokens (refuseUnknown settings.limits reference)
      (refuseUnknown freer.limits reference) :=
  (badCallText_sameUnlessLimited isFreer digits reference).bind fun _ => .same _

theorem checkCall_sameUnlessLimited (program : Program) (call : Call) :
    SameUnlessLimited settings freer tokens (program.checkCall settings.limits call)
      (program.checkCall freer.limits call) := by
  unfold checkCall
  split
  · exact refuseUnknown_sameUnlessLimited isFreer digits call.toExpr
  · split
    · exact .same _
    · exact (badCallText_sameUnlessLimited isFreer digits call.toExpr).bind fun _ => .same _

theorem checkRegistered_sameUnlessLimited (program : Program) (reference : Expr) :
    SameUnlessLimited settings freer tokens (program.checkRegistered settings.limits reference)
      (program.checkRegistered freer.limits reference) := by
  unfold checkRegistered
  split
  · exact program.checkCall_sameUnlessLimited isFreer digits _
  · split
    · exact .same _
    · split
      · exact .same _
      · exact refuseUnknown_sameUnlessLimited isFreer digits reference

/-- With the same limit on numerals, a program is validated in the same way within wider
limits, unless a bad call is nested too deeply. -/
theorem validate_sameUnlessLimited (program : Program) :
    SameUnlessLimited settings freer tokens (program.validate settings.limits)
      (program.validate freer.limits) := by
  unfold validate
  split
  · exact (SameUnlessLimited.forM (program.checkCall_sameUnlessLimited isFreer digits) _).bind
      fun _ => .forM (program.checkRegistered_sameUnlessLimited isFreer digits) _
  · exact .same _

end Program

end Polycalc

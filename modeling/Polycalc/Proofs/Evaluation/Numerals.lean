import Polycalc.Proofs.Evaluation.Guard

/-!
# Evaluations within a limit on numerals

Integers have no bound.  The limit on numerals comes in only where a text is
written: for the step into a call and the step out of it, with or without a
trace, and where an error quotes a call.  So if the numbers of a program and the
values in its steps can be written, an evaluation without the limit is one
within it (`Program.Runs.within`).
-/

namespace Polycalc

/-- The integers that a step shows. -/
def Step.values : Step → List Int
  | .enter _ arguments _ => arguments
  | .leave _ value _ => [value]

/-- Every one of the integers can be written. -/
def Limits.CanWrite (limits : Limits) (values : List Int) : Prop :=
  ∀ value ∈ values, ∃ text, limits.write value = .ok text

namespace Program

variable {limits free : Limits} {program : Program}

/-! ## Texts -/

theorem entryText_eq_of_canWrite (unbounded : free.digits = none) {call : Call}
    (writable : call.toExpr.Writable limits) {values : List Int}
    (short : limits.CanWrite values) :
    call.entryText limits values = call.entryText free values := by
  cases values with
  | nil => exact writable.render_eq unbounded
  | cons value rest =>
      have same : (value :: rest).mapM limits.write = (value :: rest).mapM free.write :=
        mapM_congr_of_forall fun other member =>
          Limits.write_eq_of_unbounded (short other member) unbounded
      simp only [Call.entryText, same]

theorem exitText_eq_of_canWrite (unbounded : free.digits = none) (call : Call) {value : Int}
    (short : limits.CanWrite [value]) : call.exitText limits value = call.exitText free value := by
  have same := Limits.write_eq_of_unbounded (short value List.mem_cons_self) unbounded
  rw [Call.exitText, Call.exitText, same]

theorem arguments_writable {call : Call} (genuine : call.toExpr.Genuine)
    (writable : call.toExpr.Writable limits) :
    ∀ argument ∈ call.arguments, argument.Genuine ∧ argument.Writable limits := by
  intro argument member
  have within := Expr.parts_argument_subset member call.site call.name call.position
  exact ⟨genuine.of_subset within, writable.of_subset within⟩

/-! ## Runs -/

/-- The values in the steps can be written. -/
def StepsWritable (limits : Limits) (steps : List Step) : Prop :=
  ∀ step ∈ steps, limits.CanWrite step.values

@[simp]
theorem stepsWritable_append_iff {steps moreSteps : List Step} :
    StepsWritable limits (steps ++ moreSteps) ↔
      StepsWritable limits steps ∧ StepsWritable limits moreSteps :=
  List.forall_mem_append

@[simp]
theorem stepsWritable_singleton_iff {step : Step} :
    StepsWritable limits [step] ↔ limits.CanWrite step.values :=
  List.forall_mem_singleton

/-- Where the numbers of the program and the values in the steps can be written,
a run without a limit on numerals is one within the limit. -/
theorem Runs.within (unbounded : free.digits = none)
    (bodies : ∀ body ∈ program.bodies, body.Genuine ∧ body.Writable limits) {budget : Nat}
    {live : List Expr} {binding : Binding} {expr : Expr} {result : Except Failure Int}
    {steps : List Step} (runs : Runs free program budget live binding expr result steps)
    (genuine : expr.Genuine) (writable : expr.Writable limits)
    (short : StepsWritable limits steps) :
    Runs limits program budget live binding expr result steps := by
  induction runs using @Runs.rec free program _
    (fun budget live binding exprs result steps _ =>
      (∀ expr ∈ exprs, expr.Genuine ∧ expr.Writable limits) → StepsWritable limits steps →
        RunsAll limits program budget live binding exprs result steps)
    (fun budget live binding call result steps _ =>
      call.toExpr.Genuine → call.toExpr.Writable limits → StepsWritable limits steps →
        RunsCall limits program budget live binding call result steps) with
  | number => exact .number
  | parameter bound => exact .parameter bound
  | unbound free => exact .unbound free
  | call _ ih => exact .call (ih genuine writable short)
  | chain _ ih =>
      apply Runs.chain
      apply ih _ short
      intro operand member
      have within := Expr.parts_operands_subset member
      exact ⟨genuine.of_subset within, writable.of_subset within⟩
  | operandFails _ ih =>
      apply Runs.operandFails
      apply ih _ short
      intro operand member
      have within := Expr.parts_operands_subset member
      exact ⟨genuine.of_subset within, writable.of_subset within⟩
  | foreign => exact .foreign
  | nil _ _ => exact .nil
  | cons _ _ firstIh othersIh each short =>
      rw [List.forall_mem_cons] at each
      rw [stepsWritable_append_iff] at short
      exact .cons (firstIh each.1.1 each.1.2 short.1) (othersIh each.2 short.2)
  | firstFails _ ih each short =>
      rw [List.forall_mem_cons] at each
      exact .firstFails (ih each.1.1 each.1.2 short)
  | laterFails _ _ firstIh othersIh each short =>
      rw [List.forall_mem_cons] at each
      rw [stepsWritable_append_iff] at short
      exact .laterFails (firstIh each.1.1 each.1.2 short.1) (othersIh each.2 short.2)
  | reentered isLive _ writable _ =>
      have same := writable.render_eq unbounded
      rw [Call.render, ← same]
      exact .reentered isLive
  | exhausted notLive _ _ _ => exact .exhausted notLive
  | argumentFails notLive _ ih genuine writable short =>
      exact .argumentFails notLive (ih (arguments_writable genuine writable) short)
  | unknownFunction notLive _ unknown ih genuine writable short =>
      have same := writable.render_eq unbounded
      rw [Call.render, ← same]
      exact .unknownFunction notLive (ih (arguments_writable genuine writable) short) unknown
  | entryFault _ _ _ unwritten _ genuine _ _ =>
      rcases exists_of_entryText_eq_error genuine unwritten with ⟨value, tooLong⟩
      rw [Limits.write_eq_ok unbounded] at tooLong
      cases tooLong
  | wrongArgumentCount notLive _ found written mismatch ih genuine writable short =>
      simp only [stepsWritable_append_iff, stepsWritable_singleton_iff, Step.values] at short
      rw [← entryText_eq_of_canWrite unbounded writable short.2] at written
      exact .wrongArgumentCount notLive (ih (arguments_writable genuine writable) short.1) found
        written mismatch
  | bodyFails notLive _ found written fits _ ih bodyIh genuine writable short =>
      simp only [stepsWritable_append_iff, stepsWritable_singleton_iff, Step.values] at short
      rw [← entryText_eq_of_canWrite unbounded writable short.2.1] at written
      have body := bodies _ (body_mem_bodies found)
      exact .bodyFails notLive (ih (arguments_writable genuine writable) short.1) found written
        fits (bodyIh body.1 body.2 short.2.2)
  | exitFault _ _ _ _ _ _ unwritten _ _ _ _ _ =>
      have tooLong := of_exitText_eq_error unwritten
      rw [Limits.write_eq_ok unbounded] at tooLong
      cases tooLong
  | returns notLive _ found written fits _ leaving ih bodyIh genuine writable short =>
      simp only [stepsWritable_append_iff, stepsWritable_singleton_iff, Step.values] at short
      rw [← entryText_eq_of_canWrite unbounded writable short.2.1] at written
      rw [← exitText_eq_of_canWrite unbounded _ short.2.2.2] at leaving
      have body := bodies _ (body_mem_bodies found)
      exact .returns notLive (ih (arguments_writable genuine writable) short.1) found written
        fits (bodyIh body.1 body.2 short.2.2.1) leaving

end Program

end Polycalc

import Polycalc.Proofs.Program.Refusal
import Polycalc.Proofs.Program.Soundness
import Mathlib

/-!
# Evaluation in sound programs

In a sound program an expression that uses bound parameters only and whose
calls fit has no derivation but that of a value (`Sound.exists_value`), and the
value is not negative if the bound ones are not.  Hence a program that has
passed validation gives a value or is stopped by the guard.
-/

namespace Polycalc

/-! ## Bindings -/

namespace Binding

/-- Every name of the scope has a value. -/
def Covers (binding : Binding) (scope : List String) : Prop :=
  ∀ name ∈ scope, ∃ value, binding.lookup name = some value

/-- No value is negative. -/
def Nonnegative (binding : Binding) : Prop :=
  ∀ name value, binding.lookup name = some value → 0 ≤ value

theorem covers_ofArguments {parameters : List String} {values : List Int}
    (fits : values.length = parameters.length) :
    (ofArguments parameters values).Covers parameters := by
  intro name declared
  have names : (parameters.zip values).map Prod.fst = parameters :=
    List.map_fst_zip (Nat.le_of_eq fits.symm)
  rw [← Option.isSome_iff_exists, List.lookup_isSome_iff]
  rw [← names, List.mem_map] at declared
  rcases declared with ⟨entry, member, rfl⟩
  exact ⟨entry, List.mem_reverse.mpr member, beq_self_eq_true _⟩

theorem nonnegative_ofArguments {parameters : List String} {values : List Int}
    (nonnegative : ∀ value ∈ values, 0 ≤ value) :
    (ofArguments parameters values).Nonnegative := by
  intro name value bound
  rcases List.lookup_eq_some_iff.mp bound with ⟨before, after, split, _⟩
  have member : (name, value) ∈ (parameters.zip values).reverse := by
    rw [ofArguments] at split
    rw [split]
    simp
  exact nonnegative value (List.of_mem_zip (List.mem_reverse.mp member)).2

end Binding

theorem Operator.fold_nonneg (operator : Operator) {values : List Int}
    (nonnegative : ∀ value ∈ values, 0 ≤ value) : 0 ≤ operator.fold values := by
  cases values with
  | nil => exact Int.le_refl 0
  | cons first rest =>
      rw [List.forall_mem_cons] at nonnegative
      rcases nonnegative with ⟨start, others⟩
      simp only [fold]
      induction rest generalizing first with
      | nil => exact start
      | cons next rest ih =>
          rw [List.forall_mem_cons] at others
          refine ih _ ?_ others.2
          cases operator with
          | sum => exact Int.add_nonneg start others.1
          | product => exact Int.mul_nonneg start others.1

namespace Program

variable {limits : Limits} {program : Program}

/-! ## Progress -/

/-- What may be evaluated where these parameters are bound: its parts are
declared, and its calls fit. -/
structure Fits (program : Program) (scope : List String) (expr : Expr) : Prop where
  readIn : expr.ReadIn scope
  calls : ∀ call ∈ expr.calls, program.Accepts call

namespace Fits

variable {scope : List String}

theorem of_subset {expr part : Expr} (fits : program.Fits scope expr)
    (subset : part.parts ⊆ expr.parts) : program.Fits scope part where
  readIn := fun below member => fits.readIn below (subset member)
  calls := by
    intro call member
    rw [Expr.mem_calls_iff] at member
    exact fits.calls call (Expr.mem_calls_iff.mpr (subset member))

theorem operand {operator : Operator} {left right operand : Expr} {position : Position}
    (fits : program.Fits scope (.binary operator left right position))
    (member : operand ∈ (Expr.binary operator left right position).operands) :
    program.Fits scope operand :=
  fits.of_subset (Expr.parts_operands_subset member)

theorem argument {call : Call} {argument : Expr} (fits : program.Fits scope call.toExpr)
    (member : argument ∈ call.arguments) : program.Fits scope argument :=
  fits.of_subset (Expr.parts_argument_subset member _ _ _)

end Fits

/-- In a sound program the body of every function fits its parameters. -/
theorem Sound.body_fits (sound : program.Sound) {name : String} {callee : Definition}
    (found : program.find? name = some callee) :
    program.Fits callee.parameters callee.body where
  readIn := sound.bodies callee (mem_entries_of_find? found).1
  calls := fun call inBody => sound.calls call (calls_body_subset found inBody)

/-- Whatever the evaluation of several expressions ends with, it is their
values. -/
def HasValues (binding : Binding) (exprs : List Expr) (result : Except Failure (List Int)) :
    Prop :=
  ∃ values, result = .ok values ∧ values.length = exprs.length ∧
    (binding.Nonnegative → ∀ value ∈ values, 0 ≤ value)

/-- In a sound program, whatever the evaluation of a fitting expression ends
with, it is a value. -/
theorem Sound.exists_value (sound : program.Sound) {scope : List String} {binding : Binding}
    {expr : Expr} {result : Except Failure Int}
    (evaluates : Evaluates limits program binding expr result)
    (fits : program.Fits scope expr) (covers : binding.Covers scope) :
    ∃ value, result = .ok value ∧ (binding.Nonnegative → 0 ≤ value) := by
  induction evaluates using @Evaluates.rec limits program _
    (fun binding exprs result _ => ∀ scope, (∀ expr ∈ exprs, program.Fits scope expr) →
      binding.Covers scope → HasValues binding exprs result)
    (fun binding call result _ => ∀ scope, program.Fits scope call.toExpr →
      binding.Covers scope → ∃ value, result = .ok value ∧
        (binding.Nonnegative → 0 ≤ value))
    generalizing scope with
  | @number _ value _ => exact ⟨value, rfl, fun _ => fits.readIn _ (Expr.self_mem_parts _)⟩
  | @parameter _ name value _ bound =>
      exact ⟨value, rfl, fun nonnegative => nonnegative name value bound⟩
  | @unbound _ name _ free =>
      rcases covers name (fits.readIn _ (Expr.self_mem_parts _)) with ⟨value, bound⟩
      rw [free] at bound
      cases bound
  | call _ ih => exact ih scope fits covers
  | @chain _ operator _ _ _ _ _ ih =>
      rcases ih scope (fun _ => fits.operand) covers with ⟨values, equal, _, nonnegative⟩
      cases equal
      exact ⟨_, rfl, fun bound => operator.fold_nonneg (nonnegative bound)⟩
  | operandFails _ ih =>
      rcases ih scope (fun _ => fits.operand) covers with ⟨_, equal, _⟩
      cases equal
  | foreign => exact absurd (Expr.self_mem_parts _) (fits.readIn.genuine _ _)
  | nil _ _ _ => exact ⟨[], rfl, rfl, by simp⟩
  | cons _ _ firstIh othersIh scope fits covers =>
      rw [List.forall_mem_cons] at fits
      rcases firstIh fits.1 covers with ⟨value, equal, nonnegative⟩
      cases equal
      rcases othersIh scope fits.2 covers with ⟨values, equal, length, allNonnegative⟩
      cases equal
      refine ⟨_, rfl, by simp [length], fun bound => ?_⟩
      rw [List.forall_mem_cons]
      exact ⟨nonnegative bound, allNonnegative bound⟩
  | firstFails _ ih scope fits covers =>
      rcases ih (fits _ List.mem_cons_self) covers with ⟨_, equal, _⟩
      cases equal
  | laterFails _ _ _ ih scope fits covers =>
      rcases ih scope (List.forall_mem_cons.mp fits).2 covers with ⟨_, equal, _⟩
      cases equal
  | argumentFails _ ih scope fits covers =>
      rcases ih scope (fun _ => fits.argument) covers with ⟨_, equal, _⟩
      cases equal
  | unknownFunction _ unknown _ scope fits _ =>
      rcases fits.calls _ (Call.self_mem_calls _) with ⟨callee, found, _⟩
      rw [unknown] at found
      cases found
  | wrongArgumentCount _ found mismatch ih scope fits covers =>
      rcases ih scope (fun _ => fits.argument) covers with ⟨_, equal, length, _⟩
      cases equal
      rcases fits.calls _ (Call.self_mem_calls _) with ⟨callee, found', arity⟩
      rw [found] at found'
      cases found'
      exact absurd (length.trans arity) mismatch
  | body _ found fitting _ ih bodyIh scope fits covers =>
      rcases ih scope (fun _ => fits.argument) covers with ⟨values, equal, _, nonnegative⟩
      cases equal
      obtain ⟨value, equal, bodyNonnegative⟩ :=
        bodyIh (sound.body_fits found) (Binding.covers_ofArguments fitting)
      exact ⟨value, equal, fun bound =>
        bodyNonnegative (Binding.nonnegative_ofArguments (nonnegative bound))⟩

/-! ## Programs that were read -/

/-- Evaluating a sound program is evaluating the body of its entry function,
which fits without parameters. -/
theorem Sound.exists_entry (sound : program.Sound) :
    ∃ definition, program.find? entryName = some definition ∧
      program.Fits [] definition.body ∧
      ∀ limits, program.run limits = program.evaluate limits [] definition.body := by
  rcases sound.entry with ⟨definition, found, parameters⟩
  have fits := sound.body_fits found
  rw [parameters] at fits
  refine ⟨definition, found, fits, fun limits => ?_⟩
  rw [run, invokeNamed, found]
  simp only [invoke, Definition.invokeWith, Definition.arity, parameters, List.length_nil,
    if_true]
  rfl

/-- However a sound program ends, it is not with an error of its own. -/
theorem Sound.ok_of_settled (sound : program.Sound)
    (settled : Settled (program.run limits).onNewMachine.1) :
    ∃ value, 0 ≤ value ∧ (program.run limits).onNewMachine.1 = .ok value := by
  rcases sound.exists_entry with ⟨definition, found, fits, same⟩
  rw [same] at settled ⊢
  rcases exists_runs_onNewMachine limits program [] definition.body with ⟨steps, runs⟩
  obtain ⟨value, equal, nonnegative⟩ :=
    sound.exists_value (runs.evaluates settled) fits (by simp [Binding.Covers])
  exact ⟨value, nonnegative (by simp [Binding.Nonnegative]), equal⟩

/-- The evaluation of a sound program fails only with a fault, at a limit or at the
guard. -/
theorem Sound.of_run_eq_error (sound : program.Sound) {failure : Failure}
    (ended : (program.run limits).onNewMachine.1 = .error failure) :
    (∃ fault, failure = .fault fault) ∨ failure = .evaluation .tooManyLiveCalls ∨
      ∃ call quoted, failure = .evaluation (.diverges call quoted) := by
  have notSettled : ¬ IsProgramError failure := by
    intro isError
    have settled : Settled (program.run limits).onNewMachine.1 := by
      rw [ended, settled_error_iff]
      exact isError
    rcases sound.ok_of_settled settled with ⟨value, _, returned⟩
    rw [ended] at returned
    cases returned
  cases failure with
  | source error => exact absurd trivial notSettled
  | fault fault => exact Or.inl ⟨fault, rfl⟩
  | evaluation error =>
      right
      cases error with
      | diverges call quoted => exact Or.inr ⟨call, quoted, rfl⟩
      | tooManyLiveCalls => exact Or.inl rfl
      | _ => exact absurd trivial notSettled

theorem Sound.bodies_genuine (sound : program.Sound) :
    ∀ body ∈ program.bodies, body.Genuine := by
  intro body isBody
  rcases List.mem_map.mp isBody with ⟨definition, inForce, rfl⟩
  exact (sound.bodies definition inForce).genuine

/-- With ample limits a sound program ends with a value unless the guard stops
it. -/
theorem Sound.run_settled_or_diverges (sound : program.Sound)
    (ample : limits.Ample program.bodyCalls) :
    Settled (program.run limits).onNewMachine.1 ∨
      ∃ cited text, (program.run limits).onNewMachine.1 =
        .error (.evaluation (.diverges cited text)) := by
  rcases sound.exists_entry with ⟨definition, found, fits, same⟩
  rw [same]
  exact evaluate_settled_or_diverges ample (List.Subset.refl _) sound.bodies_genuine
    (calls_body_subset found) fits.readIn.genuine []

/-- Validation is sound: a program that has passed it gives a value, which is
not negative, or is stopped by the guard; and running a text fails during the
evaluation only if too many calls are live. -/
theorem valid_text_evaluates_or_diverges (settings : Settings) (text : String) :
    (∀ program limits, parseValid settings text = .ok program →
      limits.Ample program.bodyCalls →
        (∃ value, 0 ≤ value ∧ (program.run limits).onNewMachine.1 = .ok value) ∨
          ∃ call quoted, (program.run limits).onNewMachine.1 =
            .error (.evaluation (.diverges call quoted))) ∧
      ∀ error, (outcomeOfText settings text).1 = .ok (.evaluationFailed error) →
        error = .tooManyLiveCalls := by
  constructor
  · intro program limits accepted ample
    have sound := sound_of_parseValid accepted
    rcases sound.run_settled_or_diverges ample with settled | diverges
    · exact Or.inl (sound.ok_of_settled settled)
    · exact Or.inr diverges
  · intro error failed
    obtain ⟨program, parsed, valid, ended, notDiverges⟩ :=
      of_outcomeOfText_eq_evaluationFailed failed
    have sound := sound_of_parseValid (parseValid_eq_ok_iff.mpr ⟨parsed, valid⟩)
    rcases sound.of_run_eq_error ended with ⟨_, isFault⟩ | exhausted | ⟨call, quoted, diverges⟩
    · cases isFault
    · exact Failure.evaluation.inj exhausted
    · exact absurd (Failure.evaluation.inj diverges) (notDiverges call quoted)

/-! ## An endless program -/

/-- Two functions, the first of which calls itself. -/
def endlessText : String :=
  "DEF F x \x7b F(x) \x7d ;\nDEF MAIN \x7b F(1) \x7d ;\n"

/-- The call by which the first function calls itself. -/
def innerCall : Call :=
  ⟨.parsed 0, "F", [.parameter "x" ⟨1, 13⟩], ⟨1, 11⟩⟩

/-- The call in the entry function. -/
def outerCall : Call :=
  ⟨.parsed 1, "F", [.number 1 ⟨2, 14⟩], ⟨2, 12⟩⟩

/-- What the text is read as. -/
def endless : Program :=
  .ofDefinitions [⟨"F", ["x"], innerCall.toExpr, 1⟩, ⟨entryName, [], outerCall.toExpr, 2⟩]

theorem endless_read : parseValid {} endlessText = .ok endless := by
  cbv

theorem endless_bodies : endless.bodies = [innerCall.toExpr, outerCall.toExpr] :=
  rfl

theorem endless_bodyCalls : endless.bodyCalls = [innerCall, outerCall] :=
  rfl

theorem endless_ample : Limits.Ample ⟨none, none, 2⟩ endless.bodyCalls where
  digits := rfl
  liveCalls := by decide

theorem endless_evaluates_or_diverges :
    (∃ value, 0 ≤ value ∧
        (endless.run ⟨none, none, 2⟩).onNewMachine.1 = .ok value) ∨
      ∃ call quoted, (endless.run ⟨none, none, 2⟩).onNewMachine.1 =
        .error (.evaluation (.diverges call quoted)) :=
  (valid_text_evaluates_or_diverges {} endlessText).1 endless ⟨none, none, 2⟩ endless_read
    endless_ample

end Program

end Polycalc

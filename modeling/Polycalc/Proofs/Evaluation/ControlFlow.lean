import Polycalc.Proofs.Evaluation.Lockstep
import Polycalc.Proofs.Evaluation.Outline
import Polycalc.Proofs.Evaluation.Recursion

/-!
# Control flow without data

The language has no conditionals, and its control flow does not depend on a number.
Two texts that differ in digits are accepted together, their calls correspond one by
one, and their evaluations take the same steps and diverge at the same call
(`Program.control_flow_independent_of_digits`).
-/

namespace Polycalc

/-! ## Steps -/

/-- The text of a step begins with the name of the function, before what it is
entered with or the value with which it is left. -/
def Step.NamesCallee (step : Step) : Prop :=
  ∃ rest, step.text = step.call.name ++ "(" ++ rest ∨ step.text = step.call.name ++ " = " ++ rest

namespace Program

variable {limits : Limits} {program : Program}

/-- What holds of every step whose text was written holds of the steps of a run. -/
theorem Runs.forall_steps {holds : Step → Prop}
    (entered : ∀ call values text, call.entryText limits values = .ok text →
      holds (.enter call values text))
    (left : ∀ call value text, call.exitText limits value = .ok text →
      holds (.leave call value text))
    {budget : Nat} {live : List Expr} {binding : Binding} {expr : Expr}
    {result : Except Failure Int} {steps : List Step}
    (runs : Runs limits program budget live binding expr result steps) :
    ∀ step ∈ steps, holds step := by
  induction runs using @Runs.rec limits program _
    (fun _ _ _ _ _ steps _ => ∀ step ∈ steps, holds step)
    (fun _ _ _ _ _ steps _ => ∀ step ∈ steps, holds step) with
  | call _ ih => exact ih
  | chain _ ih => exact ih
  | operandFails _ ih => exact ih
  | nil step member => exact absurd member List.not_mem_nil
  | cons _ _ firstIh othersIh step member =>
      exact (List.mem_append.mp member).elim (firstIh step) (othersIh step)
  | firstFails _ ih step member => exact ih step member
  | laterFails _ _ firstIh othersIh step member =>
      exact (List.mem_append.mp member).elim (firstIh step) (othersIh step)
  | argumentFails _ _ ih step member => exact ih step member
  | unknownFunction _ _ _ ih step member => exact ih step member
  | entryFault _ _ _ _ ih step member => exact ih step member
  | wrongArgumentCount _ _ _ written _ ih step member =>
      simp only [List.mem_append, List.mem_singleton] at member
      rcases member with given | rfl
      · exact ih step given
      · exact entered _ _ _ written
  | bodyFails _ _ _ written _ _ ih bodyIh step member =>
      simp only [List.mem_append, List.mem_singleton] at member
      rcases member with given | rfl | inBody
      · exact ih step given
      · exact entered _ _ _ written
      · exact bodyIh step inBody
  | exitFault _ _ _ written _ _ _ ih bodyIh step member =>
      simp only [List.mem_append, List.mem_singleton] at member
      rcases member with given | rfl | inBody
      · exact ih step given
      · exact entered _ _ _ written
      · exact bodyIh step inBody
  | returns _ _ _ written _ _ leaving ih bodyIh step member =>
      simp only [List.mem_append, List.mem_singleton] at member
      rcases member with given | rfl | inBody | rfl
      · exact ih step given
      · exact entered _ _ _ written
      · exact bodyIh step inBody
      · exact left _ _ _ leaving
  | reentered _ step member => exact absurd member List.not_mem_nil
  | exhausted _ step member => exact absurd member List.not_mem_nil
  | _ => simp

theorem namesCallee_enter {call : Call} {values : List Int} {text : String}
    (written : call.entryText limits values = .ok text) :
    (Step.enter call values text).NamesCallee := by
  cases values with
  | nil =>
      rw [Call.entryText, Call.render, Call.toExpr, Expr.render_call,
        Except.bind_eq_ok_iff] at written
      rcases written with ⟨texts, _, joined⟩
      cases joined
      exact ⟨_, Or.inl (String.append_assoc ..)⟩
  | cons value rest =>
      rcases Except.bind_eq_ok_iff.mp written with ⟨texts, _, joined⟩
      cases joined
      exact ⟨_, Or.inl (String.append_assoc ..)⟩

theorem namesCallee_leave {call : Call} {value : Int} {text : String}
    (written : call.exitText limits value = .ok text) :
    (Step.leave call value text).NamesCallee := by
  rcases Except.bind_eq_ok_iff.mp written with ⟨digits, _, joined⟩
  cases joined
  exact ⟨digits, Or.inr rfl⟩

/-! ## Programs that were read -/

/-- Every step of a sound program names its function. -/
theorem Sound.steps_nameCallee (sound : program.Sound) (limits : Limits) :
    ∀ step ∈ (program.run limits).onNewMachine.2.steps, step.NamesCallee := by
  rcases sound.exists_entry with ⟨definition, _, _, same⟩
  rcases exists_run limits program limits.liveCalls [] [] definition.body with
    ⟨result, steps, runs⟩
  have named := runs.forall_steps (fun _ _ _ => namesCallee_enter) fun _ _ _ => namesCallee_leave
  rw [same, runs.onNewMachine]
  simpa using named

/-- A sound program is run alongside its outline. -/
theorem Sound.exists_outline (sound : program.Sound) (unbounded : limits.digits = none)
    {definition : Definition} (found : program.find? entryName = some definition) :
    ∃ result' steps', Runs limits program.outline limits.liveCalls [] []
        definition.body.outline result' steps' ∧
      EndsInOutline outlineValue (program.run limits).onNewMachine.1 result' ∧
        OutlineSteps (program.run limits).onNewMachine.2.steps.toList steps' := by
  rcases sound.exists_entry with ⟨definition', found', _, same⟩
  cases found.symm.trans found'
  rcases exists_run limits program limits.liveCalls [] [] definition.body with
    ⟨result, steps, runs⟩
  rw [same, runs.onNewMachine]
  exact runs.outline unbounded

/-- Sound programs with equal outlines take the same steps, and they diverge
together, at calls with equal outlines. -/
theorem Sound.together {program' : Program} (sound : program.Sound) (sound' : program'.Sound)
    (same : program'.outline = program.outline) (unbounded : limits.digits = none) :
    (program'.run limits).onNewMachine.2.steps.toList.map Step.outline =
        (program.run limits).onNewMachine.2.steps.toList.map Step.outline ∧
      ∀ cited quoted, (program.run limits).onNewMachine.1 =
          .error (.evaluation (.diverges cited quoted)) →
        ∃ cited' quoted', (program'.run limits).onNewMachine.1 =
            .error (.evaluation (.diverges cited' quoted')) ∧ cited'.outline = cited.outline := by
  rcases sound.entry with ⟨definition, found, _⟩
  rcases sound'.entry with ⟨definition', found', _⟩
  have meaning : definition'.outline = definition.outline := by
    apply Option.some.inj
    rw [← find?_outline_of_eq_some found, ← find?_outline_of_eq_some found', same]
  have body : definition'.body.outline = definition.body.outline :=
    congrArg Definition.body meaning
  obtain ⟨common, commonSteps, runs, ends, steps⟩ := sound.exists_outline unbounded found
  obtain ⟨common', commonSteps', runs', ends', steps'⟩ := sound'.exists_outline unbounded found'
  rw [same, body] at runs'
  rcases runs.unique runs' with ⟨rfl, rfl⟩
  constructor
  · exact steps'.symm.trans steps
  · intro cited quoted diverges
    rcases ends.diverges diverges with ⟨_, commonly⟩
    exact ends'.exists_of_diverges commonly

/-- The registered calls with equal outlines stand at the same places. -/
theorem samePlace_of_outline {program' : Program} (same : program'.outline = program.outline)
    (numbered : Numbered program'.calls) {cited cited' : Call} (member : cited ∈ program.calls)
    (member' : cited' ∈ program'.calls) (alike : cited'.outline = cited.outline) :
    SamePlace program.calls program'.calls cited cited' := by
  have calls : program'.calls.map Call.outline = program.calls.map Call.outline :=
    congrArg Program.calls same
  rcases List.getElem?_of_mem member with ⟨index, here⟩
  have there := congrArg (fun calls => calls[index]?) calls
  simp only [List.getElem?_map, here, Option.map_some, Option.map_eq_some_iff] at there
  rcases there with ⟨call', there, outlined⟩
  have site : call'.outline.site = cited'.outline.site :=
    congrArg Call.site (outlined.trans alike.symm)
  have itself : call' = cited' :=
    List.inj_on_of_nodup_map numbered.nodup (List.mem_of_getElem? there) member' site
  subst itself
  exact ⟨index, here, there⟩

/-- A call at which a sound program diverges was registered. -/
theorem mem_calls_of_diverges {settings : Settings} {text : String}
    (accepted : parseValid settings text = .ok program) {cited : Call} {quoted : String}
    (diverges : (program.run limits).onNewMachine.1 =
      .error (.evaluation (.diverges cited quoted))) : cited ∈ program.calls := by
  rcases (sound_of_parseValid accepted).cited_of_diverges diverges with
    ⟨_, ⟨definition, found, inBody⟩, _, _⟩
  exact bodyCalls_subset_calls (parseValid_eq_ok_iff.mp accepted).1
    (calls_body_subset found inBody)

/-- Control flow is independent of data.  Let two texts have the same tokens but for
the digits of their numbers, none of which has too many of them.  Both are accepted
or neither.  If they are, their registered calls have the same outlines in the same
order, and where numerals of any length may be written, whatever the limit on live
calls, the evaluations diverge together, at calls that are registered at the same
place, and they take the same steps, into and out of the same functions. -/
theorem control_flow_independent_of_digits {settings : Settings} {text text' : String}
    (same : SameButDigits text text')
    (short : ∀ digits, settings.limits.digits = some digits →
      ShortNumerals digits text ∧ ShortNumerals digits text') :
    ((∃ program, parseValid settings text = .ok program) ↔
        ∃ program, parseValid settings text' = .ok program) ∧
      ∀ program program', parseValid settings text = .ok program →
        parseValid settings text' = .ok program' →
          program'.calls.map Call.outline = program.calls.map Call.outline ∧
          ∀ limits : Limits, limits.digits = none →
            (∀ cited quoted, (program.run limits).onNewMachine.1 =
                .error (.evaluation (.diverges cited quoted)) →
              ∃ cited' quoted', (program'.run limits).onNewMachine.1 =
                  .error (.evaluation (.diverges cited' quoted')) ∧
                SamePlace program.calls program'.calls cited cited') ∧
            (∀ cited' quoted', (program'.run limits).onNewMachine.1 =
                .error (.evaluation (.diverges cited' quoted')) →
              ∃ cited quoted, (program.run limits).onNewMachine.1 =
                .error (.evaluation (.diverges cited quoted))) ∧
            (program'.run limits).onNewMachine.2.steps.toList.map
                (fun step => (step.symbol, step.call.name)) =
              (program.run limits).onNewMachine.2.steps.toList.map
                (fun step => (step.symbol, step.call.name)) ∧
            (∀ step ∈ (program.run limits).onNewMachine.2.steps, step.NamesCallee) ∧
            ∀ step ∈ (program'.run limits).onNewMachine.2.steps, step.NamesCallee := by
  rcases parseValid_together same short with ⟨both, alike⟩
  constructor
  · exact both
  · intro program program' accepted accepted'
    have outlined := alike program program' accepted accepted'
    have sound := sound_of_parseValid accepted
    have sound' := sound_of_parseValid accepted'
    constructor
    · exact congrArg Program.calls outlined
    · intro limits unbounded
      rcases sound.together sound' outlined unbounded with ⟨steps, diverging⟩
      rcases sound'.together sound outlined.symm unbounded with ⟨_, diverging'⟩
      have named := congrArg (List.map fun event : String × Call => (event.1, event.2.name)) steps
      rw [List.map_map, List.map_map] at named
      refine ⟨?_, ?_, named, sound.steps_nameCallee limits, sound'.steps_nameCallee limits⟩
      · intro cited quoted diverges
        rcases diverging cited quoted diverges with ⟨cited', quoted', diverges', alike'⟩
        rcases exists_definitions (parseValid_eq_ok_iff.mp accepted').1 with ⟨_, _, numbered, _⟩
        have place := samePlace_of_outline outlined numbered
          (mem_calls_of_diverges accepted diverges) (mem_calls_of_diverges accepted' diverges')
          alike'
        exact ⟨cited', quoted', diverges', place⟩
      · intro cited' quoted' diverges'
        rcases diverging' cited' quoted' diverges' with ⟨cited, quoted, diverges, _⟩
        exact ⟨cited, quoted, diverges⟩

/-- The endless text with a longer number. -/
def otherEndlessText : String :=
  "DEF F x \x7b F(x) \x7d ;\nDEF MAIN \x7b F(0234) \x7d ;\n"

/-- What that text is read as. -/
def otherEndless : Program :=
  .ofDefinitions
    [⟨"F", ["x"], innerCall.toExpr, 1⟩,
      ⟨entryName, [], .call (.parsed 1) "F" [.number 234 ⟨2, 14⟩] ⟨2, 12⟩, 2⟩]

theorem otherEndless_read : parseValid {} otherEndlessText = .ok otherEndless := by
  cbv

theorem otherEndless_sameButDigits : SameButDigits endlessText otherEndlessText where
  tokens := by cbv
  ended := by
    constructor
    · intro _
      exact ⟨⟨.endOfInput, ⟨3, 1⟩⟩, by cbv⟩
    · intro _
      exact ⟨⟨.endOfInput, ⟨3, 1⟩⟩, by cbv⟩

theorem shortNumerals_of_parseValid {settings : Settings} {text : String}
    (accepted : parseValid settings text = .ok program) {digits : Nat}
    (limited : settings.limits.digits = some digits) : ShortNumerals digits text :=
  (shortNumerals_iff limited).mpr
    (ProgramReader.short_of_run (parseValid_eq_ok_iff.mp accepted).1)

/-- Both texts enter the first function twice and diverge at the call by which it
calls itself. -/
theorem otherEndless_diverges :
    ShortNumerals 4300 endlessText ∧ ShortNumerals 4300 otherEndlessText ∧
      (endless.run ⟨none, none, 2⟩).onNewMachine.1 =
        .error (.evaluation (.diverges innerCall "F(x)")) ∧
      (∃ cited quoted, (otherEndless.run ⟨none, none, 2⟩).onNewMachine.1 =
          .error (.evaluation (.diverges cited quoted)) ∧
        SamePlace endless.calls otherEndless.calls innerCall cited) ∧
      (otherEndless.run ⟨none, none, 2⟩).onNewMachine.2.steps.toList.map
          (fun step => (step.symbol, step.call.name)) =
        [("→", "F"), ("→", "F")] := by
  have short := shortNumerals_of_parseValid endless_read rfl
  have short' := shortNumerals_of_parseValid otherEndless_read rfl
  have diverges : (endless.run ⟨none, none, 2⟩).onNewMachine.1 =
      .error (.evaluation (.diverges innerCall "F(x)")) := by
    cbv
  have entered : (endless.run ⟨none, none, 2⟩).onNewMachine.2.steps.toList.map
      (fun step => (step.symbol, step.call.name)) = [("→", "F"), ("→", "F")] := by
    cbv
  have settings : ∀ digits, ({} : Settings).limits.digits = some digits →
      ShortNumerals digits endlessText ∧ ShortNumerals digits otherEndlessText := by
    intro digits limited
    cases limited
    exact ⟨short, short'⟩
  have related := (control_flow_independent_of_digits otherEndless_sameButDigits settings).2
    endless otherEndless endless_read otherEndless_read
  rcases related.2 ⟨none, none, 2⟩ rfl with ⟨together, _, steps, _, _⟩
  exact ⟨short, short', diverges, together _ _ diverges, steps.trans entered⟩

end Program

end Polycalc

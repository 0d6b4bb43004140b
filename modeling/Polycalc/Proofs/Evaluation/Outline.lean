import Polycalc.Proofs.Evaluation.Run
import Polycalc.Proofs.Program.Outline

/-!
# Evaluations of outlines

Where numerals of any length may be written, no number decides how an evaluation goes
on: a run of an expression is followed by a run of its outline, in which every value
is zero, with the same steps of the same calls and the same end
(`Program.Runs.outline`).
-/

namespace Polycalc

/-! ## Texts -/

/-- Both texts can be written, or the same fault keeps both from being written. -/
inductive WrittenTogether {α β : Type} : Except Fault α → Except Fault β → Prop
  | ok (text : α) (text' : β) : WrittenTogether (.ok text) (.ok text')
  | error (fault : Fault) : WrittenTogether (.error fault) (.error fault)

namespace WrittenTogether

variable {α β γ δ : Type} {first : Except Fault α} {second : Except Fault β}

theorem bind {rest : α → Except Fault γ} {rest' : β → Except Fault δ}
    (together : WrittenTogether first second)
    (each : ∀ text text', WrittenTogether (rest text) (rest' text')) :
    WrittenTogether (first >>= rest) (second >>= rest') := by
  cases together with
  | ok text text' => exact each text text'
  | error fault => exact .error fault

/-- What is made of the texts is written together with them. -/
theorem bind_pure (together : WrittenTogether first second) (finish : α → γ) (finish' : β → δ) :
    WrittenTogether (first >>= fun text => pure (finish text))
      (second >>= fun text => pure (finish' text)) :=
  together.bind fun _ _ => .ok _ _

theorem exists_ok (together : WrittenTogether first second) {text : α}
    (written : first = .ok text) : ∃ text', second = .ok text' := by
  cases together with
  | ok _ text' => exact ⟨text', rfl⟩
  | error _ => cases written

theorem eq_error (together : WrittenTogether first second) {fault : Fault}
    (unwritten : first = .error fault) : second = .error fault := by
  cases together with
  | ok _ _ => cases unwritten
  | error _ =>
      cases unwritten
      rfl

theorem mapM {values : List α} {f : α → Except Fault β} {f' : γ → Except Fault δ} {g : α → γ}
    (each : ∀ value ∈ values, WrittenTogether (f value) (f' (g value))) :
    WrittenTogether (values.mapM f) ((values.map g).mapM f') := by
  induction values with
  | nil => exact .ok _ _
  | cons value rest ih =>
      rw [List.forall_mem_cons] at each
      rw [List.map_cons, List.mapM_cons, List.mapM_cons]
      exact each.1.bind fun _ _ => (ih each.2).bind_pure _ _

end WrittenTogether

namespace Expr

theorem unfoldChain_outline (operator : Operator) (chain : Expr) (collected : List Expr) :
    unfoldChain operator chain.outline (collected.map outline) =
      (unfoldChain operator chain collected).map outline := by
  fun_induction unfoldChain operator chain collected with
  | case1 collected left right position ih =>
      rw [outline_binary, unfoldChain, if_pos rfl, ← ih, List.map_cons]
  | case2 collected other left right position different =>
      rw [outline_binary, unfoldChain, if_neg different, List.map_cons, outline_binary]
  | case3 operand collected noChain =>
      cases operand with
      | binary other left right position => exact absurd rfl (noChain other left right position)
      | _ => rfl

/-- The operands of an outline are the outlines of the operands. -/
theorem operands_outline (operator : Operator) (left right : Expr) (position place : Position) :
    (binary operator left.outline right.outline place).operands =
      (binary operator left right position).operands.map outline :=
  unfoldChain_outline operator left [right]

variable {limits : Limits}

/-- Where every number can be written, an expression can be written exactly if its
outline can. -/
theorem render_outline (unbounded : limits.digits = none) (expr : Expr) :
    WrittenTogether (expr.render limits) (expr.outline.render limits) := by
  induction expr using operandInduction with
  | number value position =>
      rw [outline_number, render, render, Limits.write_eq_ok unbounded,
        Limits.write_eq_ok unbounded]
      exact .ok _ _
  | parameter name position =>
      rw [outline_parameter, render, render]
      exact .ok _ _
  | call site name arguments position ih =>
      rw [outline_call, render_call, render_call]
      exact (WrittenTogether.mapM ih).bind_pure _ _
  | chain operator left right position ih =>
      rw [outline_binary, render_binary, render_binary, operands_outline _ _ _ position]
      apply WrittenTogether.bind_pure
      apply WrittenTogether.mapM
      intro operand member
      exact (ih operand member).bind_pure _ _
  | foreign kind shown =>
      rw [outline_foreign, render]
      exact .error _

end Expr

/-! ## Values -/

/-- In an outline every value is zero. -/
def outlineValue (_ : Int) : Int :=
  0

theorem Operator.fold_outline (operator : Operator) (values : List Int) :
    operator.fold (values.map outlineValue) = outlineValue (operator.fold values) := by
  cases values with
  | nil => rfl
  | cons first rest =>
      simp only [List.map_cons, fold, outlineValue]
      induction rest with
      | nil => rfl
      | cons next rest ih =>
          rw [List.map_cons, List.foldl_cons]
          cases operator <;> exact ih

namespace Binding

/-- The outline of a binding has the same names. -/
def outline (binding : Binding) : Binding :=
  binding.map (Prod.map id outlineValue)

theorem lookup_outline (binding : Binding) (name : String) :
    binding.outline.lookup name = (binding.lookup name).map outlineValue := by
  induction binding with
  | nil => rfl
  | cons entry rest ih =>
      rcases entry with ⟨other, value⟩
      simp only [outline, List.map_cons, Prod.map_apply, id_eq, List.lookup_cons]
      cases name == other with
      | true => rfl
      | false => exact ih

theorem outline_ofArguments (parameters : List String) (values : List Int) :
    (ofArguments parameters values).outline =
      ofArguments parameters (values.map outlineValue) := by
  rw [ofArguments, ofArguments, outline, List.map_reverse, List.zip_map_right]

end Binding

/-! ## Calls -/

namespace Call

variable {limits : Limits}

/-- A call and its outline are live together. -/
theorem isLive_outline (call : Call) (live : List Expr) :
    call.outline.isLive (live.map Expr.outline) = call.isLive live := by
  simp only [isLive, List.any_map, Function.comp_def, Expr.site?_outline]
  rfl

theorem render_outline (unbounded : limits.digits = none) (call : Call) :
    WrittenTogether (call.render limits) (call.outline.render limits) := by
  rw [render, render, ← call.outline_toExpr]
  exact call.toExpr.render_outline unbounded

theorem entryText_outline (unbounded : limits.digits = none) (call : Call) (values : List Int) :
    WrittenTogether (call.entryText limits values)
      (call.outline.entryText limits (values.map outlineValue)) := by
  cases values with
  | nil => exact call.render_outline unbounded
  | cons value rest =>
      apply WrittenTogether.bind_pure
      apply WrittenTogether.mapM
      intro value _
      rw [Limits.write_eq_ok unbounded, Limits.write_eq_ok unbounded]
      exact .ok _ _

theorem exitText_outline (unbounded : limits.digits = none) (call : Call) (value : Int) :
    WrittenTogether (call.exitText limits value)
      (call.outline.exitText limits (outlineValue value)) := by
  apply WrittenTogether.bind_pure
  rw [Limits.write_eq_ok unbounded, Limits.write_eq_ok unbounded]
  exact .ok _ _

end Call

/-! ## Steps and results -/

namespace Step

/-- The call whose function is entered or left. -/
def call : Step → Call
  | enter call _ _ => call
  | leave call _ _ => call

/-- What happens in a step: its symbol and its call. -/
def event (step : Step) : String × Call :=
  (step.symbol, step.call)

/-- The outline of what happens in a step. -/
def outline (step : Step) : String × Call :=
  (step.symbol, step.call.outline)

end Step

/-- In the second steps the same happens as in the outlines of the first. -/
def OutlineSteps (steps steps' : List Step) : Prop :=
  steps'.map Step.event = steps.map Step.outline

theorem OutlineSteps.append {steps steps' moreSteps moreSteps' : List Step}
    (first : OutlineSteps steps steps') (later : OutlineSteps moreSteps moreSteps') :
    OutlineSteps (steps ++ moreSteps) (steps' ++ moreSteps') := by
  unfold OutlineSteps at *
  rw [List.map_append, List.map_append, first, later]

theorem OutlineSteps.enter (call : Call) (values : List Int) (text text' : String) :
    OutlineSteps [.enter call values text]
      [.enter call.outline (values.map outlineValue) text'] :=
  rfl

theorem OutlineSteps.leave (call : Call) (value : Int) (text text' : String) :
    OutlineSteps [.leave call value text] [.leave call.outline (outlineValue value) text'] :=
  rfl

/-- The second failure is that of an outline; what it quotes may be another text. -/
inductive Failure.Outlines : Failure → Failure → Prop
  | fault (fault : Fault) : Outlines (.fault fault) (.fault fault)
  | unboundParameter (name : String) (position : Position) :
      Outlines (.evaluation (.unboundParameter name position))
        (.evaluation (.unboundParameter name .unplaced))
  | unknownFunction (call : Call) (text text' : String) :
      Outlines (.evaluation (.unknownFunction call text))
        (.evaluation (.unknownFunction call.outline text'))
  | wrongArgumentCount (name : String) (expected found : Nat) :
      Outlines (.evaluation (.wrongArgumentCount name expected found))
        (.evaluation (.wrongArgumentCount name expected found))
  | tooManyLiveCalls :
      Outlines (.evaluation .tooManyLiveCalls) (.evaluation .tooManyLiveCalls)
  | diverges (call : Call) (text text' : String) :
      Outlines (.evaluation (.diverges call text)) (.evaluation (.diverges call.outline text'))

/-- The second result is the outline of a value, or a failure of an outline. -/
inductive EndsInOutline {α : Type} (outline : α → α) : Except Failure α → Except Failure α → Prop
  | ok (value : α) : EndsInOutline outline (.ok value) (.ok (outline value))
  | error {failure failure' : Failure} (alike : failure.Outlines failure') :
      EndsInOutline outline (.error failure) (.error failure')

/-- What diverges at the outline of a call diverges at a call with that outline. -/
theorem Failure.Outlines.exists_of_diverges {failure failure' : Failure}
    (alike : failure.Outlines failure') {cited : Call} {quoted : String}
    (diverges : failure' = .evaluation (.diverges cited quoted)) :
    ∃ call text, failure = .evaluation (.diverges call text) ∧ call.outline = cited := by
  cases alike with
  | diverges call text text' =>
      cases diverges
      exact ⟨call, text, rfl, rfl⟩
  | _ => cases diverges

theorem EndsInOutline.exists_of_diverges {α : Type} {outline : α → α}
    {result result' : Except Failure α} (ends : EndsInOutline outline result result')
    {cited : Call} {quoted : String}
    (diverges : result' = .error (.evaluation (.diverges cited quoted))) :
    ∃ call text, result = .error (.evaluation (.diverges call text)) ∧ call.outline = cited := by
  cases ends with
  | ok value => cases diverges
  | error alike =>
      rcases alike.exists_of_diverges (Except.error.inj diverges) with ⟨call, text, rfl, outlined⟩
      exact ⟨call, text, rfl, outlined⟩

/-- What diverges at a call has an outline that diverges at the outline of the
call. -/
theorem EndsInOutline.diverges {α : Type} {outline : α → α} {result result' : Except Failure α}
    (ends : EndsInOutline outline result result') {cited : Call} {quoted : String}
    (diverges : result = .error (.evaluation (.diverges cited quoted))) :
    ∃ text, result' = .error (.evaluation (.diverges cited.outline text)) := by
  subst diverges
  cases ends with
  | error alike =>
      cases alike with
      | diverges _ _ text' => exact ⟨text', rfl⟩

theorem Failure.Outlines.quoting {text text' : Except Fault String}
    {error error' : String → EvalError} (together : WrittenTogether text text')
    (each : ∀ written written', Outlines (.evaluation (error written))
      (.evaluation (error' written'))) :
    Outlines (.quoting text error) (.quoting text' error') := by
  cases together with
  | ok written written' => exact each written written'
  | error fault => exact .fault fault

namespace Program

variable {limits : Limits} {program : Program}

/-! ## Runs -/

theorem find?_outline_of_eq_some {name : String} {callee : Definition}
    (found : program.find? name = some callee) :
    program.outline.find? name = some callee.outline := by
  rw [find?_outline, found, Option.map_some]

theorem find?_outline_of_eq_none {name : String} (unknown : program.find? name = none) :
    program.outline.find? name = none := by
  rw [find?_outline, unknown, Option.map_none]

theorem length_map_eq_arity_outline (values : List Int) (callee : Definition) :
    (values.map outlineValue).length = callee.outline.arity ↔ values.length = callee.arity := by
  rw [List.length_map]
  rfl

/-- A run is followed by one of its outline. -/
theorem Runs.outline (unbounded : limits.digits = none) {budget : Nat} {live : List Expr}
    {binding : Binding} {expr : Expr} {result : Except Failure Int} {steps : List Step}
    (runs : Runs limits program budget live binding expr result steps) :
    ∃ result' steps', Runs limits program.outline budget (live.map Expr.outline)
        binding.outline expr.outline result' steps' ∧
      EndsInOutline outlineValue result result' ∧
        OutlineSteps steps steps' := by
  induction runs using @Runs.rec limits program _
    (fun budget live binding exprs result steps _ => ∃ result' steps',
      RunsAll limits program.outline budget (live.map Expr.outline) binding.outline
          (exprs.map Expr.outline) result' steps' ∧
        EndsInOutline (List.map outlineValue) result result' ∧
          OutlineSteps steps steps')
    (fun budget live binding call result steps _ => ∃ result' steps',
      RunsCall limits program.outline budget (live.map Expr.outline) binding.outline
          call.outline result' steps' ∧
        EndsInOutline outlineValue result result' ∧
          OutlineSteps steps steps') with
  | number => exact ⟨_, _, .number, .ok _, rfl⟩
  | @parameter _ _ binding name _ _ bound =>
      have bound' := binding.lookup_outline name
      rw [bound] at bound'
      exact ⟨_, _, .parameter bound', .ok _, rfl⟩
  | @unbound _ _ binding name _ free =>
      have free' := binding.lookup_outline name
      rw [free] at free'
      exact ⟨_, _, .unbound free', .error (.unboundParameter _ _), rfl⟩
  | call _ ih =>
      rcases ih with ⟨result', steps', called, ends, same⟩
      rw [Expr.outline_call]
      exact ⟨result', steps', .call called, ends, same⟩
  | @chain _ _ _ operator left right position values _ _ ih =>
      rcases ih with ⟨_, steps', ran, ends, same⟩
      rw [← Expr.operands_outline _ _ _ _ .unplaced] at ran
      cases ends
      have value : EndsInOutline outlineValue (.ok (operator.fold values))
          (.ok (operator.fold (values.map outlineValue))) := by
        rw [operator.fold_outline]
        exact .ok _
      exact ⟨_, steps', .chain ran, value, same⟩
  | @operandFails _ _ _ operator left right position _ _ _ ih =>
      rcases ih with ⟨_, steps', ran, ends, same⟩
      rw [← Expr.operands_outline _ _ _ _ .unplaced] at ran
      cases ends with
      | error alike => exact ⟨_, steps', .operandFails ran, .error alike, same⟩
  | foreign => exact ⟨_, _, .foreign, .error (.fault _), rfl⟩
  | nil => exact ⟨_, _, .nil, .ok _, rfl⟩
  | cons _ _ firstIh othersIh =>
      rcases firstIh with ⟨_, _, first, ends, same⟩
      rcases othersIh with ⟨_, _, others, ends', same'⟩
      cases ends
      cases ends'
      exact ⟨_, _, .cons first others, .ok _, same.append same'⟩
  | firstFails _ ih =>
      rcases ih with ⟨_, _, first, ends, same⟩
      cases ends with
      | error alike => exact ⟨_, _, .firstFails first, .error alike, same⟩
  | laterFails _ _ firstIh othersIh =>
      rcases firstIh with ⟨_, _, first, ends, same⟩
      rcases othersIh with ⟨_, _, others, ends', same'⟩
      cases ends
      cases ends' with
      | error alike =>
          exact ⟨_, _, .laterFails first others, .error alike, same.append same'⟩
  | @reentered _ live _ call isLive =>
      rw [← call.isLive_outline] at isLive
      have alike := Failure.Outlines.quoting (call.render_outline unbounded) (.diverges call)
      exact ⟨_, _, .reentered isLive, .error alike, rfl⟩
  | @exhausted live _ call notLive =>
      rw [← call.isLive_outline] at notLive
      exact ⟨_, _, .exhausted notLive, .error .tooManyLiveCalls, rfl⟩
  | @argumentFails _ live _ call _ _ notLive _ ih =>
      rw [← call.isLive_outline] at notLive
      rcases ih with ⟨_, steps', given, ends, same⟩
      rw [List.map_cons, call.outline_toExpr] at given
      cases ends with
      | error alike => exact ⟨_, steps', .argumentFails notLive given, .error alike, same⟩
  | @unknownFunction _ live _ call _ _ notLive _ unknown ih =>
      rw [← call.isLive_outline] at notLive
      rcases ih with ⟨_, steps', given, ends, same⟩
      rw [List.map_cons, call.outline_toExpr] at given
      have alike := Failure.Outlines.quoting (call.render_outline unbounded)
        (.unknownFunction call)
      cases ends
      exact ⟨_, steps', .unknownFunction notLive given (find?_outline_of_eq_none unknown),
        .error alike, same⟩
  | @entryFault _ live _ call values _ callee fault notLive _ found unwritten ih =>
      rw [← call.isLive_outline] at notLive
      rcases ih with ⟨_, steps', given, ends, same⟩
      rw [List.map_cons, call.outline_toExpr] at given
      have unwritten' := (call.entryText_outline unbounded values).eq_error unwritten
      cases ends
      exact ⟨_, steps', .entryFault notLive given (find?_outline_of_eq_some found) unwritten',
        .error (.fault fault), same⟩
  | @wrongArgumentCount _ live _ call values _ callee entry notLive _ found written mismatch
      ih =>
      rw [← call.isLive_outline] at notLive
      rcases ih with ⟨_, steps', given, ends, same⟩
      rw [List.map_cons, call.outline_toExpr] at given
      rcases (call.entryText_outline unbounded values).exists_ok written with ⟨entry', written'⟩
      have mismatch' := mt (length_map_eq_arity_outline values callee).mp mismatch
      cases ends
      have alike := Failure.Outlines.wrongArgumentCount callee.name callee.arity values.length
      have ran := RunsCall.wrongArgumentCount notLive given (find?_outline_of_eq_some found)
        written' mismatch'
      rw [List.length_map] at ran
      exact ⟨_, _, ran, .error alike, same.append (.enter call values entry entry')⟩
  | @bodyFails _ live _ call values _ _ callee entry _ notLive _ found written fits _ ih bodyIh =>
      rw [← call.isLive_outline] at notLive
      rcases ih with ⟨_, steps', given, ends, same⟩
      rcases bodyIh with ⟨_, bodySteps', body, bodyEnds, bodySame⟩
      rw [List.map_cons, call.outline_toExpr] at given body
      rw [Binding.outline_ofArguments] at body
      rcases (call.entryText_outline unbounded values).exists_ok written with ⟨entry', written'⟩
      have fits' := (length_map_eq_arity_outline values callee).mpr fits
      cases ends
      cases bodyEnds with
      | error alike =>
          have traced := same.append ((OutlineSteps.enter call values entry entry').append bodySame)
          exact ⟨_, _, .bodyFails notLive given (find?_outline_of_eq_some found) written' fits'
            body, .error alike, traced⟩
  | @exitFault _ live _ call values _ _ callee entry value fault notLive _ found written fits _
      unwritten ih bodyIh =>
      rw [← call.isLive_outline] at notLive
      rcases ih with ⟨_, steps', given, ends, same⟩
      rcases bodyIh with ⟨_, bodySteps', body, bodyEnds, bodySame⟩
      rw [List.map_cons, call.outline_toExpr] at given body
      rw [Binding.outline_ofArguments] at body
      rcases (call.entryText_outline unbounded values).exists_ok written with ⟨entry', written'⟩
      have unwritten' := (call.exitText_outline unbounded value).eq_error unwritten
      have fits' := (length_map_eq_arity_outline values callee).mpr fits
      cases ends
      cases bodyEnds
      have traced := same.append ((OutlineSteps.enter call values entry entry').append bodySame)
      exact ⟨_, _, .exitFault notLive given (find?_outline_of_eq_some found) written' fits'
        body unwritten', .error (.fault fault), traced⟩
  | @returns _ live _ call values _ _ callee entry exit value notLive _ found written fits _
      leaving ih bodyIh =>
      rw [← call.isLive_outline] at notLive
      rcases ih with ⟨_, steps', given, ends, same⟩
      rcases bodyIh with ⟨_, bodySteps', body, bodyEnds, bodySame⟩
      rw [List.map_cons, call.outline_toExpr] at given body
      rw [Binding.outline_ofArguments] at body
      rcases (call.entryText_outline unbounded values).exists_ok written with ⟨entry', written'⟩
      rcases (call.exitText_outline unbounded value).exists_ok leaving with ⟨exit', leaving'⟩
      have fits' := (length_map_eq_arity_outline values callee).mpr fits
      cases ends
      cases bodyEnds
      have returned := bodySame.append (OutlineSteps.leave call value exit exit')
      have traced := same.append ((OutlineSteps.enter call values entry entry').append returned)
      exact ⟨_, _, .returns notLive given (find?_outline_of_eq_some found) written' fits'
        body leaving', .ok value, traced⟩

end Program

end Polycalc

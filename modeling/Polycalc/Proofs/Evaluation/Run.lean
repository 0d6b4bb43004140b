import Polycalc.Outcome
import Polycalc.Proofs.Expr.Parts

/-!
# Runs of the evaluator

`Program.Runs` says, rule by rule, how an evaluation goes: from the number of
calls that may still become live, the live calls, a binding and an expression
to a result and the steps that are noted on the way.  Every way of failing has
its rule.

`Program.Runs.ends` is the only statement that opens the evaluator: whatever run
there is, the evaluator ends as it does.  Since every expression has a run
(`Program.exists_run`), what is evaluated is a run, and it is the only one
(`Program.Runs.unique`).  Properties of evaluations are proved by induction on
runs.
-/

namespace Polycalc

/-! ## Failures that quote a text -/

namespace Failure

/-- An error that quotes a text, or the fault that kept the text from being
written. -/
def quoting (text : Except Fault String) (error : String → EvalError) : Failure :=
  match text with
  | .ok written => .evaluation (error written)
  | .error reason => .fault reason

theorem quoting_eq_evaluation_iff {text : Except Fault String} {error : String → EvalError}
    {other : EvalError} :
    quoting text error = .evaluation other ↔
      ∃ written, text = .ok written ∧ error written = other := by
  cases text <;> simp [quoting]

theorem quoting_eq_fault_iff {text : Except Fault String} {error : String → EvalError}
    {reason : Fault} :
    quoting text error = .fault reason ↔ text = .error reason := by
  cases text <;> simp [quoting]

end Failure

/-! ## Evaluations on a machine -/

namespace Eval

variable {α β : Type}

/-- With these live calls, an evaluation gives a result and notes some steps,
whatever was noted before, and leaves the live calls as they were. -/
def Ends (evaluation : Eval α) (live : List Expr) (result : Except Failure α)
    (steps : List Step) : Prop :=
  ∀ earlier : Array Step,
    (ExceptT.run evaluation).run ⟨live, earlier⟩ =
      (result, ⟨live, earlier ++ steps.toArray⟩)

theorem Ends.pure (live : List Expr) (value : α) :
    Ends (Pure.pure value : Eval α) live (.ok value) [] := by
  intro earlier
  simp only [Array.append_empty]
  rfl

theorem Ends.throw (live : List Expr) (failure : Failure) :
    Ends (MonadExcept.throw failure : Eval α) live (.error failure) [] := by
  intro earlier
  simp only [Array.append_empty]
  rfl

theorem Ends.bind {first : Eval α} {rest : α → Eval β} {live : List Expr} {value : α}
    {result : Except Failure β} {steps moreSteps : List Step}
    (firstEnds : first.Ends live (.ok value) steps)
    (restEnds : (rest value).Ends live result moreSteps) :
    (first >>= rest).Ends live result (steps ++ moreSteps) := by
  intro earlier
  rw [ExceptT.run_bind, StateT.run_bind, firstEnds earlier]
  have continued := restEnds (earlier ++ steps.toArray)
  rw [Array.append_assoc] at continued
  rw [← List.append_toArray]
  exact continued

/-- What follows notes nothing more. -/
theorem Ends.bind_quiet {first : Eval α} {rest : α → Eval β} {live : List Expr} {value : α}
    {result : Except Failure β} {steps : List Step}
    (firstEnds : first.Ends live (.ok value) steps)
    (restEnds : (rest value).Ends live result []) :
    (first >>= rest).Ends live result steps := by
  have both := firstEnds.bind restEnds
  rwa [List.append_nil] at both

theorem Ends.bind_error {first : Eval α} {rest : α → Eval β} {live : List Expr}
    {failure : Failure} {steps : List Step}
    (firstEnds : first.Ends live (.error failure) steps) :
    (first >>= rest).Ends live (.error failure) steps := by
  intro earlier
  rw [ExceptT.run_bind, StateT.run_bind, firstEnds earlier]
  rfl

theorem Ends.get {rest : Machine → Eval α} {live : List Expr}
    {result : Except Failure α} {steps : List Step}
    (each : ∀ earlier, (rest ⟨live, earlier⟩).Ends live result steps) :
    (MonadState.get >>= rest : Eval α).Ends live result steps := by
  intro earlier
  rw [ExceptT.run_bind, StateT.run_bind]
  exact each earlier earlier

theorem Ends.note (live : List Expr) (step : Step) :
    (Eval.note step).Ends live (.ok ()) [step] := by
  intro earlier
  rw [← Array.push_eq_append]
  rfl

/-- The live call is there to be taken off if the evaluation leaves the live calls as
they were. -/
theorem run_withLive {call : Call} {body : Eval α} {machine : Machine}
    {result : Except Failure α} {live : List Expr} {steps : Array Step}
    (ran : (ExceptT.run body).run { machine with live := call.toExpr :: machine.live } =
      (result, ⟨call.toExpr :: live, steps⟩)) :
    (ExceptT.run (Eval.withLive call body)).run machine = (result, ⟨live, steps⟩) := by
  have entered : (ExceptT.run (Eval.withLive call body)).run machine =
      (do
        let ended ← (ExceptT.run body).run { machine with live := call.toExpr :: machine.live }
        (ExceptT.run (Eval.dropLive >>= fun _ => ExceptT.mk (pure ended.1))).run ended.2 :
          Id (Except Failure α × Machine)) :=
    rfl
  rw [entered, ran]
  rfl

theorem Ends.withLive {call : Call} {body : Eval α} {live : List Expr}
    {result : Except Failure α} {steps : List Step}
    (bodyEnds : body.Ends (call.toExpr :: live) result steps) :
    (Eval.withLive call body).Ends live result steps := by
  intro earlier
  exact run_withLive (bodyEnds earlier)

theorem Ends.ofFault {result : Except Fault α} {fault : Fault} (live : List Expr)
    (failed : result = .error fault) :
    (Eval.ofFault result).Ends live (.error (.fault fault)) [] := by
  subst failed
  exact Ends.throw live (.fault fault)

theorem Ends.ofOk {result : Except Fault α} {value : α} (live : List Expr)
    (succeeded : result = .ok value) :
    (Eval.ofFault result).Ends live (.ok value) [] := by
  subst succeeded
  exact Ends.pure live value

/-- A failure that quotes a text, wherever the text comes from. -/
theorem Ends.quoting (live : List Expr) (text : Except Fault String)
    (error : String → EvalError) :
    (Eval.ofFault text >>= fun written => Eval.fail (error written) : Eval α).Ends live
      (.error (.quoting text error)) [] := by
  cases text with
  | error fault => exact (Ends.ofFault live rfl).bind_error
  | ok written => exact (Ends.ofOk live rfl).bind (Ends.throw live _)

/-- An evaluation ends in one way only. -/
theorem Ends.unique {evaluation : Eval α} {live : List Expr}
    {result result' : Except Failure α} {steps steps' : List Step}
    (ends : evaluation.Ends live result steps) (ends' : evaluation.Ends live result' steps') :
    result = result' ∧ steps = steps' := by
  have same := (ends #[]).symm.trans (ends' #[])
  rcases Prod.mk.inj same with ⟨sameResult, sameMachine⟩
  rcases Machine.mk.inj sameMachine with ⟨_, sameSteps⟩
  exact ⟨sameResult, by simpa using sameSteps⟩

end Eval

/-! ## Rules -/

namespace Program

mutual

/-- `Runs limits program budget live binding expr result steps`: evaluating
`expr` in `binding`, with these live calls and room for `budget` more, gives
`result` and notes `steps`. -/
inductive Runs (limits : Limits) (program : Program) :
    Nat → List Expr → Binding → Expr → Except Failure Int → List Step → Prop
  | number {budget : Nat} {live : List Expr} {binding : Binding} {value : Int}
      {position : Position} :
      Runs limits program budget live binding (.number value position) (.ok value) []
  | parameter {budget : Nat} {live : List Expr} {binding : Binding} {name : String}
      {value : Int} {position : Position} (bound : binding.lookup name = some value) :
      Runs limits program budget live binding (.parameter name position) (.ok value) []
  | unbound {budget : Nat} {live : List Expr} {binding : Binding} {name : String}
      {position : Position} (free : binding.lookup name = none) :
      Runs limits program budget live binding (.parameter name position)
        (.error (.evaluation (.unboundParameter name position))) []
  | call {budget : Nat} {live : List Expr} {binding : Binding} {site : Site}
      {name : String} {arguments : List Expr} {position : Position}
      {result : Except Failure Int} {steps : List Step}
      (called : RunsCall limits program budget live binding
        ⟨site, name, arguments, position⟩ result steps) :
      Runs limits program budget live binding (.call site name arguments position)
        result steps
  | chain {budget : Nat} {live : List Expr} {binding : Binding} {operator : Operator}
      {left right : Expr} {position : Position} {values : List Int} {steps : List Step}
      (operands : RunsAll limits program budget live binding
        (Expr.binary operator left right position).operands (.ok values) steps) :
      Runs limits program budget live binding (.binary operator left right position)
        (.ok (operator.fold values)) steps
  | operandFails {budget : Nat} {live : List Expr} {binding : Binding}
      {operator : Operator} {left right : Expr} {position : Position} {failure : Failure}
      {steps : List Step}
      (operands : RunsAll limits program budget live binding
        (Expr.binary operator left right position).operands (.error failure) steps) :
      Runs limits program budget live binding (.binary operator left right position)
        (.error failure) steps
  | foreign {budget : Nat} {live : List Expr} {binding : Binding} {kind shown : String} :
      Runs limits program budget live binding (.foreign kind shown)
        (.error (.fault (.notAnExpression shown))) []

/-- The same for several expressions, from left to right up to the first that
fails. -/
inductive RunsAll (limits : Limits) (program : Program) :
    Nat → List Expr → Binding → List Expr → Except Failure (List Int) → List Step → Prop
  | nil {budget : Nat} {live : List Expr} {binding : Binding} :
      RunsAll limits program budget live binding [] (.ok []) []
  | cons {budget : Nat} {live : List Expr} {binding : Binding} {expr : Expr}
      {rest : List Expr} {value : Int} {values : List Int} {steps moreSteps : List Step}
      (first : Runs limits program budget live binding expr (.ok value) steps)
      (others : RunsAll limits program budget live binding rest (.ok values) moreSteps) :
      RunsAll limits program budget live binding (expr :: rest) (.ok (value :: values))
        (steps ++ moreSteps)
  | firstFails {budget : Nat} {live : List Expr} {binding : Binding} {expr : Expr}
      {rest : List Expr} {failure : Failure} {steps : List Step}
      (first : Runs limits program budget live binding expr (.error failure) steps) :
      RunsAll limits program budget live binding (expr :: rest) (.error failure) steps
  | laterFails {budget : Nat} {live : List Expr} {binding : Binding} {expr : Expr}
      {rest : List Expr} {value : Int} {failure : Failure} {steps moreSteps : List Step}
      (first : Runs limits program budget live binding expr (.ok value) steps)
      (others : RunsAll limits program budget live binding rest (.error failure) moreSteps) :
      RunsAll limits program budget live binding (expr :: rest) (.error failure)
        (steps ++ moreSteps)

/-- The same for a call: it is refused while it is live, or else its arguments
are evaluated and then the body of its function, and meanwhile it is live. -/
inductive RunsCall (limits : Limits) (program : Program) :
    Nat → List Expr → Binding → Call → Except Failure Int → List Step → Prop
  | reentered {budget : Nat} {live : List Expr} {binding : Binding} {call : Call}
      (isLive : call.isLive live = true) :
      RunsCall limits program budget live binding call
        (.error (.quoting (call.render limits) (.diverges call))) []
  | exhausted {live : List Expr} {binding : Binding} {call : Call}
      (notLive : call.isLive live = false) :
      RunsCall limits program 0 live binding call
        (.error (.evaluation .tooManyLiveCalls)) []
  | argumentFails {budget : Nat} {live : List Expr} {binding : Binding} {call : Call}
      {failure : Failure} {steps : List Step}
      (notLive : call.isLive live = false)
      (failed : RunsAll limits program budget (call.toExpr :: live) binding call.arguments
        (.error failure) steps) :
      RunsCall limits program (budget + 1) live binding call (.error failure) steps
  | unknownFunction {budget : Nat} {live : List Expr} {binding : Binding} {call : Call}
      {values : List Int} {steps : List Step}
      (notLive : call.isLive live = false)
      (given : RunsAll limits program budget (call.toExpr :: live) binding call.arguments
        (.ok values) steps)
      (unknown : program.find? call.name = none) :
      RunsCall limits program (budget + 1) live binding call
        (.error (.quoting (call.render limits) (.unknownFunction call))) steps
  | entryFault {budget : Nat} {live : List Expr} {binding : Binding} {call : Call}
      {values : List Int} {steps : List Step} {callee : Definition} {fault : Fault}
      (notLive : call.isLive live = false)
      (given : RunsAll limits program budget (call.toExpr :: live) binding call.arguments
        (.ok values) steps)
      (found : program.find? call.name = some callee)
      (unwritten : call.entryText limits values = .error fault) :
      RunsCall limits program (budget + 1) live binding call (.error (.fault fault)) steps
  | wrongArgumentCount {budget : Nat} {live : List Expr} {binding : Binding} {call : Call}
      {values : List Int} {steps : List Step} {callee : Definition} {entry : String}
      (notLive : call.isLive live = false)
      (given : RunsAll limits program budget (call.toExpr :: live) binding call.arguments
        (.ok values) steps)
      (found : program.find? call.name = some callee)
      (written : call.entryText limits values = .ok entry)
      (mismatch : values.length ≠ callee.arity) :
      RunsCall limits program (budget + 1) live binding call
        (.error (.evaluation (.wrongArgumentCount callee.name callee.arity values.length)))
        (steps ++ [.enter call values entry])
  | bodyFails {budget : Nat} {live : List Expr} {binding : Binding} {call : Call}
      {values : List Int} {steps bodySteps : List Step} {callee : Definition}
      {entry : String} {failure : Failure}
      (notLive : call.isLive live = false)
      (given : RunsAll limits program budget (call.toExpr :: live) binding call.arguments
        (.ok values) steps)
      (found : program.find? call.name = some callee)
      (written : call.entryText limits values = .ok entry)
      (fits : values.length = callee.arity)
      (body : Runs limits program budget (call.toExpr :: live)
        (Binding.ofArguments callee.parameters values) callee.body (.error failure)
        bodySteps) :
      RunsCall limits program (budget + 1) live binding call (.error failure)
        (steps ++ ([.enter call values entry] ++ bodySteps))
  | exitFault {budget : Nat} {live : List Expr} {binding : Binding} {call : Call}
      {values : List Int} {steps bodySteps : List Step} {callee : Definition}
      {entry : String} {value : Int} {fault : Fault}
      (notLive : call.isLive live = false)
      (given : RunsAll limits program budget (call.toExpr :: live) binding call.arguments
        (.ok values) steps)
      (found : program.find? call.name = some callee)
      (written : call.entryText limits values = .ok entry)
      (fits : values.length = callee.arity)
      (body : Runs limits program budget (call.toExpr :: live)
        (Binding.ofArguments callee.parameters values) callee.body (.ok value) bodySteps)
      (unwritten : call.exitText limits value = .error fault) :
      RunsCall limits program (budget + 1) live binding call (.error (.fault fault))
        (steps ++ ([.enter call values entry] ++ bodySteps))
  | returns {budget : Nat} {live : List Expr} {binding : Binding} {call : Call}
      {values : List Int} {steps bodySteps : List Step} {callee : Definition}
      {entry exit : String} {value : Int}
      (notLive : call.isLive live = false)
      (given : RunsAll limits program budget (call.toExpr :: live) binding call.arguments
        (.ok values) steps)
      (found : program.find? call.name = some callee)
      (written : call.entryText limits values = .ok entry)
      (fits : values.length = callee.arity)
      (body : Runs limits program budget (call.toExpr :: live)
        (Binding.ofArguments callee.parameters values) callee.body (.ok value) bodySteps)
      (leaving : call.exitText limits value = .ok exit) :
      RunsCall limits program (budget + 1) live binding call (.ok value)
        (steps ++ ([.enter call values entry] ++ (bodySteps ++ [.leave call value exit])))

end

/-! ## The evaluator does what the rules say -/

section

variable {limits : Limits} {program : Program} {budget : Nat} {live : List Expr}
  {binding : Binding}

theorem evaluateWith_binary {onCall : Call → Binding → Eval Int} (operator : Operator)
    (left right : Expr) (position : Position) (binding : Binding) :
    (Expr.binary operator left right position).evaluateWith onCall binding =
      (Expr.binary operator left right position).operands.mapM
          (Expr.evaluateWith onCall binding) >>=
        fun values => pure (operator.fold values) := by
  rw [Expr.evaluateWith]
  simp only [List.mapM_subtype, List.unattach_attach]

theorem evaluateCall_ends_of_isLive (limits : Limits) (program : Program) (budget : Nat)
    {call : Call} (isLive : call.isLive live = true) (binding : Binding) :
    (program.evaluateCall limits budget call binding).Ends live
      (.error (.quoting (call.render limits) (.diverges call))) [] := by
  unfold evaluateCall
  apply Eval.Ends.get
  intro earlier
  rw [if_pos isLive]
  exact Eval.Ends.quoting _ _ _

theorem evaluateCall_ends_of_exhausted (limits : Limits) (program : Program) {call : Call}
    (notLive : call.isLive live = false) (binding : Binding) :
    (program.evaluateCall limits 0 call binding).Ends live
      (.error (.evaluation .tooManyLiveCalls)) [] := by
  unfold evaluateCall
  apply Eval.Ends.get
  intro earlier
  rw [if_neg (by simp [notLive])]
  exact Eval.Ends.throw _ _

/-- A call that is not live is entered, and meanwhile it is live. -/
theorem evaluateCall_ends_of_entered {call : Call} {result : Except Failure Int}
    {steps : List Step} (notLive : call.isLive live = false)
    (entered : (program.enterCall limits (program.evaluateCall limits budget) call binding).Ends
      (call.toExpr :: live) result steps) :
    (program.evaluateCall limits (budget + 1) call binding).Ends live result steps := by
  unfold evaluateCall
  apply Eval.Ends.get
  intro earlier
  rw [if_neg (by simp [notLive])]
  exact entered.withLive

/-- Entering a call of a function that is defined: what comes after its arguments
is the body of the function between two steps. -/
theorem enterCall_ends_of_written {onCall : Call → Binding → Eval Int} {call : Call}
    {values : List Int} {callee : Definition} {entry : String} {result : Except Failure Int}
    {steps moreSteps : List Step}
    (given : (call.arguments.mapM (Expr.evaluateWith onCall binding)).Ends live (.ok values)
      steps)
    (found : program.find? call.name = some callee)
    (written : call.entryText limits values = .ok entry)
    (body : Eval.Ends
      (do
        let value ← callee.invokeWith onCall values
        let exit ← Eval.ofFault (call.exitText limits value)
        Eval.note (.leave call value exit)
        return value)
      live result moreSteps) :
    (program.enterCall limits onCall call binding).Ends live result
      (steps ++ ([.enter call values entry] ++ moreSteps)) := by
  unfold enterCall
  apply given.bind
  rw [found]
  exact (Eval.Ends.ofOk live written).bind ((Eval.Ends.note live _).bind body)

theorem invokeWith_ends {onCall : Call → Binding → Eval Int} {callee : Definition}
    {values : List Int} {result : Except Failure Int} {steps : List Step}
    (fits : values.length = callee.arity)
    (body : (callee.body.evaluateWith onCall
      (Binding.ofArguments callee.parameters values)).Ends live result steps) :
    (callee.invokeWith onCall values).Ends live result steps := by
  rw [Definition.invokeWith, if_pos fits]
  exact body

/-- Whatever run there is, the evaluator ends as it does. -/
theorem Runs.ends {expr : Expr} {result : Except Failure Int} {steps : List Step}
    (runs : Runs limits program budget live binding expr result steps) :
    (expr.evaluateWith (program.evaluateCall limits budget) binding).Ends live result
      steps := by
  induction runs using @Runs.rec limits program _
    (fun budget live binding exprs result steps _ =>
      (exprs.mapM (Expr.evaluateWith (program.evaluateCall limits budget) binding)).Ends live
        result steps)
    (fun budget live binding call result steps _ =>
      (program.evaluateCall limits budget call binding).Ends live result steps) with
  | number =>
      rw [Expr.evaluateWith]
      exact Eval.Ends.pure _ _
  | parameter bound =>
      rw [Expr.evaluateWith, bound]
      exact Eval.Ends.pure _ _
  | unbound free =>
      rw [Expr.evaluateWith, free]
      exact Eval.Ends.throw _ _
  | call _ ih =>
      rw [Expr.evaluateWith]
      exact ih
  | chain _ ih =>
      rw [evaluateWith_binary]
      exact ih.bind_quiet (Eval.Ends.pure _ _)
  | operandFails _ ih =>
      rw [evaluateWith_binary]
      exact ih.bind_error
  | foreign =>
      rw [Expr.evaluateWith]
      exact Eval.Ends.throw _ _
  | nil => exact Eval.Ends.pure _ _
  | cons _ _ firstIh othersIh =>
      rw [List.mapM_cons]
      exact firstIh.bind (othersIh.bind_quiet (Eval.Ends.pure _ _))
  | firstFails _ ih =>
      rw [List.mapM_cons]
      exact ih.bind_error
  | laterFails _ _ firstIh othersIh =>
      rw [List.mapM_cons]
      exact firstIh.bind othersIh.bind_error
  | reentered isLive => exact evaluateCall_ends_of_isLive _ _ _ isLive _
  | exhausted notLive => exact evaluateCall_ends_of_exhausted _ _ notLive _
  | argumentFails notLive _ ih => exact evaluateCall_ends_of_entered notLive ih.bind_error
  | unknownFunction notLive _ unknown ih =>
      apply evaluateCall_ends_of_entered notLive
      apply ih.bind_quiet
      rw [unknown]
      exact Eval.Ends.quoting _ _ _
  | entryFault notLive _ found unwritten ih =>
      apply evaluateCall_ends_of_entered notLive
      apply ih.bind_quiet
      rw [found]
      exact (Eval.Ends.ofFault _ unwritten).bind_error
  | wrongArgumentCount notLive _ found written mismatch ih =>
      apply evaluateCall_ends_of_entered notLive
      apply enterCall_ends_of_written ih found written
      rw [Definition.invokeWith, if_neg mismatch]
      exact (Eval.Ends.throw _ _).bind_error
  | bodyFails notLive _ found written fits _ ih bodyIh =>
      apply evaluateCall_ends_of_entered notLive
      exact enterCall_ends_of_written ih found written (invokeWith_ends fits bodyIh).bind_error
  | exitFault notLive _ found written fits _ unwritten ih bodyIh =>
      apply evaluateCall_ends_of_entered notLive
      apply enterCall_ends_of_written ih found written
      exact (invokeWith_ends fits bodyIh).bind_quiet (Eval.Ends.ofFault _ unwritten).bind_error
  | returns notLive _ found written fits _ leaving ih bodyIh =>
      apply evaluateCall_ends_of_entered notLive
      apply enterCall_ends_of_written ih found written
      apply (invokeWith_ends fits bodyIh).bind
      exact (Eval.Ends.ofOk _ leaving).bind
        ((Eval.Ends.note _ _).bind_quiet (Eval.Ends.pure _ _))

/-- An expression has one run only. -/
theorem Runs.unique {expr : Expr} {result result' : Except Failure Int}
    {steps steps' : List Step}
    (runs : Runs limits program budget live binding expr result steps)
    (runs' : Runs limits program budget live binding expr result' steps') :
    result = result' ∧ steps = steps' :=
  runs.ends.unique runs'.ends

/-! ## Every expression has a run -/

theorem exists_runAll {exprs : List Expr}
    (each : ∀ expr ∈ exprs, ∃ result steps,
      Runs limits program budget live binding expr result steps) :
    ∃ result steps, RunsAll limits program budget live binding exprs result steps := by
  induction exprs with
  | nil => exact ⟨.ok [], [], .nil⟩
  | cons expr rest ih =>
      rw [List.forall_mem_cons] at each
      rcases each.1 with ⟨failure | value, steps, first⟩
      · exact ⟨.error failure, steps, .firstFails first⟩
      · rcases ih each.2 with ⟨failure | values, moreSteps, others⟩
        · exact ⟨.error failure, steps ++ moreSteps, .laterFails first others⟩
        · exact ⟨.ok (value :: values), steps ++ moreSteps, .cons first others⟩

theorem exists_run_of_calls
    (calls : ∀ call, ∃ result steps, RunsCall limits program budget live binding call result steps)
    (expr : Expr) :
    ∃ result steps, Runs limits program budget live binding expr result steps := by
  induction expr using Expr.operandInduction with
  | number value position => exact ⟨_, _, .number⟩
  | parameter name position =>
      cases bound : binding.lookup name with
      | some value => exact ⟨_, _, .parameter bound⟩
      | none => exact ⟨_, _, .unbound bound⟩
  | call site name arguments position _ =>
      rcases calls ⟨site, name, arguments, position⟩ with ⟨result, steps, called⟩
      exact ⟨result, steps, .call called⟩
  | chain operator left right position ih =>
      rcases exists_runAll ih with ⟨failure | values, steps, operands⟩
      · exact ⟨.error failure, steps, .operandFails operands⟩
      · exact ⟨.ok (operator.fold values), steps, .chain operands⟩
  | foreign kind shown => exact ⟨_, _, .foreign⟩

/-- A run of a call that has noted these steps goes on behind them. -/
theorem RunsCall.exists_later {call : Call} {result : Except Failure Int} {steps : List Step}
    (called : RunsCall limits program budget live binding call result steps) :
    ∃ other later, RunsCall limits program budget live binding call other (steps ++ later) :=
  ⟨result, [], by rwa [List.append_nil]⟩

/-- A call has a run that goes on as the body of its function does. -/
theorem exists_runCall_of_body {call : Call} {values : List Int} {steps bodySteps : List Step}
    {callee : Definition} {entry : String} {result : Except Failure Int}
    (notLive : call.isLive live = false)
    (given : RunsAll limits program budget (call.toExpr :: live) binding call.arguments
      (.ok values) steps)
    (found : program.find? call.name = some callee)
    (written : call.entryText limits values = .ok entry)
    (fits : values.length = callee.arity)
    (body : Runs limits program budget (call.toExpr :: live)
      (Binding.ofArguments callee.parameters values) callee.body result bodySteps) :
    ∃ other later, RunsCall limits program (budget + 1) live binding call other
      (steps ++ ([.enter call values entry] ++ bodySteps) ++ later) := by
  cases result with
  | error failure => exact (RunsCall.bodyFails notLive given found written fits body).exists_later
  | ok value =>
      cases leaving : call.exitText limits value with
      | error fault =>
          exact (RunsCall.exitFault notLive given found written fits body leaving).exists_later
      | ok exit =>
          refine ⟨.ok value, [.leave call value exit], ?_⟩
          rw [List.append_assoc, List.append_assoc]
          exact .returns notLive given found written fits body leaving

/-- A call that is not live has a run that goes on as its arguments do, if all
expressions have a run with a smaller budget. -/
theorem exists_runCall_of_given
    (smaller : ∀ live binding expr, ∃ result steps,
      Runs limits program budget live binding expr result steps)
    {call : Call} {result : Except Failure (List Int)} {steps : List Step}
    (notLive : call.isLive live = false)
    (given : RunsAll limits program budget (call.toExpr :: live) binding call.arguments result
      steps) :
    ∃ other later, RunsCall limits program (budget + 1) live binding call other
      (steps ++ later) := by
  cases result with
  | error failure => exact (RunsCall.argumentFails notLive given).exists_later
  | ok values =>
      cases found : program.find? call.name with
      | none => exact (RunsCall.unknownFunction notLive given found).exists_later
      | some callee =>
          cases written : call.entryText limits values with
          | error fault => exact (RunsCall.entryFault notLive given found written).exists_later
          | ok entry =>
              by_cases fits : values.length = callee.arity
              · obtain ⟨result, bodySteps, body⟩ := smaller (call.toExpr :: live)
                  (Binding.ofArguments callee.parameters values) callee.body
                obtain ⟨other, later, called⟩ :=
                  exists_runCall_of_body notLive given found written fits body
                rw [List.append_assoc] at called
                exact ⟨other, _, called⟩
              · exact ⟨_, _, .wrongArgumentCount notLive given found written fits⟩

/-- A call that is not live has a run if all expressions have one with a smaller
budget. -/
theorem exists_runCall_of_smaller
    (smaller : ∀ live binding expr, ∃ result steps,
      Runs limits program budget live binding expr result steps)
    {call : Call} (notLive : call.isLive live = false) :
    ∃ result steps, RunsCall limits program (budget + 1) live binding call result steps := by
  obtain ⟨_, _, given⟩ :=
    exists_runAll fun (argument : Expr) (_ : argument ∈ call.arguments) =>
      smaller (call.toExpr :: live) binding argument
  obtain ⟨result, later, called⟩ := exists_runCall_of_given smaller notLive given
  exact ⟨result, _, called⟩

end

/-- Every expression has a run, whatever the budget. -/
theorem exists_run (limits : Limits) (program : Program) (budget : Nat) (live : List Expr)
    (binding : Binding) (expr : Expr) :
    ∃ result steps, Runs limits program budget live binding expr result steps := by
  induction budget generalizing live binding expr with
  | zero =>
      apply exists_run_of_calls
      intro call
      cases liveness : call.isLive live with
      | true => exact ⟨_, _, .reentered liveness⟩
      | false => exact ⟨_, _, .exhausted liveness⟩
  | succ budget ih =>
      apply exists_run_of_calls
      intro call
      cases liveness : call.isLive live with
      | true => exact ⟨_, _, .reentered liveness⟩
      | false => exact exists_runCall_of_smaller ih liveness

/-- So has every call. -/
theorem exists_runCall (limits : Limits) (program : Program) (budget : Nat) (live : List Expr)
    (binding : Binding) (call : Call) :
    ∃ result steps, RunsCall limits program budget live binding call result steps := by
  rcases exists_run limits program budget live binding call.toExpr with ⟨result, steps, runs⟩
  cases runs with
  | call called => exact ⟨result, steps, called⟩

/-- On a new machine an evaluation gives what a run of it gives. -/
theorem Runs.onNewMachine {limits : Limits} {program : Program} {binding : Binding}
    {expr : Expr} {result : Except Failure Int} {steps : List Step}
    (runs : Runs limits program limits.liveCalls [] binding expr result steps) :
    (program.evaluate limits binding expr).onNewMachine = (result, ⟨[], steps.toArray⟩) := by
  have ended := runs.ends #[]
  rwa [Array.empty_append] at ended

/-- What an evaluation on a new machine gives is the result of a run. -/
theorem exists_runs_onNewMachine (limits : Limits) (program : Program)
    (binding : Binding) (expr : Expr) :
    ∃ steps, Runs limits program limits.liveCalls [] binding expr
      (program.evaluate limits binding expr).onNewMachine.1 steps := by
  rcases exists_run limits program limits.liveCalls [] binding expr with ⟨result, steps, runs⟩
  rw [runs.onNewMachine]
  exact ⟨steps, runs⟩

end Program

end Polycalc

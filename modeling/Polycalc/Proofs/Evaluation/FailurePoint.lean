import Polycalc.Proofs.Evaluation.Stepwise
import Polycalc.Proofs.Evaluation.Trace

/-!
# Where an evaluation fails

When an evaluation fails, the calls that are live at that moment are taken off
before the failure is seen.  `Program.FailsAt` follows a failing evaluation down
to the point of failure and says which calls are live there, innermost first.  A
call is live before its arguments are evaluated, and its entry is noted after
that, so each of them is either *entered*, with the values of its arguments, or
not.

The entries that are still open are those of the entered calls
(`FailsAt.unclosed`).  In single steps, the point of failure is a state that is
reached, with these live calls and these notes, and from which the evaluation
fails (`FailsAt.reaches`).
-/

namespace Polycalc

/-- A live call, with the values of its arguments once its function has been
entered. -/
structure Activation where
  call : Call
  entered : Option (List Int)

namespace Activation

/-- The entry of a call, if there is one. -/
def opening? (activation : Activation) : Option Opening :=
  activation.entered.map fun arguments => ⟨activation.call, arguments⟩

/-- The entries of live calls. -/
def openings (stack : List Activation) : List Opening :=
  stack.filterMap opening?

/-- What a machine holds of live calls. -/
def exprs (stack : List Activation) : List Expr :=
  stack.map fun activation => activation.call.toExpr

variable (call : Call) (arguments : List Int) (stack : List Activation)

@[simp]
theorem openings_pending : openings (⟨call, none⟩ :: stack) = openings stack :=
  rfl

@[simp]
theorem openings_entered :
    openings (⟨call, some arguments⟩ :: stack) = ⟨call, arguments⟩ :: openings stack :=
  rfl

@[simp]
theorem exprs_cons (activation : Activation) :
    exprs (activation :: stack) = activation.call.toExpr :: exprs stack :=
  rfl

/-- The calls of the entries are some of the live calls, in their order. -/
theorem openings_sublist :
    ((openings stack).map Opening.call).Sublist (stack.map Activation.call) := by
  induction stack with
  | nil => exact .slnil
  | cons activation stack ih =>
      rcases activation with ⟨call, _ | arguments⟩
      · exact .cons call ih
      · exact .cons_cons call ih

end Activation

namespace Program

open Activation Trace Stepwise

variable {limits : Limits} {program : Program}

/-! ## The way to the point of failure -/

/-- `FailsAt limits program budget live binding expr failure stack steps`: the
evaluation of `expr`, with these live calls and room for `budget` more, fails
where the calls of `stack` are live and `steps` have been noted. -/
inductive FailsAt (limits : Limits) (program : Program) :
    Nat → List Activation → Binding → Expr → Failure → List Activation → List Step → Prop
  | unbound {budget : Nat} {live : List Activation} {binding : Binding} {name : String}
      {position : Position} (free : binding.lookup name = none) :
      FailsAt limits program budget live binding (.parameter name position)
        (.evaluation (.unboundParameter name position)) live []
  | foreign {budget : Nat} {live : List Activation} {binding : Binding} {kind shown : String} :
      FailsAt limits program budget live binding (.foreign kind shown)
        (.fault (.notAnExpression shown)) live []
  | operand {budget : Nat} {live : List Activation} {binding : Binding} {operator : Operator}
      {left right failing : Expr} {position : Position} {earlier later : List Expr}
      {values : List Int} {failure : Failure} {stack : List Activation}
      {steps moreSteps : List Step}
      (chain : (Expr.binary operator left right position).operands =
        earlier ++ failing :: later)
      (before : RunsAll limits program budget (exprs live) binding earlier (.ok values) steps)
      (fails : FailsAt limits program budget live binding failing failure stack moreSteps) :
      FailsAt limits program budget live binding (.binary operator left right position) failure
        stack (steps ++ moreSteps)
  | reentered {budget : Nat} {live : List Activation} {binding : Binding} {call : Call}
      (isLive : call.isLive (exprs live) = true) :
      FailsAt limits program budget live binding call.toExpr
        (.quoting (call.render limits) (.diverges call)) live []
  | exhausted {live : List Activation} {binding : Binding} {call : Call}
      (notLive : call.isLive (exprs live) = false) :
      FailsAt limits program 0 live binding call.toExpr (.evaluation .tooManyLiveCalls) live []
  | argument {budget : Nat} {live : List Activation} {binding : Binding} {call : Call}
      {failing : Expr} {earlier later : List Expr} {values : List Int} {failure : Failure}
      {stack : List Activation} {steps moreSteps : List Step}
      (notLive : call.isLive (exprs live) = false)
      (given : call.arguments = earlier ++ failing :: later)
      (before : RunsAll limits program budget (call.toExpr :: exprs live) binding earlier
        (.ok values) steps)
      (fails : FailsAt limits program budget (⟨call, none⟩ :: live) binding failing failure
        stack moreSteps) :
      FailsAt limits program (budget + 1) live binding call.toExpr failure stack
        (steps ++ moreSteps)
  | unknownFunction {budget : Nat} {live : List Activation} {binding : Binding} {call : Call}
      {values : List Int} {steps : List Step}
      (notLive : call.isLive (exprs live) = false)
      (given : RunsAll limits program budget (call.toExpr :: exprs live) binding call.arguments
        (.ok values) steps)
      (unknown : program.find? call.name = none) :
      FailsAt limits program (budget + 1) live binding call.toExpr
        (.quoting (call.render limits) (.unknownFunction call)) (⟨call, none⟩ :: live) steps
  | entryFault {budget : Nat} {live : List Activation} {binding : Binding} {call : Call}
      {values : List Int} {steps : List Step} {callee : Definition} {fault : Fault}
      (notLive : call.isLive (exprs live) = false)
      (given : RunsAll limits program budget (call.toExpr :: exprs live) binding call.arguments
        (.ok values) steps)
      (found : program.find? call.name = some callee)
      (unwritten : call.entryText limits values = .error fault) :
      FailsAt limits program (budget + 1) live binding call.toExpr (.fault fault)
        (⟨call, none⟩ :: live) steps
  | wrongArgumentCount {budget : Nat} {live : List Activation} {binding : Binding} {call : Call}
      {values : List Int} {steps : List Step} {callee : Definition} {entry : String}
      (notLive : call.isLive (exprs live) = false)
      (given : RunsAll limits program budget (call.toExpr :: exprs live) binding call.arguments
        (.ok values) steps)
      (found : program.find? call.name = some callee)
      (written : call.entryText limits values = .ok entry)
      (mismatch : values.length ≠ callee.arity) :
      FailsAt limits program (budget + 1) live binding call.toExpr
        (.evaluation (.wrongArgumentCount callee.name callee.arity values.length))
        (⟨call, some values⟩ :: live) (steps ++ [.enter call values entry])
  | body {budget : Nat} {live : List Activation} {binding : Binding} {call : Call}
      {values : List Int} {steps bodySteps : List Step} {callee : Definition} {entry : String}
      {failure : Failure} {stack : List Activation}
      (notLive : call.isLive (exprs live) = false)
      (given : RunsAll limits program budget (call.toExpr :: exprs live) binding call.arguments
        (.ok values) steps)
      (found : program.find? call.name = some callee)
      (written : call.entryText limits values = .ok entry)
      (fits : values.length = callee.arity)
      (fails : FailsAt limits program budget (⟨call, some values⟩ :: live)
        (Binding.ofArguments callee.parameters values) callee.body failure stack bodySteps) :
      FailsAt limits program (budget + 1) live binding call.toExpr failure stack
        (steps ++ ([.enter call values entry] ++ bodySteps))
  | exitFault {budget : Nat} {live : List Activation} {binding : Binding} {call : Call}
      {values : List Int} {steps bodySteps : List Step} {callee : Definition} {entry : String}
      {value : Int} {fault : Fault}
      (notLive : call.isLive (exprs live) = false)
      (given : RunsAll limits program budget (call.toExpr :: exprs live) binding call.arguments
        (.ok values) steps)
      (found : program.find? call.name = some callee)
      (written : call.entryText limits values = .ok entry)
      (fits : values.length = callee.arity)
      (body : Runs limits program budget (call.toExpr :: exprs live)
        (Binding.ofArguments callee.parameters values) callee.body (.ok value) bodySteps)
      (unwritten : call.exitText limits value = .error fault) :
      FailsAt limits program (budget + 1) live binding call.toExpr (.fault fault)
        (⟨call, some values⟩ :: live) (steps ++ ([.enter call values entry] ++ bodySteps))

/-- One of several expressions fails, after the values of those before it. -/
def OneFailsAt (limits : Limits) (program : Program) (budget : Nat) (live : List Activation)
    (binding : Binding) (several : List Expr) (failure : Failure) (stack : List Activation)
    (steps : List Step) : Prop :=
  ∃ earlier failing later values ownSteps moreSteps,
    several = earlier ++ failing :: later ∧ steps = ownSteps ++ moreSteps ∧
      RunsAll limits program budget (exprs live) binding earlier (.ok values) ownSteps ∧
      FailsAt limits program budget live binding failing failure stack moreSteps

/-- A failing run leads to a point of failure. -/
theorem Runs.exists_failsAt {budget : Nat} {live : List Activation} {binding : Binding}
    {expr : Expr} {failure : Failure} {steps : List Step}
    (runs : Runs limits program budget (exprs live) binding expr (.error failure) steps) :
    ∃ stack, FailsAt limits program budget live binding expr failure stack steps := by
  generalize failed : Except.error failure = result at runs
  generalize same : exprs live = liveExprs at runs
  induction runs using @Runs.rec limits program _
    (fun budget liveExprs binding several result steps _ => ∀ live failure,
      .error failure = result → exprs live = liveExprs →
      ∃ stack, OneFailsAt limits program budget live binding several failure stack steps)
    (fun budget liveExprs binding call result steps _ => ∀ live (failure : Failure),
      .error failure = result → exprs live = liveExprs →
      ∃ stack, FailsAt limits program budget live binding call.toExpr failure stack steps)
    generalizing live failure with
  | number => cases failed
  | parameter _ => cases failed
  | unbound free =>
      cases failed
      exact ⟨live, .unbound free⟩
  | call _ ih => exact ih live failure failed same
  | chain _ _ => cases failed
  | operandFails _ ih =>
      rcases ih live failure (by simpa using failed) same with
        ⟨stack, earlier, failing, later, values, _, _, chain, rfl, before, fails⟩
      exact ⟨stack, .operand chain before fails⟩
  | foreign =>
      cases failed
      exact ⟨live, .foreign⟩
  | nil _ _ failed => cases failed
  | cons _ _ _ _ _ _ failed => cases failed
  | firstFails _ ih live failure failed same =>
      rcases ih (by simpa using failed) same with ⟨stack, fails⟩
      exact ⟨stack, [], _, _, [], [], _, rfl, rfl, .nil, fails⟩
  | laterFails first _ _ othersIh live failure failed same =>
      subst same
      rcases othersIh live failure failed rfl with
        ⟨stack, earlier, failing, later, values, _, _, rfl, rfl, before, fails⟩
      exact ⟨stack, _ :: earlier, failing, later, _ :: values, _, _, rfl,
        (List.append_assoc _ _ _).symm, .cons first before, fails⟩
  | reentered isLive live failure failed same =>
      subst same
      cases failed
      exact ⟨live, .reentered isLive⟩
  | exhausted notLive live failure failed same =>
      subst same
      cases failed
      exact ⟨live, .exhausted notLive⟩
  | @argumentFails _ _ _ call _ _ notLive _ ih live failure failed same =>
      subst same
      rcases ih (⟨call, none⟩ :: live) failure (by simpa using failed) rfl with
        ⟨stack, earlier, failing, later, values, _, _, given, rfl, before, fails⟩
      exact ⟨stack, .argument notLive given before fails⟩
  | unknownFunction notLive given unknown _ live failure failed same =>
      subst same
      cases failed
      exact ⟨_, .unknownFunction notLive given unknown⟩
  | entryFault notLive given found unwritten _ live failure failed same =>
      subst same
      cases failed
      exact ⟨_, .entryFault notLive given found unwritten⟩
  | wrongArgumentCount notLive given found written mismatch _ live failure failed same =>
      subst same
      cases failed
      exact ⟨_, .wrongArgumentCount notLive given found written mismatch⟩
  | @bodyFails _ _ _ call values _ _ _ _ _ notLive given found written fits _ _ bodyIh live
      failure failed same =>
      subst same
      have pushed : exprs (⟨call, some values⟩ :: live) = call.toExpr :: exprs live := rfl
      rcases bodyIh (by simpa using failed) pushed with ⟨stack, fails⟩
      exact ⟨stack, .body notLive given found written fits fails⟩
  | exitFault notLive given found written fits body unwritten _ _ live failure failed same =>
      subst same
      cases failed
      exact ⟨_, .exitFault notLive given found written fits body unwritten⟩
  | returns _ _ _ _ _ _ _ _ _ _ _ failed => cases failed

/-! ## Entries that are still open -/

theorem RunsAll.balanced {budget : Nat} {live : List Expr} {binding : Binding}
    {several : List Expr} {values : List Int} {steps : List Step}
    (runs : RunsAll limits program budget live binding several (.ok values) steps)
    (le : budget ≤ limits.liveCalls) : Balanced steps := by
  induction several generalizing values steps with
  | nil =>
      cases runs with
      | nil => exact .nil
  | cons expr rest ih =>
      cases runs with
      | cons first others =>
          rcases first.traced le (List.Subset.refl _) with ⟨opened, traced, closed⟩
          rw [closed _ rfl] at traced
          exact Balanced.append traced.read (ih others)

/-- At the point of failure the entries of the calls that were entered are
open. -/
theorem FailsAt.unclosed {budget : Nat} {live stack : List Activation} {binding : Binding}
    {expr : Expr} {failure : Failure} {steps : List Step}
    (fails : FailsAt limits program budget live binding expr failure stack steps)
    (le : budget ≤ limits.liveCalls) :
    Trace.unclosed (openings live) steps = some (openings stack) := by
  induction fails with
  | unbound _ => rfl
  | foreign => rfl
  | operand _ before _ ih =>
      exact unclosed_append_of_eq ((before.balanced le).unclosed _) (ih le)
  | reentered _ => rfl
  | exhausted _ => rfl
  | argument _ _ before _ ih =>
      have le := Nat.le_of_succ_le le
      exact unclosed_append_of_eq ((before.balanced le).unclosed _) (ih le)
  | unknownFunction _ given _ => exact (given.balanced (Nat.le_of_succ_le le)).unclosed _
  | entryFault _ given _ _ => exact (given.balanced (Nat.le_of_succ_le le)).unclosed _
  | wrongArgumentCount _ given _ _ _ =>
      exact unclosed_append_of_eq ((given.balanced (Nat.le_of_succ_le le)).unclosed _) rfl
  | body _ given _ _ _ _ ih =>
      have le := Nat.le_of_succ_le le
      exact unclosed_append_of_eq ((given.balanced le).unclosed _) (ih le)
  | exitFault _ given _ _ _ body _ =>
      have le := Nat.le_of_succ_le le
      rcases body.traced le (List.Subset.refl _) with ⟨opened, traced, closed⟩
      rw [closed _ rfl] at traced
      exact unclosed_append_of_eq ((given.balanced le).unclosed _)
        (Balanced.unclosed traced.read _)

end Program

/-! ## The point of failure in single steps -/

namespace Stepwise

/-- A state in which nothing has failed yet. -/
def State.Fine (state : State) : Prop :=
  ∀ failure, state.control ≠ .failed failure

@[simp]
theorem State.fine_evaluate (expr : Expr) (binding : Binding) (machine : Machine)
    (frames : List Frame) : State.Fine ⟨.evaluate expr binding, machine, frames⟩ := by
  rintro failure ⟨⟩

@[simp]
theorem State.fine_returned (value : Int) (machine : Machine) (frames : List Frame) :
    State.Fine ⟨.returned value, machine, frames⟩ := by
  rintro failure ⟨⟩

/-- From a state that is fine, the evaluation fails where the machine is the
given one: in the next step, or because no more calls may be live. -/
inductive State.FailsWith (limits : Limits) (program : Program) (failure : Failure) :
    State → Machine → Prop
  | step {state : State} {machine : Machine} {frames : List Frame} (fine : state.Fine)
      (failed : next limits program state = some ⟨.failed failure, machine, frames⟩) :
      State.FailsWith limits program failure state machine
  | full {call : Call} {binding : Binding} {machine : Machine} {frames : List Frame}
      (notLive : call.isLive machine.live = false)
      (full : machine.live.length = limits.liveCalls)
      (tooMany : failure = .evaluation .tooManyLiveCalls) :
      State.FailsWith limits program failure ⟨.evaluate call.toExpr binding, machine, frames⟩
        machine

end Stepwise

namespace Program

open Activation Trace Stepwise

variable {limits : Limits} {program : Program}

/-- Several expressions that have values are passed. -/
theorem RunsAll.reaches_rest {budget : Nat} {live : List Expr} {binding : Binding}
    {several rest : List Expr} {values more : List Int} {steps : List Step} {state : State}
    {purpose : Purpose} {machine : Machine} {frames : List Frame}
    (runs : RunsAll limits program budget live binding several (.ok more) steps)
    (same : machine.live = live) (fine : state.Fine)
    (begun : next limits program state =
      some (proceed limits program purpose values binding machine frames (several ++ rest))) :
    ∃ later, Reaches limits program state later ∧ later.Fine ∧
      next limits program later =
        some (proceed limits program purpose (values ++ more) binding (machine.noting steps)
          frames rest) := by
  induction several generalizing state values more machine steps with
  | nil =>
      cases runs with
      | nil => exact ⟨state, .refl, fine, by simpa using begun⟩
  | cons expr several ih =>
      cases runs with
      | @cons _ _ _ _ _ value _ ownSteps _ first others =>
          have inFirst := first.reaches (by simp) same
            (.several purpose values (several ++ rest) binding :: frames)
          have returned : next limits program
              ⟨.returned value, machine.noting ownSteps,
                .several purpose values (several ++ rest) binding :: frames⟩ =
              some (proceed limits program purpose (values ++ [value]) binding
                (machine.noting ownSteps) frames (several ++ rest)) := rfl
          have sameLater : (machine.noting ownSteps).live = live := same
          rcases ih others sameLater (State.fine_returned _ _ _) returned with
            ⟨later, reached, fineLater, goesOn⟩
          have passed : Reaches limits program state _ := .head begun inFirst
          refine ⟨later, passed.trans reached, fineLater, ?_⟩
          rw [Machine.noting_noting, List.append_assoc] at goesOn
          exact goesOn

/-- A call that is not live becomes live, and then its arguments are
evaluated. -/
theorem next_evaluate_call {call : Call} (machine : Machine)
    (notLive : call.isLive machine.live = false) (binding : Binding) (frames : List Frame) :
    next limits program ⟨.evaluate call.toExpr binding, machine, frames⟩ =
      some (proceed limits program (.call call) [] binding (machine.push call) frames
        call.arguments) := by
  simp [next, begin, Call.toExpr, notLive]

/-- A call whose arguments have values is about to enter the body of its
function. -/
theorem RunsAll.reaches_enterBody {budget : Nat} {binding : Binding} {call : Call}
    {values : List Int} {steps : List Step} (machine : Machine)
    (given : RunsAll limits program budget (call.toExpr :: machine.live) binding call.arguments
      (.ok values) steps)
    (notLive : call.isLive machine.live = false) (frames : List Frame) :
    ∃ later, Reaches limits program ⟨.evaluate call.toExpr binding, machine, frames⟩ later ∧
      later.Fine ∧ next limits program later =
        some (enterBody limits program call values ((machine.push call).noting steps)
          frames) := by
  have begun : next limits program ⟨.evaluate call.toExpr binding, machine, frames⟩ =
      some (proceed limits program (.call call) [] binding (machine.push call) frames
        (call.arguments ++ [])) := by
    rw [List.append_nil]
    exact next_evaluate_call machine notLive binding frames
  exact given.reaches_rest (machine.live_push call) (State.fine_evaluate _ _ _ _) begun

/-- The point of failure is reached in single steps. -/
theorem FailsAt.reaches {budget : Nat} {live stack : List Activation} {binding : Binding}
    {expr : Expr} {failure : Failure} {steps : List Step}
    (fails : FailsAt limits program budget live binding expr failure stack steps)
    (depth : budget + live.length = limits.liveCalls) (earlier : Array Step)
    (frames : List Frame) :
    ∃ state, Reaches limits program ⟨.evaluate expr binding, ⟨exprs live, earlier⟩, frames⟩
        state ∧
      state.FailsWith limits program failure ⟨exprs stack, earlier ++ steps.toArray⟩ := by
  induction fails generalizing earlier frames with
  | @unbound _ live binding name position free =>
      have failed : next limits program
          ⟨.evaluate (.parameter name position) binding, ⟨exprs live, earlier⟩, frames⟩ =
          some ⟨.failed (.evaluation (.unboundParameter name position)),
            ⟨exprs live, earlier ++ #[]⟩, frames⟩ := by
        simp only [next, begin, free, Array.append_empty]
      exact ⟨_, .refl, .step (State.fine_evaluate _ _ _ _) failed⟩
  | @foreign _ live binding kind shown =>
      have failed : next limits program
          ⟨.evaluate (.foreign kind shown) binding, ⟨exprs live, earlier⟩, frames⟩ =
          some ⟨.failed (.fault (.notAnExpression shown)), ⟨exprs live, earlier ++ #[]⟩,
            frames⟩ := by
        simp only [next, begin, Array.append_empty]
      exact ⟨_, .refl, .step (State.fine_evaluate _ _ _ _) failed⟩
  | @operand _ live binding operator left right _ position _ later values _ _ steps _ chain
      before _ ih =>
      have begun : next limits program ⟨.evaluate (.binary operator left right position) binding,
          ⟨exprs live, earlier⟩, frames⟩ = some (proceed limits program (.chain operator) [] binding
            ⟨exprs live, earlier⟩ frames (Expr.binary operator left right position).operands) := rfl
      rw [chain] at begun
      rcases before.reaches_rest rfl (State.fine_evaluate _ _ _ _) begun with
        ⟨between, reached, _, goesOn⟩
      rcases ih depth (earlier ++ steps.toArray)
        (.several (.chain operator) ([] ++ values) later binding :: frames) with
        ⟨state, further, failed⟩
      rw [Array.append_assoc, List.append_toArray steps] at failed
      exact ⟨state, reached.trans (.head goesOn further), failed⟩
  | @reentered _ live binding call isLive =>
      have failed : next limits program
          ⟨.evaluate call.toExpr binding, ⟨exprs live, earlier⟩, frames⟩ =
          some ⟨.failed (.quoting (call.render limits) (.diverges call)),
            ⟨exprs live, earlier ++ #[]⟩, frames⟩ := by
        simp [next, begin, Call.toExpr, isLive]
      exact ⟨_, .refl, .step (State.fine_evaluate _ _ _ _) failed⟩
  | exhausted notLive =>
      refine ⟨_, .refl, ?_⟩
      rw [Array.append_empty]
      exact .full notLive (by simpa [exprs] using depth) rfl
  | @argument _ live binding call _ _ later values _ _ steps _ notLive given before _ ih =>
      have begun : next limits program ⟨.evaluate call.toExpr binding, ⟨exprs live, earlier⟩,
          frames⟩ = some (proceed limits program (.call call) [] binding
            (Machine.push ⟨exprs live, earlier⟩ call) frames call.arguments) :=
        next_evaluate_call _ notLive binding frames
      rw [given] at begun
      rcases before.reaches_rest rfl (State.fine_evaluate _ _ _ _) begun with
        ⟨between, reached, _, goesOn⟩
      rcases ih (by simp only [List.length_cons]; omega) (earlier ++ steps.toArray)
        (.several (.call call) ([] ++ values) later binding :: frames) with
        ⟨state, further, failed⟩
      rw [Array.append_assoc, List.append_toArray steps] at failed
      exact ⟨state, reached.trans (.head goesOn further), failed⟩
  | unknownFunction notLive given unknown =>
      rcases given.reaches_enterBody ⟨exprs _, earlier⟩ notLive frames with
        ⟨between, reached, fine, entering⟩
      rw [enterBody, unknown] at entering
      exact ⟨between, reached, .step fine entering⟩
  | entryFault notLive given found unwritten =>
      rcases given.reaches_enterBody ⟨exprs _, earlier⟩ notLive frames with
        ⟨between, reached, fine, entering⟩
      simp only [enterBody, found, unwritten] at entering
      exact ⟨between, reached, .step fine entering⟩
  | wrongArgumentCount notLive given found written mismatch =>
      rcases given.reaches_enterBody ⟨exprs _, earlier⟩ notLive frames with
        ⟨between, reached, fine, entering⟩
      simp only [enterBody, found, written, if_neg mismatch, Machine.noting_noting] at entering
      exact ⟨between, reached, .step fine entering⟩
  | @body _ live _ call values steps _ _ entry _ _ notLive given found written fits _ ih =>
      rcases given.reaches_enterBody ⟨exprs live, earlier⟩ notLive frames with
        ⟨between, reached, _, entering⟩
      simp only [enterBody, found, written, if_pos fits, Machine.noting_noting] at entering
      rcases ih (by simp only [List.length_cons]; omega)
        (earlier ++ (steps ++ [Step.enter call values entry]).toArray) (.body call :: frames) with
        ⟨state, further, failed⟩
      rw [Array.append_assoc, List.append_toArray (steps ++ _), List.append_assoc] at failed
      exact ⟨state, reached.trans (.head entering further), failed⟩
  | @exitFault _ live _ call values steps bodySteps callee entry value fault notLive given found
      written fits body unwritten =>
      rcases given.reaches_enterBody ⟨exprs live, earlier⟩ notLive frames with
        ⟨between, reached, _, entering⟩
      simp only [enterBody, found, written, if_pos fits, Machine.noting_noting] at entering
      have same : ((Machine.push ⟨exprs live, earlier⟩ call).noting
          (steps ++ [Step.enter call values entry])).live = call.toExpr :: exprs live := rfl
      have inBody := body.reaches (by simp) same (.body call :: frames)
      rw [Machine.noting_noting, List.append_assoc] at inBody
      exact ⟨_, reached.trans (.head entering inBody), .step (State.fine_returned _ _ _)
        (next_returned_of_unwritten unwritten _ _)⟩

end Program

end Polycalc

import Polycalc.Proofs.Evaluation.Run
import Mathlib.Logic.Relation

/-!
# Evaluation in single steps

A recursive evaluator shows its result only.  Here the same evaluation is made
in single steps on states with a stack of frames, so that one can speak of what
is live in between.  A call becomes live in one step; it is taken off in another
one, which comes also when a failure is on its way out.  There is no limit on
the number of live calls.

A run of the evaluator that does not use up its budget is a sequence of steps
with the same result, the same live calls and the same notes (`Runs.reaches`).
-/

namespace Polycalc

namespace Machine

/-- One more call is live. -/
def push (machine : Machine) (call : Call) : Machine :=
  { machine with live := call.toExpr :: machine.live }

/-- The innermost live call is taken off. -/
def pop (machine : Machine) : Machine :=
  { machine with live := machine.live.tail }

/-- Steps are noted. -/
def noting (machine : Machine) (steps : List Step) : Machine :=
  { machine with steps := machine.steps ++ steps.toArray }

variable (machine : Machine)

@[simp]
theorem noting_nil : machine.noting [] = machine := by
  simp [noting]

@[simp]
theorem noting_noting (steps moreSteps : List Step) :
    (machine.noting steps).noting moreSteps = machine.noting (steps ++ moreSteps) := by
  simp [noting]

@[simp]
theorem live_push (call : Call) : (machine.push call).live = call.toExpr :: machine.live :=
  rfl

@[simp]
theorem live_pop : machine.pop.live = machine.live.tail :=
  rfl

end Machine

namespace Stepwise

/-! ## States -/

/-- What several expressions are evaluated for. -/
inductive Purpose
  /-- they are the operands of a chain -/
  | chain (operator : Operator)
  /-- they are the arguments of a call, which is live -/
  | call (call : Call)

/-- What is left to be done with a value. -/
inductive Frame
  /-- to evaluate the rest of several expressions -/
  | several (purpose : Purpose) (values : List Int) (rest : List Expr) (binding : Binding)
  /-- to leave the body of the function that a live call names -/
  | body (call : Call)

/-- What is to be done first. -/
inductive Control
  | evaluate (expr : Expr) (binding : Binding)
  | returned (value : Int)
  | failed (failure : Failure)

/-- The end of an evaluation with a result. -/
def Control.ofResult : Except Failure Int → Control
  | .ok value => .returned value
  | .error failure => .failed failure

/-- An evaluation between two steps. -/
structure State where
  control : Control
  machine : Machine
  frames : List Frame

/-- The state before the first step. -/
def State.start (expr : Expr) (binding : Binding) : State :=
  ⟨.evaluate expr binding, {}, []⟩

/-! ## Steps -/

/-- A failure among several expressions takes off the call that they are the
arguments of. -/
def Purpose.unwind : Purpose → Machine → Machine
  | .chain _, machine => machine
  | .call _, machine => machine.pop

/-- A failure passes a frame. -/
def Frame.unwind : Frame → Machine → Machine
  | .several purpose _ _ _, machine => purpose.unwind machine
  | .body _, machine => machine.pop

variable (limits : Limits) (program : Program)

/-- Enter the body of the function that a live call names. -/
def enterBody (call : Call) (values : List Int) (machine : Machine) (frames : List Frame) :
    State :=
  match program.find? call.name with
  | none =>
    ⟨.failed (.quoting (call.render limits) (.unknownFunction call)), machine,
      .body call :: frames⟩
  | some callee =>
    match call.entryText limits values with
    | .error fault => ⟨.failed (.fault fault), machine, .body call :: frames⟩
    | .ok text =>
      if values.length = callee.arity then
        ⟨.evaluate callee.body (.ofArguments callee.parameters values),
          machine.noting [.enter call values text], .body call :: frames⟩
      else
        ⟨.failed (.evaluation (.wrongArgumentCount callee.name callee.arity values.length)),
          machine.noting [.enter call values text], .body call :: frames⟩

/-- Leave the body of the function that a live call names. -/
def leaveBody (call : Call) (value : Int) (machine : Machine) (frames : List Frame) : State :=
  match call.exitText limits value with
  | .error fault => ⟨.failed (.fault fault), machine, .body call :: frames⟩
  | .ok text => ⟨.returned value, (machine.noting [.leave call value text]).pop, frames⟩

/-- What comes after the values of several expressions. -/
def finish (purpose : Purpose) (values : List Int) (machine : Machine) (frames : List Frame) :
    State :=
  match purpose with
  | .chain operator => ⟨.returned (operator.fold values), machine, frames⟩
  | .call call => enterBody limits program call values machine frames

/-- Go on with the rest of several expressions. -/
def proceed (purpose : Purpose) (values : List Int) (binding : Binding) (machine : Machine)
    (frames : List Frame) : List Expr → State
  | [] => finish limits program purpose values machine frames
  | expr :: rest =>
    ⟨.evaluate expr binding, machine, .several purpose values rest binding :: frames⟩

/-- Begin to evaluate an expression. -/
def begin (binding : Binding) (machine : Machine) (frames : List Frame) : Expr → State
  | .number value _ => ⟨.returned value, machine, frames⟩
  | .parameter name position =>
    match binding.lookup name with
    | some value => ⟨.returned value, machine, frames⟩
    | none => ⟨.failed (.evaluation (.unboundParameter name position)), machine, frames⟩
  | .call site name arguments position =>
    let call : Call := ⟨site, name, arguments, position⟩
    if call.isLive machine.live then
      ⟨.failed (.quoting (call.render limits) (.diverges call)), machine, frames⟩
    else
      proceed limits program (.call call) [] binding (machine.push call) frames arguments
  | .binary operator left right position =>
    proceed limits program (.chain operator) [] binding machine frames
      (Expr.binary operator left right position).operands
  | .foreign _ shown => ⟨.failed (.fault (.notAnExpression shown)), machine, frames⟩

/-- The next state; there is none when the evaluation has ended. -/
def next : State → Option State
  | ⟨.evaluate expr binding, machine, frames⟩ =>
    some (begin limits program binding machine frames expr)
  | ⟨.returned value, machine, .several purpose values rest binding :: frames⟩ =>
    some (proceed limits program purpose (values ++ [value]) binding machine frames rest)
  | ⟨.returned value, machine, .body call :: frames⟩ =>
    some (leaveBody limits call value machine frames)
  | ⟨.failed failure, machine, frame :: frames⟩ =>
    some ⟨.failed failure, frame.unwind machine, frames⟩
  | ⟨_, _, []⟩ => none

/-- One state leads to another in any number of steps. -/
def Reaches : State → State → Prop :=
  Relation.ReflTransGen fun state state' => next limits program state = some state'

/-- No endless sequence of steps begins in a state. -/
def Terminates : State → Prop :=
  Acc fun later earlier => next limits program earlier = some later

variable {limits : Limits} {program : Program}

/-- Since a state has one successor at most, an evaluation that can end will
end. -/
theorem Reaches.terminates {state final : State} (reached : Reaches limits program state final)
    (halted : next limits program final = none) : Terminates limits program state := by
  induction reached using Relation.ReflTransGen.head_induction_on with
  | refl =>
      constructor
      intro later stepped
      rw [halted] at stepped
      cases stepped
  | head first _ ih =>
      constructor
      intro later stepped
      rw [first] at stepped
      cases stepped
      exact ih

end Stepwise

/-! ## Runs of the evaluator -/

namespace Program

open Stepwise

variable {limits : Limits} {program : Program}

/-- Where the values of several expressions lead, or the failure of one of
them. -/
def conclude (limits : Limits) (program : Program) (purpose : Purpose) (values : List Int)
    (machine : Machine) (frames : List Frame) : Except Failure (List Int) → State
  | .ok more => finish limits program purpose (values ++ more) machine frames
  | .error failure => ⟨.failed failure, purpose.unwind machine, frames⟩

/-- A call that is not live becomes live, and its arguments come first. -/
theorem reaches_of_arguments {call : Call} {machine : Machine} {binding : Binding}
    {frames : List Frame} {state : State} (notLive : call.isLive machine.live = false)
    (later : Reaches limits program
      (proceed limits program (.call call) [] binding (machine.push call) frames call.arguments)
      state) :
    Reaches limits program ⟨.evaluate call.toExpr binding, machine, frames⟩ state := by
  refine .head ?_ later
  simp [next, begin, Call.toExpr, notLive]

/-- Values that fit the function lead to its body, and from there to what the
body leads to, whatever was noted before. -/
theorem reaches_of_body {call : Call} {machine : Machine} {binding : Binding}
    {frames : List Frame} {values : List Int} {steps bodySteps : List Step}
    {callee : Definition} {entry : String} {control : Control}
    (notLive : call.isLive machine.live = false)
    (given : Reaches limits program
      (proceed limits program (.call call) [] binding (machine.push call) frames call.arguments)
      (conclude limits program (.call call) [] ((machine.push call).noting steps) frames
        (.ok values)))
    (found : program.find? call.name = some callee)
    (written : call.entryText limits values = .ok entry) (fits : values.length = callee.arity)
    (body : ∀ entered : Machine, entered.live = call.toExpr :: machine.live →
      Reaches limits program
        ⟨.evaluate callee.body (.ofArguments callee.parameters values), entered,
          .body call :: frames⟩
        ⟨control, entered.noting bodySteps, .body call :: frames⟩) :
    Reaches limits program ⟨.evaluate call.toExpr binding, machine, frames⟩
      ⟨control,
        (machine.push call).noting (steps ++ ([.enter call values entry] ++ bodySteps)),
        .body call :: frames⟩ := by
  apply reaches_of_arguments notLive
  simp only [conclude, finish, enterBody, List.nil_append, found, written, if_pos fits,
    Machine.noting_noting] at given
  have inBody := body ((machine.push call).noting (steps ++ [.enter call values entry])) rfl
  rw [Machine.noting_noting, List.append_assoc] at inBody
  exact given.trans inBody

theorem next_returned {call : Call} {value : Int} {exit : String}
    (leaving : call.exitText limits value = .ok exit) (machine : Machine)
    (frames : List Frame) :
    next limits program ⟨.returned value, machine, .body call :: frames⟩ =
      some ⟨.returned value, (machine.noting [.leave call value exit]).pop, frames⟩ := by
  simp only [next, leaveBody, leaving]

theorem next_returned_of_unwritten {call : Call} {value : Int} {fault : Fault}
    (unwritten : call.exitText limits value = .error fault) (machine : Machine)
    (frames : List Frame) :
    next limits program ⟨.returned value, machine, .body call :: frames⟩ =
      some ⟨.failed (.fault fault), machine, .body call :: frames⟩ := by
  simp only [next, leaveBody, unwritten]

/-- A run that does not use up its budget can be made in single steps. -/
theorem Runs.reaches {budget : Nat} {live : List Expr} {binding : Binding} {expr : Expr}
    {result : Except Failure Int} {steps : List Step}
    (runs : Runs limits program budget live binding expr result steps)
    (roomy : result ≠ .error (.evaluation .tooManyLiveCalls)) {machine : Machine}
    (same : machine.live = live) (frames : List Frame) :
    Reaches limits program ⟨.evaluate expr binding, machine, frames⟩
      ⟨.ofResult result, machine.noting steps, frames⟩ := by
  induction runs using @Runs.rec limits program _
    (fun _ live binding exprs result steps _ =>
      result ≠ .error (.evaluation .tooManyLiveCalls) → ∀ purpose values machine frames,
        machine.live = live → Reaches limits program
          (proceed limits program purpose values binding machine frames exprs)
          (conclude limits program purpose values (machine.noting steps) frames result))
    (fun _ live binding call result steps _ =>
      result ≠ .error (.evaluation .tooManyLiveCalls) → ∀ machine frames,
        machine.live = live →
          Reaches limits program ⟨.evaluate call.toExpr binding, machine, frames⟩
            ⟨.ofResult result, machine.noting steps, frames⟩)
    generalizing machine frames with
  | number =>
      apply Relation.ReflTransGen.single
      rw [Machine.noting_nil]
      rfl
  | parameter bound =>
      apply Relation.ReflTransGen.single
      simp [next, begin, bound, Control.ofResult]
  | unbound free =>
      apply Relation.ReflTransGen.single
      simp [next, begin, free, Control.ofResult]
  | call _ ih => exact ih roomy machine frames same
  | chain _ ih => exact .head rfl (ih (by simp) _ [] machine frames same)
  | operandFails _ ih => exact .head rfl (ih (by simpa using roomy) _ [] machine frames same)
  | foreign =>
      apply Relation.ReflTransGen.single
      rw [Machine.noting_nil]
      rfl
  | nil _ purpose values machine frames _ =>
      rw [Machine.noting_nil, conclude, List.append_nil]
      exact .refl
  | @cons _ _ binding _ rest value _ steps _ _ _ firstIh othersIh _ purpose values machine frames
      same =>
      have first := firstIh (by simp) same (.several purpose values rest binding :: frames)
      have others := othersIh (by simp) purpose (values ++ [value]) (machine.noting steps) frames
        same
      rw [Machine.noting_noting, conclude, List.append_assoc] at others
      exact first.trans (.head rfl others)
  | @firstFails _ _ binding _ rest _ _ _ ih roomy purpose values machine frames same =>
      have first := ih (by simpa using roomy) same (.several purpose values rest binding :: frames)
      exact first.tail rfl
  | @laterFails _ _ binding _ rest value _ steps _ _ _ firstIh othersIh roomy purpose values machine
      frames same =>
      have first := firstIh (by simp) same (.several purpose values rest binding :: frames)
      have others := othersIh roomy purpose (values ++ [value]) (machine.noting steps) frames same
      rw [Machine.noting_noting] at others
      exact first.trans (.head rfl others)
  | reentered isLive _ machine frames same =>
      subst same
      apply Relation.ReflTransGen.single
      simp [next, begin, Call.toExpr, isLive, Control.ofResult]
  | exhausted _ roomy => exact absurd rfl roomy
  | @argumentFails _ _ _ call _ _ notLive _ ih roomy machine frames same =>
      subst same
      apply reaches_of_arguments notLive
      exact ih (by simpa using roomy) (.call call) [] (machine.push call) frames rfl
  | @unknownFunction _ _ _ call _ _ notLive _ unknown ih _ machine frames same =>
      subst same
      apply reaches_of_arguments notLive
      have given := ih (by simp) (.call call) [] (machine.push call) frames rfl
      simp only [conclude, finish, enterBody, unknown] at given
      exact given.tail rfl
  | @entryFault _ _ _ call _ _ _ _ notLive _ found unwritten ih _ machine frames same =>
      subst same
      apply reaches_of_arguments notLive
      have given := ih (by simp) (.call call) [] (machine.push call) frames rfl
      simp only [conclude, finish, enterBody, found, List.nil_append, unwritten] at given
      exact given.tail rfl
  | @wrongArgumentCount _ _ _ call _ _ _ _ notLive _ found written mismatch ih _ machine frames
      same =>
      subst same
      apply reaches_of_arguments notLive
      have given := ih (by simp) (.call call) [] (machine.push call) frames rfl
      simp only [conclude, finish, enterBody, found, List.nil_append, written, mismatch,
        if_false, Machine.noting_noting] at given
      exact given.tail rfl
  | @bodyFails _ _ _ call _ _ _ _ _ _ notLive _ found written fits _ ih bodyIh roomy machine frames
      same =>
      subst same
      have given := ih (by simp) (.call call) [] (machine.push call) frames rfl
      have inBody := reaches_of_body notLive given found written fits
        fun _ isLive => bodyIh roomy isLive (.body call :: frames)
      exact inBody.tail rfl
  | @exitFault _ _ _ call _ _ _ _ _ _ _ notLive _ found written fits _ unwritten ih bodyIh _ machine
      frames same =>
      subst same
      have given := ih (by simp) (.call call) [] (machine.push call) frames rfl
      have inBody := reaches_of_body notLive given found written fits
        fun _ isLive => bodyIh (by simp) isLive (.body call :: frames)
      exact (inBody.tail (next_returned_of_unwritten unwritten _ _)).tail rfl
  | @returns _ _ _ call _ _ _ _ _ _ _ notLive _ found written fits _ leaving ih bodyIh _ machine
      frames same =>
      subst same
      have given := ih (by simp) (.call call) [] (machine.push call) frames rfl
      have inBody := reaches_of_body notLive given found written fits
        fun _ isLive => bodyIh (by simp) isLive (.body call :: frames)
      have left := inBody.tail (next_returned leaving _ _)
      rw [Machine.noting_noting, List.append_assoc, List.append_assoc] at left
      exact left

end Program

end Polycalc

import Polycalc.Expr.Printer
import Polycalc.Failure

/-!
# Evaluating expressions

An expression is evaluated in a binding of its parameters, against a program
that says what the functions are.  The machine keeps the calls that are live
and notes a step when the body of a function is entered and when it is left.

The language has no conditionals, so a call that is entered again while it is
live can never return: evaluation stops there.  The test is on the call, not
on the function that it names, since `F(1)+F(1)` calls one function twice.

`Program.evaluateCall` counts down how many more calls may be live; evaluation
is by recursion on that number, and within an expression on the expression.
-/

namespace Polycalc

/-- Entering the body of a function with arguments, or leaving it with a value.
Either comes with its text, because writing it may fail. -/
inductive Step
  | enter (call : Call) (arguments : List Int) (text : String)
  | leave (call : Call) (value : Int) (text : String)
  deriving Repr

namespace Step

/-- The arrow that a step is shown with. -/
def symbol : Step → String
  | enter _ _ _ => "→"
  | leave _ _ _ => "←"

/-- The call that is entered, or the function that is left and its value. -/
def text : Step → String
  | enter _ _ text => text
  | leave _ _ text => text

end Step

/-- The state of an evaluation. -/
structure Machine where
  /-- the live calls, innermost first; what was put there by hand need not be
  a call -/
  live : List Expr := []
  steps : Array Step := #[]
  deriving Inhabited

/-- An evaluation: it may fail, and the machine is kept when it does. -/
abbrev Eval (α : Type) : Type :=
  ExceptT Failure (StateM Machine) α

namespace Eval

/-- Take part in an evaluation by a computation that may fail with a fault. -/
def ofFault {α : Type} (result : Except Fault α) : Eval α :=
  ExceptT.mk (pure (Failure.ofFault result))

/-- Fail through an error of evaluation. -/
def fail {α : Type} (error : EvalError) : Eval α :=
  throw (.evaluation error)

/-- Note a step. -/
def note (step : Step) : Eval Unit :=
  modify fun machine => { machine with steps := machine.steps.push step }

/-- Take off the call that became live last. -/
def dropLive : Eval Unit := do
  match (← get).live with
  | [] => throw (.fault .noLiveCall)
  | _ :: live => modify fun machine => { machine with live }

/-- Run an evaluation with one more live call, which is taken off again
whether it succeeds or fails. -/
def withLive {α : Type} (call : Call) (body : Eval α) : Eval α := do
  modify fun machine => { machine with live := call.toExpr :: machine.live }
  let result ← (ExceptT.lift (ExceptT.run body) : Eval (Except Failure α))
  dropLive
  ExceptT.mk (pure result)

end Eval

/-- The values of parameters.  The first entry of a name counts. -/
abbrev Binding : Type :=
  List (String × Int)

/-- Bind parameters to arguments.  Of two parameters with one name the later
one counts. -/
def Binding.ofArguments (parameters : List String) (arguments : List Int) : Binding :=
  (parameters.zip arguments).reverse

/-- The value of a chain from the values of its operands. -/
def Operator.fold (operator : Operator) : List Int → Int
  | [] => 0
  | first :: rest => rest.foldl operator.apply first

/-- The value of an expression, if `onCall` evaluates the calls in it.  The
operands of a chain are evaluated in a loop, from left to right. -/
def Expr.evaluateWith (onCall : Call → Binding → Eval Int) (binding : Binding) :
    Expr → Eval Int
  | number value _ => return value
  | parameter name position =>
    match binding.lookup name with
    | some value => return value
    | none => Eval.fail (.unboundParameter name position)
  | call site name arguments position => onCall ⟨site, name, arguments, position⟩ binding
  | binary operator left right position => do
    let values ← (binary operator left right position).operands.attach.mapM
      fun ⟨operand, _⟩ => operand.evaluateWith onCall binding
    return operator.fold values
  | foreign _ shown => throw (.fault (.notAnExpression shown))
termination_by expr => sizeOf expr
decreasing_by exact sizeOf_mem_operands_lt ‹_›

namespace Call

/-- Whether a call is live. -/
def isLive (call : Call) (live : List Expr) : Bool :=
  live.any (·.site? = some call.site)

/-- How a step shows that a call is entered: by its values, or as it was
written if it has no arguments. -/
def entryText (limits : Limits) (call : Call) (arguments : List Int) :
    Except Fault String :=
  match arguments with
  | [] => call.render limits
  | _ => do
    let texts ← arguments.mapM limits.write
    return call.name ++ "(" ++ " ".intercalate texts ++ ")"

/-- How a step shows that a call is left with a value. -/
def exitText (limits : Limits) (call : Call) (value : Int) : Except Fault String := do
  return call.name ++ " = " ++ (← limits.write value)

end Call

namespace Definition

/-- The value of a function at arguments, if `onCall` evaluates the calls in
its body. -/
def invokeWith (onCall : Call → Binding → Eval Int) (definition : Definition)
    (arguments : List Int) : Eval Int :=
  if arguments.length = definition.arity then
    definition.body.evaluateWith onCall
      (Binding.ofArguments definition.parameters arguments)
  else
    Eval.fail
      (.wrongArgumentCount definition.name definition.arity arguments.length)

end Definition

namespace Program

/-- Evaluate a call that is not live: its arguments from left to right, then
the body of its function. -/
def enterCall (limits : Limits) (program : Program) (onCall : Call → Binding → Eval Int)
    (call : Call) (binding : Binding) : Eval Int := do
  let arguments ← call.arguments.mapM (Expr.evaluateWith onCall binding)
  match program.find? call.name with
  | none => do
    let text ← Eval.ofFault (call.render limits)
    Eval.fail (.unknownFunction call text)
  | some callee => do
    let entry ← Eval.ofFault (call.entryText limits arguments)
    Eval.note (.enter call arguments entry)
    let value ← callee.invokeWith onCall arguments
    let exit ← Eval.ofFault (call.exitText limits value)
    Eval.note (.leave call value exit)
    return value

/-- Evaluate a call, if `budget` more calls may be live. -/
def evaluateCall (limits : Limits) (program : Program) :
    (budget : Nat) → Call → Binding → Eval Int
  | budget, call, binding => do
    if call.isLive (← get).live then
      let text ← Eval.ofFault (call.render limits)
      Eval.fail (.diverges call text)
    else
      match budget with
      | 0 => Eval.fail .tooManyLiveCalls
      | budget + 1 =>
        Eval.withLive call
          (program.enterCall limits (program.evaluateCall limits budget) call binding)

/-- The value of an expression. -/
def evaluate (limits : Limits) (program : Program) (binding : Binding) (expr : Expr) :
    Eval Int :=
  expr.evaluateWith (program.evaluateCall limits limits.liveCalls) binding

/-- The value of a function at arguments. -/
def invoke (limits : Limits) (program : Program) (definition : Definition)
    (arguments : List Int) : Eval Int :=
  definition.invokeWith (program.evaluateCall limits limits.liveCalls) arguments

/-- The value of a function that is looked up by its name. -/
def invokeNamed (limits : Limits) (program : Program) (name : String)
    (arguments : List Int) : Eval Int :=
  match program.find? name with
  | none => throw (.fault (.noFunction name))
  | some definition => program.invoke limits definition arguments

/-- The value of a program: that of its entry function. -/
def run (limits : Limits) (program : Program) : Eval Int :=
  program.invokeNamed limits entryName []

end Program

end Polycalc

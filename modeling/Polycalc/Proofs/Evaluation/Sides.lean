import Polycalc.Proofs.Evaluation.Run
import Polycalc.Proofs.Expr.Sides

/-!
# Evaluating the two sides of a chain

`Program.evaluateBySides` is an evaluator that knows nothing of chains: at every
operator it evaluates the left side and then the right side.  It is the same
evaluation as the one that goes through operands in a loop, and printing in a loop
is the same as printing by recursion (`Expr.loops_eq_recursion`).
-/

namespace Polycalc

namespace Expr

/-- The value of an expression by recursion on both sides of every operator, if
`onCall` evaluates the calls in it. -/
def evaluateBySidesWith (onCall : Call → Binding → Eval Int) (binding : Binding) :
    Expr → Eval Int
  | number value _ => return value
  | parameter name position =>
    match binding.lookup name with
    | some value => return value
    | none => Eval.fail (.unboundParameter name position)
  | call site name arguments position => onCall ⟨site, name, arguments, position⟩ binding
  | binary operator left right _ => do
    let first ← left.evaluateBySidesWith onCall binding
    let second ← right.evaluateBySidesWith onCall binding
    return operator.apply first second
  | foreign _ shown => throw (.fault (.notAnExpression shown))

/-- Evaluating operands in a loop is evaluating one side after the other. -/
theorem evaluateWith_eq_evaluateBySidesWith (onCall : Call → Binding → Eval Int)
    (binding : Binding) (expr : Expr) :
    expr.evaluateWith onCall binding = expr.evaluateBySidesWith onCall binding := by
  induction expr using operandInduction with
  | number value position => rw [evaluateWith, evaluateBySidesWith]
  | parameter name position =>
      cases bound : binding.lookup name with
      | none => rw [evaluateWith, evaluateBySidesWith, bound]
      | some value => rw [evaluateWith, evaluateBySidesWith, bound]
  | call site name arguments position _ => rw [evaluateWith, evaluateBySidesWith]
  | chain operator left right position ih =>
      rw [Program.evaluateWith_binary, mapM_congr_of_forall ih]
      apply bind_mapM_operands (evaluateBySidesWith onCall binding) id
      · exact fun _ _ => rfl
      · intro operand _
        simp
      · intro left right position
        rw [evaluateBySidesWith]
  | foreign kind shown => rw [evaluateWith, evaluateBySidesWith]

end Expr

/-- How a step shows that a call is entered, by recursion on both sides of every
operator. -/
def Call.entryTextBySides (limits : Limits) (call : Call) (arguments : List Int) :
    Except Fault String :=
  match arguments with
  | [] => call.toExpr.renderBySides limits
  | _ => do
    let texts ← arguments.mapM limits.write
    return call.name ++ "(" ++ " ".intercalate texts ++ ")"

/-- The value of a function at arguments by recursion on both sides of every
operator, if `onCall` evaluates the calls in its body. -/
def Definition.invokeBySidesWith (onCall : Call → Binding → Eval Int) (definition : Definition)
    (arguments : List Int) : Eval Int :=
  if arguments.length = definition.arity then
    definition.body.evaluateBySidesWith onCall
      (Binding.ofArguments definition.parameters arguments)
  else
    Eval.fail (.wrongArgumentCount definition.name definition.arity arguments.length)

namespace Program

/-- Evaluate a call that is not live: its arguments from left to right, then the
body of its function, all of them by recursion on both sides of every operator. -/
def enterCallBySides (limits : Limits) (program : Program)
    (onCall : Call → Binding → Eval Int) (call : Call) (binding : Binding) : Eval Int := do
  let arguments ← call.arguments.mapM (Expr.evaluateBySidesWith onCall binding)
  match program.find? call.name with
  | none => do
    let text ← Eval.ofFault (call.toExpr.renderBySides limits)
    Eval.fail (.unknownFunction call text)
  | some callee => do
    let entry ← Eval.ofFault (call.entryTextBySides limits arguments)
    Eval.note (.enter call arguments entry)
    let value ← callee.invokeBySidesWith onCall arguments
    let exit ← Eval.ofFault (call.exitText limits value)
    Eval.note (.leave call value exit)
    return value

/-- Evaluate a call by recursion on both sides of every operator, if `budget` more
calls may be live. -/
def evaluateCallBySides (limits : Limits) (program : Program) :
    (budget : Nat) → Call → Binding → Eval Int
  | budget, call, binding => do
    if call.isLive (← get).live then
      let text ← Eval.ofFault (call.toExpr.renderBySides limits)
      Eval.fail (.diverges call text)
    else
      match budget with
      | 0 => Eval.fail .tooManyLiveCalls
      | budget + 1 =>
        Eval.withLive call
          (program.enterCallBySides limits (program.evaluateCallBySides limits budget) call
            binding)

/-- The value of an expression by recursion on both sides of every operator. -/
def evaluateBySides (limits : Limits) (program : Program) (binding : Binding) (expr : Expr) :
    Eval Int :=
  expr.evaluateBySidesWith (program.evaluateCallBySides limits limits.liveCalls) binding

variable (limits : Limits) (program : Program)

theorem enterCall_eq_enterCallBySides (onCall : Call → Binding → Eval Int) (call : Call)
    (binding : Binding) :
    program.enterCall limits onCall call binding =
      program.enterCallBySides limits onCall call binding := by
  have sameArguments : call.arguments.mapM (Expr.evaluateWith onCall binding) =
      call.arguments.mapM (Expr.evaluateBySidesWith onCall binding) :=
    mapM_congr_of_forall fun argument _ =>
      argument.evaluateWith_eq_evaluateBySidesWith onCall binding
  have sameEntry : ∀ arguments,
      call.entryText limits arguments = call.entryTextBySides limits arguments := by
    intro arguments
    cases arguments with
    | nil => exact Expr.render_eq_renderBySides limits call.toExpr
    | cons argument rest => rfl
  have sameBody : ∀ (callee : Definition) arguments,
      callee.invokeWith onCall arguments = callee.invokeBySidesWith onCall arguments := by
    intro callee arguments
    rw [Definition.invokeWith, Definition.invokeBySidesWith,
      Expr.evaluateWith_eq_evaluateBySidesWith]
  cases found : program.find? call.name with
  | none =>
      simp only [enterCall, enterCallBySides, found, sameArguments, Call.render,
        Expr.render_eq_renderBySides]
  | some callee =>
      simp only [enterCall, enterCallBySides, found, sameArguments, sameEntry, sameBody]

/-- By induction on the number of calls that may still become live. -/
theorem evaluateCall_eq_evaluateCallBySides (budget : Nat) :
    program.evaluateCall limits budget = program.evaluateCallBySides limits budget := by
  induction budget with
  | zero =>
      funext call binding
      simp only [evaluateCall, evaluateCallBySides, Call.render, Expr.render_eq_renderBySides]
  | succ budget ih =>
      funext call binding
      simp only [evaluateCall, evaluateCallBySides, Call.render, Expr.render_eq_renderBySides,
        ih, enterCall_eq_enterCallBySides]

theorem evaluate_eq_evaluateBySides (binding : Binding) (expr : Expr) :
    program.evaluate limits binding expr = program.evaluateBySides limits binding expr := by
  rw [evaluate, evaluateBySides, evaluateCall_eq_evaluateCallBySides,
    Expr.evaluateWith_eq_evaluateBySidesWith]

end Program

/-- Going through the operands of chains in a loop is recursion on both sides of
every operator: an expression has the same text and the same tree, and on every
machine, whatever calls are live, its value is the same, the same steps are noted
and the same calls are live at the end.  Where one of them fails, the other one
fails with the same failure. -/
theorem Expr.loops_eq_recursion (limits : Limits) (expr : Expr) :
    (∀ (program : Program) (binding : Binding) (machine : Machine),
        (ExceptT.run (program.evaluate limits binding expr)).run machine =
          (ExceptT.run (program.evaluateBySides limits binding expr)).run machine) ∧
      expr.render limits = expr.renderBySides limits ∧
      expr.shape limits = expr.shapeBySides limits := by
  refine ⟨?_, expr.render_eq_renderBySides limits, expr.shape_eq_shapeBySides limits⟩
  intro program binding machine
  rw [program.evaluate_eq_evaluateBySides]

end Polycalc

import Polycalc.Proofs.Evaluation.Run
import Mathlib.Logic.Relation

/-!
# Evaluation without a guard

`Program.Evaluates` is evaluation as the language has it: no call is refused
because it is live, and no limit is in force.  A derivation is finite, so an
expression whose evaluation never ends has none.

What a derivation needs of other calls does not depend on any value.  A call
*demands* the calls in its arguments and the calls in the body of its function
(`Program.Demands`); it is *grounded* if no endless chain of demands begins at
it, and an expression that has a value has only grounded calls
(`Evaluates.grounded`).
-/

namespace Polycalc

namespace Program

/-! ## Rules -/

mutual

/-- `Evaluates limits program binding expr result`: the evaluation of `expr` in
`binding` ends with `result`.  The limits matter only for the text of a call
that an error quotes. -/
inductive Evaluates (limits : Limits) (program : Program) :
    Binding → Expr → Except Failure Int → Prop
  | number {binding : Binding} {value : Int} {position : Position} :
      Evaluates limits program binding (.number value position) (.ok value)
  | parameter {binding : Binding} {name : String} {value : Int} {position : Position}
      (bound : binding.lookup name = some value) :
      Evaluates limits program binding (.parameter name position) (.ok value)
  | unbound {binding : Binding} {name : String} {position : Position}
      (free : binding.lookup name = none) :
      Evaluates limits program binding (.parameter name position)
        (.error (.evaluation (.unboundParameter name position)))
  | call {binding : Binding} {site : Site} {name : String} {arguments : List Expr}
      {position : Position} {result : Except Failure Int}
      (called : EvaluatesCall limits program binding ⟨site, name, arguments, position⟩
        result) :
      Evaluates limits program binding (.call site name arguments position) result
  | chain {binding : Binding} {operator : Operator} {left right : Expr}
      {position : Position} {values : List Int}
      (operands : EvaluatesAll limits program binding
        (Expr.binary operator left right position).operands (.ok values)) :
      Evaluates limits program binding (.binary operator left right position)
        (.ok (operator.fold values))
  | operandFails {binding : Binding} {operator : Operator} {left right : Expr}
      {position : Position} {failure : Failure}
      (operands : EvaluatesAll limits program binding
        (Expr.binary operator left right position).operands (.error failure)) :
      Evaluates limits program binding (.binary operator left right position)
        (.error failure)
  | foreign {binding : Binding} {kind shown : String} :
      Evaluates limits program binding (.foreign kind shown)
        (.error (.fault (.notAnExpression shown)))

/-- The same for several expressions, from left to right up to the first that
fails. -/
inductive EvaluatesAll (limits : Limits) (program : Program) :
    Binding → List Expr → Except Failure (List Int) → Prop
  | nil {binding : Binding} : EvaluatesAll limits program binding [] (.ok [])
  | cons {binding : Binding} {expr : Expr} {rest : List Expr} {value : Int}
      {values : List Int}
      (first : Evaluates limits program binding expr (.ok value))
      (others : EvaluatesAll limits program binding rest (.ok values)) :
      EvaluatesAll limits program binding (expr :: rest) (.ok (value :: values))
  | firstFails {binding : Binding} {expr : Expr} {rest : List Expr} {failure : Failure}
      (first : Evaluates limits program binding expr (.error failure)) :
      EvaluatesAll limits program binding (expr :: rest) (.error failure)
  | laterFails {binding : Binding} {expr : Expr} {rest : List Expr} {value : Int}
      {failure : Failure}
      (first : Evaluates limits program binding expr (.ok value))
      (others : EvaluatesAll limits program binding rest (.error failure)) :
      EvaluatesAll limits program binding (expr :: rest) (.error failure)

/-- The same for a call: its arguments, and then the body of its function. -/
inductive EvaluatesCall (limits : Limits) (program : Program) :
    Binding → Call → Except Failure Int → Prop
  | argumentFails {binding : Binding} {call : Call} {failure : Failure}
      (failed : EvaluatesAll limits program binding call.arguments (.error failure)) :
      EvaluatesCall limits program binding call (.error failure)
  | unknownFunction {binding : Binding} {call : Call} {values : List Int}
      (given : EvaluatesAll limits program binding call.arguments (.ok values))
      (unknown : program.find? call.name = none) :
      EvaluatesCall limits program binding call
        (.error (.quoting (call.render limits) (.unknownFunction call)))
  | wrongArgumentCount {binding : Binding} {call : Call} {values : List Int}
      {callee : Definition}
      (given : EvaluatesAll limits program binding call.arguments (.ok values))
      (found : program.find? call.name = some callee)
      (mismatch : values.length ≠ callee.arity) :
      EvaluatesCall limits program binding call
        (.error (.evaluation
          (.wrongArgumentCount callee.name callee.arity values.length)))
  | body {binding : Binding} {call : Call} {values : List Int} {callee : Definition}
      {result : Except Failure Int}
      (given : EvaluatesAll limits program binding call.arguments (.ok values))
      (found : program.find? call.name = some callee)
      (fits : values.length = callee.arity)
      (body : Evaluates limits program (Binding.ofArguments callee.parameters values)
        callee.body result) :
      EvaluatesCall limits program binding call result

end

variable {limits : Limits} {program : Program}

/-! ## Determinism -/

/-- The result of an evaluation is determined. -/
theorem Evaluates.unique {binding : Binding} {expr : Expr}
    {first second : Except Failure Int}
    (firstly : Evaluates limits program binding expr first)
    (secondly : Evaluates limits program binding expr second) : first = second := by
  revert second
  induction firstly using @Evaluates.rec limits program _
    (fun binding exprs first _ => ∀ second,
      EvaluatesAll limits program binding exprs second → first = second)
    (fun binding call first _ => ∀ second,
      EvaluatesCall limits program binding call second → first = second)
    with
  | number =>
      intro second secondly
      cases secondly with | number => rfl
  | parameter bound =>
      intro second secondly
      cases secondly with
      | parameter bound' =>
          rw [bound, Option.some.injEq] at bound'
          rw [bound']
      | unbound free => simp [bound] at free
  | unbound free =>
      intro second secondly
      cases secondly with
      | parameter bound => simp [free] at bound
      | unbound _ => rfl
  | call _ ih =>
      intro second secondly
      cases secondly with | call called => exact ih _ called
  | chain _ ih =>
      intro second secondly
      cases secondly with
      | chain operands =>
          have equal := ih _ operands
          rw [Except.ok.injEq] at equal
          rw [equal]
      | operandFails operands => cases ih _ operands
  | operandFails _ ih =>
      intro second secondly
      cases secondly with
      | chain operands => cases ih _ operands
      | operandFails operands =>
          have equal := ih _ operands
          rw [Except.error.injEq] at equal
          rw [equal]
  | foreign =>
      intro second secondly
      cases secondly with | foreign => rfl
  | nil second secondly =>
      cases secondly with | nil => rfl
  | cons _ _ firstIh othersIh second secondly =>
      cases secondly with
      | cons first others =>
          cases firstIh first
          cases othersIh _ others
          rfl
      | firstFails first => cases firstIh first
      | laterFails _ others => cases othersIh _ others
  | firstFails _ firstIh second secondly =>
      cases secondly with
      | cons first _ => cases firstIh first
      | firstFails first =>
          cases firstIh first
          rfl
      | laterFails first _ => cases firstIh first
  | laterFails _ _ firstIh othersIh second secondly =>
      cases secondly with
      | cons _ others => cases othersIh _ others
      | firstFails first => cases firstIh first
      | laterFails _ others =>
          cases othersIh _ others
          rfl
  | argumentFails _ ih second secondly =>
      cases secondly with
      | argumentFails failed =>
          cases ih _ failed
          rfl
      | unknownFunction given _ => cases ih _ given
      | wrongArgumentCount given _ _ => cases ih _ given
      | body given _ _ _ => cases ih _ given
  | unknownFunction _ unknown ih second secondly =>
      cases secondly with
      | argumentFails failed => cases ih _ failed
      | unknownFunction _ _ => rfl
      | wrongArgumentCount _ found _ => simp [unknown] at found
      | body _ found _ _ => simp [unknown] at found
  | wrongArgumentCount _ found mismatch ih second secondly =>
      cases secondly with
      | argumentFails failed => cases ih _ failed
      | unknownFunction _ unknown => simp [found] at unknown
      | wrongArgumentCount given found' _ =>
          cases ih _ given
          cases found.symm.trans found'
          rfl
      | body given found' fits _ =>
          cases ih _ given
          cases found.symm.trans found'
          exact absurd fits mismatch
  | body _ found fits _ ih bodyIh second secondly =>
      cases secondly with
      | argumentFails failed => cases ih _ failed
      | unknownFunction _ unknown => simp [found] at unknown
      | wrongArgumentCount given found' mismatch =>
          cases ih _ given
          cases found.symm.trans found'
          exact absurd fits mismatch
      | body given found' _ body =>
          cases ih _ given
          cases found.symm.trans found'
          exact bodyIh body

/-! ## Demands -/

/-- The evaluation of a call asks for that of another: in an argument, or in
the body of its function. -/
def Demands (program : Program) (call demanded : Call) : Prop :=
  (∃ argument ∈ call.arguments, demanded ∈ argument.calls) ∨
    ∃ callee, program.find? call.name = some callee ∧ demanded ∈ callee.body.calls

/-- No endless chain of demands begins at a call. -/
def Grounded (program : Program) (call : Call) : Prop :=
  Acc (fun demanded call => program.Demands call demanded) call

/-- A grounded call does not demand itself, however indirectly. -/
theorem Grounded.not_transGen {call : Call} (grounded : program.Grounded call) :
    ¬ Relation.TransGen program.Demands call call := by
  have descent := Acc.transGen grounded
  induction descent with
  | intro call _ ih =>
      intro cycle
      exact ih call (Relation.transGen_swap.mpr cycle) grounded cycle

/-- All calls that a grounded call leads to are grounded. -/
theorem Grounded.of_reflTransGen {call demanded : Call} (grounded : program.Grounded call)
    (leads : Relation.ReflTransGen program.Demands call demanded) :
    program.Grounded demanded := by
  induction leads with
  | refl => exact grounded
  | tail _ last ih => exact ih.inv last

/-- A call is grounded if the calls that it demands are. -/
theorem grounded_of_body {call : Call} {callee : Definition}
    (arguments : ∀ argument ∈ call.arguments, ∀ demanded ∈ argument.calls,
      program.Grounded demanded)
    (found : program.find? call.name = some callee)
    (body : ∀ demanded ∈ callee.body.calls, program.Grounded demanded) :
    program.Grounded call := by
  apply Acc.intro
  rintro demanded (⟨argument, inArguments, inArgument⟩ | ⟨callee', found', inBody⟩)
  · exact arguments argument inArguments demanded inArgument
  · rw [found, Option.some.injEq] at found'
    subst found'
    exact body demanded inBody

/-- An expression that has a value has only grounded calls. -/
theorem Evaluates.grounded {binding : Binding} {expr : Expr} {value : Int}
    (evaluates : Evaluates limits program binding expr (.ok value)) :
    ∀ call ∈ expr.calls, program.Grounded call := by
  generalize ended : Except.ok value = result at evaluates
  induction evaluates using @Evaluates.rec limits program _
    (fun _ exprs result _ => ∀ values, .ok values = result →
      ∀ expr ∈ exprs, ∀ call ∈ expr.calls, program.Grounded call)
    (fun _ call result _ => ∀ value, .ok value = result →
      ∀ demanded ∈ call.toExpr.calls, program.Grounded demanded)
    generalizing value with
  | number => simp
  | parameter _ => simp
  | unbound _ => cases ended
  | call _ ih => exact ih _ ended
  | chain _ ih =>
      rw [← Expr.calls_operands]
      intro call member
      rcases List.mem_flatMap.mp member with ⟨operand, inChain, inOperand⟩
      exact ih _ rfl operand inChain call inOperand
  | operandFails _ _ => cases ended
  | foreign => cases ended
  | nil _ _ expr member => cases member
  | cons _ _ firstIh othersIh _ _ expr member call inExpr =>
      rcases List.mem_cons.mp member with rfl | later
      · exact firstIh rfl call inExpr
      · exact othersIh _ rfl expr later call inExpr
  | firstFails _ _ _ ended => cases ended
  | laterFails _ _ _ _ _ ended => cases ended
  | argumentFails _ _ _ ended => cases ended
  | unknownFunction _ _ _ _ ended => cases ended
  | wrongArgumentCount _ _ _ _ _ ended => cases ended
  | @body _ call _ _ _ _ found _ _ argumentsIh bodyIh _ ended demanded member =>
      rw [Call.calls_toExpr, List.mem_append, List.mem_flatMap] at member
      rcases member with ⟨argument, inArguments, inArgument⟩ | itself
      · exact argumentsIh _ rfl argument inArguments demanded inArgument
      · rw [List.mem_singleton.mp itself]
        exact grounded_of_body (argumentsIh _ rfl) found (bodyIh ended)

end Program

end Polycalc

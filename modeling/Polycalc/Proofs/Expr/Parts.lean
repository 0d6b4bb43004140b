import Polycalc.Expr
import Mathlib.Data.List.Flatten

/-!
# The parts of an expression

`Expr.parts` lists every node of an expression, each after the nodes below it,
and `Expr.calls` lists the calls among them.  Most static properties of
expressions are properties of all their parts.

Evaluating and printing look at a chain operand by operand, whereas parts are
defined along the tree.  The two views meet in `Expr.parts_operands_subset` and
`Expr.calls_operands`, and `Expr.operandInduction` is the induction that
follows the first of them.
-/

namespace Polycalc

namespace Expr

/-! ## Induction -/

/-- Induction along the operands of chains, in the way in which expressions are
evaluated and printed. -/
@[elab_as_elim]
theorem operandInduction {motive : Expr → Prop}
    (number : ∀ value position, motive (number value position))
    (parameter : ∀ name position, motive (parameter name position))
    (call : ∀ site name arguments position,
      (∀ argument ∈ arguments, motive argument) →
        motive (call site name arguments position))
    (chain : ∀ operator left right position,
      (∀ operand ∈ (binary operator left right position).operands, motive operand) →
        motive (binary operator left right position))
    (foreign : ∀ kind shown, motive (foreign kind shown)) :
    ∀ expr, motive expr
  | .number value position => number value position
  | .parameter name position => parameter name position
  | .call site name arguments position =>
      call site name arguments position fun argument _ =>
        operandInduction number parameter call chain foreign argument
  | .binary operator left right position =>
      chain operator left right position fun operand _ =>
        operandInduction number parameter call chain foreign operand
  | .foreign kind shown => foreign kind shown
termination_by expr => sizeOf expr
decreasing_by
  · have smaller := List.sizeOf_lt_of_mem ‹argument ∈ arguments›
    simp only [Expr.call.sizeOf_spec]
    omega
  · exact sizeOf_mem_operands_lt ‹_›

/-! ## Parts -/

mutual

/-- The nodes of an expression, each after the nodes below it. -/
def parts : Expr → List Expr
  | number value position => [number value position]
  | parameter name position => [parameter name position]
  | call site name arguments position =>
    partsOfAll arguments ++ [call site name arguments position]
  | binary operator left right position =>
    left.parts ++ right.parts ++ [binary operator left right position]
  | foreign kind shown => [foreign kind shown]

/-- The nodes of several expressions. -/
def partsOfAll : List Expr → List Expr
  | [] => []
  | expr :: rest => expr.parts ++ partsOfAll rest

end

theorem partsOfAll_eq_flatMap (exprs : List Expr) : partsOfAll exprs = exprs.flatMap parts := by
  induction exprs with
  | nil => rfl
  | cons expr rest ih => rw [partsOfAll, ih, List.flatMap_cons]

@[simp]
theorem parts_number (value : Int) (position : Position) :
    (number value position).parts = [number value position] :=
  rfl

@[simp]
theorem parts_parameter (name : String) (position : Position) :
    (parameter name position).parts = [parameter name position] :=
  rfl

@[simp]
theorem parts_foreign (kind shown : String) :
    (foreign kind shown).parts = [foreign kind shown] :=
  rfl

@[simp]
theorem parts_call (site : Site) (name : String) (arguments : List Expr)
    (position : Position) :
    (call site name arguments position).parts =
      arguments.flatMap parts ++ [call site name arguments position] := by
  rw [parts, partsOfAll_eq_flatMap]

@[simp]
theorem parts_binary (operator : Operator) (left right : Expr) (position : Position) :
    (binary operator left right position).parts =
      left.parts ++ right.parts ++ [binary operator left right position] :=
  rfl

theorem self_mem_parts (expr : Expr) : expr ∈ expr.parts := by
  cases expr <;> simp

/-- What holds of all parts of a call holds of those of its arguments and of the
call itself. -/
theorem forall_mem_parts_call_iff {holds : Expr → Prop} {site : Site} {name : String}
    {arguments : List Expr} {position : Position} :
    (∀ part ∈ (call site name arguments position).parts, holds part) ↔
      (∀ argument ∈ arguments, ∀ part ∈ argument.parts, holds part) ∧
        holds (call site name arguments position) := by
  rw [parts_call, List.forall_mem_append, List.forall_mem_singleton, List.forall_mem_flatMap]

theorem forall_mem_parts_binary_iff {holds : Expr → Prop} {operator : Operator}
    {left right : Expr} {position : Position} :
    (∀ part ∈ (binary operator left right position).parts, holds part) ↔
      (∀ part ∈ left.parts, holds part) ∧ (∀ part ∈ right.parts, holds part) ∧
        holds (binary operator left right position) := by
  rw [parts_binary, List.forall_mem_append, List.forall_mem_append, List.forall_mem_singleton,
    and_assoc]

/-- The parts of an argument are parts of the call. -/
theorem parts_argument_subset {argument : Expr} {arguments : List Expr}
    (member : argument ∈ arguments) (site : Site) (name : String) (position : Position) :
    argument.parts ⊆ (call site name arguments position).parts := by
  intro part inArgument
  rw [parts_call, List.mem_append]
  exact Or.inl (List.mem_flatMap.mpr ⟨argument, member, inArgument⟩)

theorem mem_unfoldChain_parts_subset {operator : Operator} {chain operand : Expr}
    {collected : List Expr} (member : operand ∈ unfoldChain operator chain collected) :
    operand.parts ⊆ chain.parts ∨ operand ∈ collected := by
  fun_induction unfoldChain operator chain collected with
  | case1 collected left right position ih =>
      rcases ih member with inLeft | inTail
      · left
        intro part inOperand
        rw [parts_binary]
        exact List.mem_append_left _ (List.mem_append_left _ (inLeft inOperand))
      · rcases List.mem_cons.mp inTail with rfl | inCollected
        · left
          intro part inOperand
          rw [parts_binary]
          exact List.mem_append_left _ (List.mem_append_right _ inOperand)
        · exact Or.inr inCollected
  | case2 collected other left right position _ =>
      rcases List.mem_cons.mp member with rfl | inCollected
      · exact Or.inl (List.Subset.refl _)
      · exact Or.inr inCollected
  | case3 collected operand _ =>
      rcases List.mem_cons.mp member with rfl | inCollected
      · exact Or.inl (List.Subset.refl _)
      · exact Or.inr inCollected

/-- The parts of an operand are parts of the chain. -/
theorem parts_operands_subset {operator : Operator} {left right operand : Expr}
    {position : Position}
    (member : operand ∈ (binary operator left right position).operands) :
    operand.parts ⊆ (binary operator left right position).parts := by
  intro part inOperand
  rw [parts_binary]
  rcases mem_unfoldChain_parts_subset member with inLeft | inTail
  · exact List.mem_append_left _ (List.mem_append_left _ (inLeft inOperand))
  · rw [List.mem_singleton.mp inTail] at inOperand
    exact List.mem_append_left _ (List.mem_append_right _ inOperand)

/-- The parts of a part stand next to each other among those of the whole. -/
theorem parts_within {part : Expr} :
    ∀ expr : Expr, part ∈ expr.parts → part.parts <:+: expr.parts
  | .number value position, member => by
      obtain rfl := List.mem_singleton.mp member
      exact List.infix_refl _
  | .parameter name position, member => by
      obtain rfl := List.mem_singleton.mp member
      exact List.infix_refl _
  | .call site name arguments position, member => by
      rw [parts_call, List.mem_append, List.mem_flatMap] at member
      rcases member with ⟨argument, inArguments, inArgument⟩ | itself
      · have inside := parts_within argument inArgument
        have among : argument.parts <:+: (arguments.map parts).flatten :=
          List.infix_of_mem_flatten (List.mem_map_of_mem inArguments)
        rw [parts_call, List.flatMap_def]
        exact (inside.trans among).trans (List.infix_append' [] _ _)
      · obtain rfl := List.mem_singleton.mp itself
        exact List.infix_refl _
  | .binary operator left right position, member => by
      rw [parts_binary, List.mem_append, List.mem_append] at member
      rcases member with (inLeft | inRight) | itself
      · rw [parts_binary, List.append_assoc]
        exact (parts_within left inLeft).trans (List.infix_append' [] _ _)
      · rw [parts_binary]
        exact (parts_within right inRight).trans (List.infix_append _ _ _)
      · obtain rfl := List.mem_singleton.mp itself
        exact List.infix_refl _
  | .foreign kind shown, member => by
      obtain rfl := List.mem_singleton.mp member
      exact List.infix_refl _

/-! ## Calls -/

/-- An expression as a call, if it is one. -/
def call? : Expr → Option Call
  | call site name arguments position => some ⟨site, name, arguments, position⟩
  | _ => none

theorem call?_eq_some_iff {expr : Expr} {found : Call} :
    expr.call? = some found ↔ expr = found.toExpr := by
  rcases found with ⟨site, name, arguments, position⟩
  cases expr <;> simp [call?, Call.toExpr]

/-- The calls in an expression, each after the calls in its arguments. -/
def calls (expr : Expr) : List Call :=
  expr.parts.filterMap call?

theorem mem_calls_iff {expr : Expr} {found : Call} :
    found ∈ expr.calls ↔ found.toExpr ∈ expr.parts := by
  simp [calls, List.mem_filterMap, call?_eq_some_iff]

@[simp]
theorem calls_number (value : Int) (position : Position) :
    (number value position).calls = [] :=
  rfl

@[simp]
theorem calls_parameter (name : String) (position : Position) :
    (parameter name position).calls = [] :=
  rfl

@[simp]
theorem calls_foreign (kind shown : String) : (foreign kind shown).calls = [] :=
  rfl

@[simp]
theorem calls_call (site : Site) (name : String) (arguments : List Expr)
    (position : Position) :
    (call site name arguments position).calls =
      arguments.flatMap calls ++ [⟨site, name, arguments, position⟩] := by
  simp only [calls, parts_call, List.filterMap_append, List.filterMap_flatMap]
  rfl

@[simp]
theorem calls_binary (operator : Operator) (left right : Expr) (position : Position) :
    (binary operator left right position).calls = left.calls ++ right.calls := by
  simp only [calls, parts_binary, List.filterMap_append]
  exact List.append_nil _

theorem flatMap_calls_unfoldChain (operator : Operator) (chain : Expr)
    (collected : List Expr) :
    (unfoldChain operator chain collected).flatMap calls =
      chain.calls ++ collected.flatMap calls := by
  fun_induction unfoldChain operator chain collected with
  | case1 collected left right position ih => simp [ih]
  | case2 collected other left right position _ => simp
  | case3 collected operand _ => simp

/-- The calls of a chain are those of its operands. -/
theorem calls_operands (operator : Operator) (left right : Expr) (position : Position) :
    (binary operator left right position).operands.flatMap calls =
      (binary operator left right position).calls := by
  rw [operands, flatMap_calls_unfoldChain, calls_binary]
  simp

/-- The calls of a call in an expression are calls of the expression. -/
theorem calls_subset_of_mem {expr : Expr} {found : Call} (member : found ∈ expr.calls) :
    found.toExpr.calls ⊆ expr.calls := by
  intro below inFound
  rw [mem_calls_iff] at member inFound ⊢
  exact (parts_within expr member).subset inFound

theorem calls_operands_subset {operator : Operator} {left right operand : Expr}
    {position : Position}
    (member : operand ∈ (binary operator left right position).operands) :
    operand.calls ⊆ (binary operator left right position).calls := by
  intro found inOperand
  rw [← calls_operands]
  exact List.mem_flatMap.mpr ⟨operand, member, inOperand⟩

/-! ## Genuine expressions -/

/-- Nothing in the expression is foreign to the language. -/
def Genuine (expr : Expr) : Prop :=
  ∀ kind shown, foreign kind shown ∉ expr.parts

theorem Genuine.of_subset {expr part : Expr} (genuine : expr.Genuine)
    (subset : part.parts ⊆ expr.parts) : part.Genuine :=
  fun kind shown member => genuine kind shown (subset member)

end Expr

namespace Call

@[simp]
theorem toExpr_mk (site : Site) (name : String) (arguments : List Expr)
    (position : Position) :
    (⟨site, name, arguments, position⟩ : Call).toExpr =
      .call site name arguments position :=
  rfl

theorem calls_toExpr (call : Call) :
    call.toExpr.calls = call.arguments.flatMap Expr.calls ++ [call] :=
  Expr.calls_call _ _ _ _

theorem self_mem_calls (call : Call) : call ∈ call.toExpr.calls :=
  Expr.mem_calls_iff.mpr (Expr.self_mem_parts _)

/-- The calls in an argument are among the calls of the call. -/
theorem calls_argument_subset {call : Call} {argument : Expr}
    (member : argument ∈ call.arguments) : argument.calls ⊆ call.toExpr.calls := by
  intro found inArgument
  rw [Expr.mem_calls_iff] at inArgument ⊢
  exact Expr.parts_argument_subset member _ _ _ inArgument

/-- A call in an argument has fewer parts than the call. -/
theorem length_parts_lt {call inner : Call} {argument : Expr}
    (given : argument ∈ call.arguments) (member : inner ∈ argument.calls) :
    inner.toExpr.parts.length < call.toExpr.parts.length := by
  have within := (Expr.parts_within argument (Expr.mem_calls_iff.mp member)).length_le
  have among : argument.parts <:+: (call.arguments.map Expr.parts).flatten :=
    List.infix_of_mem_flatten (List.mem_map_of_mem given)
  have shorter := among.length_le
  have whole : call.toExpr.parts =
      (call.arguments.map Expr.parts).flatten ++ [call.toExpr] := by
    rw [toExpr, Expr.parts_call, List.flatMap_def]
  rw [whole, List.length_append, List.length_singleton]
  omega

theorem sizeOf_argument_lt (call : Call) {argument : Expr}
    (member : argument ∈ call.arguments) : sizeOf argument < sizeOf call.toExpr := by
  have smaller := List.sizeOf_lt_of_mem member
  simp only [toExpr, Expr.call.sizeOf_spec]
  omega

end Call

end Polycalc

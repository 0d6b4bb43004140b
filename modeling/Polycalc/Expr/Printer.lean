import Polycalc.Expr
import Polycalc.Limits

/-!
# Printing expressions

`Expr.render` writes an expression in the notation in which it can be read
again.  What was read never needs parentheses, but an expression that was put
together by hand may: around a later operand that does not bind more tightly
than its operator, and around a first operand that binds less tightly.
`Expr.shape` writes the tree itself.

Both go through a chain of operands in a loop, so that a long sum is printed
operand by operand.  They fail at a number that is too long to be written and
at anything that is no expression.
-/

namespace Polycalc.Expr

/-- A text, in parentheses if need be. -/
def parenthesizeIf (needed : Bool) (text : String) : String :=
  if needed then "(" ++ text ++ ")" else text

/-- Write one more operand after the text of a chain. -/
def appendOperand (operator : Operator) (text : String) (operand : Expr × String) : String :=
  text ++ operator.symbol
    ++ parenthesizeIf (operand.1.precedence ≤ operator.precedence) operand.2

/-- Write the operands of a chain, each of which comes with its own text. -/
def joinOperands (operator : Operator) : List (Expr × String) → String
  | [] => ""
  | first :: rest =>
    rest.foldl (appendOperand operator)
      (parenthesizeIf (first.1.precedence < operator.precedence) first.2)

/-- The canonical text of an expression. -/
def render (limits : Limits) : Expr → Except Fault String
  | number value _ => limits.write value
  | parameter name _ => .ok name
  | call _ name arguments _ => do
    let texts ← arguments.attach.mapM fun ⟨argument, _⟩ => argument.render limits
    return name ++ "(" ++ " ".intercalate texts ++ ")"
  | binary operator left right position => do
    let texts ← (binary operator left right position).operands.attach.mapM
      fun ⟨operand, _⟩ => return (operand, ← operand.render limits)
    return joinOperands operator texts
  | foreign _ shown => .error (.notAnExpression shown)
termination_by expr => sizeOf expr
decreasing_by
  · have smaller := List.sizeOf_lt_of_mem ‹argument ∈ arguments›
    simp only [call.sizeOf_spec]
    omega
  · exact sizeOf_mem_operands_lt ‹_›

/-- The picture of an operator applied to two pictures. -/
def shapeOf (operator : Operator) (left right : String) : String :=
  operator.name ++ "(" ++ left ++ "," ++ right ++ ")"

/-- The picture of a chain, which leans to the left. -/
def joinShapes (operator : Operator) : List String → String
  | [] => ""
  | first :: rest => rest.foldl (shapeOf operator) first

/-- The tree of an expression, as in `Sum(Sum(10,2),3)`. -/
def shape (limits : Limits) : Expr → Except Fault String
  | number value _ => limits.write value
  | parameter name _ => .ok name
  | call _ name arguments _ => do
    let texts ← arguments.attach.mapM fun ⟨argument, _⟩ => argument.shape limits
    return "Call(" ++ ",".intercalate (name :: texts) ++ ")"
  | binary operator left right position => do
    let texts ← (binary operator left right position).operands.attach.mapM
      fun ⟨operand, _⟩ => operand.shape limits
    return joinShapes operator texts
  | foreign _ shown => .error (.notAnExpression shown)
termination_by expr => sizeOf expr
decreasing_by
  · have smaller := List.sizeOf_lt_of_mem ‹argument ∈ arguments›
    simp only [call.sizeOf_spec]
    omega
  · exact sizeOf_mem_operands_lt ‹_›

end Polycalc.Expr

namespace Polycalc

/-- The canonical text of a call. -/
def Call.render (limits : Limits) (call : Call) : Except Fault String :=
  call.toExpr.render limits

end Polycalc

import Polycalc.Position

/-!
# Expressions

An expression is a number, a parameter, a call, or a sum or product of two
expressions.  Each has the position at which it was written.  Two calls with
the same text are still two calls: every call has a site, and it is the site
that tells whether a call is entered again while it is live.

An expression that was put together by hand may contain something that is no
expression; printing or evaluating that fails.
-/

namespace Polycalc

/-- The identity of a call. -/
inductive Site
  /-- the call that was completed after `index` others in a text -/
  | parsed (index : Nat)
  /-- a call that was put together by hand -/
  | built (label : Nat)
  deriving DecidableEq, Repr, Inhabited

/-- What joins two operands. -/
inductive Operator
  | sum
  | product
  deriving DecidableEq, Repr

namespace Operator

/-- The character between two operands. -/
def symbol : Operator → String
  | sum => "+"
  | product => "*"

/-- The name of an operator in the picture of a tree. -/
def name : Operator → String
  | sum => "Sum"
  | product => "Product"

/-- How tightly an operator binds. -/
def precedence : Operator → Nat
  | sum => 1
  | product => 2

/-- The value of an operator at two integers. -/
def apply : Operator → Int → Int → Int
  | sum => (· + ·)
  | product => (· * ·)

end Operator

/-- An expression of the language. -/
inductive Expr
  | number (value : Int) (position : Position)
  | parameter (name : String) (position : Position)
  | call (site : Site) (name : String) (arguments : List Expr) (position : Position)
  | binary (operator : Operator) (left right : Expr) (position : Position)
  /-- something that is no expression, what its kind is called, and how a
  message shows it -/
  | foreign (kind shown : String)
  deriving Repr, Inhabited

/-- A call by itself: its site, the function it names, and its arguments. -/
structure Call where
  site : Site
  name : String
  arguments : List Expr
  position : Position
  deriving Repr, Inhabited

/-- A call as an expression. -/
def Call.toExpr (call : Call) : Expr :=
  .call call.site call.name call.arguments call.position

namespace Expr

/-- Where an expression was written. -/
def position : Expr → Position
  | number _ position => position
  | parameter _ position => position
  | call _ _ _ position => position
  | binary _ _ _ position => position
  | foreign _ _ => .unplaced

/-- What the kind of an expression is called. -/
def kind : Expr → String
  | number _ _ => "Number"
  | parameter _ _ => "Parameter"
  | call _ _ _ _ => "Call"
  | binary operator _ _ _ => operator.name
  | foreign kind _ => kind

/-- The name in an expression, if it is one that names something. -/
def name? : Expr → Option String
  | parameter name _ => some name
  | call _ name _ _ => some name
  | _ => none

/-- The site of an expression, if it is a call. -/
def site? : Expr → Option Site
  | call site _ _ _ => some site
  | _ => none

/-- How tightly the parts of an expression hold together. -/
def precedence : Expr → Nat
  | binary operator _ _ _ => operator.precedence
  | _ => 3

/-- Join two operands; the result stands where its left operand does. -/
def join (operator : Operator) (left right : Expr) : Expr :=
  binary operator left right left.position

/-- The operands of a chain that leans to the left, before those already
collected. -/
def unfoldChain (operator : Operator) : Expr → List Expr → List Expr
  | binary other left right position, collected =>
    if other = operator then unfoldChain operator left (right :: collected)
    else binary other left right position :: collected
  | operand, collected => operand :: collected

/-- The operands of an expression's chain in the order in which they are
written: the chain of `a+b+c` has `a`, `b` and `c`.  An expression without an
operator is its only operand. -/
def operands : Expr → List Expr
  | binary operator left right _ => unfoldChain operator left [right]
  | operand => [operand]

theorem sizeOf_mem_unfoldChain {operator : Operator} {chain operand : Expr}
    {collected : List Expr} (member : operand ∈ unfoldChain operator chain collected) :
    sizeOf operand ≤ sizeOf chain ∨ operand ∈ collected := by
  fun_induction unfoldChain operator chain collected with
  | case1 collected left right position ih =>
      rcases ih member with smaller | inTail
      · left
        simp only [binary.sizeOf_spec]
        omega
      · rcases List.mem_cons.mp inTail with rfl | inCollected
        · left
          simp only [binary.sizeOf_spec]
          omega
        · exact Or.inr inCollected
  | case2 collected other left right position _ =>
      rcases List.mem_cons.mp member with rfl | inCollected
      · exact Or.inl (Nat.le_refl _)
      · exact Or.inr inCollected
  | case3 collected operand _ =>
      rcases List.mem_cons.mp member with rfl | inCollected
      · exact Or.inl (Nat.le_refl _)
      · exact Or.inr inCollected

/-- Every operand of a chain is smaller than the chain. -/
theorem sizeOf_mem_operands_lt {operator : Operator} {left right operand : Expr}
    {position : Position} (member : operand ∈ operands (binary operator left right position)) :
    sizeOf operand < sizeOf (binary operator left right position) := by
  simp only [binary.sizeOf_spec]
  rcases sizeOf_mem_unfoldChain member with smaller | inTail
  · omega
  · rw [List.mem_singleton] at inTail
    subst inTail
    omega

mutual

/-- How many calls are nested in an expression at most. -/
def nesting : Expr → Nat
  | call _ _ arguments _ => nestingAll arguments + 1
  | binary _ left right _ => max left.nesting right.nesting
  | _ => 0

/-- How many calls are nested in one of several expressions at most. -/
def nestingAll : List Expr → Nat
  | [] => 0
  | argument :: rest => max argument.nesting (nestingAll rest)

end

end Expr

end Polycalc

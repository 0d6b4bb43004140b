import Polycalc.Program
import Mathlib.Data.List.Induction
import Mathlib.Data.Nat.Digits.Defs

/-!
# The grammar

The grammar of the language, over characters: which texts are expressions and
definitions, and of which trees.  A rule says nothing about positions, about the
sites of calls or about the line of a definition, so a text has many trees that
differ in these alone; `Expr.bare` and `Definition.bare` forget them.

Two bounds are part of the grammar, as is the scope of a body: how many
arguments a call may have, and how many digits a number.
-/

namespace Polycalc

namespace Grammar

/-! ## Words -/

/-- One or more characters of a kind. -/
def IsRun (kind : Char → Bool) (text : List Char) : Prop :=
  text ≠ [] ∧ ∀ c ∈ text, kind c = true

/-- The name of a function: capital letters, but not the word that begins a
definition. -/
def IsFunctionName (name : String) : Prop :=
  IsRun Char.isUpper name.toList ∧ name ≠ "DEF"

/-- The name of a parameter: small letters. -/
def IsParameterName (name : String) : Prop :=
  IsRun Char.isLower name.toList

/-- The number that decimal digits denote, the least significant one last. -/
def decimal (digits : List Char) : Nat :=
  Nat.ofDigits 10 (digits.reverse.map fun c => c.toNat - '0'.toNat)

/-- How many arguments a call may have, and how many digits a number. -/
structure Bounds where
  arguments : Nat
  digits : Nat

/-! ## Expressions -/

mutual

/-- `IsAtom bounds scope text expr`: the text is a number, a parameter of the
scope or a call. -/
inductive IsAtom (bounds : Bounds) (scope : List String) : List Char → Expr → Prop
  | number {digits : List Char} {position : Position}
      (numeral : IsRun Char.isDigit digits) (short : digits.length ≤ bounds.digits) :
      IsAtom bounds scope digits (.number (decimal digits) position)
  | parameter {name : String} {position : Position}
      (word : IsParameterName name) (declared : name ∈ scope) :
      IsAtom bounds scope name.toList (.parameter name position)
  | call {site : Site} {name : String} {position : Position} {text : List Char}
      {arguments : List Expr} (callee : IsFunctionName name)
      (given : AreArguments bounds scope text arguments)
      (few : arguments.length ≤ bounds.arguments) :
      IsAtom bounds scope (name.toList ++ '(' :: text ++ [')'])
        (.call site name arguments position)

/-- Atoms with multiplication signs between them; a product leans to the
left. -/
inductive IsProduct (bounds : Bounds) (scope : List String) : List Char → Expr → Prop
  | atom {text : List Char} {expr : Expr} (isAtom : IsAtom bounds scope text expr) :
      IsProduct bounds scope text expr
  | times {first second : List Char} {left right : Expr} {position : Position}
      (isProduct : IsProduct bounds scope first left)
      (isAtom : IsAtom bounds scope second right) :
      IsProduct bounds scope (first ++ '*' :: second) (.binary .product left right position)

/-- Products with plus signs between them; a sum leans to the left. -/
inductive IsSum (bounds : Bounds) (scope : List String) : List Char → Expr → Prop
  | product {text : List Char} {expr : Expr} (isProduct : IsProduct bounds scope text expr) :
      IsSum bounds scope text expr
  | plus {first second : List Char} {left right : Expr} {position : Position}
      (isSum : IsSum bounds scope first left)
      (isProduct : IsProduct bounds scope second right) :
      IsSum bounds scope (first ++ '+' :: second) (.binary .sum left right position)

/-- Sums with single spaces between them. -/
inductive AreArguments (bounds : Bounds) (scope : List String) :
    List Char → List Expr → Prop
  | none : AreArguments bounds scope [] []
  | one {text : List Char} {argument : Expr} (isSum : IsSum bounds scope text argument) :
      AreArguments bounds scope text [argument]
  | more {first second : List Char} {arguments : List Expr} {argument : Expr}
      (nonempty : arguments ≠ []) (areArguments : AreArguments bounds scope first arguments)
      (isSum : IsSum bounds scope second argument) :
      AreArguments bounds scope (first ++ ' ' :: second) (arguments ++ [argument])

end

theorem AreArguments.eq_nil {bounds : Bounds} {scope : List String} {text : List Char}
    {arguments : List Expr} (given : AreArguments bounds scope text arguments)
    (none : arguments = []) : text = [] := by
  cases given with
  | none => rfl
  | one _ => cases none
  | more _ _ _ => simp at none

/-! ## Definitions -/

/-- What stands before the body of a definition. -/
def headingText (name : String) (parameters : List String) : List Char :=
  name.toList ++ parameters.flatMap fun parameter => ' ' :: parameter.toList

/-- The text is that of a definition, the end of the line included. -/
inductive IsDefinition (bounds : Bounds) : List Char → Definition → Prop
  | intro {name : String} {parameters : List String} {text lineEnd : List Char}
      {body : Expr} {line : Int} (named : IsFunctionName name)
      (words : ∀ parameter ∈ parameters, IsParameterName parameter)
      (entry : name = entryName → parameters = [])
      (isSum : IsSum bounds parameters text body)
      (ended : lineEnd = ['\n'] ∨ lineEnd = ['\r', '\n']) :
      IsDefinition bounds
        ("DEF ".toList ++ headingText name parameters ++ " \x7b ".toList ++ text ++
          " \x7d ;".toList ++ lineEnd)
        ⟨name, parameters, body, line⟩

/-- The text is a concatenation of definitions. -/
def IsProgram (bounds : Bounds) (text : List Char) (definitions : List Definition) : Prop :=
  ∃ texts, text = texts.flatten ∧ List.Forall₂ (IsDefinition bounds) texts definitions

theorem isProgram_nil (bounds : Bounds) : IsProgram bounds [] [] :=
  ⟨[], rfl, .nil⟩

theorem IsProgram.cons {bounds : Bounds} {first rest : List Char} {definition : Definition}
    {definitions : List Definition} (isDefinition : IsDefinition bounds first definition)
    (isProgram : IsProgram bounds rest definitions) :
    IsProgram bounds (first ++ rest) (definition :: definitions) := by
  rcases isProgram with ⟨texts, rfl, each⟩
  exact ⟨first :: texts, rfl, .cons isDefinition each⟩

/-! ## Decimal numbers -/

theorem decimal_append_singleton (digits : List Char) (c : Char) :
    decimal (digits ++ [c]) = 10 * decimal digits + (c.toNat - '0'.toNat) := by
  simp only [decimal, List.reverse_append, List.reverse_singleton, List.singleton_append,
    List.map_cons, Nat.ofDigits_cons]
  omega

/-- Reading digits from the left gives their decimal value. -/
theorem ofDigitChars_eq_decimal (digits : List Char) :
    Nat.ofDigitChars 10 digits 0 = decimal digits := by
  induction digits using List.reverseRecOn with
  | nil => rfl
  | append_singleton digits c ih =>
      rw [Nat.ofDigitChars_append, ih, decimal_append_singleton, Nat.ofDigitChars_cons,
        Nat.ofDigitChars_nil]

end Grammar

/-! ## Trees without places -/

namespace Expr

mutual

/-- An expression without its positions and sites. -/
def bare : Expr → Expr
  | number value _ => number value .unplaced
  | parameter name _ => parameter name .unplaced
  | call _ name arguments _ => call (.built 0) name (bareAll arguments) .unplaced
  | binary operator left right _ => binary operator left.bare right.bare .unplaced
  | foreign kind shown => foreign kind shown

/-- Several expressions without their positions and sites. -/
def bareAll : List Expr → List Expr
  | [] => []
  | expr :: rest => expr.bare :: bareAll rest

end

theorem bareAll_eq_map (exprs : List Expr) : bareAll exprs = exprs.map bare := by
  induction exprs with
  | nil => rfl
  | cons expr rest ih => rw [bareAll, ih, List.map_cons]

@[simp]
theorem bare_number (value : Int) (position : Position) :
    (number value position).bare = number value .unplaced :=
  rfl

@[simp]
theorem bare_parameter (name : String) (position : Position) :
    (parameter name position).bare = parameter name .unplaced :=
  rfl

@[simp]
theorem bare_call (site : Site) (name : String) (arguments : List Expr)
    (position : Position) :
    (call site name arguments position).bare =
      call (.built 0) name (arguments.map bare) .unplaced := by
  rw [bare, bareAll_eq_map]

@[simp]
theorem bare_binary (operator : Operator) (left right : Expr) (position : Position) :
    (binary operator left right position).bare =
      binary operator left.bare right.bare .unplaced :=
  rfl

theorem bare_join (operator : Operator) (left right : Expr) :
    (join operator left right).bare = binary operator left.bare right.bare .unplaced :=
  rfl

end Expr

/-- A definition without its line and without the positions and sites in its
body. -/
def Definition.bare (definition : Definition) : Definition :=
  { definition with body := definition.body.bare, line := 0 }

end Polycalc

import Polycalc.Expr.Parser

/-!
# Outlines of expressions

The outline of an expression has its names, its operators and the sites of its
calls, but every number in it is zero and it stands nowhere.  A reader takes no
decision that depends on a number: it accepts a token exactly if its outline
accepts the outline of the token, and the two hold the same outlines afterwards
(`ExprReader.step_outline`).
-/

namespace Polycalc

/-- A lexeme with the digit zero in the place of its digits. -/
def Lexeme.outline : Lexeme → Lexeme
  | number _ => number "0"
  | lexeme => lexeme

/-- The outline of a token stands nowhere. -/
def Token.outline (token : Token) : Token :=
  ⟨token.lexeme.outline, .unplaced⟩

/-! ## Expressions -/

namespace Expr

mutual

/-- An expression in which every number is zero and which stands nowhere. -/
def outline : Expr → Expr
  | number _ _ => number 0 .unplaced
  | parameter name _ => parameter name .unplaced
  | call site name arguments _ => call site name (outlineAll arguments) .unplaced
  | binary operator left right _ => binary operator left.outline right.outline .unplaced
  | foreign kind shown => foreign kind shown

/-- The outlines of several expressions. -/
def outlineAll : List Expr → List Expr
  | [] => []
  | expr :: rest => expr.outline :: outlineAll rest

end

theorem outlineAll_eq_map (exprs : List Expr) : outlineAll exprs = exprs.map outline := by
  induction exprs with
  | nil => rfl
  | cons expr rest ih => rw [outlineAll, ih, List.map_cons]

@[simp]
theorem outline_number (value : Int) (position : Position) :
    (number value position).outline = number 0 .unplaced :=
  rfl

@[simp]
theorem outline_parameter (name : String) (position : Position) :
    (parameter name position).outline = parameter name .unplaced :=
  rfl

@[simp]
theorem outline_call (site : Site) (name : String) (arguments : List Expr)
    (position : Position) :
    (call site name arguments position).outline =
      call site name (arguments.map outline) .unplaced := by
  rw [outline, outlineAll_eq_map]

@[simp]
theorem outline_binary (operator : Operator) (left right : Expr) (position : Position) :
    (binary operator left right position).outline =
      binary operator left.outline right.outline .unplaced :=
  rfl

@[simp]
theorem outline_foreign (kind shown : String) :
    (foreign kind shown).outline = foreign kind shown :=
  rfl

theorem position_outline (expr : Expr) : expr.outline.position = .unplaced := by
  cases expr <;> rfl

@[simp]
theorem site?_outline (expr : Expr) : expr.outline.site? = expr.site? := by
  cases expr <;> rfl

theorem outline_join (operator : Operator) (left right : Expr) :
    (join operator left right).outline = join operator left.outline right.outline := by
  rw [join, join, outline_binary, position_outline]

end Expr

/-- A call in whose arguments every number is zero and which stands nowhere. -/
def Call.outline (call : Call) : Call :=
  ⟨call.site, call.name, call.arguments.map Expr.outline, .unplaced⟩

theorem Call.outline_toExpr (call : Call) : call.toExpr.outline = call.outline.toExpr :=
  Expr.outline_call _ _ _ _

/-! ## Readers -/

/-- The outline of what waits for its next operand. -/
def Pending.outline (pending : Pending) : Pending :=
  ⟨pending.sum.map Expr.outline, pending.product.map Expr.outline⟩

namespace Pending

@[simp]
theorem outline_nothing : nothing.outline = nothing :=
  rfl

theorem closeProduct_outline (pending : Pending) (operand : Expr) :
    pending.outline.closeProduct operand.outline = (pending.closeProduct operand).outline := by
  rcases pending with ⟨sum, product⟩
  cases product with
  | none => rfl
  | some left => exact (Expr.outline_join .product left operand).symm

theorem closeSum_outline (pending : Pending) (operand : Expr) :
    pending.outline.closeSum operand.outline = (pending.closeSum operand).outline := by
  have product := pending.closeProduct_outline operand
  rcases pending with ⟨sum, product'⟩
  cases sum with
  | none => exact product
  | some left =>
      have joined := Expr.outline_join .sum left (closeProduct ⟨some left, product'⟩ operand)
      rw [← product] at joined
      exact joined.symm

end Pending

/-- The outline of an open call. -/
def OpenCall.outline (call : OpenCall) : OpenCall :=
  ⟨call.name, .unplaced, call.arguments.map Expr.outline, call.outer.outline⟩

/-- The outline of what may come next. -/
def Awaiting.outline : Awaiting → Awaiting
  | operand => operand
  | parenthesis name _ => parenthesis name .unplaced
  | firstArgument => firstArgument
  | nextArgument => nextArgument
  | continuation read => continuation read.outline

/-- The outline of a reader. -/
def ExprReader.outline (reader : ExprReader) : ExprReader :=
  ⟨reader.stack.map OpenCall.outline, reader.pending.outline, reader.awaiting.outline,
    reader.calls.map Call.outline⟩

/-! ## Results -/

/-- Both results are failures, or the second is the outline of the first. -/
inductive Outlines {ε ε' α β : Type} (outline : α → β) : Except ε α → Except ε' β → Prop
  | ok (value : α) : Outlines outline (.ok value) (.ok (outline value))
  | error (failure : ε) (failure' : ε') : Outlines outline (.error failure) (.error failure')

namespace Outlines

variable {ε ε' α β γ δ : Type} {outline : α → β} {outline' : γ → δ}

theorem of_eq {value : α} {image : β} (same : image = outline value) :
    Outlines outline (.ok value : Except ε α) (.ok image : Except ε' β) := by
  subst same
  exact .ok value

theorem bind {first : Except ε α} {second : Except ε' β} {rest : α → Except ε γ}
    {rest' : β → Except ε' δ} (outlines : Outlines outline first second)
    (each : ∀ value, Outlines outline' (rest value) (rest' (outline value))) :
    Outlines outline' (first >>= rest) (second >>= rest') := by
  cases outlines with
  | ok value => exact each value
  | error failure failure' => exact .error failure failure'

/-- What follows a check that both pass or both fail. -/
theorem after {first : Except ε α} {second : Except ε' β}
    (both : (∃ value, first = .ok value) ↔ ∃ value, second = .ok value) {rest : Except ε γ}
    {rest' : Except ε' δ} (outlines : Outlines outline' rest rest') :
    Outlines outline' (first >>= fun _ => rest) (second >>= fun _ => rest') := by
  cases first with
  | ok value =>
      rcases both.mp ⟨value, rfl⟩ with ⟨value', rfl⟩
      exact outlines
  | error failure =>
      cases second with
      | ok value =>
          rcases both.mpr ⟨value, rfl⟩ with ⟨_, passed⟩
          cases passed
      | error failure' => exact .error failure failure'

/-- Results with one and the same outline are accepted together, and what is
accepted has equal outlines. -/
theorem together {ε'' : Type} {first : Except ε α} {second : Except ε'' α} {common : Except ε' β}
    (outlines : Outlines outline first common) (outlines' : Outlines outline second common) :
    ((∃ value, first = .ok value) ↔ ∃ value, second = .ok value) ∧
      ∀ value value', first = .ok value → second = .ok value' → outline value' = outline value := by
  cases outlines with
  | ok value =>
      generalize meeting : Except.ok (outline value) = common at outlines'
      cases outlines' with
      | ok value' =>
          have same := Except.ok.inj meeting
          constructor
          · exact ⟨fun _ => ⟨value', rfl⟩, fun _ => ⟨value, rfl⟩⟩
          · intro read read' isRead isRead'
            cases isRead
            cases isRead'
            exact same.symm
      | error failure failure' => cases meeting
  | error failure failure' =>
      cases outlines' with
      | error failure'' _ => simp

end Outlines

/-! ## Steps -/

namespace ExprReader

variable {settings : Settings} {scope : List String}

theorem readOperand_outline (reader : ExprReader) (token : Token) :
    Outlines outline (reader.readOperand scope token)
      (reader.outline.readOperand scope token.outline) := by
  rcases token with ⟨lexeme, position⟩
  cases lexeme with
  | parameter name =>
      by_cases declared : name ∈ scope
      · simp only [readOperand, Token.outline, Lexeme.outline, if_pos declared]
        exact .ok _
      · simp only [readOperand, Token.outline, Lexeme.outline, if_neg declared]
        exact .error _ _
  | number digits => exact .ok _
  | function name => exact .ok _
  | entry => exact .ok _
  | _ => exact .error _ _

theorem checkRoom_outline (call : OpenCall) (token : Token) :
    Outlines id (call.checkRoom settings token)
      (call.outline.checkRoom settings token.outline) := by
  unfold OpenCall.checkRoom
  cases settings.maxArguments with
  | none => exact .error _ _
  | some allowed =>
      simp only [OpenCall.outline, List.length_map]
      split
      · exact .error _ _
      · exact .ok _

theorem readArgument_outline (reader : ExprReader) (token : Token) :
    Outlines outline (reader.readArgument settings scope token)
      (reader.outline.readArgument settings scope token.outline) := by
  rcases reader with ⟨stack, pending, awaiting, calls⟩
  cases stack with
  | nil => exact readOperand_outline _ token
  | cons innermost outer =>
      exact (checkRoom_outline innermost token).bind fun _ => readOperand_outline _ token

/-- The site of a call counts the calls that were completed before, whatever is
in them. -/
theorem closeCall_outline (reader : ExprReader) (innermost : OpenCall) (outer : List OpenCall)
    (arguments : List Expr) :
    reader.outline.closeCall innermost.outline (outer.map OpenCall.outline)
        (arguments.map Expr.outline) =
      (reader.closeCall innermost outer arguments).outline := by
  simp [closeCall, outline, Awaiting.outline, Call.toExpr, Call.outline, OpenCall.outline]

theorem readFirstArgument_outline (reader : ExprReader) (token : Token) :
    Outlines outline (reader.readFirstArgument settings scope token)
      (reader.outline.readFirstArgument settings scope token.outline) := by
  rcases token with ⟨lexeme, position⟩
  rcases reader with ⟨stack, pending, awaiting, calls⟩
  cases lexeme with
  | closeParen =>
      cases stack with
      | nil => exact .error _ _
      | cons innermost outer =>
          exact .of_eq (closeCall_outline _ innermost outer [])
  | _ => exact readArgument_outline _ _

theorem readContinuation_outline (reader : ExprReader) (operand : Expr) (token : Token) :
    Outlines outline (reader.readContinuation operand token)
      (reader.outline.readContinuation operand.outline token.outline) := by
  rcases token with ⟨lexeme, position⟩
  rcases reader with ⟨stack, pending, awaiting, calls⟩
  have sum := pending.closeSum_outline operand
  have product := pending.closeProduct_outline operand
  cases lexeme with
  | plus =>
      apply Outlines.of_eq
      simp [outline, Pending.plus, Pending.outline, ← sum, Awaiting.outline]
  | times =>
      apply Outlines.of_eq
      simp [outline, Pending.times, Pending.outline, ← product, Awaiting.outline]
  | space =>
      cases stack with
      | nil => exact .error _ _
      | cons innermost outer =>
          apply Outlines.of_eq
          simp [outline, OpenCall.outline, sum, Awaiting.outline]
  | closeParen =>
      cases stack with
      | nil => exact .error _ _
      | cons innermost outer =>
          apply Outlines.of_eq
          rw [← closeCall_outline, List.map_append, List.map_singleton, ← sum]
          rfl
  | _ => exact .error _ _

theorem openCall_outline (reader : ExprReader) (name : String) (position : Position) :
    Outlines outline (reader.openCall settings name position)
      (reader.outline.openCall settings name .unplaced) := by
  simp only [openCall, outline, List.length_map]
  split
  · exact .ok _
  · exact .error _ _

/-- A reader does with a token what its outline does with the outline of the
token. -/
theorem step_outline (reader : ExprReader) (token : Token) :
    Outlines outline (reader.step settings scope token)
      (reader.outline.step settings scope token.outline) := by
  rcases reader with ⟨stack, pending, awaiting, calls⟩
  cases awaiting with
  | operand => exact readOperand_outline _ token
  | parenthesis name place =>
      rcases token with ⟨lexeme, position⟩
      cases lexeme with
      | openParen => exact openCall_outline ⟨stack, pending, _, calls⟩ name place
      | _ => exact .error _ _
  | firstArgument => exact readFirstArgument_outline _ token
  | nextArgument => exact readArgument_outline _ token
  | continuation operand => exact readContinuation_outline _ operand token

/-- An expression is finished before the same lexemes as its outline. -/
theorem finished?_outline (reader : ExprReader) (next : Lexeme) :
    reader.outline.finished? next.outline = (reader.finished? next).map Expr.outline := by
  rcases reader with ⟨stack, pending, awaiting, calls⟩
  cases stack with
  | cons _ _ => rfl
  | nil =>
      cases awaiting with
      | continuation operand =>
          have sum := pending.closeSum_outline operand
          cases next <;> simp [finished?, outline, Awaiting.outline, Lexeme.outline, sum]
      | _ => rfl

end ExprReader

end Polycalc

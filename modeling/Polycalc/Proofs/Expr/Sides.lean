import Polycalc.Proofs.Expr.Rendering

/-!
# Chains and their two sides

Printers and the evaluator go through the operands of a chain in a loop.  The
same can be said by recursion: first the left side of a chain, then its right
side.  `Expr.bind_mapM_operands` is the step between the two, for anything that
is collected from the operands of a chain and put together from the left, in any
monad.

`Expr.renderBySides` and `Expr.shapeBySides` write an expression by recursion on
both sides, and `Expr.render_eq_renderBySides` and `Expr.shape_eq_shapeBySides`
say that this makes no difference.
-/

namespace Polycalc

namespace Expr

/-! ## Induction -/

/-- Induction along the two sides of every operator. -/
@[elab_as_elim]
theorem sidesInduction {motive : Expr → Prop}
    (number : ∀ value position, motive (number value position))
    (parameter : ∀ name position, motive (parameter name position))
    (call : ∀ site name arguments position,
      (∀ argument ∈ arguments, motive argument) →
        motive (call site name arguments position))
    (binary : ∀ operator left right position,
      motive left → motive right → motive (binary operator left right position))
    (foreign : ∀ kind shown, motive (foreign kind shown)) :
    ∀ expr, motive expr
  | .number value position => number value position
  | .parameter name position => parameter name position
  | .call site name arguments position =>
      call site name arguments position fun argument _ =>
        sidesInduction number parameter call binary foreign argument
  | .binary operator left right position =>
      binary operator left right position
        (sidesInduction number parameter call binary foreign left)
        (sidesInduction number parameter call binary foreign right)
  | .foreign kind shown => foreign kind shown

/-! ## Loops over operands -/

section

variable {m : Type → Type} [Monad m] [LawfulMonad m] {α β : Type} {operator : Operator}
  {each : Expr → m α} {whole : Expr → m β} {first : α → β} {append : β → α → β}
  {join : List α → β}

/-- What is collected from the operands of a chain and put together from the left
is what its left side gives, with what its right side gives put behind it. -/
theorem bind_mapM_unfoldChain
    (joins : ∀ value values, join (value :: values) = values.foldl append (first value))
    (single : ∀ operand,
      (∀ left right position, operand ≠ binary operator left right position) →
        whole operand = each operand >>= fun value => pure (first value))
    (sides : ∀ left right position,
      whole (binary operator left right position) =
        whole left >>= fun before => each right >>= fun value => pure (append before value))
    (chain : Expr) (collected : List Expr) :
    ((unfoldChain operator chain collected).mapM each >>= fun values => pure (join values)) =
      whole chain >>= fun before =>
        collected.mapM each >>= fun values => pure (values.foldl append before) := by
  -- An operand that is no chain of this kind is the first one.
  have ends : ∀ operand collected,
      (∀ left right position, operand ≠ binary operator left right position) →
        ((operand :: collected).mapM each >>= fun values => pure (join values)) =
          whole operand >>= fun before =>
            collected.mapM each >>= fun values => pure (values.foldl append before) := by
    intro operand collected noChain
    rw [single operand noChain]
    simp only [List.mapM_cons, bind_assoc, pure_bind, joins]
  fun_induction unfoldChain operator chain collected with
  | case1 collected left right position ih =>
      rw [ih, sides]
      simp only [List.mapM_cons, bind_assoc, pure_bind, List.foldl_cons]
  | case2 collected other left right position different =>
      apply ends
      rintro _ _ _ ⟨⟩
      exact different rfl
  | case3 operand collected noChain =>
      apply ends
      rintro left right position rfl
      exact noChain operator left right position rfl

/-- A loop over the operands of a chain does what a recursion on its two sides
does. -/
theorem bind_mapM_operands (whole : Expr → m β) (first : α → β)
    (joins : ∀ value values, join (value :: values) = values.foldl append (first value))
    (single : ∀ operand,
      (∀ left right position, operand ≠ binary operator left right position) →
        whole operand = each operand >>= fun value => pure (first value))
    (sides : ∀ left right position,
      whole (binary operator left right position) =
        whole left >>= fun before => each right >>= fun value => pure (append before value))
    (left right : Expr) (position : Position) :
    ((binary operator left right position).operands.mapM each >>= fun values =>
        pure (join values)) =
      whole (binary operator left right position) := by
  rw [operands, bind_mapM_unfoldChain joins single sides, sides]
  simp only [List.mapM_cons, List.mapM_nil, bind_assoc, pure_bind, List.foldl_cons,
    List.foldl_nil]

end

/-! ## Printing -/

mutual

/-- The canonical text of an expression, by recursion on both sides of every
operator: the left side is put in parentheses if it binds less tightly, the right
side if it does not bind more tightly. -/
def renderBySides (limits : Limits) : Expr → Except Fault String
  | number value _ => limits.write value
  | parameter name _ => .ok name
  | call _ name arguments _ => do
    let texts ← renderAllBySides limits arguments
    return name ++ "(" ++ " ".intercalate texts ++ ")"
  | binary operator left right _ => do
    let before ← left.renderBySides limits
    let after ← right.renderBySides limits
    return parenthesizeIf (left.precedence < operator.precedence) before ++ operator.symbol
      ++ parenthesizeIf (right.precedence ≤ operator.precedence) after
  | foreign _ shown => .error (.notAnExpression shown)

/-- The canonical texts of several expressions. -/
def renderAllBySides (limits : Limits) : List Expr → Except Fault (List String)
  | [] => .ok []
  | expr :: rest => do
    let text ← expr.renderBySides limits
    let texts ← renderAllBySides limits rest
    return text :: texts

end

mutual

/-- The tree of an expression, by recursion on both sides of every operator. -/
def shapeBySides (limits : Limits) : Expr → Except Fault String
  | number value _ => limits.write value
  | parameter name _ => .ok name
  | call _ name arguments _ => do
    let texts ← shapeAllBySides limits arguments
    return "Call(" ++ ",".intercalate (name :: texts) ++ ")"
  | binary operator left right _ => do
    let before ← left.shapeBySides limits
    let after ← right.shapeBySides limits
    return operator.name ++ "(" ++ before ++ "," ++ after ++ ")"
  | foreign _ shown => .error (.notAnExpression shown)

/-- The trees of several expressions. -/
def shapeAllBySides (limits : Limits) : List Expr → Except Fault (List String)
  | [] => .ok []
  | expr :: rest => do
    let text ← expr.shapeBySides limits
    let texts ← shapeAllBySides limits rest
    return text :: texts

end

variable (limits : Limits)

theorem renderAllBySides_eq_mapM (exprs : List Expr) :
    renderAllBySides limits exprs = exprs.mapM (renderBySides limits) := by
  induction exprs with
  | nil => rfl
  | cons expr rest ih => rw [renderAllBySides, ih, List.mapM_cons]

theorem shapeAllBySides_eq_mapM (exprs : List Expr) :
    shapeAllBySides limits exprs = exprs.mapM (shapeBySides limits) := by
  induction exprs with
  | nil => rfl
  | cons expr rest ih => rw [shapeAllBySides, ih, List.mapM_cons]

/-- The text of what a chain begins with: in parentheses if it binds less tightly
than the chain. -/
def renderBeginning (operator : Operator) (beginning : Expr) : Except Fault String := do
  let text ← beginning.renderBySides limits
  return parenthesizeIf (beginning.precedence < operator.precedence) text

/-- A chain that goes on is not put in parentheses. -/
theorem renderBeginning_binary (operator : Operator) (left right : Expr) (position : Position) :
    renderBeginning limits operator (binary operator left right position) =
      (binary operator left right position).renderBySides limits := by
  simp [renderBeginning, precedence, parenthesizeIf]

/-- Texts of operands are put together as those of the two sides are. -/
theorem bind_mapM_operands_renderBySides (operator : Operator) (left right : Expr)
    (position : Position) :
    ((binary operator left right position).operands.mapM
          (fun operand => do return (operand, ← operand.renderBySides limits)) >>=
        fun texts => pure (joinOperands operator texts)) =
      (binary operator left right position).renderBySides limits := by
  rw [← renderBeginning_binary]
  apply bind_mapM_operands (renderBeginning limits operator) fun operand =>
    parenthesizeIf (operand.1.precedence < operator.precedence) operand.2
  · exact fun _ _ => rfl
  · intro operand _
    simp [renderBeginning]
  · intro left right position
    rw [renderBeginning_binary, renderBySides]
    simp [renderBeginning, appendOperand]

/-- A loop over operands writes what a recursion on both sides writes, and fails as
it does. -/
theorem render_eq_renderBySides (expr : Expr) :
    expr.render limits = expr.renderBySides limits := by
  induction expr using operandInduction with
  | number value position => rw [render, renderBySides]
  | parameter name position => rw [render, renderBySides]
  | call site name arguments position ih =>
      rw [render_call, renderBySides, renderAllBySides_eq_mapM, mapM_congr_of_forall ih]
  | chain operator left right position ih =>
      rw [render_binary, ← bind_mapM_operands_renderBySides]
      congr 1
      apply mapM_congr_of_forall
      intro operand member
      rw [ih operand member]
  | foreign kind shown => rw [render, renderBySides]

/-- So does a loop that draws the tree. -/
theorem shape_eq_shapeBySides (expr : Expr) :
    expr.shape limits = expr.shapeBySides limits := by
  induction expr using operandInduction with
  | number value position => rw [shape, shapeBySides]
  | parameter name position => rw [shape, shapeBySides]
  | call site name arguments position ih =>
      rw [shape_call, shapeBySides, shapeAllBySides_eq_mapM, mapM_congr_of_forall ih]
  | chain operator left right position ih =>
      rw [shape_binary, mapM_congr_of_forall ih]
      apply bind_mapM_operands (shapeBySides limits) id
      · exact fun _ _ => rfl
      · intro operand _
        simp
      · intro left right position
        rw [shapeBySides]
        rfl
  | foreign kind shown => rw [shape, shapeBySides]

/-! ## The two sides of a text -/

variable {limits : Limits}

/-- The text of a chain is made of those of its two sides. -/
theorem render_sides (operator : Operator) (left right : Expr) (position : Position) :
    (binary operator left right position).render limits = do
      let before ← left.render limits
      let after ← right.render limits
      return parenthesizeIf (left.precedence < operator.precedence) before ++ operator.symbol
        ++ parenthesizeIf (right.precedence ≤ operator.precedence) after := by
  rw [render_eq_renderBySides, renderBySides, render_eq_renderBySides, render_eq_renderBySides]

theorem shape_sides (operator : Operator) (left right : Expr) (position : Position) :
    (binary operator left right position).shape limits = do
      let before ← left.shape limits
      let after ← right.shape limits
      return operator.name ++ "(" ++ before ++ "," ++ after ++ ")" := by
  rw [shape_eq_shapeBySides, shapeBySides, shape_eq_shapeBySides, shape_eq_shapeBySides]

theorem sum_precedence_le (expr : Expr) : Operator.sum.precedence ≤ expr.precedence := by
  cases expr with
  | binary operator _ _ _ => cases operator <;> simp [precedence, Operator.precedence]
  | _ => simp [precedence, Operator.precedence]

/-- Sides that need no parentheses are written around the sign. -/
theorem render_binary_eq_ok {operator : Operator} {left right : Expr} {first second : String}
    (leftWritten : left.render limits = .ok first)
    (rightWritten : right.render limits = .ok second)
    (leftBinds : operator.precedence ≤ left.precedence)
    (rightBinds : operator.precedence < right.precedence) (position : Position) :
    (binary operator left right position).render limits =
      .ok (first ++ operator.symbol ++ second) := by
  rw [render_sides, leftWritten, rightWritten]
  simp only [parenthesizeIf, Nat.not_lt.mpr leftBinds, Nat.not_le.mpr rightBinds, decide_false]
  rfl

end Expr

end Polycalc

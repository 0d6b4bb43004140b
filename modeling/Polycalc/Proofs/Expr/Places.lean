import Polycalc.Proofs.Expr.Rendering
import Polycalc.Proofs.Grammar.Rules

/-!
# Trees that differ in places

Positions and sites have no part in how an expression is printed or drawn
(`Expr.render_bare`, `Expr.shape_bare`), and forgetting them leaves its chains
and its calls where they are.
-/

namespace Polycalc

/-! ## Maps in `Except` -/

theorem mapM_map_result {ε α β γ : Type} (f : α → Except ε β) (g : β → γ) (values : List α) :
    values.mapM (fun value => g <$> f value) = List.map g <$> values.mapM f := by
  induction values with
  | nil => rfl
  | cons value rest ih =>
      rw [List.mapM_cons, List.mapM_cons, ih]
      simp

/-- A call without its positions and sites. -/
def Call.bare (call : Call) : Call :=
  ⟨.built 0, call.name, call.arguments.map Expr.bare, .unplaced⟩

namespace Expr

/-! ## Chains and calls -/

theorem precedence_bare (expr : Expr) : expr.bare.precedence = expr.precedence := by
  cases expr <;> rfl

theorem unfoldChain_bare (operator : Operator) (chain : Expr) (collected : List Expr) :
    unfoldChain operator chain.bare (collected.map bare) =
      (unfoldChain operator chain collected).map bare := by
  fun_induction unfoldChain operator chain collected with
  | case1 collected left right position ih =>
      rw [bare_binary, unfoldChain, if_pos rfl, ← ih, List.map_cons]
  | case2 collected other left right position different =>
      rw [bare_binary, unfoldChain, if_neg different, List.map_cons, bare_binary]
  | case3 operand collected noChain =>
      cases operand with
      | binary other left right position => exact absurd rfl (noChain other left right position)
      | _ => rfl

/-- The operands of a chain without places are its operands without places. -/
theorem operands_bare (operator : Operator) (left right : Expr) (position place : Position) :
    (binary operator left.bare right.bare place).operands =
      (binary operator left right position).operands.map bare :=
  unfoldChain_bare operator left [right]

theorem calls_bare : ∀ expr : Expr, expr.bare.calls = expr.calls.map Call.bare
  | .number _ _ => rfl
  | .parameter _ _ => rfl
  | .call site name arguments position => by
      have inArguments : (arguments.map bare).flatMap calls =
          (arguments.flatMap calls).map Call.bare := by
        rw [List.flatMap_map, List.map_flatMap]
        exact List.flatMap_congr fun argument _ => calls_bare argument
      rw [bare_call, calls_call, calls_call, inArguments, List.map_append]
      rfl
  | .binary operator left right position => by
      rw [bare_binary, calls_binary, calls_binary, List.map_append, calls_bare left,
        calls_bare right]
  | .foreign _ _ => rfl

/-! ## Texts -/

theorem joinOperands_bare (operator : Operator) (texts : List (Expr × String)) :
    joinOperands operator (texts.map (Prod.map bare id)) = joinOperands operator texts := by
  cases texts with
  | nil => rfl
  | cons first rest =>
      simp only [List.map_cons, joinOperands, List.foldl_map, Prod.map_fst, Prod.map_snd,
        precedence_bare, id_eq]
      congr 1
      funext text operand
      simp only [appendOperand, Prod.map_fst, Prod.map_snd, precedence_bare, id_eq]

/-- What does not regard the places of any value does not regard them in a
map. -/
theorem mapM_bare {β : Type} {f : Expr → Except Fault β} {exprs : List Expr}
    (each : ∀ expr ∈ exprs, f expr.bare = f expr) :
    (exprs.map bare).mapM f = exprs.mapM f := by
  rw [List.mapM_map]
  exact mapM_congr_of_forall each

/-- An expression is written without regard to its places. -/
theorem render_bare (limits : Limits) (expr : Expr) :
    expr.bare.render limits = expr.render limits := by
  induction expr using operandInduction with
  | number value position => rw [bare_number, render, render]
  | parameter name position => rw [bare_parameter, render, render]
  | call site name arguments position ih =>
      rw [bare_call, render_call, render_call, mapM_bare ih]
  | chain operator left right position ih =>
      have texts : ((binary operator left right position).operands.map bare).mapM
            (fun operand => do return (operand, ← operand.render limits)) =
          List.map (Prod.map bare id) <$> (binary operator left right position).operands.mapM
            (fun operand => do return (operand, ← operand.render limits)) := by
        rw [List.mapM_map, ← mapM_map_result]
        apply mapM_congr_of_forall
        intro operand member
        simp only [Function.comp_apply, ih operand member]
        cases operand.render limits <;> rfl
      rw [bare_binary, render_binary, render_binary, operands_bare _ _ _ position, texts]
      simp only [bind_map_left, joinOperands_bare]
  | foreign kind shown => rfl

/-- An expression is drawn without regard to its places. -/
theorem shape_bare (limits : Limits) (expr : Expr) :
    expr.bare.shape limits = expr.shape limits := by
  induction expr using operandInduction with
  | number value position => rw [bare_number, shape, shape]
  | parameter name position => rw [bare_parameter, shape, shape]
  | call site name arguments position ih =>
      rw [bare_call, shape_call, shape_call, mapM_bare ih]
  | chain operator left right position ih =>
      rw [bare_binary, shape_binary, shape_binary, operands_bare _ _ _ position, mapM_bare ih]
  | foreign kind shown => rfl

end Expr

end Polycalc

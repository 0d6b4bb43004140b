import Polycalc.Proofs.Expr.Spellable
import Polycalc.Proofs.Grammar.Soundness
import Polycalc.Proofs.Token.Offsets

/-!
# Where an expression stands

`Expr.Stands` relates an expression to its text at a place: every node has the
position of the first character of its own text, so that a sum or a product has that
of its left operand.  What a reader holds stands, piece by piece, in the text that it
has read (`ExprReader.Stands.step`), and so does the expression that it finishes.
-/

namespace Polycalc

open Grammar

/-! ## Expressions -/

namespace Expr

mutual

/-- `Stands place text expr`: the text is written at the place, and it is read as
the expression. -/
inductive Stands : Position → List Char → Expr → Prop
  | number {place : Position} {digits : List Char} (numeral : IsRun Char.isDigit digits) :
      Stands place digits (.number (decimal digits) place)
  | parameter {place : Position} {name : String} (word : IsParameterName name) :
      Stands place name.toList (.parameter name place)
  | call {place : Position} {site : Site} {name : String} {given : List Char}
      {arguments : List Expr} (callee : IsFunctionName name)
      (argumentsStand : ArgumentsStand (place.past (name.toList ++ ['('])) given arguments) :
      Stands place (name.toList ++ '(' :: given ++ [')']) (.call site name arguments place)
  | binary {place : Position} {operator : Operator} {first second : List Char}
      {left right : Expr} (leftStands : Stands place first left)
      (rightStands : Stands (place.past (first ++ [operator.sign])) second right)
      (loose : operator.precedence ≤ left.precedence)
      (tight : operator.precedence < right.precedence) :
      Stands place (first ++ operator.sign :: second) (.binary operator left right place)

/-- So are arguments, with single spaces between them. -/
inductive ArgumentsStand : Position → List Char → List Expr → Prop
  | none {place : Position} : ArgumentsStand place [] []
  | one {place : Position} {text : List Char} {argument : Expr}
      (stands : argument.Stands place text) : ArgumentsStand place text [argument]
  | more {place : Position} {first second : List Char} {arguments : List Expr}
      {argument : Expr} (nonempty : arguments ≠ [])
      (argumentsStand : ArgumentsStand place first arguments)
      (stands : argument.Stands (place.past (first ++ [' '])) second) :
      ArgumentsStand place (first ++ ' ' :: second) (arguments ++ [argument])

end

namespace Stands

variable {place : Position} {text : List Char} {expr : Expr}

/-- An expression has the position of its first character. -/
theorem position_eq (stands : expr.Stands place text) : expr.position = place := by
  cases stands <;> rfl

theorem ne_nil (stands : expr.Stands place text) : text ≠ [] := by
  cases stands with
  | number numeral => exact numeral.1
  | parameter word => exact word.1
  | call callee _ => simp
  | binary _ _ _ _ => simp

variable {first second : List Char} {left right : Expr}

/-- Joined operands stand where the left one does. -/
theorem join (operator : Operator) (leftStands : left.Stands place first)
    (rightStands : right.Stands (place.past (first ++ [operator.sign])) second)
    (loose : operator.precedence ≤ left.precedence)
    (tight : operator.precedence < right.precedence) :
    (Expr.join operator left right).Stands place (first ++ operator.sign :: second) := by
  rw [Expr.join, leftStands.position_eq]
  exact .binary leftStands rightStands loose tight

theorem times (leftStands : left.Stands place first)
    (rightStands : right.Stands (place.past (first ++ ['*'])) second)
    (loose : 2 ≤ left.precedence) (atom : right.precedence = 3) :
    (Expr.join .product left right).Stands place (first ++ '*' :: second) :=
  leftStands.join .product rightStands loose (by rw [atom]; decide)

theorem plus (leftStands : left.Stands place first)
    (rightStands : right.Stands (place.past (first ++ ['+'])) second)
    (tight : 2 ≤ right.precedence) :
    (Expr.join .sum left right).Stands place (first ++ '+' :: second) :=
  leftStands.join .sum rightStands left.sum_precedence_le tight

end Stands

end Expr

/-! ## Readers -/

/-- The text of the sum that waits for an operand, if there is one. -/
inductive SumStands (place : Position) : List Char → Option Expr → Prop
  | none : SumStands place [] none
  | some {text : List Char} {expr : Expr} (stands : expr.Stands place text) :
      SumStands place (text ++ ['+']) (some expr)

/-- The text of the product that waits for an operand, if there is one. -/
inductive ProductStands (place : Position) : List Char → Option Expr → Prop
  | none : ProductStands place [] none
  | some {text : List Char} {expr : Expr} (stands : expr.Stands place text)
      (loose : 2 ≤ expr.precedence) : ProductStands place (text ++ ['*']) (some expr)

/-- The text of what waits for an operand. -/
inductive Pending.Stands (place : Position) : List Char → Pending → Prop
  | intro {first second : List Char} {sum product : Option Expr}
      (sumStands : SumStands place first sum)
      (productStands : ProductStands (place.past first) second product) :
      Stands place (first ++ second) ⟨sum, product⟩

/-- The text of an open call up to the argument that is read next. -/
inductive OpenCall.Stands (place : Position) : List Char → OpenCall → Prop
  | fresh {name : String} {outer : Pending} {text : List Char}
      (waits : outer.Stands place text) (callee : IsFunctionName name) :
      Stands place (text ++ name.toList ++ ['(']) ⟨name, place.past text, [], outer⟩
  | more {name : String} {outer : Pending} {text given : List Char} {arguments : List Expr}
      (waits : outer.Stands place text) (callee : IsFunctionName name)
      (argumentsStand :
        Expr.ArgumentsStand ((place.past text).past (name.toList ++ ['('])) given arguments)
      (nonempty : arguments ≠ []) :
      Stands place (text ++ name.toList ++ ['('] ++ given ++ [' '])
        ⟨name, place.past text, arguments, outer⟩

/-- The text of open calls in each of which an argument is being read. -/
inductive StackStands (place : Position) : List Char → List OpenCall → Prop
  | nil : StackStands place [] []
  | cons {call : OpenCall} {outer : List OpenCall} {before text : List Char}
      (enclosing : StackStands place before outer)
      (opened : call.Stands (place.past before) text) :
      StackStands place (before ++ text) (call :: outer)

/-- The text that a reader has read. -/
inductive ExprReader.Stands (place : Position) : List Char → ExprReader → Prop
  | operand {stack : List OpenCall} {pending : Pending} {calls : List Call}
      {before waiting : List Char} (enclosing : StackStands place before stack)
      (waits : pending.Stands (place.past before) waiting) :
      Stands place (before ++ waiting) ⟨stack, pending, .operand, calls⟩
  | parenthesis {stack : List OpenCall} {pending : Pending} {calls : List Call}
      {before waiting : List Char} {name : String}
      (enclosing : StackStands place before stack)
      (waits : pending.Stands (place.past before) waiting) (callee : IsFunctionName name) :
      Stands place (before ++ waiting ++ name.toList)
        ⟨stack, pending, .parenthesis name (place.past (before ++ waiting)), calls⟩
  | firstArgument {call : OpenCall} {outer : List OpenCall} {calls : List Call}
      {before text : List Char} (enclosing : StackStands place before outer)
      (opened : call.Stands (place.past before) text) (none : call.arguments = []) :
      Stands place (before ++ text) ⟨call :: outer, .nothing, .firstArgument, calls⟩
  | nextArgument {call : OpenCall} {outer : List OpenCall} {calls : List Call}
      {before text : List Char} (enclosing : StackStands place before outer)
      (opened : call.Stands (place.past before) text) :
      Stands place (before ++ text) ⟨call :: outer, .nothing, .nextArgument, calls⟩
  | continuation {stack : List OpenCall} {pending : Pending} {calls : List Call}
      {before waiting read : List Char} {operand : Expr}
      (enclosing : StackStands place before stack)
      (waits : pending.Stands (place.past before) waiting)
      (stands : operand.Stands (place.past (before ++ waiting)) read)
      (atom : operand.precedence = 3) :
      Stands place (before ++ waiting ++ read) ⟨stack, pending, .continuation operand, calls⟩

variable {place : Position} {text read : List Char}

namespace Pending.Stands

variable {pending : Pending} {operand : Expr}

theorem nothing : Pending.nothing.Stands place [] :=
  .intro .none .none

theorem closeProduct {sum product : Option Expr} (productStands : ProductStands place text product)
    (stands : operand.Stands (place.past text) read) (atom : operand.precedence = 3) :
    (Pending.closeProduct ⟨sum, product⟩ operand).Stands place (text ++ read) ∧
      2 ≤ (Pending.closeProduct ⟨sum, product⟩ operand).precedence := by
  cases productStands with
  | none =>
      refine ⟨stands, ?_⟩
      rw [Pending.closeProduct, atom]
      decide
  | some leftStands loose =>
      rw [List.append_assoc]
      exact ⟨leftStands.times stands loose atom, Nat.le_refl 2⟩

theorem closeSum (waits : pending.Stands place text)
    (stands : operand.Stands (place.past text) read) (atom : operand.precedence = 3) :
    (pending.closeSum operand).Stands place (text ++ read) := by
  cases waits with
  | @intro _ second sum product sumStands productStands =>
      rw [Position.past_append] at stands
      rcases closeProduct productStands stands atom with ⟨closed, tight⟩
      rw [List.append_assoc]
      cases sumStands with
      | none => exact closed
      | some leftStands =>
          rw [List.append_assoc]
          exact leftStands.plus closed tight

theorem plus (waits : pending.Stands place text)
    (stands : operand.Stands (place.past text) read) (atom : operand.precedence = 3) :
    (pending.plus operand).Stands place (text ++ read ++ ['+']) := by
  rw [← List.append_nil (text ++ read ++ ['+'])]
  exact .intro (.some (waits.closeSum stands atom)) .none

theorem times (waits : pending.Stands place text)
    (stands : operand.Stands (place.past text) read) (atom : operand.precedence = 3) :
    (pending.times operand).Stands place (text ++ read ++ ['*']) := by
  cases waits with
  | intro sumStands productStands =>
      rw [Position.past_append] at stands
      rcases closeProduct productStands stands atom with ⟨closed, tight⟩
      rw [List.append_assoc, List.append_assoc]
      exact .intro sumStands (by rw [← List.append_assoc]; exact .some closed tight)

end Pending.Stands

namespace OpenCall.Stands

variable {call : OpenCall} {argument : Expr}

/-- With another argument behind the text, what is written between the parentheses are the
arguments of the call. -/
theorem exists_given (opened : call.Stands place text)
    (stands : argument.Stands (place.past text) read) :
    ∃ before given, text ++ read = before ++ call.name.toList ++ ['('] ++ given ∧
      call.position = place.past before ∧ call.outer.Stands place before ∧
      IsFunctionName call.name ∧
      Expr.ArgumentsStand (call.position.past (call.name.toList ++ ['('])) given
        (call.arguments ++ [argument]) := by
  cases opened with
  | @fresh name outer before waits callee =>
      rw [List.append_assoc before, Position.past_append] at stands
      exact ⟨before, read, rfl, rfl, waits, callee, .one stands⟩
  | @more name outer before given arguments waits callee argumentsStand nonempty =>
      have behind : before ++ name.toList ++ ['('] ++ given ++ [' '] =
          before ++ (name.toList ++ ['('] ++ (given ++ [' '])) := by simp
      rw [behind, Position.past_append, Position.past_append] at stands
      exact ⟨before, given ++ ' ' :: read, by simp, rfl, waits, callee,
        .more nonempty argumentsStand stands⟩

/-- Another argument is complete. -/
theorem space (opened : call.Stands place text)
    (stands : argument.Stands (place.past text) read) :
    OpenCall.Stands place (text ++ read ++ [' '])
      { call with arguments := call.arguments ++ [argument] } := by
  rcases opened.exists_given stands with
    ⟨before, given, regrouped, here, waits, callee, argumentsStand⟩
  rw [regrouped, here]
  rw [here] at argumentsStand
  exact .more waits callee argumentsStand (by simp)

/-- The last argument is complete. -/
theorem closeParen (opened : call.Stands place text)
    (stands : argument.Stands (place.past text) read) (site : Site) :
    ∃ before spelled, text ++ read ++ [')'] = before ++ spelled ∧
      call.outer.Stands place before ∧
      (Expr.call site call.name (call.arguments ++ [argument]) call.position).Stands
        (place.past before) spelled := by
  rcases opened.exists_given stands with
    ⟨before, given, regrouped, here, waits, callee, argumentsStand⟩
  refine ⟨before, call.name.toList ++ '(' :: given ++ [')'], by simp [regrouped], waits, ?_⟩
  rw [← here]
  exact .call callee argumentsStand

/-- There are no arguments. -/
theorem closeEmpty (opened : call.Stands place text) (none : call.arguments = []) (site : Site) :
    ∃ before spelled, text ++ [')'] = before ++ spelled ∧
      call.outer.Stands place before ∧
      (Expr.call site call.name [] call.position).Stands (place.past before) spelled := by
  cases opened with
  | @fresh name outer before waits callee =>
      refine ⟨before, name.toList ++ '(' :: [] ++ [')'], by simp, waits, ?_⟩
      exact .call callee .none
  | more _ _ _ nonempty => exact absurd none nonempty

end OpenCall.Stands

namespace ExprReader.Stands

variable {settings : Settings} {scope : List String} {reader reader' : ExprReader}
  {token : Token}

theorem start (place : Position) (calls : List Call) :
    (ExprReader.start calls).Stands place [] :=
  .operand .nil .nothing

theorem of_eq {other : List Char} (stands : reader.Stands place other) (same : text = other) :
    reader.Stands place text :=
  same ▸ stands

/-- Before an operand there are open calls and what waits. -/
theorem of_ready (stands : reader.Stands place text) (ready : reader.Ready settings) :
    ∃ before waiting, text = before ++ waiting ∧ StackStands place before reader.stack ∧
      reader.pending.Stands (place.past before) waiting := by
  cases stands with
  | operand enclosing waits => exact ⟨_, _, rfl, enclosing, waits⟩
  | firstArgument enclosing opened _ =>
      exact ⟨_, [], (List.append_nil _).symm, .cons enclosing opened, .nothing⟩
  | nextArgument enclosing opened =>
      exact ⟨_, [], (List.append_nil _).symm, .cons enclosing opened, .nothing⟩
  | parenthesis _ _ _ => rcases ready with ready | ⟨ready | ready, _⟩ <;> cases ready
  | continuation _ _ _ _ => rcases ready with ready | ⟨ready | ready, _⟩ <;> cases ready

/-- An operand without arguments is read. -/
theorem readOperand (stands : reader.Stands place text) (ready : reader.Ready settings)
    {operand : Expr} (operandStands : operand.Stands (place.past text) read)
    (atom : operand.precedence = 3) :
    Stands place (text ++ read) { reader with awaiting := .continuation operand } := by
  rcases stands.of_ready ready with ⟨before, waiting, rfl, enclosing, waits⟩
  exact .continuation enclosing waits operandStands atom

/-- Behind an operand in an open call the argument can be completed. -/
theorem exists_closed {call : OpenCall} {outer : List OpenCall} {pending : Pending}
    {operand : Expr} {calls : List Call}
    (stands : ExprReader.Stands place text
      ⟨call :: outer, pending, .continuation operand, calls⟩) :
    ∃ before front argument, text = before ++ front ++ argument ∧
      StackStands place before outer ∧ call.Stands (place.past before) front ∧
      (pending.closeSum operand).Stands ((place.past before).past front) argument := by
  cases stands with
  | @continuation _ _ _ _ waiting read _ enclosing waits stands atom =>
      rw [Position.past_append] at stands
      have closed := waits.closeSum stands atom
      cases enclosing with
      | @cons _ _ before front enclosing opened =>
          rw [Position.past_append] at closed
          exact ⟨before, front, waiting ++ read, by simp, enclosing, opened, closed⟩

/-- A token that stands behind the text takes it along. -/
theorem step (stands : reader.Stands place text) (formed : token.lexeme.Formed)
    (here : token.position = place.past text)
    (reads : Reads settings scope reader token reader') :
    reader'.Stands place (text ++ token.lexeme.text.toList) := by
  cases reads with
  | @number _ digits position ready =>
      cases here
      apply stands.readOperand ready _ rfl
      rw [Text.Numeral.value, ofDigitChars_eq_decimal]
      exact .number formed
  | parameter ready declared =>
      cases here
      exact stands.readOperand ready (.parameter formed) rfl
  | name ready names =>
      cases here
      rcases formed.callee names with ⟨callee, spelled⟩
      rcases stands.of_ready ready with ⟨before, waiting, rfl, enclosing, waits⟩
      rw [spelled]
      exact .parenthesis enclosing waits callee
  | openParen _ =>
      cases stands with
      | parenthesis enclosing waits callee =>
          rw [Position.past_append]
          exact (Stands.firstArgument enclosing (.fresh waits callee) rfl).of_eq
            (by simp [Lexeme.text])
  | plus =>
      cases stands with
      | continuation enclosing waits stands atom =>
          rw [Position.past_append] at stands
          exact (Stands.operand enclosing (waits.plus stands atom)).of_eq (by simp [Lexeme.text])
  | times =>
      cases stands with
      | continuation enclosing waits stands atom =>
          rw [Position.past_append] at stands
          exact (Stands.operand enclosing (waits.times stands atom)).of_eq (by simp [Lexeme.text])
  | space =>
      obtain ⟨before, front, argument, rfl, enclosing, opened, closed⟩ := stands.exists_closed
      exact (Stands.nextArgument enclosing (opened.space closed)).of_eq (by simp [Lexeme.text])
  | closeParen =>
      obtain ⟨earlier, front, argument, rfl, enclosing, opened, closed⟩ := stands.exists_closed
      obtain ⟨before, spelled, regrouped, waits, called⟩ := opened.closeParen closed (.parsed _)
      rw [← Position.past_append] at called
      apply (Stands.continuation enclosing waits called rfl).of_eq
      rw [List.append_assoc earlier before, ← regrouped]
      simp [Lexeme.text]
  | closeEmpty =>
      cases stands with
      | firstArgument enclosing opened none =>
          obtain ⟨before, spelled, regrouped, waits, called⟩ := opened.closeEmpty none (.parsed _)
          rw [← Position.past_append] at called
          apply (Stands.continuation enclosing waits called rfl).of_eq
          rw [List.append_assoc _ before, ← regrouped]
          simp [Lexeme.text]

/-- The expression that is finished stands where it was begun. -/
theorem finished {next : Lexeme} {expr : Expr} (stands : reader.Stands place text)
    (finished : reader.finished? next = some expr) : expr.Stands place text := by
  rcases exists_of_finished?_eq_some finished with ⟨pending, operand, calls, rfl, rfl⟩
  cases stands with
  | continuation enclosing waits stands atom =>
      cases enclosing with
      | nil => exact waits.closeSum stands atom

end ExprReader.Stands

end Polycalc

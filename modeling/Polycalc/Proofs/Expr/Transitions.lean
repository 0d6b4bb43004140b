import Polycalc.Expr.Parser

/-!
# The transitions of a reader of expressions

`ExprReader.Reads` lists what one token can do to a reader, one rule for each
lexeme in each situation, and `ExprReader.step_eq_ok_iff` says that these are
exactly the steps that succeed.  Nothing else about the reader has to be opened
to reason about what it reads.
-/

namespace Polycalc

/-- The function that a lexeme names where a call may begin. -/
def Lexeme.callee? : Lexeme → Option String
  | .function name => some name
  | .entry => some entryName
  | _ => none

/-- A call may have one more argument. -/
def OpenCall.HasRoom (settings : Settings) (call : OpenCall) : Prop :=
  ∃ allowed, settings.maxArguments = some allowed ∧ call.arguments.length < allowed

theorem OpenCall.checkRoom_eq_ok_iff {settings : Settings} {call : OpenCall} {token : Token} :
    call.checkRoom settings token = .ok () ↔ call.HasRoom settings := by
  unfold checkRoom HasRoom
  cases settings.maxArguments with
  | none => simp
  | some allowed =>
      simp only [Option.some.injEq, exists_eq_left']
      split
      · simp_all
      · simp_all

/-- The next token begins an argument. -/
def Awaiting.IsArgument (awaiting : Awaiting) : Prop :=
  awaiting = .firstArgument ∨ awaiting = .nextArgument

namespace ExprReader

/-- An operand may come next; if it begins an argument, the innermost open call
may have one more. -/
def Ready (settings : Settings) (reader : ExprReader) : Prop :=
  reader.awaiting = .operand ∨
    reader.awaiting.IsArgument ∧ ∀ innermost ∈ reader.stack.head?, innermost.HasRoom settings

/-- `Reads settings scope reader token reader'`: the token takes the reader
from one state to the other. -/
inductive Reads (settings : Settings) (scope : List String) :
    ExprReader → Token → ExprReader → Prop
  | number {reader : ExprReader} {digits : String} {position : Position}
      (ready : reader.Ready settings) :
      Reads settings scope reader ⟨.number digits, position⟩
        { reader with
          awaiting := .continuation (.number (Text.Numeral.value digits) position) }
  | parameter {reader : ExprReader} {name : String} {position : Position}
      (ready : reader.Ready settings) (declared : name ∈ scope) :
      Reads settings scope reader ⟨.parameter name, position⟩
        { reader with awaiting := .continuation (.parameter name position) }
  | name {reader : ExprReader} {lexeme : Lexeme} {name : String} {position : Position}
      (ready : reader.Ready settings) (names : lexeme.callee? = some name) :
      Reads settings scope reader ⟨lexeme, position⟩
        { reader with awaiting := .parenthesis name position }
  | openParen {stack : List OpenCall} {pending : Pending} {name : String}
      {place position : Position} {calls : List Call}
      (shallow : settings.limits.allowsNesting (stack.length + 1) = true) :
      Reads settings scope ⟨stack, pending, .parenthesis name place, calls⟩
        ⟨.openParen, position⟩
        ⟨⟨name, place, [], pending⟩ :: stack, .nothing, .firstArgument, calls⟩
  | plus {stack : List OpenCall} {pending : Pending} {operand : Expr}
      {position : Position} {calls : List Call} :
      Reads settings scope ⟨stack, pending, .continuation operand, calls⟩ ⟨.plus, position⟩
        ⟨stack, pending.plus operand, .operand, calls⟩
  | times {stack : List OpenCall} {pending : Pending} {operand : Expr}
      {position : Position} {calls : List Call} :
      Reads settings scope ⟨stack, pending, .continuation operand, calls⟩ ⟨.times, position⟩
        ⟨stack, pending.times operand, .operand, calls⟩
  | space {innermost : OpenCall} {outer : List OpenCall} {pending : Pending}
      {operand : Expr} {position : Position} {calls : List Call} :
      Reads settings scope ⟨innermost :: outer, pending, .continuation operand, calls⟩
        ⟨.space, position⟩
        ⟨{ innermost with arguments := innermost.arguments ++ [pending.closeSum operand] }
          :: outer, .nothing, .nextArgument, calls⟩
  | closeParen {innermost : OpenCall} {outer : List OpenCall} {pending : Pending}
      {operand : Expr} {position : Position} {calls : List Call} :
      Reads settings scope ⟨innermost :: outer, pending, .continuation operand, calls⟩
        ⟨.closeParen, position⟩
        (closeCall ⟨innermost :: outer, pending, .continuation operand, calls⟩ innermost outer
          (innermost.arguments ++ [pending.closeSum operand]))
  | closeEmpty {innermost : OpenCall} {outer : List OpenCall} {pending : Pending}
      {position : Position} {calls : List Call} :
      Reads settings scope ⟨innermost :: outer, pending, .firstArgument, calls⟩
        ⟨.closeParen, position⟩
        (closeCall ⟨innermost :: outer, pending, .firstArgument, calls⟩ innermost outer [])

variable {settings : Settings} {scope : List String} {reader reader' : ExprReader}
  {token : Token}

theorem Reads.of_readOperand (ready : reader.Ready settings)
    (read : reader.readOperand scope token = .ok reader') :
    Reads settings scope reader token reader' := by
  rcases token with ⟨lexeme, position⟩
  cases lexeme with
  | number digits =>
      cases read
      exact .number ready
  | parameter name =>
      simp only [readOperand] at read
      split at read
      · cases read
        exact .parameter ready ‹_›
      · cases read
  | function name =>
      cases read
      exact .name ready rfl
  | entry =>
      cases read
      exact .name ready rfl
  | _ => cases read

theorem Reads.of_readArgument (isArgument : reader.awaiting.IsArgument)
    (read : reader.readArgument settings scope token = .ok reader') :
    Reads settings scope reader token reader' := by
  unfold readArgument at read
  split at read
  · rename_i stack
    refine Reads.of_readOperand (Or.inr ⟨isArgument, ?_⟩) read
    simp [stack]
  · rename_i innermost outer stack
    cases room : innermost.checkRoom settings token with
    | error failure =>
        rw [room] at read
        cases read
    | ok _ =>
        rw [room] at read
        refine Reads.of_readOperand (Or.inr ⟨isArgument, ?_⟩) read
        simpa [stack] using OpenCall.checkRoom_eq_ok_iff.mp room

theorem Reads.of_readContinuation {stack : List OpenCall} {pending : Pending}
    {operand : Expr} {calls : List Call}
    (read : readContinuation ⟨stack, pending, .continuation operand, calls⟩ operand token =
      .ok reader') :
    Reads settings scope ⟨stack, pending, .continuation operand, calls⟩ token reader' := by
  rcases token with ⟨lexeme, position⟩
  cases lexeme with
  | plus =>
      cases read
      exact .plus
  | times =>
      cases read
      exact .times
  | space =>
      cases stack with
      | nil => cases read
      | cons innermost outer =>
          cases read
          exact .space
  | closeParen =>
      cases stack with
      | nil => cases read
      | cons innermost outer =>
          cases read
          exact .closeParen
  | _ => cases read

theorem Reads.of_readFirstArgument {stack : List OpenCall} {pending : Pending}
    {calls : List Call}
    (read : readFirstArgument settings scope ⟨stack, pending, .firstArgument, calls⟩ token =
      .ok reader') :
    Reads settings scope ⟨stack, pending, .firstArgument, calls⟩ token reader' := by
  rcases token with ⟨lexeme, position⟩
  cases stack with
  | nil =>
      have beginning : readArgument settings scope ⟨[], pending, .firstArgument, calls⟩
          ⟨lexeme, position⟩ = .ok reader' := by
        cases lexeme <;> exact read
      exact Reads.of_readArgument (Or.inl rfl) beginning
  | cons innermost outer =>
      by_cases closing : lexeme = .closeParen
      · subst closing
        cases read
        exact .closeEmpty
      · have beginning : readArgument settings scope
            ⟨innermost :: outer, pending, .firstArgument, calls⟩ ⟨lexeme, position⟩ =
              .ok reader' := by
          simpa [readFirstArgument, closing] using read
        exact Reads.of_readArgument (Or.inl rfl) beginning

/-- A step that succeeds is one of the transitions. -/
theorem Reads.of_step (read : reader.step settings scope token = .ok reader') :
    Reads settings scope reader token reader' := by
  rcases reader with ⟨stack, pending, awaiting, calls⟩
  unfold step at read
  cases awaiting with
  | operand => exact Reads.of_readOperand (Or.inl rfl) read
  | parenthesis name place =>
      rcases token with ⟨lexeme, position⟩
      simp only [openCall] at read
      split at read
      · split at read
        · subst_vars
          cases read
          exact .openParen ‹_›
        · cases read
      · cases read
  | firstArgument => exact Reads.of_readFirstArgument read
  | nextArgument => exact Reads.of_readArgument (Or.inr rfl) read
  | continuation operand => exact Reads.of_readContinuation read

theorem readArgument_eq_readOperand
    (room : ∀ innermost ∈ reader.stack.head?, innermost.HasRoom settings) :
    reader.readArgument settings scope token = reader.readOperand scope token := by
  unfold readArgument
  split
  · rfl
  · rename_i innermost outer stack
    have checked : innermost.checkRoom settings token = .ok () :=
      OpenCall.checkRoom_eq_ok_iff.mpr (room innermost (by simp [stack]))
    rw [checked]
    rfl

theorem step_eq_readOperand (ready : reader.Ready settings)
    (begins : token.lexeme ≠ .closeParen) :
    reader.step settings scope token = reader.readOperand scope token := by
  rcases reader with ⟨stack, pending, awaiting, calls⟩
  rcases ready with rfl | ⟨rfl | rfl, room⟩
  · rfl
  · rw [← readArgument_eq_readOperand room]
    simp [step, readFirstArgument, begins]
  · exact readArgument_eq_readOperand room

/-- Every transition is a step. -/
theorem Reads.step_eq_ok (reads : Reads settings scope reader token reader') :
    reader.step settings scope token = .ok reader' := by
  cases reads with
  | number ready =>
      rw [step_eq_readOperand ready (by simp)]
      rfl
  | parameter ready declared =>
      rw [step_eq_readOperand ready (by simp)]
      simp [readOperand, declared]
  | @name _ lexeme _ _ ready names =>
      cases lexeme <;> cases names
      all_goals
        rw [step_eq_readOperand ready (by simp)]
        rfl
  | openParen shallow => simp [step, openCall, shallow]
  | plus => rfl
  | times => rfl
  | space => rfl
  | closeParen => rfl
  | closeEmpty => rfl

/-- The steps that succeed are the transitions. -/
theorem step_eq_ok_iff :
    reader.step settings scope token = .ok reader' ↔
      Reads settings scope reader token reader' :=
  ⟨Reads.of_step, Reads.step_eq_ok⟩

/-- Only outside all calls and after an operand is an expression finished. -/
theorem exists_of_finished?_eq_some {next : Lexeme} {expr : Expr}
    (finished : reader.finished? next = some expr) :
    ∃ pending operand calls, reader = ⟨[], pending, .continuation operand, calls⟩ ∧
      expr = pending.closeSum operand := by
  rcases reader with ⟨stack, pending, awaiting, calls⟩
  unfold finished? at finished
  split at finished
  · rename_i operand stacked awaited
    simp only at stacked awaited
    subst stacked awaited
    split at finished
    · cases finished
    · cases finished
      exact ⟨pending, operand, calls, rfl, rfl⟩
  · cases finished

end ExprReader

end Polycalc

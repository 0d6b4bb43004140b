import Polycalc.Diagnostic.Wording
import Polycalc.Proofs.Expr.Reading

/-!
# Expressions further down

The same expression stands further down in a text if more lines and more calls
come before it.  A reader that begins further down does the same with the same
tokens: it holds the same expressions there (`ExprReader.step_moved`), or it
fails in the same way and says so with a greater line (`Failure.Further`).
-/

namespace Polycalc

/-- How much further down something stands: after so many more lines and so many
more calls. -/
structure Move where
  lines : Nat
  calls : Nat

/-- The position so many lines further down. -/
def Position.moved (lines : Nat) (position : Position) : Position :=
  { position with line := position.line + lines }

/-- The site of a call after so many more calls. -/
def Site.moved (calls : Nat) : Site → Site
  | parsed index => parsed (calls + index)
  | built label => built label

/-- The token so many lines further down. -/
def Token.moved (lines : Nat) (token : Token) : Token :=
  { token with position := token.position.moved lines }

theorem Token.lexeme_moved (lines : Nat) (token : Token) :
    (token.moved lines).lexeme = token.lexeme :=
  rfl

/-! ## Expressions -/

namespace Expr

mutual

/-- The expression further down. -/
def moved (move : Move) : Expr → Expr
  | number value position => number value (position.moved move.lines)
  | parameter name position => parameter name (position.moved move.lines)
  | call site name arguments position =>
    call (site.moved move.calls) name (movedAll move arguments) (position.moved move.lines)
  | binary operator left right position =>
    binary operator (left.moved move) (right.moved move) (position.moved move.lines)
  | foreign kind shown => foreign kind shown

/-- Several expressions further down. -/
def movedAll (move : Move) : List Expr → List Expr
  | [] => []
  | expr :: rest => expr.moved move :: movedAll move rest

end

variable {move : Move}

theorem movedAll_eq_map (exprs : List Expr) : movedAll move exprs = exprs.map (moved move) := by
  induction exprs with
  | nil => rfl
  | cons expr rest ih => rw [movedAll, ih, List.map_cons]

@[simp]
theorem moved_call (site : Site) (name : String) (arguments : List Expr) (position : Position) :
    (call site name arguments position).moved move =
      call (site.moved move.calls) name (arguments.map (moved move))
        (position.moved move.lines) := by
  rw [moved, movedAll_eq_map]

/-- What is no expression has no position that could move. -/
theorem position_moved {expr : Expr} (genuine : expr.Genuine) :
    (expr.moved move).position = expr.position.moved move.lines := by
  cases expr with
  | foreign kind shown => exact absurd (self_mem_parts _) (genuine kind shown)
  | call site name arguments place =>
      rw [moved_call]
      rfl
  | _ => rfl

theorem moved_join (move : Move) {left : Expr} (genuine : left.Genuine) (operator : Operator)
    (right : Expr) :
    (join operator left right).moved move = join operator (left.moved move) (right.moved move) := by
  rw [join, join, position_moved genuine, moved]

end Expr

/-- The call further down. -/
def Call.moved (move : Move) (call : Call) : Call :=
  ⟨call.site.moved move.calls, call.name, call.arguments.map (Expr.moved move),
    call.position.moved move.lines⟩

/-! ## Readers -/

/-- What waits for its next operand, further down. -/
def Pending.moved (move : Move) (pending : Pending) : Pending :=
  ⟨pending.sum.map (Expr.moved move), pending.product.map (Expr.moved move)⟩

namespace Pending

variable {pending : Pending}

@[simp]
theorem moved_nothing (move : Move) : nothing.moved move = nothing :=
  rfl

theorem closeProduct_moved (move : Move) (genuine : ∀ expr ∈ pending.held, expr.Genuine)
    (operand : Expr) :
    (pending.moved move).closeProduct (operand.moved move) =
      (pending.closeProduct operand).moved move := by
  rcases pending with ⟨sum, product⟩
  cases product with
  | none => rfl
  | some left =>
      have joined := Expr.moved_join move (genuine left (by simp [held])) .product operand
      exact joined.symm

theorem closeSum_moved (move : Move) (genuine : ∀ expr ∈ pending.held, expr.Genuine)
    (operand : Expr) :
    (pending.moved move).closeSum (operand.moved move) =
      (pending.closeSum operand).moved move := by
  have product := closeProduct_moved move genuine operand
  rcases pending with ⟨sum, product'⟩
  cases sum with
  | none => exact product
  | some left =>
      have joined := Expr.moved_join move (genuine left (by simp [held])) .sum
        (closeProduct ⟨some left, product'⟩ operand)
      rw [← product] at joined
      exact joined.symm

end Pending

/-- The open call further down. -/
def OpenCall.moved (move : Move) (call : OpenCall) : OpenCall :=
  ⟨call.name, call.position.moved move.lines, call.arguments.map (Expr.moved move),
    call.outer.moved move⟩

/-- What may come next further down. -/
def Awaiting.moved (move : Move) : Awaiting → Awaiting
  | operand => operand
  | parenthesis name position => parenthesis name (position.moved move.lines)
  | firstArgument => firstArgument
  | nextArgument => nextArgument
  | continuation read => continuation (read.moved move)

/-- The reader further down, where these calls were completed before. -/
def ExprReader.moved (move : Move) (before : List Call) (reader : ExprReader) : ExprReader :=
  ⟨reader.stack.map (OpenCall.moved move), reader.pending.moved move,
    reader.awaiting.moved move, before ++ reader.calls.map (Call.moved move)⟩

/-! ## Failures -/

/-- The lexical error so many lines further down. -/
def LexError.moved (lines : Nat) (error : LexError) : LexError :=
  { error with position := error.position.moved lines }

/-- The second failure is what the first one is so many lines further down.  Only
what reading a text fails with is among them. -/
inductive Failure.Further (lines : Nat) : Failure → Failure → Prop
  | lexical (error : LexError) : Further lines (.lexical error) (.lexical (error.moved lines))
  | unexpected (expected : Expected) (found : Token) :
      Further lines (.parse (.unexpected expected found))
        (.parse (.unexpected expected (found.moved lines)))
  | unknownParameter (name : String) (position : Position) :
      Further lines (.parse (.unknownParameter name position))
        (.parse (.unknownParameter name (position.moved lines)))
  | tooManyArguments (callee : String) (allowed : Int) (found : Token) :
      Further lines (.parse (.tooManyArguments callee allowed found))
        (.parse (.tooManyArguments callee allowed (found.moved lines)))
  | entryParameter (found : Token) :
      Further lines (.parse (.entryParameter found)) (.parse (.entryParameter (found.moved lines)))
  | nestedTooDeeply : Further lines (.parse .nestedTooDeeply) (.parse .nestedTooDeeply)
  | fault (fault : Fault) : Further lines (.fault fault) (.fault fault)

/-- What is said about a failure further down has another line, and nothing else
is different. -/
theorem Failure.Further.diagnostic {lines : Nat} {failure failure' : Failure}
    (further : Further lines failure failure') :
    (∃ error error' : SourceError, failure = .source error ∧ failure' = .source error' ∧
      error'.diagnostic =
        { error.diagnostic with line := error.diagnostic.line.map (· + (lines : Int)) }) ∨
      ∃ fault, failure = .fault fault ∧ failure' = .fault fault := by
  cases further with
  | fault fault => exact Or.inr ⟨fault, rfl, rfl⟩
  | lexical error =>
      refine Or.inl ⟨_, _, rfl, rfl, ?_⟩
      rcases error with ⟨cause, position⟩
      cases cause <;> rfl
  | _ => exact Or.inl ⟨_, _, rfl, rfl, rfl⟩

/-- Two readings succeed with related results, or they fail in the same way so
many lines apart. -/
inductive Alongside {α β : Type} (lines : Nat) (related : α → β → Prop) :
    Except Failure α → Except Failure β → Prop
  | ok {first : α} {second : β} (same : related first second) :
      Alongside lines related (.ok first) (.ok second)
  | error {failure failure' : Failure} (further : failure.Further lines failure') :
      Alongside lines related (.error failure) (.error failure')

namespace Alongside

variable {α β γ δ : Type} {lines : Nat} {related : α → β → Prop} {related' : γ → δ → Prop}

theorem bind {first : Except Failure α} {second : Except Failure β}
    {rest : α → Except Failure γ} {rest' : β → Except Failure δ}
    (alongside : Alongside lines related first second)
    (each : ∀ value value', first = .ok value → related value value' →
      Alongside lines related' (rest value) (rest' value')) :
    Alongside lines related' (first >>= rest) (second >>= rest') := by
  cases alongside with
  | ok same => exact each _ _ rfl same
  | error further => exact .error further

theorem exists_ok_iff {first : Except Failure α} {second : Except Failure β}
    (alongside : Alongside lines related first second) :
    (∃ value', second = .ok value') ↔ ∃ value, first = .ok value := by
  cases alongside <;> simp

theorem exists_error {failure : Failure} {second : Except Failure β}
    (alongside : Alongside lines related (.error failure) second) :
    ∃ failure', second = .error failure' ∧ failure.Further lines failure' := by
  cases alongside with
  | error further => exact ⟨_, rfl, further⟩

/-- A fault does not depend on a place. -/
theorem ofFault (result : Except Fault α) :
    Alongside lines (fun _ _ => True) (Failure.ofFault result) (Failure.ofFault result) := by
  cases result with
  | error fault => exact .error (.fault fault)
  | ok value => exact .ok trivial

end Alongside

/-! ## Steps -/

namespace ExprReader

variable {settings : Settings} {scope : List String} {move : Move} {before : List Call}
  {reader : ExprReader} {token : Token}

/-- The second reader is the first one further down. -/
def IsMoved (move : Move) (before : List Call) (reader reader' : ExprReader) : Prop :=
  reader' = reader.moved move before

theorem readOperand_moved (reader : ExprReader) (token : Token) :
    Alongside move.lines (IsMoved move before) (reader.readOperand scope token)
      ((reader.moved move before).readOperand scope (token.moved move.lines)) := by
  rcases token with ⟨lexeme, position⟩
  cases lexeme with
  | number digits => exact .ok rfl
  | parameter name =>
      simp only [readOperand, Token.moved]
      by_cases declared : name ∈ scope
      · rw [if_pos declared, if_pos declared]
        exact .ok rfl
      · rw [if_neg declared, if_neg declared]
        exact .error (.unknownParameter name position)
  | function name => exact .ok rfl
  | entry => exact .ok rfl
  | _ => exact .error (.unexpected .operand _)

theorem overfull_moved (limits : Limits) (call : OpenCall) (allowed : Int) (token : Token) :
    Failure.Further move.lines (call.overfull limits allowed token)
      ((call.moved move).overfull limits allowed (token.moved move.lines)) := by
  unfold OpenCall.overfull
  cases limits.write allowed with
  | ok _ => exact .tooManyArguments _ _ token
  | error fault => exact .fault fault

theorem checkRoom_moved (call : OpenCall) (token : Token) :
    Alongside move.lines (fun _ _ => True) (call.checkRoom settings token)
      ((call.moved move).checkRoom settings (token.moved move.lines)) := by
  unfold OpenCall.checkRoom
  cases settings.maxArguments with
  | none => exact .error (.fault _)
  | some allowed =>
      simp only [OpenCall.moved, List.length_map]
      split
      · exact .error (overfull_moved _ call allowed token)
      · exact .ok trivial

theorem readArgument_moved (reader : ExprReader) (token : Token) :
    Alongside move.lines (IsMoved move before) (reader.readArgument settings scope token)
      ((reader.moved move before).readArgument settings scope (token.moved move.lines)) := by
  rcases reader with ⟨stack, pending, awaiting, calls⟩
  cases stack with
  | nil => exact readOperand_moved _ token
  | cons innermost outer =>
      exact (checkRoom_moved innermost token).bind fun _ _ _ _ => readOperand_moved _ token

/-- The site of a call that is completed further down counts the calls that were
there before. -/
theorem closeCall_moved (many : before.length = move.calls) (reader : ExprReader)
    (innermost : OpenCall) (outer : List OpenCall) (arguments : List Expr) :
    (reader.moved move before).closeCall (innermost.moved move)
        (outer.map (OpenCall.moved move)) (arguments.map (Expr.moved move)) =
      (reader.closeCall innermost outer arguments).moved move before := by
  simp [closeCall, moved, Awaiting.moved, Call.toExpr, Call.moved, OpenCall.moved, Site.moved,
    many]

theorem readFirstArgument_moved (many : before.length = move.calls) (reader : ExprReader)
    (token : Token) :
    Alongside move.lines (IsMoved move before) (reader.readFirstArgument settings scope token)
      ((reader.moved move before).readFirstArgument settings scope (token.moved move.lines)) := by
  rcases token with ⟨lexeme, position⟩
  rcases reader with ⟨stack, pending, awaiting, calls⟩
  cases lexeme with
  | closeParen =>
      cases stack with
      | nil => exact .error (.unexpected .operand _)
      | cons innermost outer => exact .ok (closeCall_moved many _ innermost outer [])
  | _ => exact readArgument_moved _ _

theorem readContinuation_moved {stack : List OpenCall} {pending : Pending}
    {awaiting : Awaiting} {calls : List Call} (many : before.length = move.calls)
    (genuine : ∀ expr ∈ pending.held, expr.Genuine) (operand : Expr) (token : Token) :
    Alongside move.lines (IsMoved move before)
      (readContinuation ⟨stack, pending, awaiting, calls⟩ operand token)
      (readContinuation (moved move before ⟨stack, pending, awaiting, calls⟩)
        (operand.moved move) (token.moved move.lines)) := by
  have sum := Pending.closeSum_moved move genuine operand
  have product := Pending.closeProduct_moved move genuine operand
  rcases token with ⟨lexeme, position⟩
  cases lexeme with
  | plus =>
      refine .ok ?_
      simp [IsMoved, moved, Pending.plus, Pending.moved, ← sum, Awaiting.moved]
  | times =>
      refine .ok ?_
      simp [IsMoved, moved, Pending.times, Pending.moved, ← product, Awaiting.moved]
  | space =>
      cases stack with
      | nil => exact .error (.unexpected _ _)
      | cons innermost outer =>
          refine .ok ?_
          simp [IsMoved, moved, OpenCall.moved, sum, Awaiting.moved]
  | closeParen =>
      cases stack with
      | nil => exact .error (.unexpected _ _)
      | cons innermost outer =>
          refine .ok ?_
          rw [IsMoved, ← closeCall_moved many, List.map_append, List.map_singleton, ← sum]
          rfl
  | _ => exact .error (.unexpected _ _)

/-- A reader further down does the same with the same token. -/
theorem step_moved (many : before.length = move.calls)
    (genuine : ∀ expr ∈ reader.pending.held, expr.Genuine) :
    Alongside move.lines (IsMoved move before) (reader.step settings scope token)
      ((reader.moved move before).step settings scope (token.moved move.lines)) := by
  rcases reader with ⟨stack, pending, awaiting, calls⟩
  cases awaiting with
  | operand => exact readOperand_moved _ token
  | parenthesis name place =>
      simp only [step, moved, Awaiting.moved, openCall, Token.moved, List.length_map]
      split
      · split
        · exact .ok rfl
        · exact .error .nestedTooDeeply
      · exact .error (.unexpected _ token)
  | firstArgument => exact readFirstArgument_moved many _ token
  | nextArgument => exact readArgument_moved _ token
  | continuation operand => exact readContinuation_moved many genuine operand token

end ExprReader

end Polycalc

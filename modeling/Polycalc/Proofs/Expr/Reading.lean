import Polycalc.Proofs.Expr.Transitions
import Polycalc.Proofs.Expr.Parts
import Mathlib.Data.List.Nodup

/-!
# What a reader of expressions holds

Between two tokens a reader holds the expressions that it has read and not yet
put together, in the order of the text (`ExprReader.held`).  Two facts about
them never change: every part is one that the scope allows, and the calls in
them, in that order, are exactly those that were registered since the reader
was started.  `ExprReader.Keeps` states both, and `ExprReader.Keeps.step` says
that no token breaks them.
-/

namespace Polycalc

/-! ## Expressions that can be read -/

namespace Expr

/-- A part that can be read where these parameters are declared. -/
def PartReadIn (scope : List String) : Expr → Prop
  | number value _ => 0 ≤ value
  | parameter name _ => name ∈ scope
  | call _ _ _ _ => True
  | binary _ _ _ _ => True
  | foreign _ _ => False

/-- An expression all of whose parts can be read where these parameters are
declared. -/
def ReadIn (scope : List String) (expr : Expr) : Prop :=
  ∀ part ∈ expr.parts, PartReadIn scope part

namespace ReadIn

variable {scope : List String}

theorem number (digits : String) (position : Position) :
    ReadIn scope (.number (Text.Numeral.value digits) position) := by
  simp [ReadIn, PartReadIn]

theorem parameter {name : String} (declared : name ∈ scope) (position : Position) :
    ReadIn scope (.parameter name position) := by
  simpa [ReadIn, PartReadIn] using declared

theorem join {left right : Expr} (leftRead : ReadIn scope left)
    (rightRead : ReadIn scope right) (operator : Operator) :
    ReadIn scope (Expr.join operator left right) :=
  forall_mem_parts_binary_iff.mpr ⟨leftRead, rightRead, trivial⟩

theorem call {arguments : List Expr}
    (argumentsRead : ∀ argument ∈ arguments, ReadIn scope argument) (site : Site)
    (name : String) (position : Position) :
    ReadIn scope (.call site name arguments position) :=
  forall_mem_parts_call_iff.mpr ⟨argumentsRead, trivial⟩

theorem genuine {expr : Expr} (read : ReadIn scope expr) : expr.Genuine :=
  fun kind shown member => read (.foreign kind shown) member

end ReadIn

theorem calls_join (operator : Operator) (left right : Expr) :
    (join operator left right).calls = left.calls ++ right.calls :=
  calls_binary operator left right _

end Expr

/-! ## Expressions that are held -/

namespace Pending

/-- What waits for an operand. -/
def held (pending : Pending) : List Expr :=
  pending.sum.toList ++ pending.product.toList

@[simp]
theorem held_nothing : nothing.held = [] :=
  rfl

theorem held_plus (pending : Pending) (operand : Expr) :
    (pending.plus operand).held = [pending.closeSum operand] :=
  rfl

theorem held_times (pending : Pending) (operand : Expr) :
    (pending.times operand).held =
      pending.sum.toList ++ [pending.closeProduct operand] :=
  rfl

theorem calls_closeProduct (pending : Pending) (operand : Expr) :
    (pending.closeProduct operand).calls =
      pending.product.toList.flatMap Expr.calls ++ operand.calls := by
  unfold closeProduct
  cases pending.product with
  | none => rfl
  | some left => simp [Expr.calls_join]

theorem calls_closeSum (pending : Pending) (operand : Expr) :
    (pending.closeSum operand).calls =
      pending.held.flatMap Expr.calls ++ operand.calls := by
  unfold closeSum held
  cases pending.sum with
  | none => simp [calls_closeProduct]
  | some left => simp [Expr.calls_join, calls_closeProduct]

section

variable {holds : Expr → Prop} {pending : Pending} {operand : Expr}

/-- What joining keeps holds of the product that is closed if it holds of all
that is put together. -/
theorem closeProduct_of_join
    (join : ∀ operator left right, holds left → holds right →
      holds (Expr.join operator left right))
    (waiting : ∀ expr ∈ pending.held, holds expr) (last : holds operand) :
    holds (pending.closeProduct operand) := by
  unfold closeProduct
  cases product : pending.product with
  | none => exact last
  | some left => exact join _ _ _ (waiting left (by simp [held, product])) last

/-- The same for the sum. -/
theorem closeSum_of_join
    (join : ∀ operator left right, holds left → holds right →
      holds (Expr.join operator left right))
    (waiting : ∀ expr ∈ pending.held, holds expr) (last : holds operand) :
    holds (pending.closeSum operand) := by
  have product := closeProduct_of_join join waiting last
  unfold closeSum
  cases sum : pending.sum with
  | none => exact product
  | some left => exact join _ _ _ (waiting left (by simp [held, sum])) product

end

variable {scope : List String} {pending : Pending} {operand : Expr}

theorem readIn_closeProduct (read : ∀ expr ∈ pending.held, expr.ReadIn scope)
    (operandRead : operand.ReadIn scope) : (pending.closeProduct operand).ReadIn scope :=
  closeProduct_of_join (fun operator _ _ left right => left.join right operator) read operandRead

theorem readIn_closeSum (read : ∀ expr ∈ pending.held, expr.ReadIn scope)
    (operandRead : operand.ReadIn scope) : (pending.closeSum operand).ReadIn scope :=
  closeSum_of_join (fun operator _ _ left right => left.join right operator) read operandRead

end Pending

/-- The expressions that an open call holds: what waits for its value, and its
arguments. -/
def OpenCall.held (call : OpenCall) : List Expr :=
  call.outer.held ++ call.arguments

namespace Awaiting

/-- The operand that has just been read, if there is one. -/
def held : Awaiting → List Expr
  | continuation read => [read]
  | _ => []

@[simp]
theorem held_operand : operand.held = [] :=
  rfl

@[simp]
theorem held_parenthesis (name : String) (position : Position) :
    (parenthesis name position).held = [] :=
  rfl

@[simp]
theorem held_firstArgument : firstArgument.held = [] :=
  rfl

@[simp]
theorem held_nextArgument : nextArgument.held = [] :=
  rfl

@[simp]
theorem held_continuation (read : Expr) : (continuation read).held = [read] :=
  rfl

end Awaiting

namespace ExprReader

/-- The expressions that a reader holds, in the order of the text. -/
def held (reader : ExprReader) : List Expr :=
  reader.stack.reverse.flatMap OpenCall.held ++ reader.pending.held ++ reader.awaiting.held

theorem held_mk (stack : List OpenCall) (pending : Pending) (awaiting : Awaiting)
    (calls : List Call) :
    (ExprReader.mk stack pending awaiting calls).held =
      stack.reverse.flatMap OpenCall.held ++ pending.held ++ awaiting.held :=
  rfl

end ExprReader

/-- Every call has its place in the list as its site. -/
def Numbered (calls : List Call) : Prop :=
  calls.map Call.site = (List.range calls.length).map Site.parsed

theorem Numbered.append {calls : List Call} (numbered : Numbered calls) {call : Call}
    (next : call.site = .parsed calls.length) : Numbered (calls ++ [call]) := by
  unfold Numbered at *
  rw [List.map_append, numbered, List.length_append, List.length_singleton,
    List.range_succ, List.map_append, List.map_singleton, List.map_singleton, next]

theorem Numbered.nodup {calls : List Call} (numbered : Numbered calls) :
    (calls.map Call.site).Nodup := by
  rw [numbered]
  exact List.Nodup.map (fun _ _ same => Site.parsed.inj same) List.nodup_range

/-- The reader holds expressions that the scope allows, the calls in them are
those that were registered after the ones before, and right after the opening
parenthesis of a call nothing of its arguments has been read. -/
structure ExprReader.Keeps (scope : List String) (before : List Call)
    (reader : ExprReader) : Prop where
  readIn : ∀ expr ∈ reader.held, expr.ReadIn scope
  calls : reader.calls = before ++ reader.held.flatMap Expr.calls
  numbered : Numbered reader.calls
  fresh : reader.awaiting = .firstArgument →
    reader.pending = .nothing ∧ ∀ innermost ∈ reader.stack.head?, innermost.arguments = []

namespace ExprReader.Keeps

variable {settings : Settings} {scope : List String} {before : List Call}
  {reader reader' : ExprReader} {token : Token}

theorem start (numbered : Numbered before) :
    (ExprReader.start before).Keeps scope before where
  readIn := by simp [ExprReader.start, held_mk]
  calls := by simp [ExprReader.start, held_mk]
  numbered := numbered
  fresh := by simp [ExprReader.start]

/-- Parts may be put together as long as no call is completed. -/
theorem regroup (keeps : reader.Keeps scope before) (sameCalls : reader'.calls = reader.calls)
    (readIn : ∀ expr ∈ reader'.held, expr.ReadIn scope)
    (regrouped : reader'.held.flatMap Expr.calls = reader.held.flatMap Expr.calls)
    (fresh : reader'.awaiting = .firstArgument →
      reader'.pending = .nothing ∧
        ∀ innermost ∈ reader'.stack.head?, innermost.arguments = []) :
    reader'.Keeps scope before where
  readIn := readIn
  calls := by rw [sameCalls, regrouped, keeps.calls]
  numbered := by
    rw [sameCalls]
    exact keeps.numbered
  fresh := fresh

/-- While an operand may come next, none has been read. -/
theorem held_awaiting_of_ready (ready : reader.Ready settings) : reader.awaiting.held = [] := by
  rcases ready with operand | ⟨first | next, _⟩
  · rw [operand, Awaiting.held_operand]
  · rw [first, Awaiting.held_firstArgument]
  · rw [next, Awaiting.held_nextArgument]

/-- An operand without calls is read. -/
theorem operand (keeps : reader.Keeps scope before) (ready : reader.Ready settings)
    {operand : Expr} (readIn : operand.ReadIn scope) (noCalls : operand.calls = []) :
    Keeps scope before { reader with awaiting := .continuation operand } := by
  have nothingRead := held_awaiting_of_ready ready
  have earlier := keeps.readIn
  rcases reader with ⟨stack, pending, awaiting, calls⟩
  simp only at nothingRead
  simp only [held_mk, nothingRead, List.append_nil] at earlier
  refine keeps.regroup rfl ?_ ?_ (by simp)
  · simp only [held_mk, Awaiting.held_continuation, List.forall_mem_append,
      List.forall_mem_singleton] at earlier ⊢
    exact ⟨earlier, readIn⟩
  · simp [held_mk, nothingRead, noCalls]

/-- A call is completed. -/
theorem closeCall {innermost : OpenCall} {outer : List OpenCall} {pending : Pending}
    {awaiting : Awaiting} {calls : List Call} {arguments : List Expr}
    (keeps : Keeps scope before ⟨innermost :: outer, pending, awaiting, calls⟩)
    (readIn : ∀ argument ∈ arguments, argument.ReadIn scope)
    (completed : arguments.flatMap Expr.calls =
      (innermost.arguments ++ pending.held ++ awaiting.held).flatMap Expr.calls) :
    Keeps scope before
      (ExprReader.closeCall ⟨innermost :: outer, pending, awaiting, calls⟩ innermost outer
        arguments) where
  readIn := by
    have held := keeps.readIn
    simp only [held_mk, List.reverse_cons, List.flatMap_append, List.flatMap_singleton,
      List.forall_mem_append, OpenCall.held] at held
    simp only [ExprReader.closeCall, held_mk, Awaiting.held_continuation,
      List.forall_mem_append, List.forall_mem_singleton]
    exact ⟨⟨held.1.1.1, held.1.1.2.1⟩, Expr.ReadIn.call readIn _ _ _⟩
  calls := by
    have registered := keeps.calls
    simp only [held_mk, List.reverse_cons, List.flatMap_append, List.flatMap_singleton,
      OpenCall.held] at registered completed
    simp [ExprReader.closeCall, held_mk, registered, completed]
  numbered := keeps.numbered.append rfl
  fresh := by simp [ExprReader.closeCall]

/-- The arguments of a call with the one that has just been read. -/
theorem readIn_arguments {innermost : OpenCall} {outer : List OpenCall} {pending : Pending}
    {operand : Expr} {calls : List Call}
    (keeps : Keeps scope before ⟨innermost :: outer, pending, .continuation operand, calls⟩) :
    ∀ argument ∈ innermost.arguments ++ [pending.closeSum operand], argument.ReadIn scope := by
  have held := keeps.readIn
  simp only [held_mk, Awaiting.held_continuation, List.reverse_cons, List.flatMap_append,
    List.flatMap_singleton, OpenCall.held, List.forall_mem_append,
    List.forall_mem_singleton] at held
  rw [List.forall_mem_append, List.forall_mem_singleton]
  exact ⟨held.1.1.2.2, Pending.readIn_closeSum held.1.2 held.2⟩

/-- No transition breaks what a reader keeps. -/
theorem step (keeps : reader.Keeps scope before)
    (reads : Reads settings scope reader token reader') : reader'.Keeps scope before := by
  have held := keeps.readIn
  cases reads with
  | number ready => exact keeps.operand ready (Expr.ReadIn.number _ _) rfl
  | parameter ready declared =>
      exact keeps.operand ready (Expr.ReadIn.parameter declared _) rfl
  | name ready _ =>
      have nothingRead := held_awaiting_of_ready ready
      rcases reader with ⟨stack, pending, awaiting, calls⟩
      simp only at nothingRead
      refine keeps.regroup rfl ?_ ?_ (by simp)
      · simpa only [held_mk, nothingRead, Awaiting.held_parenthesis] using held
      · simp [held_mk, nothingRead]
  | openParen _ =>
      refine keeps.regroup rfl ?_ ?_ (by simp)
      · simpa [held_mk, OpenCall.held] using held
      · simp [held_mk, OpenCall.held]
  | @plus stack pending operand _ _ =>
      simp only [held_mk, Awaiting.held_continuation, List.forall_mem_append,
        List.forall_mem_singleton] at held
      have closed := Pending.readIn_closeSum held.1.2 held.2
      refine keeps.regroup rfl ?_ ?_ (by simp)
      · simp only [held_mk, Pending.held_plus, Awaiting.held_operand, List.append_nil,
          List.forall_mem_append, List.forall_mem_singleton]
        exact ⟨held.1.1, closed⟩
      · simp [held_mk, Pending.held_plus, Pending.calls_closeSum]
  | @times stack pending operand _ _ =>
      simp only [held_mk, Awaiting.held_continuation, List.forall_mem_append,
        List.forall_mem_singleton] at held
      have closed := Pending.readIn_closeProduct held.1.2 held.2
      have waiting := held.1.2
      simp only [Pending.held, List.forall_mem_append] at waiting
      refine keeps.regroup rfl ?_ ?_ (by simp)
      · simp only [held_mk, Pending.held_times, Awaiting.held_operand, List.append_nil,
          List.forall_mem_append, List.forall_mem_singleton]
        exact ⟨held.1.1, waiting.1, closed⟩
      · simp only [held_mk, Pending.held_times]
        simp [Pending.held, Pending.calls_closeProduct]
  | @space innermost outer pending operand _ _ =>
      have arguments := keeps.readIn_arguments
      simp only [held_mk, List.reverse_cons, List.flatMap_append, List.flatMap_singleton,
        OpenCall.held, List.forall_mem_append] at held
      refine keeps.regroup rfl ?_ ?_ (by simp)
      · simp only [held_mk, Pending.held_nothing, Awaiting.held_nextArgument, List.append_nil,
          List.reverse_cons, List.flatMap_append, List.flatMap_singleton, OpenCall.held]
        rw [List.forall_mem_append, List.forall_mem_append]
        exact ⟨held.1.1.1, held.1.1.2.1, arguments⟩
      · simp [held_mk, OpenCall.held, Pending.calls_closeSum]
  | @closeParen innermost outer pending operand _ _ =>
      apply keeps.closeCall keeps.readIn_arguments
      simp [Pending.calls_closeSum]
  | @closeEmpty innermost outer pending _ _ =>
      rcases keeps.fresh rfl with ⟨nothingWaits, noArguments⟩
      apply keeps.closeCall (List.forall_mem_nil _)
      have none : innermost.arguments = [] := noArguments innermost (by simp)
      have nothing : pending = .nothing := nothingWaits
      simp [none, nothing]

end ExprReader.Keeps

end Polycalc

import Polycalc.Proofs.Expr.Reading

/-!
# Nesting

A call is opened only if the number of open calls allows it, and that keeps
every expression that a reader holds from being nested too deeply, counted from
the call in which the expression stands (`ExprReader.Shallow`).
-/

namespace Polycalc

namespace Limits

/-- An expression inside `depth` calls is not nested too deeply. -/
def AllowsAt (limits : Limits) (depth : Nat) (expr : Expr) : Prop :=
  limits.allowsNesting (depth + expr.nesting) = true

variable {limits : Limits} {depth : Nat}

theorem allowsNesting_zero : limits.allowsNesting 0 = true := by
  cases nesting : limits.nesting <;> simp [allowsNesting, nesting]

theorem allowsNesting_mono {deeper : Nat} (le : depth ≤ deeper)
    (allowed : limits.allowsNesting deeper = true) : limits.allowsNesting depth = true := by
  unfold allowsNesting at *
  cases nesting : limits.nesting with
  | none => rfl
  | some bound =>
      simp only [nesting, Option.all_some, decide_eq_true_eq] at *
      omega

theorem allowsNesting_max_iff {other : Nat} :
    limits.allowsNesting (max depth other) = true ↔
      limits.allowsNesting depth = true ∧ limits.allowsNesting other = true := by
  constructor
  · intro allowed
    exact ⟨allowsNesting_mono (Nat.le_max_left _ _) allowed,
      allowsNesting_mono (Nat.le_max_right _ _) allowed⟩
  · rintro ⟨allowed, otherAllowed⟩
    rcases Nat.le_total depth other with le | le
    · rwa [Nat.max_eq_right le]
    · rwa [Nat.max_eq_left le]

theorem allowsAt_binary_iff {operator : Operator} {left right : Expr} {position : Position} :
    limits.AllowsAt depth (.binary operator left right position) ↔
      limits.AllowsAt depth left ∧ limits.AllowsAt depth right := by
  rw [AllowsAt, Expr.nesting, ← Nat.add_max_add_left, allowsNesting_max_iff]
  rfl

theorem allowsNesting_nestingAll_iff {arguments : List Expr} :
    limits.allowsNesting (depth + Expr.nestingAll arguments) = true ↔
      limits.allowsNesting depth = true ∧
        ∀ argument ∈ arguments, limits.AllowsAt depth argument := by
  induction arguments with
  | nil => simp [Expr.nestingAll]
  | cons argument rest ih =>
      rw [Expr.nestingAll, ← Nat.add_max_add_left, allowsNesting_max_iff, ih,
        List.forall_mem_cons]
      constructor
      · rintro ⟨first, shallow, others⟩
        exact ⟨shallow, first, others⟩
      · rintro ⟨shallow, first, others⟩
        exact ⟨first, shallow, others⟩

/-- A call is one deeper than its arguments. -/
theorem allowsAt_call_iff {site : Site} {name : String} {arguments : List Expr}
    {position : Position} :
    limits.AllowsAt depth (.call site name arguments position) ↔
      limits.allowsNesting (depth + 1) = true ∧
        ∀ argument ∈ arguments, limits.AllowsAt (depth + 1) argument := by
  rw [← allowsNesting_nestingAll_iff, AllowsAt, Expr.nesting,
    Nat.add_comm (Expr.nestingAll arguments) 1, Nat.add_assoc]

theorem allowsAt_of_nesting_eq_zero {expr : Expr} (flat : expr.nesting = 0)
    (allowed : limits.allowsNesting depth = true) : limits.AllowsAt depth expr := by
  rwa [AllowsAt, flat]

end Limits

/-! ## Readers -/

/-- Nothing that an open call inside `depth` others holds is nested too
deeply, nor is the call itself. -/
structure OpenCall.Shallow (limits : Limits) (depth : Nat) (call : OpenCall) : Prop where
  allowed : limits.allowsNesting (depth + 1) = true
  outer : ∀ expr ∈ call.outer.held, limits.AllowsAt depth expr
  arguments : ∀ argument ∈ call.arguments, limits.AllowsAt (depth + 1) argument

/-- Nothing that open calls hold is nested too deeply. -/
def StackShallow (limits : Limits) : List OpenCall → Prop
  | [] => True
  | call :: outer => call.Shallow limits outer.length ∧ StackShallow limits outer

theorem StackShallow.allowed {limits : Limits} {stack : List OpenCall}
    (shallow : StackShallow limits stack) : limits.allowsNesting stack.length = true := by
  cases stack with
  | nil => exact Limits.allowsNesting_zero
  | cons call outer => exact shallow.1.allowed

/-- Nothing that a reader holds is nested too deeply. -/
structure ExprReader.Shallow (limits : Limits) (reader : ExprReader) : Prop where
  stack : StackShallow limits reader.stack
  waiting : ∀ expr ∈ reader.pending.held, limits.AllowsAt reader.stack.length expr
  read : ∀ expr ∈ reader.awaiting.held, limits.AllowsAt reader.stack.length expr

namespace ExprReader.Shallow

variable {settings : Settings} {limits : Limits} {scope : List String}
  {reader reader' : ExprReader} {token : Token}

theorem start (calls : List Call) : (ExprReader.start calls).Shallow limits where
  stack := trivial
  waiting := by simp [ExprReader.start]
  read := by simp [ExprReader.start]

/-- An operand without calls is read. -/
theorem flat (shallow : reader.Shallow limits) {operand : Expr} (noCalls : operand.nesting = 0) :
    Shallow limits { reader with awaiting := .continuation operand } where
  stack := shallow.stack
  waiting := shallow.waiting
  read := by
    simp only [Awaiting.held_continuation, List.forall_mem_singleton]
    exact Limits.allowsAt_of_nesting_eq_zero noCalls shallow.stack.allowed

theorem allowsAt_closeProduct {stack : List OpenCall} {pending : Pending} {operand : Expr}
    {calls : List Call}
    (shallow : Shallow limits ⟨stack, pending, .continuation operand, calls⟩) :
    limits.AllowsAt stack.length (pending.closeProduct operand) := by
  apply Pending.closeProduct_of_join _ shallow.waiting (List.forall_mem_singleton.mp shallow.read)
  intro operator left right leftAllowed rightAllowed
  exact Limits.allowsAt_binary_iff.mpr ⟨leftAllowed, rightAllowed⟩

theorem allowsAt_closeSum {stack : List OpenCall} {pending : Pending} {operand : Expr}
    {calls : List Call}
    (shallow : Shallow limits ⟨stack, pending, .continuation operand, calls⟩) :
    limits.AllowsAt stack.length (pending.closeSum operand) := by
  apply Pending.closeSum_of_join _ shallow.waiting (List.forall_mem_singleton.mp shallow.read)
  intro operator left right leftAllowed rightAllowed
  exact Limits.allowsAt_binary_iff.mpr ⟨leftAllowed, rightAllowed⟩

/-- A call is completed. -/
theorem closeCall {innermost : OpenCall} {outer : List OpenCall} {arguments : List Expr}
    (opened : StackShallow limits (innermost :: outer))
    (each : ∀ argument ∈ arguments, limits.AllowsAt (outer.length + 1) argument) :
    Shallow limits (reader.closeCall innermost outer arguments) where
  stack := opened.2
  waiting := opened.1.outer
  read := by
    simp only [ExprReader.closeCall, Awaiting.held_continuation, List.forall_mem_singleton]
    exact Limits.allowsAt_call_iff.mpr ⟨opened.1.allowed, each⟩

/-- No transition nests too deeply. -/
theorem step (shallow : reader.Shallow settings.limits)
    (reads : Reads settings scope reader token reader') : reader'.Shallow settings.limits := by
  cases reads with
  | number _ => exact shallow.flat rfl
  | parameter _ _ => exact shallow.flat rfl
  | name _ _ => exact ⟨shallow.stack, shallow.waiting, by simp⟩
  | openParen allowed =>
      exact ⟨⟨⟨allowed, shallow.waiting, by simp⟩, shallow.stack⟩, by simp, by simp⟩
  | plus =>
      constructor
      · exact shallow.stack
      · rw [Pending.held_plus, List.forall_mem_singleton]
        exact shallow.allowsAt_closeSum
      · simp
  | times =>
      have waiting := shallow.waiting
      simp only [Pending.held, List.forall_mem_append] at waiting
      constructor
      · exact shallow.stack
      · rw [Pending.held_times, List.forall_mem_append, List.forall_mem_singleton]
        exact ⟨waiting.1, shallow.allowsAt_closeProduct⟩
      · simp
  | space =>
      rcases shallow.stack with ⟨⟨allowed, outer, arguments⟩, stack⟩
      refine ⟨⟨⟨allowed, outer, ?_⟩, stack⟩, by simp, by simp⟩
      rw [List.forall_mem_append, List.forall_mem_singleton]
      exact ⟨arguments, shallow.allowsAt_closeSum⟩
  | closeParen =>
      apply closeCall shallow.stack
      rw [List.forall_mem_append, List.forall_mem_singleton]
      exact ⟨shallow.stack.1.arguments, shallow.allowsAt_closeSum⟩
  | closeEmpty => exact closeCall shallow.stack (by simp)

end ExprReader.Shallow

end Polycalc

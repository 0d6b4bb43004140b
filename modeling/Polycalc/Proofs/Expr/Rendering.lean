import Polycalc.Expr.Printer
import Polycalc.Proofs.Expr.Parts
import Mathlib.Data.List.Forall2

/-!
# Rendering expressions

The equations of `Expr.render` and `Expr.shape` at calls and chains, without the
memberships that their recursion carries, and when rendering succeeds: everything
can be written but a foreign part and a number that is too long
(`Expr.Genuine.exists_render`), and where all numbers can be written, the limit
makes no difference (`Expr.Writable.render_eq`).
-/

namespace Polycalc

theorem Except.bind_eq_ok_iff {ε α β : Type} {first : Except ε α} {rest : α → Except ε β}
    {result : β} :
    first >>= rest = .ok result ↔ ∃ value, first = .ok value ∧ rest value = .ok result := by
  cases first <;> simp [bind, Except.bind]

theorem Except.of_bind_eq_error {ε α β : Type} {first : Except ε α} {rest : α → Except ε β}
    {reason : ε} (failed : first >>= rest = .error reason) :
    first = .error reason ∨ ∃ value, first = .ok value ∧ rest value = .error reason := by
  cases first with
  | error _ =>
      cases failed
      exact Or.inl rfl
  | ok value => exact Or.inr ⟨value, rfl, failed⟩

/-- A map succeeds with the images of all values. -/
theorem mapM_eq_ok_iff {ε α β : Type} {f : α → Except ε β} {values : List α}
    {images : List β} :
    values.mapM f = .ok images ↔
      List.Forall₂ (fun value image => f value = .ok image) values images := by
  induction values generalizing images with
  | nil =>
      rw [List.forall₂_nil_left_iff]
      exact ⟨fun mapped => by cases mapped; rfl, fun none => by rw [none]; rfl⟩
  | cons value rest ih =>
      rw [List.mapM_cons, List.forall₂_cons_left_iff]
      constructor
      · intro mapped
        cases first : f value with
        | error reason =>
            rw [first] at mapped
            cases mapped
        | ok image =>
            cases others : rest.mapM f with
            | error reason =>
                rw [first, others] at mapped
                cases mapped
            | ok images' =>
                rw [first, others] at mapped
                cases mapped
                exact ⟨image, images', rfl, ih.mp others, rfl⟩
      · rintro ⟨image, images', first, others, rfl⟩
        rw [first, ih.mpr others]
        rfl

/-- A map fails through one of the values. -/
theorem exists_of_mapM_eq_error {ε α β : Type} {f : α → Except ε β} {values : List α} {reason : ε}
    (failed : values.mapM f = .error reason) : ∃ value ∈ values, f value = .error reason := by
  induction values with
  | nil => cases failed
  | cons value rest ih =>
      rw [List.mapM_cons] at failed
      rcases Except.of_bind_eq_error failed with first | ⟨_, _, later⟩
      · exact ⟨value, List.mem_cons_self, first⟩
      · rcases Except.of_bind_eq_error later with others | ⟨_, _, given⟩
        · rcases ih others with ⟨other, member, failed⟩
          exact ⟨other, List.mem_cons_of_mem _ member, failed⟩
        · cases given

/-- A map succeeds if it does at all values. -/
theorem exists_mapM_eq_ok {ε α β : Type} {f : α → Except ε β} {values : List α}
    (each : ∀ value ∈ values, ∃ image, f value = .ok image) :
    ∃ images, values.mapM f = .ok images := by
  cases mapped : values.mapM f with
  | ok images => exact ⟨images, rfl⟩
  | error reason =>
      rcases exists_of_mapM_eq_error mapped with ⟨value, member, failed⟩
      rcases each value member with ⟨image, given⟩
      rw [given] at failed
      cases failed

theorem mapM_congr_of_forall {m : Type → Type} [Monad m] [LawfulMonad m] {α β : Type}
    {f g : α → m β} {values : List α} (each : ∀ value ∈ values, f value = g value) :
    values.mapM f = values.mapM g := by
  induction values with
  | nil => rfl
  | cons value rest ih =>
      rw [List.forall_mem_cons] at each
      rw [List.mapM_cons, List.mapM_cons, each.1, ih each.2]

namespace Limits

variable {limits : Limits} {value : Int}

theorem write_eq_ok (unbounded : limits.digits = none) (value : Int) :
    limits.write value = .ok (toString value) := by
  simp [write, unbounded]

/-- Whatever limits a value can be written within, its text is the same. -/
theorem eq_toString_of_write_eq_ok {text : String} (written : limits.write value = .ok text) :
    text = toString value := by
  unfold write at written
  split at written
  · cases written
    rfl
  · split at written
    · cases written
      rfl
    · cases written

theorem write_eq_of_unbounded {free : Limits} (written : ∃ text, limits.write value = .ok text)
    (unbounded : free.digits = none) : limits.write value = free.write value := by
  rcases written with ⟨text, written⟩
  rw [written, eq_toString_of_write_eq_ok written, write_eq_ok unbounded]

/-- Only the limit on numerals matters. -/
theorem write_congr {limits' : Limits} (same : limits.digits = limits'.digits) (value : Int) :
    limits.write value = limits'.write value := by
  rw [write, write, same]

end Limits

namespace Expr

variable {limits : Limits}

theorem render_call (limits : Limits) (site : Site) (name : String)
    (arguments : List Expr) (position : Position) :
    (call site name arguments position).render limits =
      arguments.mapM (render limits) >>=
        fun texts => pure (name ++ "(" ++ " ".intercalate texts ++ ")") := by
  rw [render]
  simp only [List.mapM_subtype, List.unattach_attach]

theorem render_binary (limits : Limits) (operator : Operator) (left right : Expr)
    (position : Position) :
    (binary operator left right position).render limits =
      (binary operator left right position).operands.mapM
          (fun operand => do return (operand, ← operand.render limits)) >>=
        fun texts => pure (joinOperands operator texts) := by
  rw [render]
  simp only [List.mapM_subtype, List.unattach_attach]

theorem shape_call (limits : Limits) (site : Site) (name : String) (arguments : List Expr)
    (position : Position) :
    (call site name arguments position).shape limits =
      arguments.mapM (shape limits) >>=
        fun texts => pure ("Call(" ++ ",".intercalate (name :: texts) ++ ")") := by
  rw [shape]
  simp only [List.mapM_subtype, List.unattach_attach]

theorem shape_binary (limits : Limits) (operator : Operator) (left right : Expr)
    (position : Position) :
    (binary operator left right position).shape limits =
      (binary operator left right position).operands.mapM (shape limits) >>=
        fun texts => pure (joinShapes operator texts) := by
  rw [shape]
  simp only [List.mapM_subtype, List.unattach_attach]

/-! ## Expressions that can be written -/

/-- Every number in the expression can be written. -/
def Writable (limits : Limits) (expr : Expr) : Prop :=
  ∀ value position, number value position ∈ expr.parts → ∃ text, limits.write value = .ok text

theorem Writable.of_subset {expr part : Expr} (writable : expr.Writable limits)
    (subset : part.parts ⊆ expr.parts) : part.Writable limits :=
  fun value position member => writable value position (subset member)

/-- Writing a genuine expression fails through a number in it. -/
theorem Genuine.exists_of_render_eq_error {expr : Expr} {fault : Fault} (genuine : expr.Genuine)
    (failed : expr.render limits = .error fault) :
    ∃ value position, number value position ∈ expr.parts ∧
      limits.write value = .error fault := by
  induction expr using operandInduction with
  | number value position =>
      rw [render] at failed
      exact ⟨value, position, self_mem_parts _, failed⟩
  | parameter name position =>
      rw [render] at failed
      cases failed
  | call site name arguments position ih =>
      rw [render_call] at failed
      rcases Except.of_bind_eq_error failed with unwritten | ⟨_, _, joined⟩
      · rcases exists_of_mapM_eq_error unwritten with ⟨argument, member, unwritten⟩
        have within := parts_argument_subset member site name position
        rcases ih argument member (genuine.of_subset within) unwritten with
          ⟨value, place, inside, tooLong⟩
        exact ⟨value, place, within inside, tooLong⟩
      · cases joined
  | chain operator left right position ih =>
      rw [render_binary] at failed
      rcases Except.of_bind_eq_error failed with unwritten | ⟨_, _, joined⟩
      · rcases exists_of_mapM_eq_error unwritten with ⟨operand, member, unwritten⟩
        have within := parts_operands_subset member
        rcases Except.of_bind_eq_error unwritten with unwritten | ⟨_, _, paired⟩
        · rcases ih operand member (genuine.of_subset within) unwritten with
            ⟨value, place, inside, tooLong⟩
          exact ⟨value, place, within inside, tooLong⟩
        · cases paired
      · cases joined
  | foreign kind shown => exact absurd (self_mem_parts _) (genuine kind shown)

/-- A genuine expression can be written if its numbers can. -/
theorem Genuine.exists_render {expr : Expr} (genuine : expr.Genuine)
    (writable : expr.Writable limits) : ∃ text, expr.render limits = .ok text := by
  cases written : expr.render limits with
  | ok text => exact ⟨text, rfl⟩
  | error fault =>
      rcases genuine.exists_of_render_eq_error written with ⟨value, position, inside, tooLong⟩
      rcases writable value position inside with ⟨text, short⟩
      rw [short] at tooLong
      cases tooLong

/-- A genuine expression can be drawn if its numbers can be written. -/
theorem Genuine.exists_shape {expr : Expr} (genuine : expr.Genuine)
    (writable : expr.Writable limits) : ∃ text, expr.shape limits = .ok text := by
  induction expr using operandInduction with
  | number value position =>
      rw [shape]
      exact writable value position (self_mem_parts _)
  | parameter name position =>
      rw [shape]
      exact ⟨name, rfl⟩
  | call site name arguments position ih =>
      have each : ∀ argument ∈ arguments, ∃ text, argument.shape limits = .ok text := by
        intro argument member
        have within := parts_argument_subset member site name position
        exact ih argument member (genuine.of_subset within) (writable.of_subset within)
      rcases exists_mapM_eq_ok each with ⟨texts, drawn⟩
      rw [shape_call, drawn]
      exact ⟨_, rfl⟩
  | chain operator left right position ih =>
      have each : ∀ operand ∈ (binary operator left right position).operands,
          ∃ text, operand.shape limits = .ok text := by
        intro operand member
        have within := parts_operands_subset member
        exact ih operand member (genuine.of_subset within) (writable.of_subset within)
      rcases exists_mapM_eq_ok each with ⟨texts, drawn⟩
      rw [shape_binary, drawn]
      exact ⟨_, rfl⟩
  | foreign kind shown => exact absurd (self_mem_parts _) (genuine kind shown)

/-- An expression is written alike within any limits within which its numbers are. -/
theorem render_congr {limits' : Limits} {expr : Expr}
    (same : ∀ value position, number value position ∈ expr.parts →
      limits.write value = limits'.write value) :
    expr.render limits = expr.render limits' := by
  induction expr using operandInduction with
  | number value position =>
      rw [render, render]
      exact same value position (self_mem_parts _)
  | parameter name position => rw [render, render]
  | call site name arguments position ih =>
      have each : arguments.mapM (render limits) = arguments.mapM (render limits') := by
        apply mapM_congr_of_forall
        intro argument member
        have within := parts_argument_subset member site name position
        exact ih argument member fun value place inside => same value place (within inside)
      rw [render_call, render_call, each]
  | chain operator left right position ih =>
      have each : (binary operator left right position).operands.mapM
            (fun operand => do return (operand, ← operand.render limits)) =
          (binary operator left right position).operands.mapM
            (fun operand => do return (operand, ← operand.render limits')) := by
        apply mapM_congr_of_forall
        intro operand member
        have within := parts_operands_subset member
        rw [ih operand member fun value place inside => same value place (within inside)]
      rw [render_binary, render_binary, each]
  | foreign kind shown => rw [render, render]

/-- Where all numbers can be written, the limit on them makes no difference. -/
theorem Writable.render_eq {free : Limits} {expr : Expr} (writable : expr.Writable limits)
    (unbounded : free.digits = none) : expr.render limits = expr.render free :=
  render_congr fun value position inside =>
    Limits.write_eq_of_unbounded (writable value position inside) unbounded

end Expr

end Polycalc

import Polycalc.Proofs.Expr.Standing

/-!
# Pieces of a text

Every part of an expression that stands in a text occupies a piece of the text
(`Expr.Stands.exists_span`), and its position is that of the first character of the
piece.  The calls of an expression are listed in the order of their closing
parentheses, and no two of them begin at one place (`Expr.Stands.closeInOrder`).
-/

namespace Polycalc

open Grammar

/-- A piece of a text, from the offset of its first character to the offset behind its
last one. -/
structure Span where
  first : Nat
  last : Nat

/-- The same piece so many characters further on. -/
def Span.shift (span : Span) (count : Nat) : Span :=
  ⟨span.first + count, span.last + count⟩

@[simp]
theorem Span.first_shift (span : Span) (count : Nat) :
    (span.shift count).first = span.first + count :=
  rfl

@[simp]
theorem Span.last_shift (span : Span) (count : Nat) :
    (span.shift count).last = span.last + count :=
  rfl

/-- A piece ends before another one and begins somewhere else. -/
def Span.EndsBefore (span later : Span) : Prop :=
  span.last < later.last ∧ span.first ≠ later.first

/-- `expr.Occupies place text span`: in the text, which begins at the place, the
expression is written there. -/
def Expr.Occupies (place : Position) (text : List Char) (expr : Expr) (span : Span) : Prop :=
  ∃ before own after, text = before ++ own ++ after ∧
    before.length = span.first ∧ span.first + own.length = span.last ∧
      expr.Stands (place.past before) own

/-- The calls are written in the text, each with its closing parenthesis behind those of
the calls before it, and each begins at a place of its own. -/
def CloseInOrder (place : Position) (text : List Char) (calls : List Call) : Prop :=
  ∃ spans : List Span,
    List.Forall₂ (fun call span => call.toExpr.Occupies place text span) calls spans ∧
      spans.Pairwise Span.EndsBefore

theorem Span.pairwise_shift {spans : List Span} (ordered : spans.Pairwise EndsBefore)
    (count : Nat) : (spans.map (·.shift count)).Pairwise EndsBefore := by
  rw [List.pairwise_map]
  apply ordered.imp
  intro span later
  simp only [EndsBefore, first_shift, last_shift]
  omega

variable {place : Position} {text : List Char}

namespace Expr.Occupies

variable {expr : Expr} {span : Span}

/-- A piece is not empty, and it is in the text. -/
theorem within (occupies : expr.Occupies place text span) :
    span.first < span.last ∧ span.last ≤ text.length := by
  rcases occupies with ⟨before, own, after, rfl, first, last, stands⟩
  have nonempty := List.length_pos_of_ne_nil stands.ne_nil
  simp only [List.length_append]
  omega

/-- An expression has the position of the first character of its piece. -/
theorem position_eq (occupies : expr.Occupies place text span) :
    expr.position = place.past (text.take span.first) := by
  rcases occupies with ⟨before, own, after, rfl, first, _, stands⟩
  rw [stands.position_eq, ← first, List.append_assoc, List.take_left]

/-- What is written in the rest of a text is written in the text. -/
theorem append_left {before : List Char} (occupies : expr.Occupies (place.past before) text span) :
    expr.Occupies place (before ++ text) (span.shift before.length) := by
  rcases occupies with ⟨earlier, own, after, rfl, first, last, stands⟩
  rw [← Position.past_append] at stands
  refine ⟨before ++ earlier, own, after, by simp, ?_, ?_, stands⟩
  · rw [List.length_append, first, Nat.add_comm, Span.first_shift]
  · rw [Span.first_shift, Span.last_shift, ← last, Nat.add_right_comm]

/-- So is what is written at its beginning. -/
theorem append_right (occupies : expr.Occupies place text span) (after : List Char) :
    expr.Occupies place (text ++ after) span := by
  rcases occupies with ⟨before, own, later, rfl, bounds⟩
  exact ⟨before, own, later ++ after, by simp, bounds⟩

end Expr.Occupies

/-- An expression occupies the whole of its own text. -/
theorem Expr.Stands.occupies {expr : Expr} (stands : expr.Stands place text) :
    expr.Occupies place text ⟨0, text.length⟩ :=
  ⟨[], text, [], by simp, rfl, Nat.zero_add _, stands⟩

namespace CloseInOrder

variable {calls others : List Call} {before first second : List Char}

theorem nil : CloseInOrder place text [] :=
  ⟨[], .nil, .nil⟩

/-- The pieces of calls are not empty, and they are in the text. -/
theorem spans_within {spans : List Span}
    (each : List.Forall₂ (fun call span => call.toExpr.Occupies place text span) calls spans) :
    ∀ span ∈ spans, span.first < span.last ∧ span.last ≤ text.length :=
  forall_of_forall₂ each fun _ _ _ occupies => occupies.within

theorem append_right (inOrder : CloseInOrder place text calls) (after : List Char) :
    CloseInOrder place (text ++ after) calls := by
  rcases inOrder with ⟨spans, each, ordered⟩
  exact ⟨spans, each.imp fun _ _ occupies => occupies.append_right after, ordered⟩

/-- The calls of a text close before those of the text behind it. -/
theorem append (inOrder : CloseInOrder place first calls)
    (further : CloseInOrder (place.past first) second others) :
    CloseInOrder place (first ++ second) (calls ++ others) := by
  rcases inOrder with ⟨spans, each, ordered⟩
  rcases further with ⟨later, eachLater, orderedLater⟩
  refine ⟨spans ++ later.map (·.shift first.length), ?_, ?_⟩
  · apply List.rel_append
    · exact each.imp fun _ _ occupies => occupies.append_right second
    · rw [List.forall₂_map_right_iff]
      exact eachLater.imp fun _ _ occupies => occupies.append_left
  · rw [List.pairwise_append]
    refine ⟨ordered, Span.pairwise_shift orderedLater _, ?_⟩
    intro span member shifted shiftedMember
    rcases List.mem_map.mp shiftedMember with ⟨other, otherMember, rfl⟩
    have bounds := spans_within each span member
    have boundsLater := spans_within eachLater other otherMember
    simp only [Span.EndsBefore, Span.first_shift, Span.last_shift]
    omega

theorem append_left (inOrder : CloseInOrder (place.past before) text calls) :
    CloseInOrder place (before ++ text) calls :=
  append nil inOrder

/-- The calls in the arguments of a call close before the call itself. -/
theorem enclose {inner : List Char} {call : Call}
    (inOrder : CloseInOrder (place.past before) inner calls) {after : List Char}
    (begins : before ≠ []) (ends : after ≠ [])
    (stands : call.toExpr.Stands place (before ++ inner ++ after)) :
    CloseInOrder place (before ++ inner ++ after) (calls ++ [call]) := by
  rcases inOrder with ⟨spans, each, ordered⟩
  have front := List.length_pos_of_ne_nil begins
  have back := List.length_pos_of_ne_nil ends
  refine ⟨spans.map (·.shift before.length) ++ [⟨0, (before ++ inner ++ after).length⟩], ?_, ?_⟩
  · apply List.rel_append
    · rw [List.forall₂_map_right_iff]
      exact each.imp fun _ _ occupies => occupies.append_left.append_right after
    · exact .cons stands.occupies .nil
  · rw [List.pairwise_append]
    refine ⟨Span.pairwise_shift ordered _, List.pairwise_singleton _ _, ?_⟩
    intro shifted shiftedMember whole isWhole
    rcases List.mem_map.mp shiftedMember with ⟨span, member, rfl⟩
    rw [List.mem_singleton.mp isWhole]
    have bounds := spans_within each span member
    simp only [Span.EndsBefore, Span.first_shift, Span.last_shift, List.length_append]
    omega

/-- Calls that close one after the other have different positions. -/
theorem nodup_positions (inOrder : CloseInOrder place text calls) :
    (calls.map Call.position).Nodup := by
  rcases inOrder with ⟨spans, each, ordered⟩
  have within := spans_within each
  have placed : calls.map Call.position =
      spans.map fun span => place.past (text.take span.first) := by
    clear ordered within
    induction each with
    | nil => rfl
    | cons occupies _ ih =>
        rw [List.map_cons, List.map_cons, ih]
        exact congrArg (· :: _) occupies.position_eq
  rw [placed, List.Nodup, List.pairwise_map]
  apply ordered.imp_of_mem
  intro span later member memberLater
  rintro ⟨_, apart⟩ same
  have bounds := within span member
  have boundsLater := within later memberLater
  exact apart (Position.past_take_injective place (by omega) (by omega) same)

end CloseInOrder

namespace Expr.Stands

/-- Every part of an expression occupies a piece of its text. -/
theorem exists_span {expr : Expr} (stands : expr.Stands place text) :
    ∀ part ∈ expr.parts, ∃ span, part.Occupies place text span := by
  induction stands using @Expr.Stands.rec _
    (fun place text arguments _ => ∀ argument ∈ arguments, ∀ part ∈ argument.parts,
      ∃ span, part.Occupies place text span) with
  | @number place digits numeral =>
      rw [parts_number, List.forall_mem_singleton]
      exact ⟨_, (number numeral).occupies⟩
  | parameter word =>
      rw [parts_parameter, List.forall_mem_singleton]
      exact ⟨_, (parameter word).occupies⟩
  | @call place site name given arguments callee argumentsStand ih =>
      rw [forall_mem_parts_call_iff]
      refine ⟨?_, _, (call callee argumentsStand).occupies⟩
      intro argument member part inArgument
      rcases ih argument member part inArgument with ⟨span, occupies⟩
      have regrouped : name.toList ++ '(' :: given ++ [')'] =
          name.toList ++ ['('] ++ given ++ [')'] := by simp
      rw [regrouped]
      exact ⟨_, occupies.append_left.append_right [')']⟩
  | @binary place operator first second left right leftStands rightStands loose tight ihLeft
      ihRight =>
      rw [forall_mem_parts_binary_iff]
      refine ⟨?_, ?_, _, (binary leftStands rightStands loose tight).occupies⟩
      · intro part inLeft
        rcases ihLeft part inLeft with ⟨span, occupies⟩
        exact ⟨span, occupies.append_right _⟩
      · intro part inRight
        rcases ihRight part inRight with ⟨span, occupies⟩
        rw [List.append_cons]
        exact ⟨_, occupies.append_left⟩
  | none argument member => cases member
  | one _ ih argument member part inArgument =>
      rw [List.mem_singleton.mp member] at inArgument
      exact ih part inArgument
  | @more place first second arguments last _ _ _ ih ihLast argument member part inArgument =>
      rcases List.mem_append.mp member with earlier | itself
      · rcases ih argument earlier part inArgument with ⟨span, occupies⟩
        exact ⟨span, occupies.append_right _⟩
      · rw [List.mem_singleton.mp itself] at inArgument
        rcases ihLast part inArgument with ⟨span, occupies⟩
        rw [List.append_cons]
        exact ⟨_, occupies.append_left⟩

/-- The calls of an expression are listed in the order of their closing parentheses. -/
theorem closeInOrder {expr : Expr} (stands : expr.Stands place text) :
    CloseInOrder place text expr.calls := by
  induction stands using @Expr.Stands.rec _
    (fun place text arguments _ => CloseInOrder place text (arguments.flatMap calls)) with
  | number numeral => exact .nil
  | parameter word => exact .nil
  | @call place site name given arguments callee argumentsStand ih =>
      have regrouped : name.toList ++ '(' :: given ++ [')'] =
          name.toList ++ ['('] ++ given ++ [')'] := by simp
      have stands : (Call.toExpr ⟨site, name, arguments, place⟩).Stands place
          (name.toList ++ '(' :: given ++ [')']) := .call callee argumentsStand
      rw [calls_call]
      rw [regrouped] at stands ⊢
      exact ih.enclose (by simp) (by simp) stands
  | @binary place operator first second left right leftStands rightStands loose tight ihLeft
      ihRight =>
      rw [calls_binary, List.append_cons]
      exact (ihLeft.append_right [operator.sign]).append ihRight
  | none => exact .nil
  | one stands ih =>
      rw [List.flatMap_singleton]
      exact ih
  | @more place first second arguments argument nonempty argumentsStand stands ih ihLast =>
      rw [List.flatMap_append, List.flatMap_singleton, List.append_cons]
      exact (ih.append_right [' ']).append ihLast

end Expr.Stands

end Polycalc

import Polycalc.Console
import Polycalc.Proofs.Grammar.Soundness
import Polycalc.Proofs.Program.Concatenation

/-!
# Places on the lines of a text

There are two notions of a line.  The lexer begins a new line after the end of a
statement and nowhere else, whereas the lines that are shown end at every Unicode
line boundary.  Up to a place that tokens lead to they are the same: a statement
ends with a line boundary, and no other lexeme has one in it.  So the line of such
a place begins at a place too, it is the line with that number among those that are
shown, and it goes on as the text does (`Cursor.Reaches.exists_standsOn`).
-/

namespace Polycalc

/-! ## Splitting a text into lines -/

namespace Text

variable {part rest : List Char}

theorem splitLines_cons {c : Char} (unbroken : isLineBreak c = false) (rest : List Char) :
    splitLines isLineBreak (c :: rest) = consToFirst c (splitLines isLineBreak rest) := by
  rw [splitLines, if_neg (by simp [unbroken])]
  rintro _ rfl _
  cases unbroken

/-- A part without line boundaries belongs to the first line of what follows. -/
theorem splitLines_append {line : List Char} {more : List (List Char)}
    (unbroken : ∀ c ∈ part, isLineBreak c = false)
    (split : splitLines isLineBreak rest = line :: more) :
    splitLines isLineBreak (part ++ rest) = (part ++ line) :: more := by
  induction part with
  | nil => exact split
  | cons c part ih =>
      rw [List.forall_mem_cons] at unbroken
      rw [List.cons_append, splitLines_cons unbroken.1, ih unbroken.2]
      rfl

theorem splitLines_of_unbroken (unbroken : ∀ c ∈ part, isLineBreak c = false)
    (nonempty : part ≠ []) : splitLines isLineBreak part = [part] := by
  induction part with
  | nil => exact absurd rfl nonempty
  | cons c part ih =>
      rw [List.forall_mem_cons] at unbroken
      rw [splitLines_cons unbroken.1]
      by_cases last : part = []
      · subst last
        rfl
      · rw [ih unbroken.2 last]
        rfl

theorem exists_splitLines_of_ne_nil (isBreak : Char → Bool) (nonempty : rest ≠ []) :
    ∃ line more, splitLines isBreak rest = line :: more := by
  fun_cases splitLines isBreak rest with
  | case1 => exact absurd rfl nonempty
  | case2 rest => exact ⟨[], _, rfl⟩
  | case3 c rest _ _ => exact ⟨[], _, rfl⟩
  | case4 c rest _ _ =>
      cases splitLines isBreak rest with
      | nil => exact ⟨[c], [], rfl⟩
      | cons line more => exact ⟨c :: line, more, rfl⟩

/-- The first line begins with a part without line boundaries. -/
theorem exists_splitLines_append (unbroken : ∀ c ∈ part, isLineBreak c = false)
    (nonempty : part ++ rest ≠ []) :
    ∃ line more, splitLines isLineBreak (part ++ rest) = (part ++ line) :: more := by
  by_cases last : rest = []
  · subst last
    rw [List.append_nil] at nonempty ⊢
    rw [splitLines_of_unbroken unbroken nonempty]
    exact ⟨[], [], by rw [List.append_nil]⟩
  · rcases exists_splitLines_of_ne_nil isLineBreak last with ⟨line, more, split⟩
    exact ⟨line, more, splitLines_append unbroken split⟩

end Text

/-! ## Words and lines -/

/-- No letter or digit is a line boundary. -/
theorem Text.isLineBreak_of_isAlphanum {c : Char} (word : c.isAlphanum = true) :
    isLineBreak c = false := by
  have printable : 0x20 < c.toNat ∧ c.toNat < 0x7f := by
    simp only [Char.isAlphanum, Char.isAlpha, Char.isUpper, Char.isLower, Char.isDigit,
      Bool.or_eq_true, Bool.and_eq_true, decide_eq_true_eq, UInt32.le_iff_toNat_le,
      Char.toNat_val, Char.reduceToNat] at word
    omega
  simp only [isLineBreak, Bool.or_eq_false_iff, Bool.and_eq_false_iff,
    decide_eq_false_iff_not, beq_eq_false_iff_ne]
  omega

namespace Grammar

/-- A run of letters or digits has no line boundary in it. -/
theorem IsRun.unbroken {kind : Char → Bool} {text : List Char} (run : IsRun kind text)
    (word : ∀ c, kind c = true → c.isAlphanum = true) : ∀ c ∈ text, Text.isLineBreak c = false :=
  fun c member => Text.isLineBreak_of_isAlphanum (word c (run.2 c member))

theorem IsFunctionName.unbroken {name : String} (callee : IsFunctionName name) :
    ∀ c ∈ name.toList, Text.isLineBreak c = false :=
  IsRun.unbroken callee.1 fun c capital => by simp [Char.isAlphanum, Char.isAlpha, capital]

theorem IsParameterName.unbroken {name : String} (word : IsParameterName name) :
    ∀ c ∈ name.toList, Text.isLineBreak c = false :=
  IsRun.unbroken word fun c small => by simp [Char.isAlphanum, Char.isAlpha, small]

end Grammar

/-! ## Lexemes and lines -/

namespace Lexeme

variable {lexeme : Lexeme}

/-- Only the end of a statement has a line boundary in it. -/
theorem isLineBreak_eq_false (formed : lexeme.Formed)
    (ordinary : ∀ carriageReturn, lexeme ≠ .endOfStatement carriageReturn) :
    ∀ c ∈ lexeme.text.toList, Text.isLineBreak c = false := by
  cases lexeme with
  | function name => exact Grammar.IsFunctionName.unbroken formed.1
  | parameter name => exact Grammar.IsParameterName.unbroken formed
  | number digits =>
      exact Grammar.IsRun.unbroken formed fun c digit => by simp [Char.isAlphanum, digit]
  | endOfStatement carriageReturn => exact absurd rfl (ordinary carriageReturn)
  | _ => simp [text, entryName, Text.isLineBreak]

/-- The end of a statement ends a line. -/
theorem splitLines_endOfStatement {part : List Char}
    (unbroken : ∀ c ∈ part, Text.isLineBreak c = false) (carriageReturn : Bool)
    (rest : List Char) :
    Text.splitLines Text.isLineBreak
        (part ++ ((endOfStatement carriageReturn).text.toList ++ rest)) =
      (part ++ [';']) :: Text.splitLines Text.isLineBreak rest := by
  apply Text.splitLines_append unbroken
  cases carriageReturn <;> rfl

end Lexeme

/-! ## Places on lines -/

namespace Position

theorem advance_zero (position : Position) : position.advance 0 = position := by
  rw [advance, Nat.cast_zero, Int.add_zero]

theorem advance_advance (position : Position) (first second : Nat) :
    (position.advance first).advance second = position.advance (first + second) := by
  simp only [advance, Nat.cast_add, Int.add_assoc]

/-- The first position is on an earlier line, or on the same line and further to
the left. -/
def Before (first second : Position) : Prop :=
  first.line < second.line ∨ first.line = second.line ∧ first.col < second.col

theorem Before.irrefl (position : Position) : ¬ position.Before position := by
  rintro (above | ⟨_, left⟩)
  · exact Int.lt_irrefl _ above
  · exact Int.lt_irrefl _ left

theorem Before.trans {first second third : Position} (before : first.Before second)
    (after : second.Before third) : first.Before third := by
  unfold Before at *
  omega

theorem before_advance (position : Position) {count : Nat} (positive : 0 < count) :
    position.Before (position.advance count) := by
  right
  constructor
  · rfl
  · exact Int.lt_add_of_pos_right _ (Int.natCast_pos.mpr positive)

theorem before_nextLine (position : Position) : position.Before position.nextLine :=
  Or.inl (Int.lt_succ _)

end Position

namespace Cursor

variable {text : String} {cursor here after : Cursor} {token : Token}

/-- The place `here` of the text stands on the line that begins at `line`, behind
the characters `part`; so many lines of the text are above it. -/
structure StandsOn (text : String) (line : Cursor) (above : List (List Char))
    (part : List Char) (here : Cursor) : Prop where
  begins : (Cursor.start text).Reaches line
  reaches : line.Reaches here
  lines : Text.splitLines Text.isLineBreak text.toList =
    above ++ Text.splitLines Text.isLineBreak line.rest
  unbroken : ∀ c ∈ part, Text.isLineBreak c = false
  rest : line.rest = part ++ here.rest
  ahead : text.toList.drop line.offset = line.rest
  offset : here.offset = line.offset + part.length
  linePosition : line.position = ⟨(above.length + 1 : Nat), 1⟩
  position : here.position = line.position.advance part.length

theorem standsOn_start (text : String) : StandsOn text (.start text) [] [] (.start text) where
  begins := .refl
  reaches := .refl
  lines := rfl
  unbroken := by simp
  rest := rfl
  ahead := rfl
  offset := rfl
  linePosition := rfl
  position := rfl

namespace StandsOn

variable {line : Cursor} {above : List (List Char)} {part : List Char}

/-- A token within a statement stays on the line. -/
theorem within (standsOn : StandsOn text line above part here) (more : here.rest ≠ [])
    (next : here.next = .ok (token, after))
    (ordinary : ∀ carriageReturn, token.lexeme ≠ .endOfStatement carriageReturn) :
    StandsOn text line above (part ++ token.lexeme.text.toList) after where
  begins := standsOn.begins
  reaches := standsOn.reaches.tail ⟨more, token, next⟩
  lines := standsOn.lines
  unbroken := by
    rw [List.forall_mem_append]
    exact ⟨standsOn.unbroken, Lexeme.isLineBreak_eq_false (next_sound next).1 ordinary⟩
  rest := by rw [standsOn.rest, (next_sound next).2, List.append_assoc]
  ahead := standsOn.ahead
  offset := by
    rw [offset_next next, standsOn.offset, List.length_append, String.length_toList, Nat.add_assoc]
    rfl
  linePosition := standsOn.linePosition
  position := by
    rw [position_next next, Lexeme.after_eq_advance ordinary, standsOn.position,
      Position.advance_advance, List.length_append, String.length_toList]
    rfl

/-- The end of a statement leads to the next line. -/
theorem endOfStatement (standsOn : StandsOn text line above part here) (more : here.rest ≠ [])
    {carriageReturn : Bool} {position : Position}
    (next : here.next = .ok (⟨.endOfStatement carriageReturn, position⟩, after)) :
    StandsOn text after (above ++ [part ++ [';']]) [] after where
  begins := (standsOn.begins.trans standsOn.reaches).tail ⟨more, _, next⟩
  reaches := .refl
  lines := by
    rw [standsOn.lines, standsOn.rest, (next_sound next).2,
      Lexeme.splitLines_endOfStatement standsOn.unbroken, List.append_assoc, List.singleton_append]
  unbroken := by simp
  rest := rfl
  ahead := by
    have rest := standsOn.ahead
    rw [standsOn.rest, (next_sound next).2, ← List.append_assoc] at rest
    rw [offset_next next, standsOn.offset, Nat.add_assoc, ← List.drop_drop, rest]
    apply List.drop_left'
    rw [List.length_append, String.length_toList]
    rfl
  offset := rfl
  linePosition := by
    rw [position_next next, standsOn.position, standsOn.linePosition, List.length_append]
    rfl
  position := (Position.advance_zero _).symm

theorem position_eq (standsOn : StandsOn text line above part here) :
    here.position = ⟨(above.length + 1 : Nat), (part.length + 1 : Nat)⟩ := by
  rw [standsOn.position, standsOn.linePosition, Position.advance, Int.add_comm]
  rfl

/-- What stands between the beginning of the line and the place. -/
theorem drop_take (standsOn : StandsOn text line above part here) :
    (text.toList.take here.offset).drop line.offset = part := by
  rw [List.drop_take, standsOn.ahead, standsOn.rest, standsOn.offset, Nat.add_sub_cancel_left]
  exact List.take_left

/-- The line with its number among those that are shown begins alike, if there is
anything on it. -/
theorem exists_line (standsOn : StandsOn text line above part here)
    (nonempty : part ++ here.rest ≠ []) :
    ∃ remainder, (Text.lines text)[above.length]? = some (String.ofList (part ++ remainder)) := by
  rcases Text.exists_splitLines_append standsOn.unbroken nonempty with ⟨remainder, below, split⟩
  rw [Text.lines, standsOn.lines, standsOn.rest, split]
  exact ⟨remainder, by simp⟩

end StandsOn

/-- Every place that tokens lead to stands on a line. -/
theorem Reaches.exists_standsOn (reaches : (Cursor.start text).Reaches here) :
    ∃ line above part, StandsOn text line above part here := by
  induction reaches with
  | refl => exact ⟨_, _, _, standsOn_start text⟩
  | tail _ advances ih =>
      rcases ih with ⟨line, above, part, standsOn⟩
      rcases advances with ⟨more, ⟨lexeme, position⟩, next⟩
      by_cases ordinary : ∀ carriageReturn, lexeme ≠ .endOfStatement carriageReturn
      · exact ⟨_, _, _, standsOn.within more next ordinary⟩
      · push Not at ordinary
        rcases ordinary with ⟨carriageReturn, rfl⟩
        exact ⟨_, _, _, standsOn.endOfStatement more next⟩

/-! ## Places and positions -/

theorem Advances.before (advances : cursor.Advances after) :
    cursor.position.Before after.position := by
  rcases advances with ⟨more, ⟨lexeme, position⟩, next⟩
  by_cases ordinary : ∀ carriageReturn, lexeme ≠ .endOfStatement carriageReturn
  · rw [position_next next, Lexeme.after_eq_advance ordinary]
    exact Position.before_advance _ (length_pos_of_next next more)
  · push Not at ordinary
    rcases ordinary with ⟨carriageReturn, rfl⟩
    rw [position_next next]
    exact Position.before_nextLine _

theorem Reaches.eq_or_before (reaches : cursor.Reaches here) :
    here = cursor ∨ cursor.position.Before here.position := by
  induction reaches with
  | refl => exact Or.inl rfl
  | tail _ advances ih =>
      right
      rcases ih with rfl | before
      · exact advances.before
      · exact before.trans advances.before

/-- A place is known by its position. -/
theorem Reaches.eq_of_position_eq {there : Cursor} (reaches : cursor.Reaches here)
    (reaches' : cursor.Reaches there) (same : there.position = here.position) : there = here := by
  have unique : Relator.RightUnique Advances := by
    rintro cursor after after' ⟨_, token, next⟩ ⟨_, token', next'⟩
    rw [next, Except.ok.injEq, Prod.mk.injEq] at next'
    exact next'.2
  rcases reaches.total_of_right_unique unique reaches' with later | earlier
  · rcases Reaches.eq_or_before later with equal | before
    · exact equal
    · exact absurd (same ▸ before) (Position.Before.irrefl _)
  · rcases Reaches.eq_or_before earlier with equal | before
    · exact equal.symm
    · exact absurd (same ▸ before) (Position.Before.irrefl _)

end Cursor

end Polycalc

import Polycalc.Proofs.Diagnostic.Lines

/-!
# Where tokens stand

Only the line feed at the end of a statement begins a new line, so the position of a
place is that behind the characters before it (`Cursor.Reaches.exists_past`), and the
position tells how many these are (`Position.past_take_injective`).  For the same
reason the positions of tokens are known from their lexemes
(`tokenize_placed`).
-/

namespace Polycalc

/-! ## Positions behind texts -/

namespace Position

/-- The position behind a text that begins at a position: a line feed begins a new
line. -/
def past (position : Position) (text : List Char) : Position :=
  text.foldl (fun position c => if c = '\n' then position.nextLine else position.advance 1)
    position

theorem past_append (position : Position) (text more : List Char) :
    position.past (text ++ more) = (position.past text).past more :=
  List.foldl_append

theorem past_of_unbroken (position : Position) {text : List Char}
    (unbroken : ∀ c ∈ text, c ≠ '\n') : position.past text = position.advance text.length := by
  induction text generalizing position with
  | nil => exact (advance_zero position).symm
  | cons c rest ih =>
      rw [List.forall_mem_cons] at unbroken
      have tail := ih (position.advance 1) unbroken.2
      rw [advance_advance, Nat.add_comm] at tail
      rw [List.length_cons, ← tail, past, List.foldl_cons, if_neg unbroken.1]
      rfl

theorem before_past_singleton (position : Position) (c : Char) :
    position.Before (position.past [c]) := by
  rw [past, List.foldl_cons, List.foldl_nil]
  split
  · exact before_nextLine position
  · exact before_advance position Nat.one_pos

/-- Every character leads further. -/
theorem before_past (position : Position) {text : List Char} (nonempty : text ≠ []) :
    position.Before (position.past text) := by
  induction text using List.reverseRecOn with
  | nil => exact absurd rfl nonempty
  | append_singleton text c ih =>
      rw [past_append]
      by_cases single : text = []
      · rw [single]
        exact before_past_singleton position c
      · exact (ih single).trans (before_past_singleton _ c)

theorem before_past_take (position : Position) {text : List Char} {first second : Nat}
    (within : second ≤ text.length) (shorter : first < second) :
    (position.past (text.take first)).Before (position.past (text.take second)) := by
  have split : text.take second = text.take first ++ (text.drop first).take (second - first) := by
    rw [← List.take_add, Nat.add_sub_cancel' shorter.le]
  rw [split, past_append]
  apply before_past
  rw [← List.length_pos_iff, List.length_take, List.length_drop]
  omega

/-- A position in a text tells how many characters are before it. -/
theorem past_take_injective (position : Position) {text : List Char} {first second : Nat}
    (within : first ≤ text.length) (within' : second ≤ text.length)
    (same : position.past (text.take first) = position.past (text.take second)) :
    first = second := by
  rcases Nat.lt_trichotomy first second with shorter | equal | longer
  · exact absurd (same ▸ before_past_take position within' shorter) (Before.irrefl _)
  · exact equal
  · exact absurd (same ▸ before_past_take position within longer) (Before.irrefl _)

end Position

/-- The position is that of the place behind so many characters of the text, and of
no other place. -/
def Position.HasOffset (text : String) (position : Position) (offset : Nat) : Prop :=
  offset ≤ text.toList.length ∧ ∀ other ≤ text.toList.length,
    Position.start.past (text.toList.take other) = position ↔ other = offset

/-- The position after a lexeme is that behind its text. -/
theorem Lexeme.after_eq_past {lexeme : Lexeme} (formed : lexeme.Formed) (position : Position) :
    lexeme.after position = position.past lexeme.text.toList := by
  by_cases ordinary : ∀ carriageReturn, lexeme ≠ .endOfStatement carriageReturn
  · have unbroken : ∀ c ∈ lexeme.text.toList, c ≠ '\n' := by
      rintro c member rfl
      cases isLineBreak_eq_false formed ordinary _ member
    rw [after_eq_advance ordinary, Position.past_of_unbroken position unbroken,
      String.length_toList]
    rfl
  · push Not at ordinary
    rcases ordinary with ⟨carriageReturn, rfl⟩
    cases carriageReturn <;> rfl

namespace Cursor

variable {cursor here after : Cursor} {token : Token}

/-- A place stands behind what was read on the way to it. -/
theorem Reaches.exists_past (reaches : cursor.Reaches here) :
    ∃ read, cursor.rest = read ++ here.rest ∧ here.offset = cursor.offset + read.length ∧
      here.position = cursor.position.past read := by
  induction reaches with
  | refl => exact ⟨[], rfl, rfl, rfl⟩
  | tail _ advances ih =>
      rcases ih with ⟨read, split, offset, place⟩
      rcases advances with ⟨_, token, next⟩
      rcases next_sound next with ⟨formed, spelled⟩
      refine ⟨read ++ token.lexeme.text.toList, ?_, ?_, ?_⟩
      · rw [split, spelled, List.append_assoc]
      · rw [offset_next next, offset, List.length_append, String.length_toList, Nat.add_assoc]
        rfl
      · rw [position_next next, Lexeme.after_eq_past formed, place, Position.past_append]

/-- What is read from a place on begins with the token there. -/
theorem Reaches.exists_further {final : Cursor} {read : List Char} (reaches : after.Reaches final)
    (next : cursor.next = .ok (token, after)) (split : cursor.rest = read ++ final.rest) :
    ∃ further, read = token.lexeme.text.toList ++ further ∧ after.rest = further ++ final.rest := by
  rcases reaches.exists_past with ⟨further, left, _⟩
  rw [(next_sound next).2, left, ← List.append_assoc] at split
  exact ⟨further, (List.append_cancel_right split).symm, left⟩

/-- The offset of a place is known from its position, and tells what was read. -/
theorem Reaches.exists_read {text : String} (reaches : (Cursor.start text).Reaches here) :
    ∃ read, text.toList = read ++ here.rest ∧ here.offset = read.length ∧
      here.position.HasOffset text read.length := by
  rcases reaches.exists_past with ⟨read, split, offset, place⟩
  have whole : text.toList = read ++ here.rest := split
  have within : read.length ≤ text.toList.length := by
    rw [whole, List.length_append]
    exact Nat.le_add_right _ _
  have behind : Position.start.past (text.toList.take read.length) = here.position := by
    rw [whole, List.take_left, place]
    rfl
  refine ⟨read, whole, offset.trans (Nat.zero_add _), within, ?_⟩
  intro other within'
  constructor
  · intro same
    exact Position.past_take_injective _ within' within (same.trans behind.symm)
  · rintro rfl
    exact behind

/-- The end of the input comes next only where nothing is left. -/
theorem rest_eq_nil_of_next (next : cursor.next = .ok (token, after))
    (ended : token.lexeme = .endOfInput) : cursor.rest = [] := by
  by_contra more
  have characters := length_pos_of_next next more
  rw [ended] at characters
  exact Nat.lt_irrefl 0 characters

end Cursor

/-! ## Tokens one after the other -/

/-- Lexemes that stand one after the other, the first one at a position. -/
def Token.placed (position : Position) : List Lexeme → List Token
  | [] => []
  | lexeme :: rest => ⟨lexeme, position⟩ :: placed (lexeme.after position) rest

/-- The position behind lexemes that stand one after the other. -/
def Position.pastAll (position : Position) (lexemes : List Lexeme) : Position :=
  lexemes.foldl (fun position lexeme => lexeme.after position) position

theorem Token.placed_append (position : Position) (lexemes more : List Lexeme) :
    placed position (lexemes ++ more) =
      placed position lexemes ++ placed (position.pastAll lexemes) more := by
  induction lexemes generalizing position with
  | nil => rfl
  | cons lexeme lexemes ih =>
      rw [List.cons_append, placed, placed, ih, List.cons_append]
      rfl

/-- The tokens in front of a token say where it stands. -/
theorem Token.position_of_placed {position : Position} {before : List Token} {token : Token}
    (stand : before ++ [token] = placed position ((before ++ [token]).map Token.lexeme)) :
    before = placed position (before.map Token.lexeme) ∧
      token.position = position.pastAll (before.map Token.lexeme) := by
  rw [List.map_append, placed_append] at stand
  rcases List.append_inj' stand rfl with ⟨same, last⟩
  rw [List.map_singleton, placed, placed, List.singleton_inj] at last
  exact ⟨same, congrArg Token.position last⟩

/-- The tokens of a text are its lexemes, one after the other. -/
theorem Cursor.scanAll_placed (cursor : Cursor) :
    cursor.scanAll.tokens =
        Token.placed cursor.position (cursor.scanAll.tokens.map Token.lexeme) ∧
      cursor.scanAll.stop.position =
        cursor.position.pastAll (cursor.scanAll.tokens.map Token.lexeme) := by
  induction remaining : cursor.rest.length using Nat.strongRecOn generalizing cursor with
  | ind remaining ih =>
      subst remaining
      by_cases more : cursor.rest = []
      · rw [scanAll_of_rest_eq_nil more]
        exact ⟨rfl, rfl⟩
      · cases next : cursor.next with
        | error error =>
            rw [scanAll_of_next_eq_error more next]
            exact ⟨rfl, rfl⟩
        | ok read =>
            rcases read with ⟨⟨lexeme, position⟩, after⟩
            rcases ih _ (length_rest_next_lt next more) after rfl with ⟨tokens, stop⟩
            rw [position_next next] at tokens stop
            rw [scanAll_of_next_eq_ok more next, List.map_cons]
            constructor
            · rw [Token.placed, ← tokens, ← token_position_of_next next]
            · exact stop

/-- A scan stops at the end of the text or where no lexeme begins. -/
theorem Cursor.scanAll_stop (cursor : Cursor) :
    cursor.scanAll.stop.rest = [] ∨ ∃ error, cursor.scanAll.stop.next = .error error := by
  induction remaining : cursor.rest.length using Nat.strongRecOn generalizing cursor with
  | ind remaining ih =>
      subst remaining
      by_cases more : cursor.rest = []
      · rw [scanAll_of_rest_eq_nil more]
        exact Or.inl more
      · cases next : cursor.next with
        | error error =>
            rw [scanAll_of_next_eq_error more next]
            exact Or.inr ⟨error, next⟩
        | ok read =>
            rw [scanAll_of_next_eq_ok more next]
            exact ih _ (length_rest_next_lt next more) read.2 rfl

/-- The tokens of a text end with the end of the input. -/
theorem tokenize_eq_ok_iff {text : String} {tokens : List Token} :
    tokenize text = .ok tokens ↔
      (Cursor.start text).scanAll.stop.rest = [] ∧
        tokens = (Cursor.start text).scanAll.tokens ++
          [⟨.endOfInput, (Cursor.start text).scanAll.stop.position⟩] := by
  have ending : tokenize text = (Cursor.start text).scanAll.stop.next.map Prod.fst >>= fun last =>
      .ok ((Cursor.start text).scanAll.tokens ++ [last]) := rfl
  rw [ending]
  rcases (Cursor.start text).scanAll_stop with atEnd | ⟨error, next⟩
  · rw [Cursor.next_of_rest_eq_nil atEnd]
    constructor
    · rintro ⟨⟩
      exact ⟨atEnd, rfl⟩
    · rintro ⟨_, rfl⟩
      rfl
  · rw [next]
    constructor
    · rintro ⟨⟩
    · rintro ⟨atEnd, _⟩
      rw [Cursor.next_of_rest_eq_nil atEnd] at next
      cases next

/-- All tokens of a text, the end of the input included, stand one after the
other. -/
theorem tokenize_placed {text : String} {tokens : List Token}
    (tokenized : tokenize text = .ok tokens) :
    tokens = Token.placed .start (tokens.map Token.lexeme) := by
  rcases tokenize_eq_ok_iff.mp tokenized with ⟨_, rfl⟩
  rcases (Cursor.start text).scanAll_placed with ⟨placed, stop⟩
  rw [List.map_append, Token.placed_append, stop, List.map_singleton]
  exact congrArg (· ++ _) placed

end Polycalc

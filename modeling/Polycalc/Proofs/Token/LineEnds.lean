import Polycalc.Text.Lines
import Polycalc.Token.Lexer

/-!
# Line ends of statements

A statement ends with a semicolon and a line feed, and a carriage return may stand
between the two.  Texts that differ in such carriage returns alone have the same lines
(`LineEnds.splitLines_eq`), and their tokens are the same at the same positions, except
that the end of a statement is spelled in two ways (`Cursor.LineEnds.next`).
-/

namespace Polycalc

/-- The second text is the first one with a carriage return before the line feed of
some of its statements. -/
inductive LineEnds : List Char → List Char → Prop
  | nil : LineEnds [] []
  | keep (c : Char) {text text' : List Char} (rest : LineEnds text text') :
      LineEnds (c :: text) (c :: text')
  | widen {text text' : List Char} (rest : LineEnds text text') :
      LineEnds (';' :: '\n' :: text) (';' :: '\r' :: '\n' :: text')

namespace LineEnds

variable {text text' : List Char}

theorem append (part : List Char) (ends : LineEnds text text') :
    LineEnds (part ++ text) (part ++ text') := by
  induction part with
  | nil => exact ends
  | cons c part ih => exact .keep c ih

theorem eq_nil_iff (ends : LineEnds text text') : text' = [] ↔ text = [] := by
  cases ends <;> simp

/-- Only a semicolon can be followed by something else. -/
theorem exists_of_cons {c : Char} (ends : LineEnds (c :: text) text') (ordinary : c ≠ ';') :
    ∃ rest, text' = c :: rest ∧ LineEnds text rest := by
  cases ends with
  | keep _ rest => exact ⟨_, rfl, rest⟩
  | widen _ => exact absurd rfl ordinary

theorem exists_of_cons_right {c : Char} (ends : LineEnds text' (c :: text)) (ordinary : c ≠ ';') :
    ∃ rest, text' = c :: rest ∧ LineEnds rest text := by
  cases ends with
  | keep _ rest => exact ⟨_, rfl, rest⟩
  | widen _ => exact absurd rfl ordinary

/-! ## Lines -/

/-- The lines are the same: a carriage return and a line feed end one line. -/
theorem splitLines_eq (ends : LineEnds text text') :
    Text.splitLines Text.isLineBreak text' = Text.splitLines Text.isLineBreak text := by
  induction ends with
  | nil => rfl
  | @keep c text text' rest ih =>
      by_cases pair : c = '\r' ∧ ∃ more, text = '\n' :: more
      · rcases pair with ⟨rfl, more, rfl⟩
        rcases rest.exists_of_cons (by decide) with ⟨more', rfl, _⟩
        have feed : ∀ more, Text.splitLines Text.isLineBreak ('\n' :: more) =
            Text.splitLines Text.isLineBreak ('\r' :: '\n' :: more) :=
          fun _ => rfl
        rw [← feed, ← feed, ih]
      · have alone : ∀ more, c = '\r' → text = '\n' :: more → False :=
          fun more isReturn isFeed => pair ⟨isReturn, more, isFeed⟩
        have alone' : ∀ more, c = '\r' → text' = '\n' :: more → False := by
          rintro more isReturn rfl
          rcases rest.exists_of_cons_right (by decide) with ⟨more', rfl, _⟩
          exact alone more' isReturn rfl
        rw [Text.splitLines, Text.splitLines, ih]
        · exact alone
        · exact alone'
  | @widen text text' rest ih =>
      calc
        Text.splitLines Text.isLineBreak (';' :: '\r' :: '\n' :: text')
        _ = [';'] :: Text.splitLines Text.isLineBreak text' := rfl
        _ = [';'] :: Text.splitLines Text.isLineBreak text := by rw [ih]
        _ = Text.splitLines Text.isLineBreak (';' :: '\n' :: text) := rfl

/-! ## Lexemes -/

/-- A run of letters or digits goes as far, and what follows differs in the same
way. -/
theorem run {kind : Char → Bool} (ends : LineEnds text text') (apart : kind ';' = false) :
    text'.takeWhile kind = text.takeWhile kind ∧
      LineEnds (text.dropWhile kind) (text'.dropWhile kind) := by
  induction ends with
  | nil => exact ⟨rfl, .nil⟩
  | @keep c text text' rest ih =>
      by_cases inside : kind c = true
      · rw [List.takeWhile_cons_of_pos inside, List.takeWhile_cons_of_pos inside,
          List.dropWhile_cons_of_pos inside, List.dropWhile_cons_of_pos inside, ih.1]
        exact ⟨rfl, ih.2⟩
      · rw [List.takeWhile_cons_of_neg inside, List.takeWhile_cons_of_neg inside,
          List.dropWhile_cons_of_neg inside, List.dropWhile_cons_of_neg inside]
        exact ⟨rfl, .keep c rest⟩
  | widen rest _ =>
      have outside : ¬ kind ';' = true := by simp [apart]
      rw [List.takeWhile_cons_of_neg outside, List.takeWhile_cons_of_neg outside,
        List.dropWhile_cons_of_neg outside, List.dropWhile_cons_of_neg outside]
      exact ⟨rfl, .widen rest⟩

end LineEnds

/-- The lexemes are the same, or both end a statement. -/
inductive Lexeme.SameButLineEnd : Lexeme → Lexeme → Prop
  | same (lexeme : Lexeme) : SameButLineEnd lexeme lexeme
  | endOfStatement (carriageReturn carriageReturn' : Bool) :
      SameButLineEnd (.endOfStatement carriageReturn) (.endOfStatement carriageReturn')

namespace LineEnds

variable {text text' : List Char}

/-- Behind a semicolon there is a line end in both texts or in neither. -/
theorem scanLineEnd? (ends : LineEnds text text') :
    Lexeme.scanLineEnd? text = none ∧ Lexeme.scanLineEnd? text' = none ∨
      ∃ lexeme rest rest', Lexeme.scanLineEnd? text = some (lexeme, rest) ∧
        Lexeme.scanLineEnd? text' = some (lexeme, rest') ∧ LineEnds rest rest' := by
  fun_cases Lexeme.scanLineEnd? text with
  | case1 rest =>
      rcases ends.exists_of_cons (by decide) with ⟨rest', rfl, same⟩
      exact Or.inr ⟨_, _, _, rfl, rfl, same⟩
  | case2 rest =>
      rcases ends.exists_of_cons (by decide) with ⟨_, rfl, behind⟩
      rcases behind.exists_of_cons (by decide) with ⟨rest', rfl, same⟩
      exact Or.inr ⟨_, _, _, rfl, rfl, same⟩
  | case3 _ noFeed noPair =>
      left
      fun_cases Lexeme.scanLineEnd? text' with
      | case1 rest =>
          rcases ends.exists_of_cons_right (by decide) with ⟨rest', rfl, _⟩
          exact (noFeed rest' rfl).elim
      | case2 rest =>
          rcases ends.exists_of_cons_right (by decide) with ⟨_, rfl, behind⟩
          rcases behind.exists_of_cons_right (by decide) with ⟨rest', rfl, _⟩
          exact (noPair rest' rfl).elim
      | case3 => exact ⟨rfl, rfl⟩

/-- Both texts begin with no lexeme, for the same reason, or they begin with the same
lexeme or with the end of a statement. -/
theorem scan (ends : LineEnds text text') :
    (∃ cause, Lexeme.scan text = .error cause ∧ Lexeme.scan text' = .error cause) ∨
      ∃ lexeme lexeme' rest rest', Lexeme.scan text = .ok (lexeme, rest) ∧
        Lexeme.scan text' = .ok (lexeme', rest') ∧ lexeme.SameButLineEnd lexeme' ∧
          LineEnds rest rest' := by
  cases ends with
  | nil => exact Or.inr ⟨_, _, _, _, rfl, rfl, .same _, .nil⟩
  | widen rest => exact Or.inr ⟨_, _, _, _, rfl, rfl, .endOfStatement _ _, rest⟩
  | @keep c text text' rest =>
      unfold Lexeme.scan
      dsimp only
      split
      · rcases rest.scanLineEnd? with ⟨none, none'⟩ | ⟨lexeme, after, after', found, found', same⟩
        · rw [none, none']
          exact Or.inl ⟨_, rfl, rfl⟩
        · rw [found, found']
          exact Or.inr ⟨_, _, _, _, rfl, rfl, .same _, same⟩
      · split
        · exact Or.inr ⟨_, _, _, _, rfl, rfl, .same _, rest⟩
        · have runs : ∀ (kind : Char → Bool) (make : String → Lexeme), kind ';' = false →
              ∃ lexeme lexeme' after after',
                Except.ok (Lexeme.scanRun kind make (c :: text)) =
                    (.ok (lexeme, after) : Except LexError.Cause (Lexeme × List Char)) ∧
                  Except.ok (Lexeme.scanRun kind make (c :: text')) =
                    (.ok (lexeme', after') : Except LexError.Cause (Lexeme × List Char)) ∧
                  lexeme.SameButLineEnd lexeme' ∧ LineEnds after after' := by
            intro kind make apart
            rcases (LineEnds.keep c rest).run apart with ⟨word, after⟩
            rw [Lexeme.scanRun, Lexeme.scanRun, word]
            exact ⟨_, _, _, _, rfl, rfl, .same _, after⟩
          split
          · exact Or.inr (runs Char.isUpper Lexeme.ofCapitals rfl)
          · split
            · exact Or.inr (runs Char.isLower .parameter rfl)
            · split
              · exact Or.inr (runs Char.isDigit .number rfl)
              · exact Or.inl ⟨_, rfl, rfl⟩

end LineEnds

/-! ## Tokens -/

/-- The tokens are the same, or both end a statement at the same position. -/
inductive Token.SameButLineEnd : Token → Token → Prop
  | same (token : Token) : SameButLineEnd token token
  | endOfStatement (carriageReturn carriageReturn' : Bool) (position : Position) :
      SameButLineEnd ⟨.endOfStatement carriageReturn, position⟩
        ⟨.endOfStatement carriageReturn', position⟩

/-- The cursors stand at the same position before texts that differ in line ends. -/
structure Cursor.LineEnds (cursor cursor' : Cursor) : Prop where
  rest : Polycalc.LineEnds cursor.rest cursor'.rest
  position : cursor'.position = cursor.position

theorem Cursor.LineEnds.next {cursor cursor' : Cursor} (ends : cursor.LineEnds cursor') :
    (∃ error, cursor.next = .error error ∧ cursor'.next = .error error) ∨
      ∃ token token' after after', cursor.next = .ok (token, after) ∧
        cursor'.next = .ok (token', after') ∧ token.SameButLineEnd token' ∧
          after.LineEnds after' := by
  rcases ends with ⟨rest, position⟩
  unfold Cursor.next
  rw [position]
  rcases rest.scan with ⟨cause, scanned, scanned'⟩ |
    ⟨lexeme, lexeme', remaining, remaining', scanned, scanned', same, ends⟩
  · rw [scanned, scanned']
    exact Or.inl ⟨_, rfl, rfl⟩
  · right
    rw [scanned, scanned']
    cases same with
    | same => exact ⟨_, _, _, _, rfl, rfl, .same _, ends, rfl⟩
    | endOfStatement => exact ⟨_, _, _, _, rfl, rfl, .endOfStatement _ _ _, ends, rfl⟩

end Polycalc

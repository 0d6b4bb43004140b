import Polycalc.Proofs.Token.Offsets

/-!
# Where a text is no sequence of lexemes

A text consists of lexemes if its characters are those of the language, every
semicolon has a line end right behind it, and every line feed and carriage
return belongs to such an end of a statement.  A character at which this is
violated *offends* (`Offends`).

What the lexer has read never offends, and no end of a statement goes on behind
it (`Cursor.Reaches.settled`).  Where no lexeme begins, the next character offends
(`Cursor.offends_of_next_eq_error`): it is the first one.
-/

namespace Polycalc

/-! ## Characters that offend -/

/-- A character that is part of a lexeme on one line. -/
def IsOrdinary (c : Char) : Prop :=
  c.isUpper ∨ c.isLower ∨ c.isDigit ∨ c ∈ ['+', '*', '(', ')', '\x7b', '\x7d', ' ']

/-- A statement ends at this offset, with these characters. -/
def StatementEndsAt (text : List Char) (start : Nat) (characters : List Char) : Prop :=
  (characters = [';', '\n'] ∨ characters = [';', '\r', '\n']) ∧ characters <+: text.drop start

/-- The character at this offset belongs to the end of a statement. -/
def BelongsToEnd (text : List Char) (offset : Nat) : Prop :=
  ∃ start characters, StatementEndsAt text start characters ∧ start ≤ offset ∧
    offset < start + characters.length

/-- The character at this offset is not of the language, or it is a semicolon
without a line end right behind it, or it is a line feed or carriage return that
belongs to no end of a statement. -/
def Offends (text : List Char) (offset : Nat) : Prop :=
  ∃ c, text[offset]? = some c ∧
    (¬ (IsOrdinary c ∨ c ∈ [';', '\r', '\n']) ∨
      (c = ';' ∧ ∀ characters, ¬ StatementEndsAt text offset characters) ∨
      ((c = '\n' ∨ c = '\r') ∧ ¬ BelongsToEnd text offset))

theorem IsOrdinary.notMem {c : Char} (ordinary : IsOrdinary c) : c ∉ [';', '\r', '\n'] := by
  intro special
  simp only [List.mem_cons, List.not_mem_nil, or_false] at special
  rcases special with rfl | rfl | rfl
  all_goals
    revert ordinary
    unfold IsOrdinary
    decide

/-- An ordinary character does not offend. -/
theorem not_offends_of_isOrdinary {text : List Char} {offset : Nat} {c : Char}
    (here : text[offset]? = some c) (ordinary : IsOrdinary c) : ¬ Offends text offset := by
  rintro ⟨other, there, offence⟩
  rw [here, Option.some.injEq] at there
  subst there
  have different := ordinary.notMem
  simp only [List.mem_cons, List.not_mem_nil, or_false, not_or] at different
  rcases offence with foreign | ⟨semicolon, _⟩ | ⟨lineFeed | carriageReturn, _⟩
  · exact foreign (Or.inl ordinary)
  · exact different.1 semicolon
  · exact different.2.2 lineFeed
  · exact different.2.1 carriageReturn

namespace StatementEndsAt

variable {text characters other : List Char} {start : Nat}

theorem semicolon (ends : StatementEndsAt text start characters) : text[start]? = some ';' := by
  rcases ends with ⟨rfl | rfl, rest, split⟩
  all_goals
    rw [← List.head?_drop, ← split]
    rfl

theorem unique (ends : StatementEndsAt text start characters)
    (ends' : StatementEndsAt text start other) : characters = other := by
  rcases ends with ⟨rfl | rfl, rest, split⟩
  all_goals
    rcases ends' with ⟨rfl | rfl, rest', split'⟩
    all_goals
      first
        | rfl
        | (rw [← split] at split'; cases split')

end StatementEndsAt

/-! ## Lexemes do not offend -/

namespace Lexeme

theorem isOrdinary_of_formed {lexeme : Lexeme} (formed : lexeme.Formed)
    (ordinary : ∀ carriageReturn, lexeme ≠ .endOfStatement carriageReturn) :
    ∀ c ∈ lexeme.text.toList, IsOrdinary c := by
  intro c member
  cases lexeme with
  | function name => exact Or.inl (formed.1.1.2 c member)
  | parameter name => exact Or.inr (Or.inl (formed.2 c member))
  | number digits => exact Or.inr (Or.inr (Or.inl (formed.2 c member)))
  | endOfStatement carriageReturn => exact absurd rfl (ordinary carriageReturn)
  | define =>
      have isRun : Grammar.IsRun Char.isUpper "DEF".toList := by simp [Grammar.IsRun]
      exact Or.inl (isRun.2 c member)
  | entry =>
      have isRun : Grammar.IsRun Char.isUpper entryName.toList := by
        simp [Grammar.IsRun, entryName]
      exact Or.inl (isRun.2 c member)
  | endOfInput => cases member
  | _ =>
      simp [text] at member
      subst member
      exact Or.inr (Or.inr (Or.inr (by decide)))

/-- The end of a statement begins with its only semicolon. -/
theorem text_endOfStatement (carriageReturn : Bool) :
    ∃ rest, (endOfStatement carriageReturn).text.toList = ';' :: rest ∧
      (∀ c ∈ rest, c = '\r' ∨ c = '\n') ∧
      (';' :: rest = [';', '\n'] ∨ ';' :: rest = [';', '\r', '\n']) := by
  cases carriageReturn with
  | false => exact ⟨['\n'], rfl, by simp, Or.inl rfl⟩
  | true => exact ⟨['\r', '\n'], rfl, by simp, Or.inr rfl⟩

/-- Why no lexeme begins: the first character is a semicolon without a line end
behind it, or none that a lexeme begins with. -/
theorem of_scan_eq_error {text : List Char} {cause : LexError.Cause}
    (failed : scan text = .error cause) :
    ∃ c rest, text = c :: rest ∧ ¬ IsOrdinary c ∧
      (c = ';' → ∀ characters, ¬ StatementEndsAt text 0 characters) := by
  cases text with
  | nil => cases failed
  | cons c rest =>
      refine ⟨c, rest, rfl, ?_⟩
      unfold scan at failed
      simp only at failed
      split at failed
      · subst_vars
        split at failed
        · cases failed
        · rename_i unended
          constructor
          · intro ordinary
            exact ordinary.notMem (by simp)
          · rintro _ characters ⟨rfl | rfl, tail, split⟩
            · cases split
              cases unended
            · cases split
              cases unended
      · rename_i different
        refine ⟨?_, fun same => absurd same different⟩
        split at failed
        · cases failed
        · rename_i noSymbol
          split at failed
          · cases failed
          · rename_i noCapital
            split at failed
            · cases failed
            · rename_i noSmall
              split at failed
              · cases failed
              · rename_i noDigit
                rintro (upper | lower | digit | symbol)
                · exact noCapital upper
                · exact noSmall lower
                · exact noDigit digit
                · simp only [List.mem_cons, List.not_mem_nil, or_false] at symbol
                  rcases symbol with rfl | rfl | rfl | rfl | rfl | rfl | rfl
                  all_goals cases noSymbol

end Lexeme

/-- What was read of a text does not offend, and no end of a statement that
begins in it goes on behind it. -/
structure Settled (text read : List Char) : Prop where
  lawful : ∀ offset < read.length, ¬ Offends text offset
  whole : ∀ start characters, StatementEndsAt text start characters → start < read.length →
    start + characters.length ≤ read.length

namespace Settled

variable {text read back : List Char} {lexeme : Lexeme}

theorem start (text : List Char) : Settled text [] where
  lawful := fun _ within => absurd within (Nat.not_lt_zero _)
  whole := fun _ _ _ within => absurd within (Nat.not_lt_zero _)

/-- A character of what is read next. -/
theorem getElem?_middle {middle : List Char} (split : text = read ++ (middle ++ back))
    {offset : Nat} (behind : read.length ≤ offset)
    (within : offset < (read ++ middle).length) :
    text[offset]? = middle[offset - read.length]? := by
  rw [List.length_append] at within
  rw [split, List.getElem?_append_right behind, List.getElem?_append_left (by omega)]

/-- A lexeme that is no end of a statement. -/
theorem ordinary (settled : Settled text read)
    (split : text = read ++ (lexeme.text.toList ++ back))
    (all : ∀ c ∈ lexeme.text.toList, IsOrdinary c) :
    Settled text (read ++ lexeme.text.toList) where
  lawful := by
    intro offset within
    by_cases before : offset < read.length
    · exact settled.lawful offset before
    · rintro ⟨c, here, offence⟩
      have inLexeme := here
      rw [getElem?_middle split (by omega) within] at inLexeme
      exact not_offends_of_isOrdinary here (all c (List.mem_of_getElem? inLexeme))
        ⟨c, here, offence⟩
  whole := by
    intro start characters ends within
    by_cases before : start < read.length
    · have := settled.whole start characters ends before
      rw [List.length_append]
      omega
    · have inLexeme := ends.semicolon
      rw [getElem?_middle split (by omega) within] at inLexeme
      exact absurd (by simp) (all ';' (List.mem_of_getElem? inLexeme)).notMem

/-- The end of a statement. -/
theorem endOfStatement (settled : Settled text read) {carriageReturn : Bool}
    (split : text = read ++ ((Lexeme.endOfStatement carriageReturn).text.toList ++ back)) :
    Settled text (read ++ (Lexeme.endOfStatement carriageReturn).text.toList) := by
  rcases Lexeme.text_endOfStatement carriageReturn with ⟨rest, spelled, noSemicolon, whole⟩
  rw [spelled] at split ⊢
  have ends : StatementEndsAt text read.length (';' :: rest) := by
    refine ⟨whole, ?_⟩
    rw [split, List.drop_left]
    exact List.prefix_append _ _
  -- a semicolon in the lexeme is its first character
  have onlyFirst : ∀ offset, read.length ≤ offset → offset < (read ++ ';' :: rest).length →
      text[offset]? = some ';' → offset = read.length := by
    intro offset behind within semicolon
    rw [getElem?_middle split behind within] at semicolon
    cases distance : offset - read.length with
    | zero => omega
    | succ further =>
        rw [distance, List.getElem?_cons_succ] at semicolon
        rcases noSemicolon _ (List.mem_of_getElem? semicolon) with same | same
        all_goals cases same
  constructor
  · intro offset within
    by_cases before : offset < read.length
    · exact settled.lawful offset before
    · rintro ⟨c, here, foreign | ⟨rfl, unended⟩ | ⟨_, stray⟩⟩
      · have inLexeme := here
        rw [getElem?_middle split (by omega) within] at inLexeme
        rcases List.mem_cons.mp (List.mem_of_getElem? inLexeme) with rfl | inRest
        · exact foreign (by simp)
        · rcases noSemicolon c inRest with rfl | rfl
          all_goals exact foreign (by simp)
      · rw [onlyFirst offset (by omega) within here] at unended
        exact unended _ ends
      · rw [List.length_append] at within
        exact stray ⟨read.length, _, ends, by omega, within⟩
  · intro start characters other within
    by_cases before : start < read.length
    · have := settled.whole start characters other before
      rw [List.length_append]
      omega
    · have first := onlyFirst start (by omega) within other.semicolon
      subst first
      rw [other.unique ends, List.length_append]

/-- What is read next begins with a lexeme. -/
theorem append (settled : Settled text read) (formed : lexeme.Formed)
    (split : text = read ++ (lexeme.text.toList ++ back)) :
    Settled text (read ++ lexeme.text.toList) := by
  by_cases plain : ∀ carriageReturn, lexeme ≠ .endOfStatement carriageReturn
  · exact settled.ordinary split (Lexeme.isOrdinary_of_formed formed plain)
  · push Not at plain
    rcases plain with ⟨carriageReturn, rfl⟩
    exact settled.endOfStatement split

/-- Where no lexeme begins, the next character offends. -/
theorem offends (settled : Settled text read) {rest : List Char} (split : text = read ++ rest)
    {cause : LexError.Cause} (failed : Lexeme.scan rest = .error cause) :
    Offends text read.length := by
  rcases Lexeme.of_scan_eq_error failed with ⟨c, tail, rfl, strange, unended⟩
  have here : text[read.length]? = some c := by
    rw [split, List.getElem?_append_right (Nat.le_refl _), Nat.sub_self]
    rfl
  refine ⟨c, here, ?_⟩
  by_cases semicolon : c = ';'
  · refine Or.inr (Or.inl ⟨semicolon, ?_⟩)
    rintro characters ⟨form, begins⟩
    rw [split, List.drop_left] at begins
    exact unended semicolon characters ⟨form, begins⟩
  · by_cases lineEnd : c = '\n' ∨ c = '\r'
    · refine Or.inr (Or.inr ⟨lineEnd, ?_⟩)
      rintro ⟨start, characters, ends, before, within⟩
      rcases Nat.lt_or_eq_of_le before with earlier | rfl
      · have := settled.whole start characters ends earlier
        omega
      · have first := ends.semicolon
        rw [here, Option.some.injEq] at first
        exact semicolon first
    · refine Or.inl ?_
      simp only [List.mem_cons, List.not_mem_nil, or_false]
      rintro (ordinary | semicolon' | carriageReturn | lineFeed)
      · exact strange ordinary
      · exact semicolon semicolon'
      · exact lineEnd (Or.inr carriageReturn)
      · exact lineEnd (Or.inl lineFeed)

end Settled

namespace Cursor

/-- What the lexer has read is settled. -/
theorem Reaches.settled {text : String} {here : Cursor}
    (reaches : (Cursor.start text).Reaches here) :
    ∃ read, text.toList = read ++ here.rest ∧ here.offset = read.length ∧
      Settled text.toList read := by
  induction reaches with
  | refl => exact ⟨[], rfl, rfl, .start _⟩
  | tail _ advances ih =>
      rcases ih with ⟨read, split, offset, settled⟩
      rcases advances with ⟨_, token, next⟩
      rcases next_sound next with ⟨formed, spelled⟩
      rw [spelled] at split
      refine ⟨_, by rw [split, List.append_assoc], ?_, settled.append formed split⟩
      rw [offset_next next, offset, List.length_append, String.length_toList]
      rfl

end Cursor

end Polycalc

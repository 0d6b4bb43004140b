import Polycalc.Proofs.Grammar.Rules
import Polycalc.Token.Lexer
import Mathlib

/-!
# Lexemes in the text

The scanner takes the longest run of letters or digits, and the grammar knows
nothing of that.  `Lexeme.scan_sound` says that what was scanned stood at the
beginning of the text and does not go on after it; `Lexeme.scan_of_endsAt` says
that a lexeme at the beginning of a text that does not go on is what is scanned.
Between the tokens of a program more is known: there is no letter or digit after a
word (`Lexeme.scan_complete`).
-/

namespace Polycalc

open Grammar

namespace Lexeme

/-- The letters and digits of a lexeme are of the right kind. -/
def Formed : Lexeme → Prop
  | function name => IsFunctionName name ∧ name ≠ entryName
  | parameter name => IsParameterName name
  | number digits => IsRun Char.isDigit digits.toList
  | _ => True

/-- A lexeme that is a run of letters or digits. -/
def IsWord : Lexeme → Prop
  | define | entry | function _ | parameter _ | number _ => True
  | _ => False

/-- The lexeme does not go on in the text after it. -/
def EndsAt (rest : List Char) : Lexeme → Prop
  | define | entry | function _ => ∀ c ∈ rest.head?, c.isUpper = false
  | parameter _ => ∀ c ∈ rest.head?, c.isLower = false
  | number _ => ∀ c ∈ rest.head?, c.isDigit = false
  | _ => True

/-- Only the first character of the text after a lexeme matters. -/
theorem EndsAt.of_head? {lexeme : Lexeme} {rest other : List Char} (ends : lexeme.EndsAt rest)
    (same : other.head? = rest.head?) : lexeme.EndsAt other := by
  unfold EndsAt at *
  rwa [same]

end Lexeme

/-- The text does not begin with a letter or digit. -/
def Apart (text : List Char) : Prop :=
  ∀ c ∈ text.head?, c.isUpper = false ∧ c.isLower = false ∧ c.isDigit = false

/-- No lexeme goes on there. -/
theorem Lexeme.endsAt_of_apart {lexeme : Lexeme} {rest : List Char}
    (apart : lexeme.IsWord → Apart rest) : lexeme.EndsAt rest := by
  cases lexeme with
  | define => exact fun c member => (apart trivial c member).1
  | entry => exact fun c member => (apart trivial c member).1
  | function name => exact fun c member => (apart trivial c member).1
  | parameter name => exact fun c member => (apart trivial c member).2.1
  | number digits => exact fun c member => (apart trivial c member).2.2
  | _ => trivial

/-! ## Soundness -/

theorem isRun_takeWhile {kind : Char → Bool} {c : Char} (holds : kind c = true)
    (rest : List Char) : IsRun kind ((c :: rest).takeWhile kind) := by
  constructor
  · simp [holds]
  · intro other member
    exact List.mem_takeWhile_imp member

/-- A run that was taken as long as it goes on does not go on. -/
theorem head?_dropWhile_eq_false {kind : Char → Bool} {text : List Char} :
    ∀ c ∈ (text.dropWhile kind).head?, kind c = false := by
  intro c member
  have stopped := List.head?_dropWhile_not kind text
  rw [member] at stopped
  exact stopped

namespace Lexeme

theorem formed_ofCapitals {word : List Char} (isRun : IsRun Char.isUpper word) :
    (ofCapitals (String.ofList word)).Formed ∧
      (ofCapitals (String.ofList word)).text = String.ofList word := by
  unfold ofCapitals
  split
  · rename_i isDefine
    exact ⟨trivial, isDefine.symm⟩
  · split
    · rename_i isEntry
      exact ⟨trivial, isEntry.symm⟩
    · refine ⟨⟨⟨?_, ‹_›⟩, ‹_›⟩, rfl⟩
      rwa [String.toList_ofList]

theorem endsAt_ofCapitals {word : String} {rest : List Char}
    (ends : ∀ c ∈ rest.head?, c.isUpper = false) : (ofCapitals word).EndsAt rest := by
  unfold ofCapitals
  split
  · exact ends
  · split
    · exact ends
    · exact ends

theorem scanLineEnd?_sound {text rest : List Char} {lexeme : Lexeme}
    (scanned : scanLineEnd? text = some (lexeme, rest)) :
    lexeme.Formed ∧ ';' :: text = lexeme.text.toList ++ rest := by
  unfold scanLineEnd? at scanned
  split at scanned
  · cases scanned
    exact ⟨trivial, rfl⟩
  · cases scanned
    exact ⟨trivial, rfl⟩
  · cases scanned

theorem ofSymbol?_sound {c : Char} {lexeme : Lexeme} (isSymbol : ofSymbol? c = some lexeme) :
    lexeme.Formed ∧ lexeme.text.toList = [c] := by
  unfold ofSymbol? at isSymbol
  split at isSymbol
  all_goals
    cases isSymbol
    try exact ⟨trivial, rfl⟩

/-- What was scanned stood at the beginning of the text. -/
theorem scan_sound {text rest : List Char} {lexeme : Lexeme}
    (scanned : scan text = .ok (lexeme, rest)) :
    lexeme.Formed ∧ text = lexeme.text.toList ++ rest := by
  cases text with
  | nil =>
      cases scanned
      exact ⟨trivial, rfl⟩
  | cons c tail =>
      unfold scan at scanned
      simp only at scanned
      split at scanned
      · subst_vars
        split at scanned
        · rename_i found
          cases scanned
          exact scanLineEnd?_sound found
        · cases scanned
      · split at scanned
        · rename_i isSymbol
          cases scanned
          rcases ofSymbol?_sound isSymbol with ⟨formed, spelled⟩
          exact ⟨formed, by rw [spelled, List.singleton_append]⟩
        · split at scanned
          · rename_i upper
            cases scanned
            rcases formed_ofCapitals (isRun_takeWhile upper tail) with ⟨formed, spelled⟩
            constructor
            · exact formed
            · rw [spelled, String.toList_ofList, List.takeWhile_append_dropWhile]
          · split at scanned
            · rename_i lower
              cases scanned
              have isRun := isRun_takeWhile lower tail
              constructor
              · rwa [Formed, IsParameterName, String.toList_ofList]
              · rw [text, String.toList_ofList, List.takeWhile_append_dropWhile]
            · split at scanned
              · rename_i digit
                cases scanned
                have isRun := isRun_takeWhile digit tail
                constructor
                · rwa [Formed, String.toList_ofList]
                · rw [text, String.toList_ofList, List.takeWhile_append_dropWhile]
              · cases scanned

/-- What was scanned does not go on after it. -/
theorem endsAt_of_scan {text rest : List Char} {lexeme : Lexeme}
    (scanned : scan text = .ok (lexeme, rest)) : lexeme.EndsAt rest := by
  cases text with
  | nil =>
      cases scanned
      trivial
  | cons c tail =>
      unfold scan at scanned
      simp only at scanned
      split at scanned
      · split at scanned
        · rename_i found
          cases scanned
          unfold scanLineEnd? at found
          split at found
          all_goals
            cases found
            try trivial
        · cases scanned
      · split at scanned
        · rename_i isSymbol
          cases scanned
          unfold ofSymbol? at isSymbol
          split at isSymbol
          all_goals
            cases isSymbol
            try trivial
        · split at scanned
          · cases scanned
            exact endsAt_ofCapitals head?_dropWhile_eq_false
          · split at scanned
            · cases scanned
              exact head?_dropWhile_eq_false
            · split at scanned
              · cases scanned
                exact head?_dropWhile_eq_false
              · cases scanned

/-! ## Completeness -/

theorem scanRun_append {kind : Char → Bool} (make : String → Lexeme) {word : String}
    (isRun : IsRun kind word.toList) {rest : List Char}
    (ends : ∀ c ∈ rest.head?, kind c = false) :
    scanRun kind make (word.toList ++ rest) = (make word, rest) := by
  have stops : rest.takeWhile kind = [] ∧ rest.dropWhile kind = rest := by
    cases rest with
    | nil => exact ⟨rfl, rfl⟩
    | cons c tail =>
        have different : kind c = false := ends c rfl
        simp [different]
  rw [scanRun, List.takeWhile_append_of_pos isRun.2, List.dropWhile_append_of_pos isRun.2,
    stops.1, stops.2, List.append_nil, String.ofList_toList]

/-- A letter or digit is no symbol. -/
theorem ofSymbol?_eq_none {c : Char}
    (inWord : c.isUpper = true ∨ c.isLower = true ∨ c.isDigit = true) :
    c ≠ ';' ∧ ofSymbol? c = none := by
  constructor
  · rintro rfl
    revert inWord
    decide
  · unfold ofSymbol?
    split
    all_goals first
      | rfl
      | (revert inWord; decide)

theorem isUpper_eq_false_of_isLower {c : Char} (lower : c.isLower = true) :
    c.isUpper = false := by
  simp only [Char.isLower, Char.isUpper, Bool.and_eq_true, decide_eq_true_eq, ge_iff_le,
    UInt32.le_iff_toNat_le, decide_eq_false_iff_not] at *
  have bound : 'Z'.val.toNat < 'a'.val.toNat := by decide
  omega

theorem not_letter_of_isDigit {c : Char} (digit : c.isDigit = true) :
    c.isUpper = false ∧ c.isLower = false := by
  simp only [Char.isLower, Char.isUpper, Char.isDigit, Bool.and_eq_true, decide_eq_true_eq,
    ge_iff_le, UInt32.le_iff_toNat_le, decide_eq_false_iff_not, Bool.and_eq_false_iff] at *
  have bound : '9'.val.toNat < 'A'.val.toNat := by decide
  have bound' : '9'.val.toNat < 'a'.val.toNat := by decide
  omega

theorem scan_capitals {word : String} (isRun : IsRun Char.isUpper word.toList)
    {rest : List Char} (ends : ∀ c ∈ rest.head?, c.isUpper = false) :
    scan (word.toList ++ rest) = .ok (ofCapitals word, rest) := by
  have scanned := scanRun_append ofCapitals isRun ends
  rcases letters : word.toList with _ | ⟨c, tail⟩
  · exact absurd letters isRun.1
  · rw [letters] at scanned
    have upper : c.isUpper = true := isRun.2 c (by simp [letters])
    rcases ofSymbol?_eq_none (Or.inl upper) with ⟨noEnd, noSymbol⟩
    simp only [List.cons_append] at scanned ⊢
    simp only [scan, noEnd, noSymbol, upper, if_true, if_false, scanned]

theorem scan_small {word : String} (isRun : IsRun Char.isLower word.toList)
    {rest : List Char} (ends : ∀ c ∈ rest.head?, c.isLower = false) :
    scan (word.toList ++ rest) = .ok (parameter word, rest) := by
  have scanned := scanRun_append parameter isRun ends
  rcases letters : word.toList with _ | ⟨c, tail⟩
  · exact absurd letters isRun.1
  · rw [letters] at scanned
    have lower : c.isLower = true := isRun.2 c (by simp [letters])
    have notUpper := isUpper_eq_false_of_isLower lower
    rcases ofSymbol?_eq_none (Or.inr (Or.inl lower)) with ⟨noEnd, noSymbol⟩
    simp only [List.cons_append] at scanned ⊢
    simp [scan, noEnd, noSymbol, notUpper, lower, scanned]

theorem scan_digits {digits : String} (isRun : IsRun Char.isDigit digits.toList)
    {rest : List Char} (ends : ∀ c ∈ rest.head?, c.isDigit = false) :
    scan (digits.toList ++ rest) = .ok (number digits, rest) := by
  have scanned := scanRun_append number isRun ends
  rcases letters : digits.toList with _ | ⟨c, tail⟩
  · exact absurd letters isRun.1
  · rw [letters] at scanned
    have digit : c.isDigit = true := isRun.2 c (by simp [letters])
    rcases not_letter_of_isDigit digit with ⟨notUpper, notLower⟩
    rcases ofSymbol?_eq_none (Or.inr (Or.inr digit)) with ⟨noEnd, noSymbol⟩
    simp only [List.cons_append] at scanned ⊢
    simp [scan, noEnd, noSymbol, notUpper, notLower, digit, scanned]

/-- A lexeme at the beginning of a text is what is scanned if it does not go on. -/
theorem scan_of_endsAt {lexeme : Lexeme} (formed : lexeme.Formed)
    (isText : lexeme ≠ endOfInput) {rest : List Char} (ends : lexeme.EndsAt rest) :
    scan (lexeme.text.toList ++ rest) = .ok (lexeme, rest) := by
  cases lexeme with
  | define =>
      have isRun : IsRun Char.isUpper "DEF".toList := by simp [IsRun]
      exact scan_capitals isRun ends
  | entry =>
      have isRun : IsRun Char.isUpper entryName.toList := by simp [IsRun, entryName]
      exact scan_capitals isRun ends
  | function name =>
      rw [text, scan_capitals formed.1.1 ends, ofCapitals, if_neg formed.1.2, if_neg formed.2]
  | parameter name => exact scan_small formed ends
  | number digits => exact scan_digits formed ends
  | endOfStatement carriageReturn => cases carriageReturn <;> rfl
  | endOfInput => exact absurd rfl isText
  | _ => rfl

/-- So is one without a letter or digit after it if it is a word. -/
theorem scan_complete {lexeme : Lexeme} (formed : lexeme.Formed)
    (isText : lexeme ≠ endOfInput) {rest : List Char} (apart : lexeme.IsWord → Apart rest) :
    scan (lexeme.text.toList ++ rest) = .ok (lexeme, rest) :=
  scan_of_endsAt formed isText (endsAt_of_apart apart)

end Lexeme

end Polycalc

import Polycalc.Text.Numeral
import Mathlib.Data.Nat.Digits.Defs

/-!
# Numerals

An integer is written in decimal digits, behind a sign if it is negative, and what
is written tells which integer it is (`Text.Numeral.toString_injective`).  It is read
as itself, unless it has more digits than may be read at once
(`Text.Numeral.integer?_toString`).
-/

namespace Polycalc

namespace Text

theorem trimWhile_eq_self {inClass : Char → Bool} {text : List Char}
    (outside : ∀ c ∈ text, inClass c = false) : trimWhile inClass text = text := by
  have stays : ∀ {text : List Char}, (∀ c ∈ text, inClass c = false) →
      text.dropWhile inClass = text := by
    intro text outside
    cases text with
    | nil => rfl
    | cons c rest => rw [List.dropWhile_cons, outside c List.mem_cons_self, if_neg (by simp)]
  have reversed : ∀ c ∈ text.reverse, inClass c = false := by simpa using outside
  rw [trimWhile, stays outside, stays reversed, List.reverse_reverse]

namespace Numeral

/-! ## Digits -/

theorem toNat_of_isDigit {c : Char} (digit : c.isDigit = true) :
    0x30 ≤ c.toNat ∧ c.toNat < 0x3a := by
  simp only [Char.isDigit, Bool.and_eq_true, decide_eq_true_eq, UInt32.le_iff_toNat_le,
    Char.toNat_val, Char.reduceToNat] at digit
  omega

theorem digit?_of_isDigit {c : Char} (digit : c.isDigit = true) :
    digit? c = some (c.toNat - '0'.toNat) := by
  have first : zeros.find? (fun base => base ≤ c.toNat && c.toNat < base + 10) = some 0x30 := by
    apply List.find?_cons_of_pos
    simpa using toNat_of_isDigit digit
  rw [digit?, first]
  rfl

theorem digits?_of_isDigit {text : List Char} (nonempty : text ≠ [])
    (digits : ∀ c ∈ text, c.isDigit = true) :
    digits? text = some (text.map fun c => c.toNat - '0'.toNat) := by
  fun_induction digits? text with
  | case1 => exact absurd rfl nonempty
  | case2 c =>
      rw [digit?_of_isDigit (digits c List.mem_cons_self)]
      rfl
  | case3 c rest ih => exact absurd (digits '_' (by simp)) (by decide)
  | case4 c rest more _ ih =>
      rw [List.forall_mem_cons] at digits
      rw [digit?_of_isDigit digits.1, ih more digits.2]
      rfl

/-- A natural number in decimal digits is read as itself if it has few enough of
them. -/
theorem natural?_toDigits {limit : Nat} (positive : 0 < limit) (n : Nat) :
    natural? (some limit) (Nat.toDigits 10 n) = if n < 10 ^ limit then some n else none := by
  have read := digits?_of_isDigit Nat.toDigits_ne_nil
    fun c member => Nat.isDigit_of_mem_toDigits (b := 10) (n := n) (by decide) (by decide) member
  have value : (Nat.toDigits 10 n).foldl (fun n c => 10 * n + (c.toNat - '0'.toNat)) 0 = n :=
    Nat.ofDigitChars_toDigits (by decide) (by decide)
  have few := Nat.length_toDigits_le_iff (b := 10) (n := n) (by decide) positive
  rw [natural?, read]
  simp only [Option.bind_eq_bind, Option.bind_some, Option.any_some, List.length_map,
    List.foldl_map, value, decide_eq_true_eq]
  by_cases short : n < 10 ^ limit
  · rw [if_pos short, if_neg (Nat.not_lt.mpr (few.mpr short))]
    rfl
  · rw [if_neg short, if_pos (Nat.lt_of_not_le fun le => short (few.mp le))]
    rfl

/-- No sign or digit is white space. -/
theorem isBlank_eq_false {c : Char} (visible : c = '-' ∨ c.isDigit = true) :
    (isBlank c && !isInformationSeparator c) = false := by
  have printable : 0x20 < c.toNat ∧ c.toNat < 0x7f := by
    rcases visible with rfl | digit
    · decide
    · have bounds := toNat_of_isDigit digit
      omega
  rw [Bool.and_eq_false_iff]
  left
  simp only [isBlank, Bool.or_eq_false_iff, Bool.and_eq_false_iff, decide_eq_false_iff_not,
    beq_eq_false_iff_ne]
  omega

theorem isDigit_of_mem_toDigits (n : Nat) : ∀ c ∈ Nat.toDigits 10 n, c.isDigit = true :=
  fun _ member => Nat.isDigit_of_mem_toDigits (by decide) (by decide) member

theorem notMem_toDigits {c : Char} (noDigit : c.isDigit = false) (n : Nat) :
    c ∉ Nat.toDigits 10 n := by
  intro member
  rw [isDigit_of_mem_toDigits n c member] at noDigit
  cases noDigit

theorem toDigits_ne_cons {c : Char} (noDigit : c.isDigit = false) (n : Nat) (rest : List Char) :
    Nat.toDigits 10 n ≠ c :: rest := by
  intro split
  exact notMem_toDigits noDigit n (split ▸ List.mem_cons_self)

theorem toList_toString_ofNat (n : Nat) :
    (toString (Int.ofNat n)).toList = Nat.toDigits 10 n :=
  Nat.toList_repr

theorem toList_toString_negSucc (n : Nat) :
    (toString (Int.negSucc n)).toList = '-' :: Nat.toDigits 10 (n + 1) := by
  rw [← Nat.toList_repr]
  exact String.toList_append

/-- An integer is written in digits, behind a sign if need be. -/
theorem visible_of_mem_toString (n : Int) :
    ∀ c ∈ (toString n).toList, c = '-' ∨ c.isDigit = true := by
  intro c member
  cases n with
  | ofNat m =>
      rw [toList_toString_ofNat] at member
      exact Or.inr (isDigit_of_mem_toDigits m c member)
  | negSucc m =>
      rw [toList_toString_negSucc, List.mem_cons] at member
      exact member.imp_right (isDigit_of_mem_toDigits (m + 1) c)

theorem toList_toString_ne_nil (n : Int) : (toString n).toList ≠ [] := by
  cases n with
  | ofNat m =>
      rw [toList_toString_ofNat]
      exact Nat.toDigits_ne_nil
  | negSucc m =>
      rw [toList_toString_negSucc]
      exact List.cons_ne_nil _ _

theorem toDigits_injective {n m : Nat} (same : Nat.toDigits 10 n = Nat.toDigits 10 m) :
    n = m := by
  have value := congrArg (fun digits => Nat.ofDigitChars 10 digits 0) same
  simpa only [Nat.ofDigitChars_toDigits (b := 10) (by decide) (by decide)] using value

/-- The text of an integer tells which one it is. -/
theorem toString_injective {n m : Int} (same : toString n = toString m) : n = m := by
  rw [← String.toList_inj] at same
  cases n with
  | ofNat n =>
      rw [toList_toString_ofNat] at same
      cases m with
      | ofNat m =>
          rw [toList_toString_ofNat] at same
          rw [toDigits_injective same]
      | negSucc m =>
          rw [toList_toString_negSucc] at same
          exact absurd same (toDigits_ne_cons rfl n _)
  | negSucc n =>
      rw [toList_toString_negSucc] at same
      cases m with
      | ofNat m =>
          rw [toList_toString_ofNat] at same
          exact absurd same.symm (toDigits_ne_cons rfl m _)
      | negSucc m =>
          rw [toList_toString_negSucc] at same
          rw [Nat.succ.inj (toDigits_injective (List.cons.inj same).2)]

/-- An integer is read as itself if it has few enough digits. -/
theorem integer?_toString {limit : Nat} (positive : 0 < limit) (n : Int) :
    integer? (some limit) (toString n) =
      if n.natAbs < 10 ^ limit then some n else none := by
  have trimmed := trimWhile_eq_self fun c member =>
    isBlank_eq_false (visible_of_mem_toString n c member)
  rw [integer?, trimmed]
  cases n with
  | ofNat m =>
      rw [toList_toString_ofNat]
      split
      · exact absurd ‹_› (toDigits_ne_cons rfl m _)
      · exact absurd ‹_› (toDigits_ne_cons rfl m _)
      · rw [natural?_toDigits positive, apply_ite (Option.map Int.ofNat)]
        rfl
  | negSucc m =>
      rw [toList_toString_negSucc]
      simp only [natural?_toDigits positive]
      by_cases short : m + 1 < 10 ^ limit
      · rw [if_pos short, if_pos (by exact short)]
        rfl
      · rw [if_neg short, if_neg (by exact short)]
        rfl

end Numeral

end Text

end Polycalc

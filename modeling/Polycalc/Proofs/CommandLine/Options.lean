import Polycalc.CommandLine.Options
import Polycalc.Proofs.Text.Numerals
import Mathlib.Data.List.Forall2
import Mathlib.Data.List.TakeWhile

/-!
# Options on a command line

A command line that names a file, the greatest number of arguments and what is to be
shown asks for just that (`Options.parse_eq`).
-/

namespace Polycalc

namespace CommandLine

/-! ## Words -/

namespace Word

open Text.Numeral

theorem isDigits_toDigits (n : Nat) : isDigits (Nat.toDigits 10 n) = true := by
  have read : ∀ c ∈ Nat.toDigits 10 n, (digit? c).isSome = true := by
    intro c member
    rw [digit?_of_isDigit (isDigit_of_mem_toDigits n c member)]
    rfl
  rw [isDigits, List.all_eq_true.mpr read, Bool.and_true]
  simp [Nat.toDigits_ne_nil]

theorem isNegativeNumber_toString (n : Nat) :
    isNegativeNumber (toString (Int.negSucc n)) = true := by
  have noLineEnd : (Nat.toDigits 10 (n + 1)).getLast? ≠ some '\n' :=
    fun last => notMem_toDigits rfl _ (List.mem_of_getLast? last)
  have noPoint : ∀ c ∈ Nat.toDigits 10 (n + 1), decide (c ≠ '.') = true := by
    intro c member
    apply decide_eq_true
    rintro rfl
    exact notMem_toDigits rfl _ member
  rw [isNegativeNumber, toList_toString_negSucc]
  simp only [if_neg noLineEnd, List.takeWhile_eq_self_iff.mpr noPoint,
    List.dropWhile_eq_nil_iff.mpr noPoint, isDigits_toDigits]

/-- An integer on a command line is no option, negative or not. -/
theorem ofText_toString (n : Int) : ofText (toString n) = .ok (operand (toString n)) := by
  cases n with
  | ofNat m =>
      rw [ofText, toList_toString_ofNat]
      split
      all_goals first
        | rfl
        | exact absurd ‹_› (toDigits_ne_cons rfl m _)
  | negSucc m =>
      have negative := isNegativeNumber_toString m
      rw [ofText, toList_toString_negSucc]
      split
      all_goals first
        | exact absurd (List.cons.inj ‹_›).2 Nat.toDigits_ne_nil
        | exact absurd (List.cons.inj ‹_›).2 (toDigits_ne_cons rfl _ _)
        | rw [ofUnknown, negative, Bool.true_or, if_pos rfl]
        | exact absurd rfl (‹∀ rest, '-' :: Nat.toDigits 10 (m + 1) = '-' :: rest → False› _)

/-- The separator is none of the other words. -/
theorem ofText_separatorText (word : Word) : ofText separatorText ≠ .ok word := by
  have ambiguous : ofText separatorText =
      .error (.misuse
        "ambiguous option: -- could match --help, --max-args, --show, --trace") := by
    decide +kernel
  rw [ambiguous]
  simp

/-- The words of a command line that has no separator. -/
theorem ofTexts_eq_ok {texts : List String} {words : List Word}
    (each : List.Forall₂ (fun text word => ofText text = .ok word) texts words) :
    ofTexts texts = .ok words := by
  induction each with
  | nil => rfl
  | @cons text word texts words first _ ih =>
      have noSeparator : text ≠ separatorText := by
        rintro rfl
        exact ofText_separatorText word first
      rw [ofTexts, if_neg noSeparator, first, ih]
      rfl

end Word

/-! ## Options -/

/-- The option that asks for the definitions or for the steps to be shown. -/
def flagOf (text : String) : Flag :=
  if text = "--show" then .lists else .traces

theorem ofText_flag {text : String} (known : text = "--show" ∨ text = "--trace") :
    Word.ofText text = .ok (.option (flagOf text) none) := by
  rcases known with rfl | rfl
  · rfl
  · rfl

namespace Taken

variable (limits : Limits) (taken : Taken) (behindFile : Bool)

theorem takeAll_option {flag : Flag} (noValue : flag ≠ .maxArguments) (rest : List Word) :
    taken.takeAll limits behindFile (.option flag none :: rest) =
      taken.setFlag flag >>= fun taken => taken.takeAll limits false rest := by
  cases flag with
  | maxArguments => exact absurd rfl noValue
  | _ => rw [takeAll]; exact fun _ _ _ same => noValue same

/-- Options without values may come in any order and any number of times. -/
theorem takeAll_flags {flags : List String}
    (known : ∀ flag ∈ flags, flag = "--show" ∨ flag = "--trace") :
    taken.takeAll limits behindFile (flags.map fun flag => .option (flagOf flag) none) =
      .ok { taken with options := { taken.options with
        lists := taken.options.lists || "--show" ∈ flags
        traces := taken.options.traces || "--trace" ∈ flags } } := by
  induction flags generalizing taken behindFile with
  | nil => simp [takeAll]
  | cons flag rest ih =>
      rw [List.forall_mem_cons] at known
      rcases known with ⟨rfl | rfl, known⟩
      · have isList : flagOf "--show" = .lists := rfl
        rw [List.map_cons, isList, takeAll_option _ _ _ (by decide)]
        apply (ih { taken with options := { taken.options with lists := true } } false known).trans
        simp
      · have isTrace : flagOf "--trace" = .traces := rfl
        rw [List.map_cons, isTrace, takeAll_option _ _ _ (by decide)]
        apply (ih { taken with options := { taken.options with traces := true } } false known).trans
        simp

end Taken

/-- The words of a command line that names a file, the greatest number of arguments
and what is to be shown. -/
theorem Word.ofTexts_maxArguments {path : String} (named : ofText path = .ok (.operand path))
    (n : Int) {flags : List String} (known : ∀ flag ∈ flags, flag = "--show" ∨ flag = "--trace") :
    ofTexts (path :: "--max-args" :: toString n :: flags) =
      .ok (.operand path :: .option .maxArguments none :: .operand (toString n) ::
        flags.map fun flag => .option (flagOf flag) none) := by
  have flagWords : List.Forall₂ (fun text word => ofText text = .ok word) flags
      (flags.map fun flag => .option (flagOf flag) none) := by
    rw [List.forall₂_map_right_iff, List.forall₂_same]
    exact fun flag member => ofText_flag (known flag member)
  apply ofTexts_eq_ok
  exact .cons named (.cons rfl (.cons (ofText_toString n) flagWords))

section

variable {limits : Limits} {digits : Nat} (limited : limits.digits = some digits)
  (positive : 0 < digits)

include limited positive

/-- A number on the command line keeps to the limit on numerals. -/
theorem Taken.setMaxArguments_toString (taken : Taken) (n : Int) :
    taken.setMaxArguments limits (toString n) =
      if n.natAbs < 10 ^ digits then
        .ok { taken with options := { taken.options with maxArguments := some n } }
      else .error (Flag.maxArguments.misuse
        ("invalid int value: " ++ Text.quoted (toString n))) := by
  rw [setMaxArguments, limited, Text.Numeral.integer?_toString positive]
  by_cases short : n.natAbs < 10 ^ digits
  · rw [if_pos short, if_pos short]
  · rw [if_neg short, if_neg short]

/-- What is asked for by a command line that names a file and sets everything else. -/
theorem Options.parse_eq {path : String} (named : Word.ofText path = .ok (.operand path)) (n : Int)
    {flags : List String} (known : ∀ flag ∈ flags, flag = "--show" ∨ flag = "--trace") :
    Options.parse limits (path :: "--max-args" :: toString n :: flags) =
      if n.natAbs < 10 ^ digits then
        .ok ⟨some path, some n, "--show" ∈ flags, "--trace" ∈ flags⟩
      else .error (Flag.maxArguments.misuse
        ("invalid int value: " ++ Text.quoted (toString n))) := by
  rw [Options.parse, Word.ofTexts_maxArguments named n known]
  change Taken.takeAll limits {} false _ >>= Taken.finish = _
  rw [Taken.takeAll, Taken.takeOperand, if_neg (by simp), Taken.takeAll,
    Taken.setMaxArguments_toString limited positive]
  by_cases short : n.natAbs < 10 ^ digits
  · have taken := Taken.takeAll_flags limits ⟨⟨some path, some n, false, false⟩, true, []⟩ false
      known
    rw [Bool.false_or, Bool.false_or] at taken
    rw [if_pos short, if_pos short]
    exact congrArg (· >>= Taken.finish) taken
  · rw [if_neg short, if_neg short]
    rfl

end

end CommandLine

end Polycalc

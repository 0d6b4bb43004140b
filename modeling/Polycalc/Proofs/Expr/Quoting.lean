import Polycalc.Proofs.Expr.Standing
import Polycalc.Proofs.Grammar.Normal

/-!
# What is quoted of an expression

An error quotes an expression as it is written out, not as it was read.  What is written
out of an expression that stands in a text is the normal form of its own text
(`Expr.Stands.toList_render`), which differs from it only where a number begins with a
zero that could be left out (`Grammar.normalize_sublist`).
-/

namespace Polycalc

open Text Grammar

/-! ## Normal texts -/

theorem Grammar.stripZeros_sublist (digits : List Char) :
    (stripZeros digits).Sublist digits := by
  fun_induction stripZeros digits with
  | case1 next rest ih => exact ih.cons '0'
  | case2 digits _ => exact .refl digits

/-- Normalizing leaves characters out and changes none. -/
theorem Grammar.normalize_sublist (text : List Char) : (normalize text).Sublist text := by
  fun_induction normalize text with
  | case1 => exact .refl []
  | case2 rest ih => exact (ih.cons_cons '\n').cons '\r'
  | case3 c rest _ digit ih =>
      have run := (stripZeros_sublist (c :: rest.takeWhile Char.isDigit)).append ih
      rwa [List.cons_append, List.takeWhile_append_dropWhile] at run
  | case4 c rest _ _ ih => exact ih.cons_cons c

/-- As many characters of a text as its normal form has are the whole text only if it
is normal. -/
theorem Grammar.take_length_normalize_eq_iff (text : List Char) :
    text.take (normalize text).length = text ↔ normalize text = text := by
  rw [List.take_eq_self_iff]
  constructor
  · intro whole
    exact (normalize_sublist text).eq_of_length_le whole
  · intro normal
    rw [normal]

/-! ## Texts of expressions -/

/-- The images of several values and of one more. -/
theorem exists_of_forall₂_append_singleton {α β : Type} {related : α → β → Prop}
    {values : List α} {value : α} {images : List β}
    (each : List.Forall₂ related (values ++ [value]) images) :
    ∃ others image, images = others ++ [image] ∧ List.Forall₂ related values others ∧
      related value image := by
  induction values generalizing images with
  | nil =>
      cases each with
      | @cons _ image _ _ first rest =>
          cases rest
          exact ⟨[], image, rfl, .nil, first⟩
  | cons first values ih =>
      cases each with
      | @cons _ image _ _ related rest =>
          rcases ih rest with ⟨others, last, rfl, each, relatedLast⟩
          exact ⟨image :: others, last, rfl, .cons related each, relatedLast⟩

theorem intercalate_append_singleton_of_ne_nil {separator : Char} {items : List (List Char)}
    (nonempty : items ≠ []) (item : List Char) :
    [separator].intercalate (items ++ [item]) =
      [separator].intercalate items ++ separator :: item := by
  have more : items ++ [item] ≠ [] := List.append_ne_nil_of_left_ne_nil nonempty [item]
  have whole : [separator].intercalate (items ++ [item]) ++ [separator] =
      [separator].intercalate items ++ separator :: item ++ [separator] := by
    rw [intercalate_append_singleton more, List.flatMap_append,
      ← intercalate_append_singleton nonempty]
    simp
  exact List.append_cancel_right whole

namespace Expr.Stands

variable {limits : Limits} {place : Position} {text : List Char} {expr : Expr}

/-- What is written of an expression that was read is the normal form of its text. -/
theorem toList_render (stands : expr.Stands place text) :
    ∀ rendered, expr.render limits = .ok rendered → rendered.toList = normalize text := by
  induction stands using @Expr.Stands.rec _
    (fun place text arguments _ => ∀ texts,
      List.Forall₂ (fun argument text => argument.render limits = .ok text) arguments texts →
        [' '].intercalate (texts.map String.toList) = normalize text) with
  | number numeral =>
      intro rendered written
      rw [of_render_number written, normalize_digits numeral, stripZeros_eq_toDigits numeral]
      exact Text.Numeral.toList_toString_ofNat _
  | parameter word =>
      intro rendered written
      rw [of_render_parameter written, normalize_parameterName word]
  | call callee _ ih =>
      intro rendered written
      rcases of_render_call written with ⟨texts, each, spelled⟩
      rw [spelled, enclosed, ih texts each, normalize_call callee]
      simp
  | @binary _ operator first second left right _ _ loose tight ihLeft ihRight =>
      intro rendered written
      rcases of_render_binary written with ⟨before, after, leftWritten, rightWritten, spelled⟩
      have isSign : operator.sign.isDigit = false ∧ operator.sign ≠ '\n' ∧
          operator.sign ≠ '\r' := by
        cases operator <;> decide
      rw [spelled, normalize_separated first second isSign, ← ihLeft before leftWritten,
        ← ihRight after rightWritten]
      simp [parenthesizeIf, Nat.not_lt.mpr loose, Nat.not_le.mpr tight]
  | none texts each =>
      cases each
      rw [Grammar.normalize]
      rfl
  | one _ ih texts each =>
      cases each with
      | cons written none =>
          cases none
          rw [List.map_singleton, List.intercalate_singleton]
          exact ih _ written
  | more nonempty _ _ ih ihLast texts each =>
      rcases exists_of_forall₂_append_singleton each with ⟨others, last, rfl, earlier, written⟩
      have some : others.map String.toList ≠ [] := by
        rintro none
        rw [List.map_eq_nil_iff] at none
        subst none
        exact nonempty (List.forall₂_nil_right_iff.mp earlier)
      rw [List.map_append, List.map_singleton, intercalate_append_singleton_of_ne_nil some,
        ih others earlier, ihLast last written, normalize_separated _ _ (by decide)]

/-- The text of an expression has no line boundary in it. -/
theorem unbroken (stands : expr.Stands place text) : ∀ c ∈ text, isLineBreak c = false := by
  induction stands using @Expr.Stands.rec _
    (fun place text arguments _ => ∀ c ∈ text, isLineBreak c = false) with
  | number numeral => exact numeral.unbroken fun c digit => by simp [Char.isAlphanum, digit]
  | parameter word => exact word.unbroken
  | call callee _ ih =>
      rw [List.forall_mem_append, List.forall_mem_append, List.forall_mem_cons,
        List.forall_mem_singleton]
      exact ⟨⟨callee.unbroken, by decide, ih⟩, by decide⟩
  | @binary _ operator _ _ _ _ _ _ _ _ ihLeft ihRight =>
      rw [List.forall_mem_append, List.forall_mem_cons]
      refine ⟨ihLeft, ?_, ihRight⟩
      cases operator <;> decide
  | none c member => cases member
  | one _ ih c member => exact ih c member
  | more _ _ _ ih ihLast c member =>
      rcases List.mem_append.mp member with earlier | later
      · exact ih c earlier
      · rcases List.mem_cons.mp later with rfl | inLast
        · decide
        · exact ihLast c inLast

end Expr.Stands

end Polycalc

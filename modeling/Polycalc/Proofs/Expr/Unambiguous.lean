import Polycalc.Proofs.Expr.Places
import Polycalc.Proofs.Expr.Spellable

/-!
# Texts tell trees apart

Parentheses are written only where they are needed, and nothing is put around a
negative number.  Still, an expression that is put together by hand from words and
integers is written as no other one is, and drawn as no other one is
(`Expr.texts_unambiguous`).

A text is taken apart in the way in which it was put together.  What it is apart
from parentheses tells how tightly it holds together (`Expr.precedence_eq_of_render`);
the last sign outside of parentheses is the one between its two sides; and the
parentheses around a side are no part of its text (`Expr.eq_of_parenthesizeIf`).
-/

namespace Polycalc

open Text Grammar

namespace Expr

variable {limits : Limits}

/-! ## What stands in parentheses -/

theorem toList_parenthesizeIf (needed : Bool) (text : String) :
    (parenthesizeIf needed text).toList =
      if needed then '(' :: (text.toList ++ [')']) else text.toList := by
  cases needed <;> simp [parenthesizeIf]

theorem balanced_parenthesizeIf {text : String} (balanced : Balanced text.toList)
    (needed : Bool) : Balanced (parenthesizeIf needed text).toList := by
  rw [toList_parenthesizeIf]
  split
  · exact balanced.enclose
  · exact balanced

/-- What is in parentheses is hidden. -/
theorem hides_parenthesizeIf {c : Char} {text : String} {needed : Prop} [Decidable needed]
    (balanced : Balanced text.toList) (plain : IsPlain c)
    (unwrapped : ¬ needed → Hides c text.toList) :
    Hides c (parenthesizeIf needed text).toList := by
  rw [toList_parenthesizeIf]
  by_cases wrapped : needed
  · rw [if_pos (decide_eq_true wrapped)]
    exact balanced.hides_enclose plain
  · rw [if_neg (by simpa using wrapped)]
    exact unwrapped wrapped

/-- The text of an expression that holds together so tightly: blanks and the signs
of looser operators are in parentheses. -/
structure Spells (precedence : Nat) (text : List Char) : Prop where
  item : IsItem ' ' text
  hidesSign : ∀ operator : Operator, operator.precedence < precedence →
    Hides operator.sign text

/-- The right side of an operator hides its sign. -/
theorem Spells.hidesSign_right {binds : Nat} {text : String} (spells : Spells binds text.toList)
    (operator : Operator) :
    Hides operator.sign (parenthesizeIf (binds ≤ operator.precedence) text).toList :=
  hides_parenthesizeIf spells.item.balanced operator.isPlain_sign fun tight =>
    spells.hidesSign operator (Nat.lt_of_not_le tight)

theorem spells_of_isRun {kind : Char → Bool} {text : List Char} (isRun : IsRun kind text)
    (outside : ['(', ')', ' ', '+', '*'].any kind = false) (precedence : Nat) :
    Spells precedence text := by
  rw [List.any_eq_false] at outside
  have absent : ∀ c ∈ ['(', ')', ' ', '+', '*'], kind c = false :=
    fun c member => Bool.eq_false_of_not_eq_true (outside c member)
  constructor
  · exact isItem_of_isPlain isRun.1
      (isRun.isPlain (absent _ (by simp)) (absent _ (by simp)))
      (isRun.notMem (absent _ (by simp)))
  · intro operator _
    apply hides_of_notMem
    apply isRun.notMem
    cases operator <;> exact absent _ (by simp [Operator.sign])

theorem spells_enclosed {word : List Char} {texts : List (List Char)}
    (isRun : IsRun Char.isUpper word) (each : ∀ text ∈ texts, IsItem ' ' text)
    (precedence : Nat) : Spells precedence (enclosed word ' ' texts) where
  item := {
    nonempty := by simp [enclosed]
    balanced := balanced_enclosed (by decide) (isRun.isPlain rfl rfl)
      fun text member => (each text member).balanced
    hidden := hides_enclosed (by decide) (isRun.isPlain rfl rfl)
      (fun text member => (each text member).balanced) (by decide) (isRun.notMem rfl) }
  hidesSign := by
    intro operator _
    apply hides_enclosed (by decide) (isRun.isPlain rfl rfl)
      (fun text member => (each text member).balanced) operator.isPlain_sign
    cases operator <;> exact isRun.notMem rfl

/-- Both sides of an operator hide the signs of looser ones. -/
theorem spells_binary {operator : Operator} {leftBinds rightBinds : Nat} {before after : String}
    (left : Spells leftBinds before.toList) (right : Spells rightBinds after.toList) :
    Spells operator.precedence
      ((parenthesizeIf (leftBinds < operator.precedence) before).toList ++
        operator.sign ::
          (parenthesizeIf (rightBinds ≤ operator.precedence) after).toList) := by
  have leftLevel := balanced_parenthesizeIf left.item.balanced
    (decide (leftBinds < operator.precedence))
  have rightLevel := balanced_parenthesizeIf right.item.balanced
    (decide (rightBinds ≤ operator.precedence))
  have plain : ∀ c ∈ [operator.sign], IsPlain c := by simpa using operator.isPlain_sign
  have hides : ∀ c : Char, c ≠ operator.sign →
      Hides c (parenthesizeIf (leftBinds < operator.precedence) before).toList →
      Hides c (parenthesizeIf (rightBinds ≤ operator.precedence) after).toList →
      Hides c ((parenthesizeIf (leftBinds < operator.precedence) before).toList ++
        ([operator.sign] ++
          (parenthesizeIf (rightBinds ≤ operator.precedence) after).toList)) := by
    intro c different inLeft inRight
    apply inLeft.append leftLevel.closed
    apply (hides_of_notMem (by simpa using different)).append (depth_eq_zero plain) inRight
  constructor
  · constructor
    · simp
    · exact leftLevel.append ((balanced_of_isPlain plain).append rightLevel)
    · apply hides
      · cases operator <;> decide
      · exact hides_parenthesizeIf left.item.balanced (by decide) fun _ => left.item.hidden
      · exact hides_parenthesizeIf right.item.balanced (by decide) fun _ => right.item.hidden
  · intro other looser
    apply hides
    · exact Operator.sign_ne_of_precedence_lt looser
    · exact hides_parenthesizeIf left.item.balanced other.isPlain_sign fun tight =>
        left.hidesSign other (by omega)
    · exact hides_parenthesizeIf right.item.balanced other.isPlain_sign fun tight =>
        right.hidesSign other (by omega)

variable {digits : Nat}

/-- Every text of an expression that can be spelled is one for its precedence. -/
theorem spells_of_render {expr : Expr} {text : String} (spellable : expr.Spellable digits)
    (written : expr.render limits = .ok text) : Spells expr.precedence text.toList := by
  induction expr using sidesInduction generalizing text with
  | number value position =>
      rw [of_render_number written]
      exact spells_of_isRun (Numeral.isRun_toString value) rfl _
  | parameter name position =>
      rw [of_render_parameter written]
      exact spells_of_isRun spellable.parameter rfl _
  | call site name arguments position ih =>
      rcases of_render_call written with ⟨texts, each, spelled⟩
      rw [spelled]
      apply spells_enclosed spellable.callee
      apply forall_isItem each
      intro argument member text written
      exact (ih argument member (spellable.argument argument member) written).item
  | binary operator left right position leftIh rightIh =>
      rcases of_render_binary written with
        ⟨before, after, leftWritten, rightWritten, spelled⟩
      rw [spelled]
      exact spells_binary (leftIh spellable.left leftWritten)
        (rightIh spellable.right rightWritten)
  | foreign kind shown => exact absurd spellable Spellable.not_foreign

/-! ## Trees found again in texts -/

section

variable {expr other : Expr} {text : String}

/-- The sign of a chain is not in parentheses. -/
theorem not_hides_of_render_binary {operator : Operator} {left right : Expr}
    {position : Position} (spellable : (binary operator left right position).Spellable digits)
    (written : (binary operator left right position).render limits = .ok text) :
    ¬ Hides operator.sign text.toList := by
  rcases of_render_binary written with ⟨before, after, leftWritten, _, spelled⟩
  rw [spelled]
  have leftSpells := spells_of_render spellable.left leftWritten
  exact not_hides (balanced_parenthesizeIf leftSpells.item.balanced _).closed

theorem precedence_le_of_render (spellable : expr.Spellable digits)
    (spellable' : other.Spellable digits) (written : expr.render limits = .ok text)
    (written' : other.render limits = .ok text) : other.precedence ≤ expr.precedence := by
  cases expr with
  | binary operator left right position =>
      by_contra tighter
      have hidden := (spells_of_render spellable' written').hidesSign operator
        (Nat.lt_of_not_le tighter)
      exact not_hides_of_render_binary spellable written hidden
  | _ =>
      cases other with
      | binary operator _ _ _ => exact operator.precedence_lt_atom.le
      | _ => exact le_refl 3

/-- A text tells how tightly an expression holds together. -/
theorem precedence_eq_of_render (spellable : expr.Spellable digits)
    (spellable' : other.Spellable digits) (written : expr.render limits = .ok text)
    (written' : other.render limits = .ok text) : expr.precedence = other.precedence :=
  le_antisymm (precedence_le_of_render spellable' spellable written' written)
    (precedence_le_of_render spellable spellable' written written')

/-- The text of an expression is not in parentheses as a whole. -/
theorem toList_ne_enclosed (spellable : expr.Spellable digits)
    (written : expr.render limits = .ok text) {inner : List Char} (balanced : Balanced inner) :
    text.toList ≠ '(' :: (inner ++ [')']) := by
  intro whole
  have opens : '(' ∈ text.toList := whole ▸ List.mem_cons_self
  cases expr with
  | number value position =>
      rw [of_render_number written] at opens
      exact (Numeral.isRun_toString value).notMem rfl opens
  | parameter name position =>
      rw [of_render_parameter written] at opens
      exact spellable.parameter.notMem rfl opens
  | call site name arguments position =>
      rcases of_render_call written with ⟨texts, _, spelled⟩
      rw [spelled, enclosed] at whole
      rcases List.exists_cons_of_ne_nil spellable.callee.1 with ⟨c, rest, word⟩
      rw [word] at whole
      apply spellable.callee.notMem (c := '(') rfl
      rw [word, (List.cons.inj whole).1]
      exact List.mem_cons_self
  | binary operator left right position =>
      apply not_hides_of_render_binary spellable written
      rw [whole]
      exact balanced.hides_enclose operator.isPlain_sign
  | foreign kind shown => exact Spellable.not_foreign spellable

/-- Parentheses around a text are no part of it. -/
theorem eq_of_parenthesizeIf {first second : String} {wrap wrap' : Bool}
    (spellable : expr.Spellable digits) (spellable' : other.Spellable digits)
    (written : expr.render limits = .ok first) (written' : other.render limits = .ok second)
    (same : (parenthesizeIf wrap first).toList = (parenthesizeIf wrap' second).toList) :
    first = second := by
  have balanced := (spells_of_render spellable written).item.balanced
  have balanced' := (spells_of_render spellable' written').item.balanced
  rw [toList_parenthesizeIf, toList_parenthesizeIf] at same
  cases wrap with
  | false =>
      cases wrap' with
      | false => exact String.toList_inj.mp same
      | true => exact absurd same (toList_ne_enclosed spellable written balanced')
  | true =>
      cases wrap' with
      | false => exact absurd same.symm (toList_ne_enclosed spellable' written' balanced)
      | true => exact String.toList_inj.mp (List.append_cancel_right (List.cons.inj same).2)

/-- What holds together without operators and has parentheses is a call. -/
theorem exists_call_of_render (spellable : expr.Spellable digits)
    (written : expr.render limits = .ok text) (atom : expr.precedence = 3)
    (opens : '(' ∈ text.toList) :
    ∃ site name arguments position, expr = call site name arguments position := by
  cases expr with
  | number value position =>
      rw [of_render_number written] at opens
      exact absurd opens (notMem_of_word?_eq_some spellable rfl)
  | parameter name position =>
      rw [of_render_parameter written] at opens
      exact absurd opens (notMem_of_word?_eq_some spellable rfl)
  | call site name arguments position => exact ⟨site, name, arguments, position, rfl⟩
  | binary operator left right position =>
      exact absurd atom operator.precedence_lt_atom.ne
  | foreign kind shown => exact absurd spellable Spellable.not_foreign

theorem exists_binary_of_precedence {operator : Operator}
    (tight : operator.precedence = expr.precedence) :
    ∃ left right position, expr = binary operator left right position := by
  cases expr with
  | binary other left right position =>
      rw [Operator.precedence_injective tight]
      exact ⟨left, right, position, rfl⟩
  | _ => exact absurd tight operator.precedence_lt_atom.ne

/-- Two expressions that are written alike are the same but for their places. -/
theorem bare_eq_of_render (spellable : expr.Spellable digits)
    (spellable' : other.Spellable digits) (written : expr.render limits = .ok text)
    (written' : other.render limits = .ok text) : expr.bare = other.bare := by
  induction expr using sidesInduction generalizing other text with
  | number value position =>
      have tight := precedence_eq_of_render spellable spellable' written written'
      obtain rfl := of_render_number written
      have isWord := word?_of_render spellable' written' tight.symm
        (notMem_of_word?_eq_some spellable rfl)
      exact bare_eq_of_word?_eq_some spellable spellable' rfl isWord
  | parameter name position =>
      have tight := precedence_eq_of_render spellable spellable' written written'
      obtain rfl := of_render_parameter written
      have isWord := word?_of_render spellable' written' tight.symm
        (notMem_of_word?_eq_some spellable rfl)
      exact bare_eq_of_word?_eq_some spellable spellable' rfl isWord
  | call site name arguments position ih =>
      have tight := precedence_eq_of_render spellable spellable' written written'
      rcases of_render_call written with ⟨texts, each, spelled⟩
      rcases exists_call_of_render spellable' written' tight.symm
        (spelled ▸ by simp [enclosed]) with ⟨site', name', arguments', position', rfl⟩
      rcases of_render_call written' with ⟨texts', each', spelled'⟩
      have items := forall_isItem each fun argument member text written =>
        (spells_of_render (spellable.argument argument member) written).item
      have items' := forall_isItem each' fun argument member text written =>
        (spells_of_render (spellable'.argument argument member) written).item
      rcases enclosed_injective (spellable.callee.isPlain rfl rfl)
        (spellable'.callee.isPlain rfl rfl) items items' (spelled.symm.trans spelled')
        with ⟨sameName, sameTexts⟩
      rw [(List.map_injective_iff.mpr fun _ _ => String.toList_injective) sameTexts] at each
      have sameArguments := map_eq_of_forall₂ each each' fun argument member other member' text =>
        ih argument member (spellable.argument argument member)
          (spellable'.argument other member')
      rw [bare_call, bare_call, String.toList_inj.mp sameName, sameArguments]
  | binary operator left right position leftIh rightIh =>
      have tight := precedence_eq_of_render spellable spellable' written written'
      rcases exists_binary_of_precedence tight with ⟨left', right', position', rfl⟩
      rcases of_render_binary written with
        ⟨before, after, leftWritten, rightWritten, spelled⟩
      rcases of_render_binary written' with
        ⟨before', after', leftWritten', rightWritten', spelled'⟩
      have leftSpells := spells_of_render spellable.left leftWritten
      have leftSpells' := spells_of_render spellable'.left leftWritten'
      have rightSpells := spells_of_render spellable.right rightWritten
      have rightSpells' := spells_of_render spellable'.right rightWritten'
      -- The sign in between is the last one that is not in parentheses.
      rcases split_last (balanced_parenthesizeIf leftSpells.item.balanced _).closed
        (balanced_parenthesizeIf leftSpells'.item.balanced _).closed operator.isPlain_sign
        (rightSpells.hidesSign_right operator) (rightSpells'.hidesSign_right operator)
        (spelled.symm.trans spelled') with ⟨sameLeft, sameRight⟩
      obtain rfl := eq_of_parenthesizeIf spellable.left spellable'.left leftWritten leftWritten'
        sameLeft
      obtain rfl := eq_of_parenthesizeIf spellable.right spellable'.right rightWritten
        rightWritten' sameRight
      rw [bare_binary, bare_binary, leftIh spellable.left spellable'.left leftWritten leftWritten',
        rightIh spellable.right spellable'.right rightWritten rightWritten']
  | foreign kind shown => exact absurd spellable Spellable.not_foreign

/-! ## Trees found again in pictures -/

theorem isRun_name (operator : Operator) : IsRun Char.isAlpha operator.name.toList := by
  cases operator <;> simp [IsRun, Operator.name]

theorem isRun_callKind : IsRun Char.isAlpha "Call".toList := by
  simp [IsRun]

theorem callKind_ne_name (operator : Operator) : "Call".toList ≠ operator.name.toList := by
  cases operator <;> simp [Operator.name]

theorem name_injective {operator other : Operator}
    (same : operator.name.toList = other.name.toList) : operator = other := by
  cases operator <;> cases other <;> first | rfl | simp [Operator.name] at same

/-- What is drawn is an item of what it is drawn in. -/
theorem isItem_of_shape (spellable : expr.Spellable digits)
    (drawn : expr.shape limits = .ok text) : IsItem ',' text.toList := by
  have listed : ∀ {word : List Char} {items : List (List Char)}, IsRun Char.isAlpha word →
      (∀ item ∈ items, IsItem ',' item) → IsItem ',' (enclosed word ',' items) := by
    intro word items isRun each
    have balanced := fun item member => (each item member).balanced
    exact ⟨by simp [enclosed], balanced_enclosed (by decide) (isRun.isPlain rfl rfl) balanced,
      hides_enclosed (by decide) (isRun.isPlain rfl rfl) balanced (by decide)
        (isRun.notMem rfl)⟩
  induction expr using sidesInduction generalizing text with
  | number value position =>
      rw [of_shape_number drawn]
      have isRun := Numeral.isRun_toString value
      exact isItem_of_isPlain isRun.1 (isRun.isPlain rfl rfl) (isRun.notMem rfl)
  | parameter name position =>
      rw [of_shape_parameter drawn]
      have isRun := spellable.parameter
      exact isItem_of_isPlain isRun.1 (isRun.isPlain rfl rfl) (isRun.notMem rfl)
  | call site name arguments position ih =>
      rcases of_shape_call drawn with ⟨texts, each, spelled⟩
      rw [spelled]
      apply listed isRun_callKind
      rw [List.forall_mem_cons]
      constructor
      · have isRun := spellable.callee
        exact isItem_of_isPlain isRun.1 (isRun.isPlain rfl rfl) (isRun.notMem rfl)
      · apply forall_isItem each
        intro argument member text drawn
        exact ih argument member (spellable.argument argument member) drawn
  | binary operator left right position leftIh rightIh =>
      rcases of_shape_binary drawn with ⟨before, after, leftDrawn, rightDrawn, spelled⟩
      rw [spelled]
      apply listed (isRun_name operator)
      simp only [List.forall_mem_cons]
      exact ⟨leftIh spellable.left leftDrawn, rightIh spellable.right rightDrawn, by simp⟩
  | foreign kind shown => exact absurd spellable Spellable.not_foreign

theorem forall_isItem_of_call {site : Site} {name : String} {arguments : List Expr}
    {position : Position} {texts : List String}
    (spellable : (call site name arguments position).Spellable digits)
    (each : List.Forall₂ (fun argument text => argument.shape limits = .ok text)
      arguments texts) :
    ∀ item ∈ name.toList :: texts.map String.toList, IsItem ',' item := by
  rw [List.forall_mem_cons]
  have isRun := spellable.callee
  exact ⟨isItem_of_isPlain isRun.1 (isRun.isPlain rfl rfl) (isRun.notMem rfl),
    forall_isItem each fun argument member text drawn =>
      isItem_of_shape (spellable.argument argument member) drawn⟩

theorem forall_isItem_of_binary {operator : Operator} {left right : Expr} {position : Position}
    {before after : String}
    (spellable : (binary operator left right position).Spellable digits)
    (leftDrawn : left.shape limits = .ok before) (rightDrawn : right.shape limits = .ok after) :
    ∀ item ∈ [before.toList, after.toList], IsItem ',' item := by
  simp only [List.forall_mem_cons]
  exact ⟨isItem_of_shape spellable.left leftDrawn, isItem_of_shape spellable.right rightDrawn,
    by simp⟩

/-- Only a call is drawn as calls are, and its picture tells what it is a call of. -/
theorem exists_call_of_shape {items : List (List Char)} (spellable : expr.Spellable digits)
    (drawn : expr.shape limits = .ok text)
    (spelled : text.toList = enclosed "Call".toList ',' items)
    (each : ∀ item ∈ items, IsItem ',' item) :
    ∃ site name arguments position texts, expr = call site name arguments position ∧
      List.Forall₂ (fun argument text => argument.shape limits = .ok text) arguments texts ∧
      items = name.toList :: texts.map String.toList := by
  have opens : '(' ∈ text.toList := spelled ▸ by simp [enclosed]
  cases expr with
  | number value position =>
      exact absurd opens (of_shape_number drawn ▸ notMem_of_word?_eq_some spellable rfl)
  | parameter name position =>
      exact absurd opens (of_shape_parameter drawn ▸ notMem_of_word?_eq_some spellable rfl)
  | call site name arguments position =>
      rcases of_shape_call drawn with ⟨texts, inside, given⟩
      have same := enclosed_injective (isRun_callKind.isPlain rfl rfl)
        (isRun_callKind.isPlain rfl rfl) each (forall_isItem_of_call spellable inside)
        (spelled.symm.trans given)
      exact ⟨site, name, arguments, position, texts, rfl, inside, same.2⟩
  | binary operator left right position =>
      rcases of_shape_binary drawn with ⟨before, after, leftDrawn, rightDrawn, given⟩
      have same := enclosed_injective (isRun_callKind.isPlain rfl rfl)
        ((isRun_name operator).isPlain rfl rfl) each
        (forall_isItem_of_binary spellable leftDrawn rightDrawn) (spelled.symm.trans given)
      exact absurd same.1 (callKind_ne_name operator)
  | foreign kind shown => exact absurd spellable Spellable.not_foreign

/-- Only a chain is drawn as chains of its kind are, and its picture tells what its
sides are. -/
theorem exists_binary_of_shape {operator : Operator} {items : List (List Char)}
    (spellable : expr.Spellable digits) (drawn : expr.shape limits = .ok text)
    (spelled : text.toList = enclosed operator.name.toList ',' items)
    (each : ∀ item ∈ items, IsItem ',' item) :
    ∃ left right position before after, expr = binary operator left right position ∧
      left.shape limits = .ok before ∧ right.shape limits = .ok after ∧
      items = [before.toList, after.toList] := by
  have opens : '(' ∈ text.toList := spelled ▸ by simp [enclosed]
  cases expr with
  | number value position =>
      exact absurd opens (of_shape_number drawn ▸ notMem_of_word?_eq_some spellable rfl)
  | parameter name position =>
      exact absurd opens (of_shape_parameter drawn ▸ notMem_of_word?_eq_some spellable rfl)
  | call site name arguments position =>
      rcases of_shape_call drawn with ⟨texts, inside, given⟩
      have same := enclosed_injective ((isRun_name operator).isPlain rfl rfl)
        (isRun_callKind.isPlain rfl rfl) each (forall_isItem_of_call spellable inside)
        (spelled.symm.trans given)
      exact absurd same.1.symm (callKind_ne_name operator)
  | binary other left right position =>
      rcases of_shape_binary drawn with ⟨before, after, leftDrawn, rightDrawn, given⟩
      have same := enclosed_injective ((isRun_name operator).isPlain rfl rfl)
        ((isRun_name other).isPlain rfl rfl) each
        (forall_isItem_of_binary spellable leftDrawn rightDrawn) (spelled.symm.trans given)
      rw [name_injective same.1]
      exact ⟨left, right, position, before, after, rfl, leftDrawn, rightDrawn, same.2⟩
  | foreign kind shown => exact absurd spellable Spellable.not_foreign

/-- Two expressions that are drawn alike are the same but for their places. -/
theorem bare_eq_of_shape (spellable : expr.Spellable digits)
    (spellable' : other.Spellable digits) (drawn : expr.shape limits = .ok text)
    (drawn' : other.shape limits = .ok text) : expr.bare = other.bare := by
  induction expr using sidesInduction generalizing other text with
  | number value position =>
      obtain rfl := of_shape_number drawn
      have isWord := word?_of_shape spellable' drawn' (notMem_of_word?_eq_some spellable rfl)
      exact bare_eq_of_word?_eq_some spellable spellable' rfl isWord
  | parameter name position =>
      obtain rfl := of_shape_parameter drawn
      have isWord := word?_of_shape spellable' drawn' (notMem_of_word?_eq_some spellable rfl)
      exact bare_eq_of_word?_eq_some spellable spellable' rfl isWord
  | call site name arguments position ih =>
      rcases of_shape_call drawn with ⟨texts, each, spelled⟩
      rcases exists_call_of_shape spellable' drawn' spelled (forall_isItem_of_call spellable each)
        with ⟨site', name', arguments', position', texts', rfl, each', sameItems⟩
      rcases List.cons.inj sameItems with ⟨sameName, sameTexts⟩
      rw [(List.map_injective_iff.mpr fun _ _ => String.toList_injective) sameTexts] at each
      have sameArguments := map_eq_of_forall₂ each each' fun argument member other member' text =>
        ih argument member (spellable.argument argument member)
          (spellable'.argument other member')
      rw [bare_call, bare_call, String.toList_inj.mp sameName, sameArguments]
  | binary operator left right position leftIh rightIh =>
      rcases of_shape_binary drawn with ⟨before, after, leftDrawn, rightDrawn, spelled⟩
      rcases exists_binary_of_shape spellable' drawn' spelled
          (forall_isItem_of_binary spellable leftDrawn rightDrawn)
        with ⟨left', right', position', before', after', rfl, leftDrawn', rightDrawn', sameItems⟩
      rcases List.cons.inj sameItems with ⟨sameLeft, sameRest⟩
      obtain rfl := String.toList_inj.mp sameLeft
      obtain rfl := String.toList_inj.mp (List.cons.inj sameRest).1
      rw [bare_binary, bare_binary, leftIh spellable.left spellable'.left leftDrawn leftDrawn',
        rightIh spellable.right spellable'.right rightDrawn rightDrawn']
  | foreign kind shown => exact absurd spellable Spellable.not_foreign

/-- Expressions are written, and two are written alike if and only if they are the
same but for their places. -/
theorem exists_render_distinguishes (positive : 0 < digits) (limited : limits.digits = some digits)
    (spellable : expr.Spellable digits) (spellable' : other.Spellable digits) :
    ∃ text text', expr.render limits = .ok text ∧ other.render limits = .ok text' ∧
      (text = text' ↔ expr.bare = other.bare) := by
  rcases spellable.genuine.exists_render (spellable.writable positive limited)
    with ⟨text, written⟩
  rcases spellable'.genuine.exists_render (spellable'.writable positive limited)
    with ⟨text', written'⟩
  refine ⟨text, text', written, written', ?_⟩
  constructor
  · rintro rfl
    exact bare_eq_of_render spellable spellable' written written'
  · intro same
    rw [← render_bare, same, render_bare, written'] at written
    exact (Except.ok.inj written).symm

/-- Expressions are drawn, and two are drawn alike if and only if they are the same
but for their places. -/
theorem exists_shape_distinguishes (positive : 0 < digits) (limited : limits.digits = some digits)
    (spellable : expr.Spellable digits) (spellable' : other.Spellable digits) :
    ∃ picture picture', expr.shape limits = .ok picture ∧ other.shape limits = .ok picture' ∧
      (picture = picture' ↔ expr.bare = other.bare) := by
  rcases spellable.genuine.exists_shape (spellable.writable positive limited)
    with ⟨picture, drawn⟩
  rcases spellable'.genuine.exists_shape (spellable'.writable positive limited)
    with ⟨picture', drawn'⟩
  refine ⟨picture, picture', drawn, drawn', ?_⟩
  constructor
  · rintro rfl
    exact bare_eq_of_shape spellable spellable' drawn drawn'
  · intro same
    rw [← shape_bare, same, shape_bare, drawn'] at drawn
    exact (Except.ok.inj drawn).symm

end

/-- Texts and pictures of expressions that are put together by hand tell them apart:
each is written and drawn, and two of them are written alike, or drawn alike, if and
only if they are the same but for their positions and sites. -/
theorem texts_unambiguous {nesting : Option Nat} {liveCalls : Nat} {expr other : Expr}
    (spellable : ∀ part ∈ expr.parts, part.IsSpellable 4300)
    (spellable' : ∀ part ∈ other.parts, part.IsSpellable 4300) :
    (∃ text text', expr.render ⟨some 4300, nesting, liveCalls⟩ = .ok text ∧
      other.render ⟨some 4300, nesting, liveCalls⟩ = .ok text' ∧
      (text = text' ↔ expr.bare = other.bare)) ∧
    (∃ picture picture', expr.shape ⟨some 4300, nesting, liveCalls⟩ = .ok picture ∧
      other.shape ⟨some 4300, nesting, liveCalls⟩ = .ok picture' ∧
      (picture = picture' ↔ expr.bare = other.bare)) :=
  ⟨exists_render_distinguishes (by decide) rfl spellable spellable',
    exists_shape_distinguishes (by decide) rfl spellable spellable'⟩

/-- The expression `F(-1 x)+2*3`, as it is read. -/
def callPlusProduct : Expr :=
  binary .sum (call (.built 0) "F" [number (-1) .unplaced, parameter "x" .unplaced] .unplaced)
    (binary .product (number 2 .unplaced) (number 3 .unplaced) .unplaced) .unplaced

/-- The same operands and operators, with the sum on the inside. -/
def callPlusTimes : Expr :=
  binary .product
    (binary .sum (call (.built 0) "F" [number (-1) .unplaced, parameter "x" .unplaced] .unplaced)
      (number 2 .unplaced) .unplaced) (number 3 .unplaced) .unplaced

/-- Where the sum is can be seen in the text and in the picture. -/
theorem callPlusProduct_unambiguous :
    (∀ part ∈ callPlusProduct.parts, part.IsSpellable 4300) ∧
    (∀ part ∈ callPlusTimes.parts, part.IsSpellable 4300) ∧
    callPlusProduct.render Limits.standard ≠ callPlusTimes.render Limits.standard ∧
    callPlusProduct.shape Limits.standard ≠ callPlusTimes.shape Limits.standard := by
  have spellable : ∀ part ∈ callPlusProduct.parts, part.IsSpellable 4300 := by
    simp [callPlusProduct, IsSpellable, IsRun, Nat.toDigits_of_lt_base]
  have spellable' : ∀ part ∈ callPlusTimes.parts, part.IsSpellable 4300 := by
    simp [callPlusTimes, IsSpellable, IsRun, Nat.toDigits_of_lt_base]
  have different : callPlusProduct.bare ≠ callPlusTimes.bare := by
    simp [callPlusProduct, callPlusTimes]
  rcases texts_unambiguous spellable spellable' with
    ⟨⟨text, text', written, written', sameText⟩, ⟨picture, picture', drawn, drawn', samePicture⟩⟩
  refine ⟨spellable, spellable', ?_, ?_⟩
  · intro same
    exact different (sameText.mp (Except.ok.inj ((written.symm.trans same).trans written')))
  · intro same
    exact different (samePicture.mp (Except.ok.inj ((drawn.symm.trans same).trans drawn')))

end Expr

end Polycalc

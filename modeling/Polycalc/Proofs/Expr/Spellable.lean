import Polycalc.Proofs.Expr.Sides
import Polycalc.Proofs.Grammar.Lexemes
import Polycalc.Proofs.Text.Brackets
import Polycalc.Proofs.Text.Numerals

/-!
# Expressions that are put together by hand

Which expressions can be put together from words and integers (`Expr.Spellable`), and
of what their texts and their pictures consist: a call is written as a word with a
list in parentheses, a chain as its two sides around a sign, and both are drawn as
lists.
-/

namespace Polycalc

open Text Grammar

/-! ## Words -/

section

variable {kind : Char → Bool} {text : List Char}

theorem Grammar.IsRun.notMem (isRun : IsRun kind text) {c : Char} (outside : kind c = false) :
    c ∉ text := by
  intro member
  rw [isRun.2 c member] at outside
  cases outside

theorem Grammar.IsRun.isPlain (isRun : IsRun kind text) (noOpen : kind '(' = false)
    (noClose : kind ')' = false) : ∀ c ∈ text, IsPlain c := by
  intro c member
  constructor
  · rintro rfl
    exact isRun.notMem noOpen member
  · rintro rfl
    exact isRun.notMem noClose member

/-- What a sign and digits are. -/
def Text.Numeral.isVisible (c : Char) : Bool :=
  c == '-' || c.isDigit

theorem Text.Numeral.isRun_toString (n : Int) :
    IsRun Numeral.isVisible (toString n).toList := by
  refine ⟨Numeral.toList_toString_ne_nil n, fun c member => ?_⟩
  rw [Numeral.isVisible, Bool.or_eq_true, beq_iff_eq]
  exact Numeral.visible_of_mem_toString n c member

/-- No integer is written as the name of a parameter. -/
theorem Text.Numeral.not_isRun_toString (n : Int) : ¬ IsRun Char.isLower (toString n).toList := by
  intro isRun
  rcases List.exists_mem_of_ne_nil _ isRun.1 with ⟨c, member⟩
  have lower := isRun.2 c member
  rcases Numeral.visible_of_mem_toString n c member with rfl | digit
  · cases lower
  · rw [(Lexeme.not_letter_of_isDigit digit).2] at lower
    cases lower

end

/-- What holds of the images of all values. -/
theorem forall_of_forall₂ {α β : Type} {related : α → β → Prop} {holds : β → Prop}
    {values : List α} {images : List β} (each : List.Forall₂ related values images)
    (implied : ∀ value ∈ values, ∀ image, related value image → holds image) :
    ∀ image ∈ images, holds image := by
  induction each with
  | nil => exact fun image member => absurd member List.not_mem_nil
  | cons first _ ih =>
      rw [List.forall_mem_cons] at implied ⊢
      exact ⟨implied.1 _ first, ih implied.2⟩

/-- Values that have the same images are mapped alike if values with the same image
are. -/
theorem map_eq_of_forall₂ {α β γ : Type} {related : α → β → Prop} {f : α → γ}
    {values others : List α} {images : List β} (each : List.Forall₂ related values images)
    (each' : List.Forall₂ related others images)
    (agree : ∀ value ∈ values, ∀ other ∈ others, ∀ image,
      related value image → related other image → f value = f other) :
    values.map f = others.map f := by
  induction each generalizing others with
  | nil =>
      cases each'
      rfl
  | @cons value image values images first _ ih =>
      cases each' with
      | @cons other _ others _ first' rest' =>
          have same := agree value List.mem_cons_self other List.mem_cons_self image first first'
          have rest := ih rest' fun value member other member' =>
            agree value (List.mem_cons_of_mem _ member) other (List.mem_cons_of_mem _ member')
          rw [List.map_cons, List.map_cons, same, rest]

namespace Operator

/-- The sign between two operands, as a character. -/
def sign : Operator → Char
  | sum => '+'
  | product => '*'

theorem toList_symbol (operator : Operator) : operator.symbol.toList = [operator.sign] := by
  cases operator <;> rfl

theorem isPlain_sign (operator : Operator) : IsPlain operator.sign := by
  cases operator <;> decide

theorem precedence_lt_atom (operator : Operator) : operator.precedence < 3 := by
  cases operator <;> decide

theorem precedence_injective {operator other : Operator}
    (same : operator.precedence = other.precedence) : operator = other := by
  cases operator <;> cases other <;> first | rfl | cases same

theorem sign_ne_of_precedence_lt {operator other : Operator}
    (looser : operator.precedence < other.precedence) : operator.sign ≠ other.sign := by
  cases operator <;> cases other <;> first | decide | cases Nat.lt_irrefl _ looser

end Operator

namespace Expr

variable {limits : Limits}

/-- The words and the numbers of which expressions are put together: a call names
its callee in capital letters, a parameter has small letters, and a number has at
most so many digits. -/
def IsSpellable (digits : Nat) : Expr → Prop
  | number value _ => (Nat.toDigits 10 value.natAbs).length ≤ digits
  | parameter name _ => IsRun Char.isLower name.toList
  | call _ name _ _ => IsRun Char.isUpper name.toList
  | binary _ _ _ _ => True
  | foreign _ _ => False

/-- Everything in the expression can be spelled. -/
def Spellable (digits : Nat) (expr : Expr) : Prop :=
  ∀ part ∈ expr.parts, part.IsSpellable digits

namespace Spellable

variable {digits : Nat}

theorem argument {site : Site} {name : String} {arguments : List Expr} {position : Position}
    (spellable : (call site name arguments position).Spellable digits) :
    ∀ argument ∈ arguments, argument.Spellable digits :=
  (forall_mem_parts_call_iff.mp spellable).1

theorem callee {site : Site} {name : String} {arguments : List Expr} {position : Position}
    (spellable : (call site name arguments position).Spellable digits) :
    IsRun Char.isUpper name.toList :=
  (forall_mem_parts_call_iff.mp spellable).2

theorem left {operator : Operator} {left right : Expr} {position : Position}
    (spellable : (binary operator left right position).Spellable digits) :
    left.Spellable digits :=
  (forall_mem_parts_binary_iff.mp spellable).1

theorem right {operator : Operator} {left right : Expr} {position : Position}
    (spellable : (binary operator left right position).Spellable digits) :
    right.Spellable digits :=
  (forall_mem_parts_binary_iff.mp spellable).2.1

theorem parameter {name : String} {position : Position}
    (spellable : (parameter name position).Spellable digits) :
    IsRun Char.isLower name.toList :=
  spellable _ (self_mem_parts _)

theorem not_foreign {kind shown : String} : ¬ (foreign kind shown).Spellable digits :=
  fun spellable => spellable _ (self_mem_parts _)

theorem genuine {expr : Expr} (spellable : expr.Spellable digits) : expr.Genuine :=
  fun _ _ member => spellable _ member

theorem writable {expr : Expr} (spellable : expr.Spellable digits) (positive : 0 < digits)
    (limited : limits.digits = some digits) : expr.Writable limits := by
  intro value position member
  have few : value.natAbs < Nat.pow 10 digits :=
    (Nat.length_toDigits_le_iff (by decide) positive).mp (spellable _ member)
  rw [Limits.write, limited]
  exact ⟨_, if_pos few⟩

end Spellable

/-! ## Texts and pictures taken apart -/

theorem of_render_number {value : Int} {position : Position} {text : String}
    (written : (number value position).render limits = .ok text) : text = toString value := by
  rw [render] at written
  exact Limits.eq_toString_of_write_eq_ok written

theorem of_render_parameter {name : String} {position : Position} {text : String}
    (written : (parameter name position).render limits = .ok text) : text = name := by
  rw [render] at written
  cases written
  rfl

/-- A call is written as its name and a list of its arguments. -/
theorem of_render_call {site : Site} {name : String} {arguments : List Expr}
    {position : Position} {text : String}
    (written : (call site name arguments position).render limits = .ok text) :
    ∃ texts, List.Forall₂ (fun argument text => argument.render limits = .ok text)
        arguments texts ∧
      text.toList = enclosed name.toList ' ' (texts.map String.toList) := by
  rw [render_call] at written
  rcases Except.bind_eq_ok_iff.mp written with ⟨texts, each, joined⟩
  cases joined
  exact ⟨texts, mapM_eq_ok_iff.mp each, by simp [enclosed, String.toList_intercalate]⟩

/-- A chain is written as its two sides around a sign. -/
theorem of_render_binary {operator : Operator} {left right : Expr} {position : Position}
    {text : String} (written : (binary operator left right position).render limits = .ok text) :
    ∃ before after, left.render limits = .ok before ∧ right.render limits = .ok after ∧
      text.toList =
        (parenthesizeIf (left.precedence < operator.precedence) before).toList ++
          operator.sign ::
            (parenthesizeIf (right.precedence ≤ operator.precedence) after).toList := by
  rw [render_sides] at written
  rcases Except.bind_eq_ok_iff.mp written with ⟨before, leftWritten, written⟩
  rcases Except.bind_eq_ok_iff.mp written with ⟨after, rightWritten, joined⟩
  cases joined
  exact ⟨before, after, leftWritten, rightWritten, by simp [Operator.toList_symbol]⟩

theorem of_shape_number {value : Int} {position : Position} {text : String}
    (drawn : (number value position).shape limits = .ok text) : text = toString value := by
  rw [shape] at drawn
  exact Limits.eq_toString_of_write_eq_ok drawn

theorem of_shape_parameter {name : String} {position : Position} {text : String}
    (drawn : (parameter name position).shape limits = .ok text) : text = name := by
  rw [shape] at drawn
  cases drawn
  rfl

/-- A call is drawn as a list of its name and its arguments. -/
theorem of_shape_call {site : Site} {name : String} {arguments : List Expr}
    {position : Position} {text : String}
    (drawn : (call site name arguments position).shape limits = .ok text) :
    ∃ texts, List.Forall₂ (fun argument text => argument.shape limits = .ok text)
        arguments texts ∧
      text.toList =
        enclosed "Call".toList ',' (name.toList :: texts.map String.toList) := by
  rw [shape_call] at drawn
  rcases Except.bind_eq_ok_iff.mp drawn with ⟨texts, each, joined⟩
  cases joined
  exact ⟨texts, mapM_eq_ok_iff.mp each, by simp [enclosed, String.toList_intercalate]⟩

/-- A chain is drawn as a list of its two sides. -/
theorem of_shape_binary {operator : Operator} {left right : Expr} {position : Position}
    {text : String} (drawn : (binary operator left right position).shape limits = .ok text) :
    ∃ before after, left.shape limits = .ok before ∧ right.shape limits = .ok after ∧
      text.toList = enclosed operator.name.toList ',' [before.toList, after.toList] := by
  rw [shape_sides] at drawn
  rcases Except.bind_eq_ok_iff.mp drawn with ⟨before, leftDrawn, drawn⟩
  rcases Except.bind_eq_ok_iff.mp drawn with ⟨after, rightDrawn, joined⟩
  cases joined
  exact ⟨before, after, leftDrawn, rightDrawn, by simp [enclosed]⟩

/-- Texts of values are items of a list if each of them can be one. -/
theorem forall_isItem {separator : Char} {related : Expr → String → Prop} {exprs : List Expr}
    {texts : List String} (each : List.Forall₂ related exprs texts)
    (implied : ∀ expr ∈ exprs, ∀ text, related expr text → IsItem separator text.toList) :
    ∀ item ∈ texts.map String.toList, IsItem separator item := by
  rw [List.forall_mem_map]
  exact forall_of_forall₂ each implied

/-! ## Single words -/

section

variable {digits : Nat} {expr other : Expr} {text : String}

/-- The text of an expression that is a single word. -/
def word? : Expr → Option String
  | number value _ => some (toString value)
  | parameter name _ => some name
  | _ => none

theorem notMem_of_word?_eq_some (spellable : expr.Spellable digits)
    (isWord : expr.word? = some text) : '(' ∉ text.toList := by
  cases expr with
  | number value position =>
      cases isWord
      exact (Numeral.isRun_toString value).notMem rfl
  | parameter name position =>
      cases isWord
      exact spellable.parameter.notMem rfl
  | _ => cases isWord

/-- A word is either a numeral or a name. -/
theorem bare_eq_of_word?_eq_some (spellable : expr.Spellable digits)
    (spellable' : other.Spellable digits) (isWord : expr.word? = some text)
    (isWord' : other.word? = some text) : expr.bare = other.bare := by
  have same := isWord.trans isWord'.symm
  cases expr with
  | number value position =>
      cases other with
      | number value' position' =>
          rw [bare_number, bare_number, Numeral.toString_injective (Option.some.inj same)]
      | parameter name position' =>
          have isRun := spellable'.parameter
          rw [← Option.some.inj same] at isRun
          exact absurd isRun (Numeral.not_isRun_toString value)
      | _ => cases isWord'
  | parameter name position =>
      cases other with
      | number value position' =>
          have isRun := spellable.parameter
          rw [Option.some.inj same] at isRun
          exact absurd isRun (Numeral.not_isRun_toString value)
      | parameter name' position' =>
          rw [bare_parameter, bare_parameter, Option.some.inj same]
      | _ => cases isWord'
  | _ => cases isWord

/-- What is written without parentheses or operators is a word. -/
theorem word?_of_render (spellable : expr.Spellable digits)
    (written : expr.render limits = .ok text) (atom : expr.precedence = 3)
    (noOpen : '(' ∉ text.toList) : expr.word? = some text := by
  cases expr with
  | number value position => rw [of_render_number written, word?]
  | parameter name position => rw [of_render_parameter written, word?]
  | call site name arguments position =>
      rcases of_render_call written with ⟨texts, _, spelled⟩
      exact absurd (spelled ▸ by simp [enclosed]) noOpen
  | binary operator left right position =>
      exact absurd atom operator.precedence_lt_atom.ne
  | foreign kind shown => exact absurd spellable Spellable.not_foreign

/-- What is drawn without parentheses is a word. -/
theorem word?_of_shape (spellable : expr.Spellable digits)
    (drawn : expr.shape limits = .ok text) (noOpen : '(' ∉ text.toList) :
    expr.word? = some text := by
  cases expr with
  | number value position => rw [of_shape_number drawn, word?]
  | parameter name position => rw [of_shape_parameter drawn, word?]
  | call site name arguments position =>
      rcases of_shape_call drawn with ⟨texts, _, spelled⟩
      exact absurd (spelled ▸ by simp [enclosed]) noOpen
  | binary operator left right position =>
      rcases of_shape_binary drawn with ⟨before, after, _, _, spelled⟩
      exact absurd (spelled ▸ by simp [enclosed]) noOpen
  | foreign kind shown => exact absurd spellable Spellable.not_foreign

end

end Expr

end Polycalc

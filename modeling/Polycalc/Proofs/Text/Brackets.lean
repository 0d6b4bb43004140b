import Mathlib.Data.List.Basic

/-!
# Parentheses in texts

A text whose parentheses match is a unit: a character that occurs in it only within
parentheses can be put next to it, and the place where the two meet is found again.
Here that is said for the first such place (`Text.split_first`), for the last one
(`Text.split_last`), and for a whole list of texts behind a word
(`Text.enclosed_injective`).
-/

namespace Polycalc.Text

/-! ## Depth -/

/-- The character is no parenthesis. -/
def IsPlain (c : Char) : Prop :=
  c ≠ '(' ∧ c ≠ ')'

instance : DecidablePred IsPlain :=
  fun c => inferInstanceAs (Decidable (c ≠ '(' ∧ c ≠ ')'))

/-- How many parentheses a text leaves open. -/
def depth : List Char → Int
  | [] => 0
  | '(' :: rest => depth rest + 1
  | ')' :: rest => depth rest - 1
  | _ :: rest => depth rest

@[simp]
theorem depth_nil : depth [] = 0 :=
  rfl

@[simp]
theorem depth_cons_open (rest : List Char) : depth ('(' :: rest) = depth rest + 1 :=
  rfl

@[simp]
theorem depth_cons_close (rest : List Char) : depth (')' :: rest) = depth rest - 1 :=
  rfl

theorem depth_cons_of_isPlain {c : Char} (plain : IsPlain c) (rest : List Char) :
    depth (c :: rest) = depth rest := by
  rw [depth]
  · exact fun isOpen => plain.1 isOpen
  · exact fun isClose => plain.2 isClose

@[simp]
theorem depth_append (text more : List Char) : depth (text ++ more) = depth text + depth more := by
  fun_induction depth text with
  | case1 => simp
  | case2 rest ih =>
      rw [List.cons_append, depth_cons_open, ih]
      omega
  | case3 rest ih =>
      rw [List.cons_append, depth_cons_close, ih]
      omega
  | case4 c rest noOpen noClose ih =>
      rw [List.cons_append, depth_cons_of_isPlain ⟨noOpen, noClose⟩, ih]

theorem depth_eq_zero {text : List Char} (plain : ∀ c ∈ text, IsPlain c) : depth text = 0 := by
  induction text with
  | nil => rfl
  | cons c rest ih =>
      rw [List.forall_mem_cons] at plain
      rw [depth_cons_of_isPlain plain.1, ih plain.2]

/-! ## Matching parentheses -/

/-- Every parenthesis in the text is closed, and none is closed before it is
opened. -/
structure Balanced (text : List Char) : Prop where
  closed : depth text = 0
  opened : ∀ before after, text = before ++ after → 0 ≤ depth before

/-- The character occurs in the text within parentheses only. -/
def Hides (c : Char) (text : List Char) : Prop :=
  ∀ before after, text = before ++ c :: after → 0 < depth before

theorem balanced_of_isPlain {text : List Char} (plain : ∀ c ∈ text, IsPlain c) :
    Balanced text where
  closed := depth_eq_zero plain
  opened := by
    rintro before after rfl
    have level := depth_eq_zero fun c member => plain c (List.mem_append_left after member)
    exact Int.le_of_eq level.symm

theorem hides_of_notMem {c : Char} {text : List Char} (absent : c ∉ text) : Hides c text := by
  rintro before after rfl
  simp at absent

/-- The character is hidden from the text by what is around it. -/
theorem not_hides {c : Char} {before after : List Char} (level : depth before = 0) :
    ¬ Hides c (before ++ c :: after) := by
  intro hidden
  have inside := hidden before after rfl
  omega

theorem Balanced.append {text more : List Char} (balanced : Balanced text)
    (next : Balanced more) : Balanced (text ++ more) where
  closed := by rw [depth_append, balanced.closed, next.closed, Int.add_zero]
  opened := by
    intro before after split
    rcases List.append_eq_append_iff.mp split with ⟨begun, rfl, rest⟩ | ⟨left, rest, -⟩
    · rw [depth_append, balanced.closed, Int.zero_add]
      exact next.opened begun after rest
    · exact balanced.opened before left rest

theorem Hides.append {c : Char} {text more : List Char} (hidden : Hides c text)
    (level : depth text = 0) (next : Hides c more) : Hides c (text ++ more) := by
  intro before after split
  rcases List.append_eq_append_iff.mp split with ⟨begun, rfl, rest⟩ | ⟨left, rest, met⟩
  · rw [depth_append, level, Int.zero_add]
    exact next begun after rest
  · cases left with
    | nil =>
        rw [List.append_nil] at rest
        rw [← rest, level]
        exact next [] after met.symm
    | cons d left =>
        cases (List.cons.inj met).1
        exact hidden before left rest

/-- Within a pair of parentheses, one is open. -/
theorem Balanced.depth_pos {text before after : List Char} (balanced : Balanced text)
    (split : '(' :: (text ++ [')']) = before ++ after) (begun : before ≠ [])
    (unfinished : after ≠ []) : 0 < depth before := by
  rcases List.exists_cons_of_ne_nil begun with ⟨c, before, rfl⟩
  rcases List.eq_nil_or_concat after with rfl | ⟨after, d, rfl⟩
  · exact absurd rfl unfinished
  · have inner := (List.cons.inj split).2
    cases (List.cons.inj split).1
    rw [List.concat_eq_append, List.append_eq, ← List.append_assoc] at inner
    have within := balanced.opened before after (List.append_inj' inner rfl).1
    rw [depth_cons_open]
    omega

/-- A text whose parentheses match may be put in parentheses. -/
theorem Balanced.enclose {text : List Char} (balanced : Balanced text) :
    Balanced ('(' :: (text ++ [')'])) where
  closed := by simp [balanced.closed]
  opened := by
    intro before after split
    by_cases begun : before = []
    · simp [begun]
    by_cases unfinished : after = []
    · rw [unfinished, List.append_nil] at split
      simp [← split, balanced.closed]
    · exact Int.le_of_lt (balanced.depth_pos split begun unfinished)

/-- Parentheses hide every character in them. -/
theorem Balanced.hides_enclose {c : Char} {text : List Char} (balanced : Balanced text)
    (plain : IsPlain c) : Hides c ('(' :: (text ++ [')'])) := by
  intro before after split
  apply balanced.depth_pos split
  · rintro rfl
    exact plain.1 (List.cons.inj split).1.symm
  · exact List.cons_ne_nil c after

/-! ## Places where texts meet -/

/-- The first place where a character stands outside of parentheses is found
again. -/
theorem split_first {c : Char} {text other rest rest' : List Char} (level : depth text = 0)
    (level' : depth other = 0) (hidden : Hides c text) (hidden' : Hides c other)
    (same : text ++ c :: rest = other ++ c :: rest') : text = other ∧ rest = rest' := by
  rcases List.append_eq_append_iff.mp same with ⟨more, rfl, met⟩ | ⟨more, rfl, met⟩
  · cases more with
    | nil => simpa using met
    | cons d more =>
        cases (List.cons.inj met).1
        exact absurd hidden' (not_hides level)
  · cases more with
    | nil => simpa using met.symm
    | cons d more =>
        cases (List.cons.inj met).1
        exact absurd hidden (not_hides level')

/-- So is the last one. -/
theorem split_last {c : Char} {text other rest rest' : List Char} (level : depth text = 0)
    (level' : depth other = 0) (plain : IsPlain c) (hidden : Hides c rest)
    (hidden' : Hides c rest') (same : text ++ c :: rest = other ++ c :: rest') :
    text = other ∧ rest = rest' := by
  -- What one text has more than the other is level as well.
  have between : ∀ {text more : List Char}, depth text = 0 → depth (text ++ c :: more) = 0 →
      depth more = 0 := by
    intro text more level whole
    rw [depth_append, depth_cons_of_isPlain plain, level, Int.zero_add] at whole
    exact whole
  rcases List.append_eq_append_iff.mp same with ⟨more, rfl, met⟩ | ⟨more, rfl, met⟩
  · cases more with
    | nil => simpa using met
    | cons d more =>
        rcases List.cons.inj met with ⟨rfl, rfl⟩
        exact absurd hidden (not_hides (between level level'))
  · cases more with
    | nil => simpa using met.symm
    | cons d more =>
        rcases List.cons.inj met with ⟨rfl, rfl⟩
        exact absurd hidden' (not_hides (between level' level))

/-! ## Lists of texts -/

/-- The text can be an item of a list that is written with the separator between
its items. -/
structure IsItem (separator : Char) (text : List Char) : Prop where
  nonempty : text ≠ []
  balanced : Balanced text
  hidden : Hides separator text

theorem isItem_of_isPlain {separator : Char} {text : List Char} (nonempty : text ≠ [])
    (plain : ∀ c ∈ text, IsPlain c) (absent : separator ∉ text) : IsItem separator text :=
  ⟨nonempty, balanced_of_isPlain plain, hides_of_notMem absent⟩

/-- A word and a list in parentheses behind it. -/
def enclosed (word : List Char) (separator : Char) (items : List (List Char)) : List Char :=
  word ++ '(' :: ([separator].intercalate items ++ [')'])

section

variable {separator : Char} {items others : List (List Char)}

/-- A list of items is written in the same way as another one only if it is the
same. -/
theorem flatMap_injective (each : ∀ item ∈ items, IsItem separator item)
    (each' : ∀ item ∈ others, IsItem separator item)
    (same : items.flatMap (· ++ [separator]) = others.flatMap (· ++ [separator])) :
    items = others := by
  induction items generalizing others with
  | nil =>
      cases others with
      | nil => rfl
      | cons other others => simp at same
  | cons item items ih =>
      cases others with
      | nil => simp at same
      | cons other others =>
          rw [List.forall_mem_cons] at each each'
          simp only [List.flatMap_cons, List.append_assoc, List.singleton_append] at same
          rcases split_first each.1.balanced.closed each'.1.balanced.closed each.1.hidden
            each'.1.hidden same with ⟨rfl, rest⟩
          rw [ih each.2 each'.2 rest]

theorem intercalate_append_singleton (nonempty : items ≠ []) :
    [separator].intercalate items ++ [separator] = items.flatMap (· ++ [separator]) := by
  induction items with
  | nil => exact absurd rfl nonempty
  | cons item items ih =>
      cases items with
      | nil => simp
      | cons next items =>
          rw [List.intercalate_cons_cons, List.append_assoc, ih (List.cons_ne_nil _ _)]
          rfl

theorem intercalate_eq_nil_iff (each : ∀ item ∈ items, IsItem separator item) :
    [separator].intercalate items = [] ↔ items = [] := by
  cases items with
  | nil => simp
  | cons item items =>
      have nonempty := (each item List.mem_cons_self).nonempty
      cases items <;> simp [nonempty]

/-- What is written with a separator between its items tells which items there
are. -/
theorem intercalate_injective (each : ∀ item ∈ items, IsItem separator item)
    (each' : ∀ item ∈ others, IsItem separator item)
    (same : [separator].intercalate items = [separator].intercalate others) :
    items = others := by
  by_cases none : items = []
  · subst none
    exact ((intercalate_eq_nil_iff each').mp same.symm).symm
  by_cases none' : others = []
  · subst none'
    exact (intercalate_eq_nil_iff each).mp same
  · apply flatMap_injective each each'
    rw [← intercalate_append_singleton none, ← intercalate_append_singleton none', same]

theorem balanced_intercalate (plain : IsPlain separator)
    (each : ∀ item ∈ items, Balanced item) : Balanced ([separator].intercalate items) := by
  have single : ∀ c ∈ [separator], IsPlain c := by simpa using plain
  induction items with
  | nil =>
      rw [List.intercalate_nil]
      exact balanced_of_isPlain fun c member => absurd member List.not_mem_nil
  | cons item items ih =>
      rw [List.forall_mem_cons] at each
      cases items with
      | nil =>
          rw [List.intercalate_singleton]
          exact each.1
      | cons next items =>
          rw [List.intercalate_cons_cons]
          exact (each.1.append (balanced_of_isPlain single)).append (ih each.2)

variable {word word' : List Char}

theorem balanced_enclosed (plain : IsPlain separator) (isPlain : ∀ c ∈ word, IsPlain c)
    (each : ∀ item ∈ items, Balanced item) : Balanced (enclosed word separator items) :=
  (balanced_of_isPlain isPlain).append (balanced_intercalate plain each).enclose

/-- A list in parentheses hides what its word does not contain. -/
theorem hides_enclosed {c : Char} (plain : IsPlain separator) (isPlain : ∀ c ∈ word, IsPlain c)
    (each : ∀ item ∈ items, Balanced item) (outside : IsPlain c) (absent : c ∉ word) :
    Hides c (enclosed word separator items) :=
  (hides_of_notMem absent).append (depth_eq_zero isPlain)
    ((balanced_intercalate plain each).hides_enclose outside)

/-- A list in parentheses tells its word and its items. -/
theorem enclosed_injective (isPlain : ∀ c ∈ word, IsPlain c) (isPlain' : ∀ c ∈ word', IsPlain c)
    (each : ∀ item ∈ items, IsItem separator item)
    (each' : ∀ item ∈ others, IsItem separator item)
    (same : enclosed word separator items = enclosed word' separator others) :
    word = word' ∧ items = others := by
  have noOpen : ∀ {word : List Char}, (∀ c ∈ word, IsPlain c) → Hides '(' word :=
    fun isPlain => hides_of_notMem fun member => (isPlain '(' member).1 rfl
  rcases split_first (depth_eq_zero isPlain) (depth_eq_zero isPlain') (noOpen isPlain)
    (noOpen isPlain') same with ⟨sameWord, inner⟩
  exact ⟨sameWord, intercalate_injective each each' (List.append_cancel_right inner)⟩

end

end Polycalc.Text

import Polycalc.Text.Paint
import Polycalc.Proofs.Text.Numerals

/-!
# What is left of a painted text

Whatever the control sequences of a painting are, the text between them can be told from
them.  A control sequence goes from an escape character to the next letter `m`; if all of
them are left out of a painted text that has no escape characters of its own, the text is
what is left (`Text.Shows.withoutControl_eq`).
-/

namespace Polycalc.Text

/-- The characters that are in no control sequence.  It is said whether the first of them
is in the middle of one. -/
def visible : (inside : Bool) → List Char → List Char
  | _, [] => []
  | true, c :: rest => visible (c ≠ 'm') rest
  | false, c :: rest => if c = '\x1b' then visible true rest else c :: visible false rest

/-- A text without the control sequences in it. -/
def withoutControl (text : String) : String :=
  String.ofList (visible false text.toList)

theorem visible_append {characters : List Char} (ordinary : '\x1b' ∉ characters)
    (rest : List Char) :
    visible false (characters ++ rest) = characters ++ visible false rest := by
  induction characters with
  | nil => rfl
  | cons c characters ih =>
      rw [List.mem_cons, not_or] at ordinary
      rw [List.cons_append, visible, if_neg (Ne.symm ordinary.1), ih ordinary.2,
        List.cons_append]

/-- A control sequence goes as far as the first letter `m`. -/
theorem visible_of_inside {code : List Char} (unended : 'm' ∉ code) (rest : List Char) :
    visible true (code ++ 'm' :: rest) = visible false rest := by
  induction code with
  | nil => simp [visible]
  | cons c code ih =>
      rw [List.mem_cons, not_or] at unended
      rw [List.cons_append, visible, decide_eq_true (Ne.symm unended.1), ih unended.2]

theorem visible_controlSequence (code : Nat) (rest : List Char) :
    visible false ((controlSequence code).toList ++ rest) = visible false rest := by
  have unended : 'm' ∉ '[' :: Nat.toDigits 10 code := by
    rw [List.mem_cons, not_or]
    exact ⟨by decide, Numeral.notMem_toDigits rfl code⟩
  have spelled : (controlSequence code).toList ++ rest =
      '\x1b' :: (('[' :: Nat.toDigits 10 code) ++ 'm' :: rest) := by
    simp [controlSequence]
  rw [spelled, visible, if_pos rfl, visible_of_inside unended]

/-! ## Painted texts -/

/-- Wherever the painted text stands, the text is what can be seen of it. -/
def Shows (painted text : String) : Prop :=
  ∀ rest, visible false (painted.toList ++ rest) = text.toList ++ visible false rest

namespace Shows

variable {painted painted' text text' : String}

theorem of_ordinary (ordinary : '\x1b' ∉ text.toList) : Shows text text :=
  visible_append ordinary

theorem append (first : Shows painted text) (second : Shows painted' text') :
    Shows (painted ++ painted') (text ++ text') := by
  intro rest
  rw [String.toList_append, String.toList_append, List.append_assoc, first, second,
    List.append_assoc]

/-- Nothing can be seen of control sequences. -/
theorem controlSequences (codes : List Nat) : Shows (controlSequences codes) "" := by
  induction codes with
  | nil => exact fun _ => rfl
  | cons code codes ih =>
      have first : Shows (controlSequence code) "" := visible_controlSequence code
      rw [Text.controlSequences, List.map_cons, String.join_cons]
      exact first.append ih

/-- All of a text can be seen, however it is painted. -/
theorem paint (shows : Shows painted text) (painting : Painting) (weight : Weight)
    (colour : Option Colour) : Shows (painting.paint weight colour painted) text := by
  obtain ⟨opening, closing, encloses⟩ := painting.encloses weight colour
  have enclosed := ((controlSequences opening).append shows).append (controlSequences closing)
  rwa [← encloses, String.empty_append, String.append_empty] at enclosed

/-- The text is what is left without control sequences. -/
theorem withoutControl_eq (shows : Shows painted text) : withoutControl painted = text := by
  have left := shows []
  rw [List.append_nil, visible, List.append_nil] at left
  rw [withoutControl, left, String.ofList_toList]

end Shows

end Polycalc.Text

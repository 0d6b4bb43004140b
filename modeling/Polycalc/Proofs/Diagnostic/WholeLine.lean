import Polycalc.Proofs.Diagnostic.Excerpt
import Polycalc.Proofs.Text.Painting

/-!
# The line is shown whole

Whatever the column and the length of a diagnostic are, its line is shown whole and
once, and the bar under it is not empty (`Console.diagnose_whole_line`).  Colours only
put control sequences around two parts of what is shown (`Console.exists_parts`), and
if the line has no escape characters the sequences can be taken out of the text again
(`Console.shows_enclosed`).

Nothing is shown if the margin is refused.  It is only if it is longer than the line and
cannot be counted.
-/

namespace Polycalc

open Text

namespace Console

/-! ## Margins -/

/-- A margin behind the end of its line is refused if it cannot be counted. -/
theorem checkMargin_of_le {margin lineLength : Nat} (beyond : lineLength < margin)
    (huge : Int.pow 2 63 ≤ (margin : Int)) :
    checkMargin (margin + 1 : Nat) lineLength = .error .countOutOfRange := by
  rw [checkMargin, marginWidth_succ, if_neg (Nat.not_le.mpr beyond), checkCount,
    if_neg fun fits => Int.not_le.mpr fits.2 huge]

/-- Any other margin is not refused. -/
theorem checkMargin_of_or {margin lineLength : Nat}
    (narrow : margin ≤ lineLength ∨ (margin : Int) < Int.pow 2 63) :
    checkMargin (margin + 1 : Nat) lineLength = .ok () := by
  rcases narrow with within | small
  · exact checkMargin_succ within
  · exact checkMargin_of_lt small lineLength

/-! ## The line and its colours -/

/-- A diagnostic is shown as if its column were the one behind the margin, unless the
margin is refused. -/
theorem diagnose_eq_of_col (painting : Painting) {diagnostic : Diagnostic} {col : Int}
    {length : Nat} (placed : diagnostic.col = some col) (given : diagnostic.length = length)
    (line : String) (warning : Bool) :
    diagnose painting diagnostic line warning =
      (checkMargin (marginWidth col + 1 : Nat) line.length).map fun _ =>
        underline painting (marginWidth col + 1 : Nat) length line warning := by
  have same := marginWidth_succ (marginWidth col)
  have bar := checkBar_succ (marginWidth col) length line.length
  simp only [barWidth, stopOf, same] at bar
  simp only [diagnose, placed, given, checkMargin, underline, barWidth, stopOf, same, bar]
  split
  · rfl
  · cases checkCount (marginWidth col) with
    | error fault => rfl
    | ok _ => rfl

/-- A line in three parts and under it a caret and a bar, behind a margin; one text is
put in front of the second part and of the caret, and one behind the second part and
behind the bar. -/
def enclosed (opening closing before part after : String) (margin bar : Nat) : String :=
  "  " ++ before ++ (opening ++ part ++ closing) ++ after ++ "\n" ++
    "  " ++ String.ofList (List.replicate margin ' ') ++
      (opening ++ String.ofList ('^' :: List.replicate bar '~') ++ closing)

variable {before part after : String} {margin bar : Nat}

/-- Without the texts that are put in there is the line with a caret and a bar. -/
theorem enclosed_empty :
    enclosed "" "" before part after margin bar = pointed (before ++ part ++ after) margin bar := by
  have caret : '^' :: List.replicate bar '~' = "^".toList ++ List.replicate bar '~' := rfl
  rw [enclosed, pointed, caret, String.ofList_append, String.ofList_toList]
  simp only [String.empty_append, String.append_empty, String.append_assoc]

/-- Control sequences that are put in can be taken out again. -/
theorem shows_enclosed (ordinary : '\x1b' ∉ (before ++ part ++ after).toList)
    (opening closing : List Nat) :
    Shows (enclosed (controlSequences opening) (controlSequences closing) before part after
      margin bar) (pointed (before ++ part ++ after) margin bar) := by
  simp only [String.toList_append, List.mem_append, not_or] at ordinary
  have indent : Shows "  " "  " := .of_ordinary (by decide)
  have lineEnd : Shows "\n" "\n" := .of_ordinary (by decide)
  have spaces : Shows (.ofList (List.replicate margin ' ')) _ := .of_ordinary (by simp)
  have caret : Shows (.ofList ('^' :: List.replicate bar '~')) _ := .of_ordinary (by simp)
  have around : ∀ {text : String}, Shows text text →
      Shows (controlSequences opening ++ text ++ controlSequences closing) ("" ++ text ++ "") :=
    fun shows => ((Shows.controlSequences opening).append shows).append
      (Shows.controlSequences closing)
  have shown := (((indent.append (.of_ordinary ordinary.1.1)).append
    (around (.of_ordinary ordinary.1.2))).append (.of_ordinary ordinary.2)).append lineEnd
  rw [← enclosed_empty]
  exact ((shown.append indent).append spaces).append (around caret)

/-- A line has three parts, whatever the painting: what is put around a text to paint it
is put around the second part and around the caret with the bar. -/
theorem exists_parts (line : String) (margin length : Nat) (warning : Bool) :
    ∃ before part after, before ++ part ++ after = line ∧
      ∀ (painting : Painting) {opening closing : String},
        (∀ text, painting.paint .bold (some (severityColour warning)) text =
          opening ++ text ++ closing) →
        underline painting (margin + 1 : Nat) length line warning =
          enclosed opening closing before part after margin
            (min length (line.length - margin) - 1) := by
  have ordered : margin ≤ min (margin + length) (max line.length (margin + 1)) := by omega
  let cut := min (margin + length) (max line.length (margin + 1))
  refine ⟨.ofList (line.toList.take margin), .ofList ((line.toList.take cut).drop margin),
    .ofList (line.toList.drop cut), ?_, fun painting opening closing encloses => ?_⟩
  · have whole := take_append_drop_append line.toList ordered []
    rw [List.append_nil, List.append_nil, ← List.append_assoc] at whole
    rw [← String.ofList_append, ← String.ofList_append, whole, String.ofList_toList]
  · simp only [underline, enclosed, encloses, String.length_toList, cutoff_succ,
      marginWidth_succ, barWidth_succ]
    rfl

/-! ## What is shown -/

/-- Nothing of a line is lost or shown twice.  For every column and every length that is
not negative, the line is shown as it is, and under it stand a caret behind as many spaces
as the column says and a bar.  The caret and the bar together are as wide as the length
says, but no wider than what there is of the line, and at least one character wide.

However it is painted, the same is shown with control sequences put in: those in front of
a painted text before a part of the line and before the caret, those behind a painted text
after this part and after the bar.  So if these are taken out again, the text without
colours is what is left; and if the line itself has no escape characters, it is what is
left without all control sequences.

A margin that is longer than the line is refused if it has 64 bits, and then nothing is
shown. -/
theorem diagnose_whole_line {diagnostic : Diagnostic} {col : Int}
    (placed : diagnostic.col = some col) (length : 0 ≤ diagnostic.length) (line : String)
    (warning : Bool) :
    ∃ margin bar : Nat, (margin : Int) = max (col - 1) 0 ∧
      (bar + 1 : Nat) = max 1 (min diagnostic.length (line.length - margin)) ∧
      (margin ≤ line.length ∨ (margin : Int) < Int.pow 2 63 →
        diagnose .plain diagnostic line warning = .ok (pointed line margin bar) ∧
          ∃ before part after, before ++ part ++ after = line ∧
            enclosed "" "" before part after margin bar = pointed line margin bar ∧
            ∀ painting : Painting, ∃ opening closing coloured,
              (∀ text, painting.paint .bold (some (severityColour warning)) text =
                controlSequences opening ++ text ++ controlSequences closing) ∧
              diagnose painting diagnostic line warning = .ok coloured ∧
              coloured = enclosed (controlSequences opening) (controlSequences closing) before
                part after margin bar ∧
              ('\x1b' ∉ line.toList → withoutControl coloured = pointed line margin bar)) ∧
      (line.length < margin → Int.pow 2 63 ≤ (margin : Int) → ∀ painting,
        diagnose painting diagnostic line warning = .error .countOutOfRange) := by
  obtain ⟨count, given⟩ := Int.eq_ofNat_of_zero_le length
  refine ⟨marginWidth col, min count (line.length - marginWidth col) - 1, ?_, ?_, ?_, ?_⟩
  · rw [marginWidth]
    omega
  · rw [given]
    omega
  · intro narrow
    have shown : ∀ painting, diagnose painting diagnostic line warning =
        .ok (underline painting (marginWidth col + 1 : Nat) count line warning) := by
      intro painting
      rw [diagnose_eq_of_col painting placed given, checkMargin_of_or narrow]
      rfl
    obtain ⟨before, part, after, rfl, painted⟩ :=
      exists_parts line (marginWidth col) count warning
    refine ⟨by rw [shown, underline_unpainted], before, part, after, rfl, enclosed_empty,
      fun painting => ?_⟩
    obtain ⟨opening, closing, encloses⟩ :=
      painting.encloses .bold (some (severityColour warning))
    refine ⟨opening, closing, _, encloses, shown painting, painted painting encloses, ?_⟩
    intro ordinary
    rw [painted painting encloses]
    exact (shows_enclosed ordinary opening closing).withoutControl_eq
  · intro beyond huge painting
    rw [diagnose_eq_of_col painting placed given, checkMargin_of_le beyond huge]
    rfl

/-- An error two columns behind the end of a line of two characters. -/
def behindLine : Diagnostic :=
  .placed .parse [.snippet "xyz"] ⟨1, 5⟩ 3

/-- The caret stands where the column says, and there is nothing behind it. -/
theorem behindLine_diagnosed :
    behindLine.col = some 5 ∧ 0 ≤ behindLine.length ∧
      diagnose .plain behindLine "ab" false = .ok "  ab\n      ^" ∧
      ∃ coloured, diagnose .ofTerminal behindLine "ab" false = .ok coloured ∧
        withoutControl coloured = "  ab\n      ^" := by
  have placed : behindLine.col = some 5 := rfl
  have length : 0 ≤ behindLine.length := by decide
  obtain ⟨margin, bar, marginEq, barEq, shown, _⟩ :=
    diagnose_whole_line placed length "ab" false
  have four : margin = 4 := by omega
  subst four
  have size : "ab".length = 2 := rfl
  have none : bar = 0 := by
    rw [size] at barEq
    omega
  subst none
  obtain ⟨plain, _, _, _, _, _, painted⟩ := shown (Or.inr (by decide))
  obtain ⟨_, _, coloured, _, diagnosed, _, left⟩ := painted .ofTerminal
  exact ⟨placed, length, plain, coloured, diagnosed, left (by decide)⟩

/-- An error so far behind the end of its line that the spaces before the caret cannot be
counted. -/
def farBehindLine : Diagnostic :=
  .placed .general [.snippet "a"] ⟨1, 9223372036854775809⟩ 1

/-- The line is not shown, with or without colours. -/
theorem farBehindLine_refused :
    farBehindLine.col = some 9223372036854775809 ∧ farBehindLine.length = 1 ∧
      (∀ painting, diagnose painting farBehindLine "a" false = .error .countOutOfRange) ∧
      diagnose .plain farBehindLine "a" false ≠ .ok (pointed "a" 9223372036854775808 0) := by
  have refused : ∀ painting,
      diagnose painting farBehindLine "a" false = .error .countOutOfRange := fun _ => rfl
  refine ⟨rfl, rfl, refused, ?_⟩
  rw [refused]
  intro same
  cases same

end Console

end Polycalc

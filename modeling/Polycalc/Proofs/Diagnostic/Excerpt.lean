import Polycalc.Proofs.Diagnostic.Places

/-!
# What is shown of the source text

Under the message of a diagnostic stands the source line that it points into, and
under that a caret and a bar.  The place in the text, the line that is shown and the
caret agree (`Program.diagnostic_points`), although lines are counted in one way when
the text is read and in another when a line of it is shown.
-/

namespace Polycalc

namespace Console

/-- A line with a caret and a bar under it, behind a margin. -/
def pointed (line : String) (margin bar : Nat) : String :=
  "  " ++ line ++ "\n" ++ "  " ++ String.ofList (List.replicate margin ' ')
    ++ "^" ++ String.ofList (List.replicate bar '~')

/-! ## Margins and bars -/

variable {margin lineLength : Nat}

theorem marginWidth_succ (margin : Nat) : marginWidth (margin + 1 : Nat) = margin := by
  simp [marginWidth]

theorem stopOf_succ (margin length lineLength : Nat) :
    stopOf (margin + 1 : Nat) length lineLength =
      (min (margin + length) (max lineLength (margin + 1)) : Nat) := by
  rw [stopOf, marginWidth_succ]
  omega

theorem barWidth_succ (margin length lineLength : Nat) :
    (barWidth (margin + 1 : Nat) length lineLength).toNat =
      min length (lineLength - margin) - 1 := by
  rw [barWidth, stopOf_succ, marginWidth_succ]
  omega

theorem checkMargin_succ (within : margin ≤ lineLength) :
    checkMargin (margin + 1 : Nat) lineLength = .ok () := by
  rw [checkMargin, marginWidth_succ, if_pos within]

/-- A margin that can be counted is not refused, however short the line is. -/
theorem checkMargin_of_lt (small : (margin : Int) < Int.pow 2 63) (lineLength : Nat) :
    checkMargin (margin + 1 : Nat) lineLength = .ok () := by
  have least : -Int.pow 2 63 ≤ (margin : Int) :=
    Int.le_trans (by decide) (Int.natCast_nonneg margin)
  by_cases within : margin ≤ lineLength
  · exact checkMargin_succ within
  · rw [checkMargin, marginWidth_succ, if_neg within, checkCount, if_pos ⟨least, small⟩]

/-- A bar is never refused: the part that is underlined has no negative length. -/
theorem checkBar_succ (margin length lineLength : Nat) :
    checkBar (barWidth (margin + 1 : Nat) length lineLength) = .ok () := by
  have least : -1 ≤ barWidth (margin + 1 : Nat) length lineLength := by
    rw [barWidth, stopOf_succ, marginWidth_succ]
    omega
  by_cases some : 0 ≤ barWidth (margin + 1 : Nat) length lineLength
  · rw [checkBar, if_pos some]
  · have none : barWidth (margin + 1 : Nat) length lineLength = -1 := by omega
    rw [none]
    rfl

theorem cutoff_succ (margin length lineLength : Nat) :
    cutoff lineLength (stopOf (margin + 1 : Nat) length lineLength) =
      min (margin + length) (max lineLength (margin + 1)) := by
  rw [stopOf_succ, cutoff, if_neg (Int.not_lt.mpr (Int.natCast_nonneg _)), Int.toNat_natCast]

/-! ## The line -/

/-- A line in three parts is the line. -/
theorem take_append_drop_append {α : Type} (values : List α) {first second : Nat}
    (ordered : first ≤ second) (rest : List α) :
    values.take first ++ ((values.take second).drop first ++ (values.drop second ++ rest)) =
      values ++ rest := by
  have start : values.take first = (values.take second).take first := by
    rw [List.take_take, Nat.min_eq_left ordered]
  rw [start, ← List.append_assoc, List.take_append_drop, ← List.append_assoc,
    List.take_append_drop]

/-- Without colours the line is shown as it is. -/
theorem underline_unpainted (line : String) (margin length : Nat) (warning : Bool) :
    underline .plain (margin + 1 : Nat) length line warning =
      pointed line margin (min length (line.length - margin) - 1) := by
  have ordered : margin ≤ min (margin + length) (max line.length (margin + 1)) := by omega
  have caret : ∀ bar, '^' :: List.replicate bar '~' = "^".toList ++ List.replicate bar '~' :=
    fun _ => rfl
  rw [← String.toList_inj, underline, pointed]
  simp only [Text.Painting.plain, String.length_toList, cutoff_succ, marginWidth_succ,
    barWidth_succ, String.toList_append, String.toList_ofList, caret, List.append_assoc,
    take_append_drop_append _ ordered]

/-- What points at a column of a line can be shown unless the margin is refused. -/
theorem diagnose_placed (painting : Text.Painting) (category : Category) (message : List Piece)
    {position : Position} (col : position.col = (margin + 1 : Nat)) (length : Nat) {line : String}
    (allowed : checkMargin (margin + 1 : Nat) line.length = .ok ()) (warning : Bool) :
    diagnose painting (.placed category message position length) line warning =
      .ok (underline painting (margin + 1 : Nat) length line warning) := by
  simp only [diagnose, Diagnostic.placed, col, allowed, checkBar_succ]
  rfl

/-- Of a diagnostic that points into its source text the source line is known, and
it is shown under the message. -/
theorem throw_placed {console : Console} {category : Category} {message : List Piece}
    {position : Position} {length : Nat} {line : String}
    (found : console.sourceLine (.placed category message position length) = some line)
    (col : position.col = (margin + 1 : Nat)) (within : margin ≤ line.length) (status : Int) :
    console.throw (.placed category message position length) status =
      (console.errorLine (.placed category message position length) ++
          (underline console.painted (margin + 1 : Nat) length line false ++ "\n"),
        console.exitIfFatal status) := by
  have shown : console.excerpt (.placed category message position length) false =
      .ok (underline console.painted (margin + 1 : Nat) length line false ++ "\n") := by
    simp only [excerpt, found,
      diagnose_placed console.painted category message col length (checkMargin_succ within)]
    rfl
  rw [throw, shown]
  rfl

end Console

/-! ## Places and lines -/

/-- A place of the text, the place where its line begins and the line that is shown
agree: before the margin the line is what stands in the text between the two. -/
structure Cursor.AgreesWith (text : String) (position : Position) (begin here : Cursor)
    (line : String) (margin : Nat) : Prop where
  begins : (Cursor.start text).Reaches begin
  reaches : begin.Reaches here
  first : begin.position = ⟨position.line, 1⟩
  place : here.position = position
  only : ∀ there, (Cursor.start text).Reaches there → there.position = position → there = here
  col : position.col = (margin + 1 : Nat)
  offset : here.offset = begin.offset + margin
  before : line.toList.take margin = (text.toList.take here.offset).drop begin.offset

/-- For a position that is in the text there is a line to show. -/
theorem PointsInto.exists_line {text : String} {position : Position}
    (points : PointsInto text position) :
    ∃ line begin here, ∃ above margin : Nat,
      Cursor.AgreesWith text position begin here line margin ∧
        position.line = (above + 1 : Nat) ∧ (Text.lines text)[above]? = some line ∧
          margin ≤ line.length := by
  rcases points with ⟨here, reaches, rfl, something⟩
  rcases reaches.exists_standsOn with ⟨begin, above, part, standsOn⟩
  have place := standsOn.position_eq
  have nonempty : part ++ here.rest ≠ [] := by
    rcases something with more | behind
    · exact List.append_ne_nil_of_right_ne_nil _ more
    · rintro nothing
      rw [place, (List.append_eq_nil_iff.mp nothing).1] at behind
      exact Int.lt_irrefl _ behind
  rcases standsOn.exists_line nonempty with ⟨remainder, shown⟩
  have agrees : Cursor.AgreesWith text here.position begin here
      (String.ofList (part ++ remainder)) part.length := by
    constructor
    · exact standsOn.begins
    · exact standsOn.reaches
    · rw [place]
      exact standsOn.linePosition
    · rfl
    · exact fun there reaches' same => reaches.eq_of_position_eq reaches' same
    · rw [place]
    · exact standsOn.offset
    · rw [standsOn.drop_take, String.toList_ofList, List.take_left]
  have within : part.length ≤ (String.ofList (part ++ remainder)).length := by
    rw [String.length_ofList, List.length_append]
    exact Nat.le_add_right _ _
  exact ⟨_, begin, here, above.length, part.length, agrees, by rw [place], shown, within⟩

/-- The source line of a diagnostic is the line with its number. -/
theorem Console.sourceLine_registerSource (diagnostic : Diagnostic) {position : Position}
    (placed : diagnostic.position = some position) {above : Nat}
    (line : position.line = (above + 1 : Nat)) (console : Console) (path text : String) :
    (console.registerSource path text).sourceLine diagnostic = (Text.lines text)[above]? := by
  have positive : (0 : Int) < (above + 1 : Nat) := Int.natCast_pos.mpr (Nat.succ_pos above)
  have index : ((above + 1 : Nat) - 1 : Int).toNat = above := by omega
  rw [sourceLine, placed]
  simp only [Option.bind_eq_bind, Option.bind_some, line, if_pos positive, index, registerSource]

/-- Every diagnostic of a text that has a position points at the right character.
The source line is known; before the column it is what stands in the text from the
beginning of the line to the place that the position denotes; and what is printed,
without colours, is this line and under it a caret in the column and a bar that does
not go beyond the line. -/
theorem Program.diagnostic_points (settings : Settings) (fatal verbose : Bool)
    (path : String) {text : String} {ending : Outcome} {diagnostic : Diagnostic}
    {position : Position} (ended : (outcomeOfText settings text).1 = .ok ending)
    (reported : ending.diagnostic? = some diagnostic)
    (placed : diagnostic.position = some position) :
    ∃ line begin here, ∃ margin bar : Nat,
      (Console.registerSource { fatal, verbose } path text).sourceLine diagnostic = some line ∧
        Cursor.AgreesWith text position begin here line margin ∧
        (margin + 1 + bar ≤ line.length ∨ margin = line.length ∧ bar = 0) ∧
        ∀ status,
          ((Console.registerSource { fatal, verbose } path text).throw diagnostic status).1 =
            (Console.registerSource { fatal, verbose } path text).errorLine diagnostic ++
              (Console.pointed line margin bar ++ "\n") := by
  cases grounded_of_outcomeOfText ended reported with
  | unplaced category message => cases placed
  | placed category message length points =>
      cases placed
      obtain ⟨line, begin, here, above, margin, agrees, number, shown, within⟩ :=
        points.exists_line
      have found := Console.sourceLine_registerSource (.placed category message _ length) rfl
        number { fatal, verbose } path text
      rw [shown] at found
      refine ⟨line, begin, here, margin, min length (line.length - margin) - 1, found, agrees,
        by omega, ?_⟩
      intro status
      rw [Console.throw_placed found agrees.col within, ← Console.underline_unpainted]
      rfl

/-- A text with a line separator where a number is expected. -/
def brokenText : String :=
  "DEF MAIN \x7b F(1) \x7d ;\r\nDEF F x \x7b \u2028x \x7d ;\n"

/-- What is wrong with the text. -/
def brokenTextError : LexError :=
  ⟨.unexpectedCharacter '\u2028', ⟨2, 11⟩⟩

/-- The line separator ends the line that is shown and none that is read, so the caret
stands right behind the line. -/
theorem brokenText_points :
    (Program.outcomeOfText {} brokenText).1 = .ok (.parseFailed (.lexical brokenTextError)) ∧
      ∃ begin here, Cursor.AgreesWith brokenText ⟨2, 11⟩ begin here "DEF F x \x7b " 10 ∧
        ((Console.registerSource {} "F" brokenText).throw brokenTextError.diagnostic 1).1 =
          (Console.registerSource {} "F" brokenText).errorLine brokenTextError.diagnostic ++
            (Console.pointed "DEF F x \x7b " 10 0 ++ "\n") := by
  have ended : (Program.outcomeOfText {} brokenText).1 =
      .ok (.parseFailed (.lexical brokenTextError)) := by
    cbv
  have placed : brokenTextError.diagnostic.position = some ⟨2, 11⟩ := rfl
  have known : (Console.registerSource {} "F" brokenText).sourceLine brokenTextError.diagnostic =
      some "DEF F x \x7b " := by
    cbv
  obtain ⟨line, begin, here, margin, bar, found, agrees, within, shown⟩ :=
    Program.diagnostic_points {} true false "F" ended rfl placed
  cases known.symm.trans found
  have ten : margin = 10 := by
    have col := agrees.col
    simp only at col
    omega
  subst ten
  have none : bar = 0 := by
    have length : "DEF F x \x7b ".length = 10 := rfl
    omega
  subst none
  exact ⟨ended, begin, here, agrees, shown 1⟩

end Polycalc

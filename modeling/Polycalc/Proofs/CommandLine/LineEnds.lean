import Polycalc.Proofs.CommandLine.Agreement
import Polycalc.Proofs.Program.LineEnds
import Polycalc.Proofs.Program.Replacement

/-!
# Running texts with other line ends

Whether a carriage return stands before the line feed of a statement makes no
difference to what is printed, to how the program ends, or to the outcome of a text
(`CommandLine.run_lineEnds`).  One diagnostic underlines as many columns as the end of
the statement has characters; the line that is shown ends with the semicolon, and the
bar goes no further.
-/

namespace Polycalc

/-! ## What is said -/

/-- What a diagnostic says, and about which place, but not how many columns it
underlines. -/
def Diagnostic.unmeasured (diagnostic : Diagnostic) : Diagnostic :=
  { diagnostic with length := 0 }

/-- The kind of an outcome, its value, and what is said about it. -/
def Outcome.told (outcome : Outcome) : Int × Option Int × Option Diagnostic :=
  (outcome.status, outcome.value?, outcome.diagnostic?.map Diagnostic.unmeasured)

theorem Failure.SameButLineEnd.told {failure failure' : Failure}
    (same : failure.SameButLineEnd failure') :
    (Outcome.ofResult (.error failure')).map Outcome.told =
      (Outcome.ofResult (.error failure)).map Outcome.told := by
  cases same <;> rfl

/-! ## What is shown -/

theorem Cursor.position_of_next {here after : Cursor} {token : Token}
    (next : here.next = .ok (token, after)) : token.position = here.position := by
  unfold Cursor.next at next
  split at next
  · cases next
  · cases next
    rfl

/-- The end of a statement stands at the end of its line. -/
theorem Cursor.Reaches.exists_line_of_endOfStatement {text : String} {here after : Cursor}
    {carriageReturn : Bool} {position : Position} (reaches : (Cursor.start text).Reaches here)
    (next : here.next = .ok (⟨.endOfStatement carriageReturn, position⟩, after)) :
    ∃ (above margin : Nat) (line : String), position = ⟨(above + 1 : Nat), (margin + 1 : Nat)⟩ ∧
      (Text.lines text)[above]? = some line ∧ line.length = margin + 1 := by
  rcases reaches.exists_standsOn with ⟨begin, above, part, standsOn⟩
  have place : position = here.position := Cursor.position_of_next next
  refine ⟨above.length, part.length, String.ofList (part ++ [';']), ?_, ?_, ?_⟩
  · rw [place, standsOn.position_eq]
  · rw [Text.lines, standsOn.lines, standsOn.rest, (Cursor.next_sound next).2,
      Lexeme.splitLines_endOfStatement standsOn.unbroken]
    simp
  · rw [String.length_ofList, List.length_append, List.length_singleton]

namespace Console

/-- A bar that begins at the last column of a line is empty. -/
theorem underline_last {line : String} {margin : Nat} (last : line.length = margin + 1)
    (painting : Text.Painting) {length : Nat} (positive : 0 < length) (warning : Bool) :
    underline painting (margin + 1 : Nat) length line warning =
      underline painting (margin + 1 : Nat) (1 : Nat) line warning := by
  have stops : stopOf (margin + 1 : Nat) length line.toList.length =
      stopOf (margin + 1 : Nat) (1 : Nat) line.toList.length := by
    rw [stopOf_succ, stopOf_succ, String.length_toList, last]
    omega
  rw [underline, underline, barWidth, barWidth, stops]

/-- Behind the last column of a line nothing is underlined. -/
theorem throw_last {console : Console} {category : Category} {message : List Piece}
    {position : Position} {line : String} {margin : Nat}
    (found : ∀ length,
      console.sourceLine (.placed category message position length) = some line)
    (col : position.col = (margin + 1 : Nat)) (last : line.length = margin + 1) {length : Nat}
    (positive : 0 < length) (status : Int) :
    console.throw (.placed category message position length) status =
      console.throw (.placed category message position 1) status := by
  have within : margin ≤ line.length := by omega
  rw [throw_placed (found length) col within, throw_placed (found 1) col within,
    underline_last last console.painted positive]
  rfl

/-- What is shown of two failures that name the same end of a statement is the same. -/
theorem close_lineEnd {settings : Settings} {text : String} {failure failure' : Failure}
    (refused : Program.parse settings text = .error failure)
    (same : failure.SameButLineEnd failure') (console : Console) (path : String) :
    (console.registerSource path text).close (some (.ofFailure failure')) =
      (console.registerSource path text).close (some (.ofFailure failure)) := by
  cases same with
  | same => rfl
  | unexpected => rfl
  | tooManyArguments callee allowed carriageReturn carriageReturn' position =>
      obtain ⟨here, after, reaches, next⟩ : ∃ here after, (Cursor.start text).Reaches here ∧
          here.next = .ok (⟨.endOfStatement carriageReturn, position⟩, after) := by
        cases Program.failsFrom_of_parse refused with
        | refused reaches more next isRefused =>
            cases isRefused
            exact ⟨_, _, reaches, next⟩
        | atEnd path atEnd begun isRefused => cases isRefused
      rcases reaches.exists_line_of_endOfStatement next with
        ⟨above, margin, line, rfl, shown, last⟩
      have found : ∀ diagnostic : Diagnostic,
          diagnostic.position = some ⟨(above + 1 : Nat), (margin + 1 : Nat)⟩ →
            (console.registerSource path text).sourceLine diagnostic = some line := by
        intro diagnostic placed
        rw [sourceLine_registerSource diagnostic placed rfl console path text, shown]
      have positive : ∀ carriageReturn, 0 < max (Lexeme.endOfStatement carriageReturn).length 1 :=
        fun _ => Nat.lt_of_lt_of_le Nat.one_pos (Nat.le_max_right _ _)
      exact (throw_last (fun _ => found _ rfl) rfl last (positive carriageReturn') 1).trans
        (throw_last (fun _ => found _ rfl) rfl last (positive carriageReturn) 1).symm

end Console

/-! ## What is run -/

variable {text text' : String}

/-- The lines that diagnostics refer to are the same. -/
theorem Console.registerSource_lineEnds (ends : LineEnds text.toList text'.toList)
    (console : Console) (path : String) :
    console.registerSource path text' = console.registerSource path text := by
  rw [registerSource, registerSource, Text.lines, Text.lines, ends.splitLines_eq]

/-- The outcomes of the texts tell the same, and so do the steps of the evaluation. -/
theorem Program.outcomeOfText_lineEnds (ends : LineEnds text.toList text'.toList)
    (settings : Settings) :
    (outcomeOfText settings text').1.map Outcome.told =
        (outcomeOfText settings text).1.map Outcome.told ∧
      (outcomeOfText settings text').2 = (outcomeOfText settings text).2 := by
  have alike : ReadAlike (Program.parse settings text) (Program.parse settings text') :=
    Program.parse_lineEnds ends
  rw [outcomeOfText, outcomeOfText]
  generalize Program.parse settings text = result at alike ⊢
  generalize Program.parse settings text' = result' at alike ⊢
  cases alike with
  | ok program => exact ⟨rfl, rfl⟩
  | error same => exact ⟨same.told, rfl⟩

namespace CommandLine

/-- What is reported at the end depends on what the console says about it. -/
theorem close_error_congr {console : Console} {interruption interruption' : Interruption}
    (same : console.close (some interruption') = console.close (some interruption))
    (output : String) :
    Activity.close ⟨console, output, .error interruption'⟩ =
      Activity.close ⟨console, output, .error interruption⟩ := by
  simp only [Activity.close, same]
  rcases console.close (some interruption) with ⟨report, remaining⟩
  cases remaining with
  | none => rfl
  | some remaining => cases remaining <;> rfl

/-- Files whose texts differ in line ends are run alike. -/
theorem close_runFile_lineEnds (ends : LineEnds text.toList text'.toList) {files files' : Files}
    {path : String} (loaded : load files path = .ok text)
    (loaded' : load files' path = .ok text') (settings : Settings) (console : Console)
    (lists : Bool) :
    (runFile settings console files' lists path).close =
      (runFile settings console files lists path).close := by
  have alike : ReadAlike (Program.parse settings text) (Program.parse settings text') :=
    Program.parse_lineEnds ends
  have shown := @Console.close_lineEnd settings text
  rw [runFile, runFile, loaded, loaded']
  simp only [runText, console.registerSource_lineEnds ends path]
  generalize Program.parse settings text = result at alike shown ⊢
  generalize Program.parse settings text' = result' at alike ⊢
  cases alike with
  | ok program => rfl
  | error same => exact close_error_congr (shown rfl same console path) ""

/-- Line ends do not matter.  If a text is another one with carriage returns before
the line feeds of some statements, then files that hold the one or the other are run
with the same output and end in the same way, whatever the command line is; and for
all settings the outcomes of the two texts have the same kind, value, message and
place, after the same steps, or they are the same fault. -/
theorem run_lineEnds (ends : LineEnds text.toList text'.toList) :
    (∀ limits painted files files' typed words,
      (∀ path, load files' path = load files path ∨
        load files path = .ok text ∧ load files' path = .ok text') →
      run painted files' typed words limits = run painted files typed words limits) ∧
    ∀ settings,
      (Program.outcomeOfText settings text').1.map Outcome.told =
          (Program.outcomeOfText settings text).1.map Outcome.told ∧
        (Program.outcomeOfText settings text').2 = (Program.outcomeOfText settings text).2 := by
  constructor
  · intro limits painted files files' typed words held
    unfold run
    split
    · rfl
    · rename_i options _
      unfold Options.run
      split
      · rename_i path _
        rcases held path with same | ⟨loaded, loaded'⟩
        · rw [runFile, runFile, same]
        · exact close_runFile_lineEnds ends loaded loaded' _ _ _
      · rfl
  · exact Program.outcomeOfText_lineEnds ends

/-- A text whose statement ends where another argument begins. -/
def brokenOffText : String :=
  "DEF F x \x7b x \x7d ;\nDEF MAIN \x7b F(1 ;\n"

/-- The same text with a carriage return at the second line end. -/
def returnedText : String :=
  "DEF F x \x7b x \x7d ;\nDEF MAIN \x7b F(1 ;\r\n"

/-- What is wrong with the texts. -/
def brokenOffError (carriageReturn : Bool) : ParseError :=
  .tooManyArguments "F" 1 ⟨.endOfStatement carriageReturn, ⟨2, 16⟩⟩

/-- A text is refused for an argument too many if it is so without the limit on numerals:
the bound is one, and can be quoted. -/
theorem outcomeOfText_brokenOff {text : String} {carriageReturn : Bool}
    (short : ∀ token ∈ (Cursor.start text).scanAll.tokens, token.checkDigits .standard = .ok ())
    (refused : Program.parse ⟨some 1, Limits.standard.unlimited⟩ text =
      .error (.parse (brokenOffError carriageReturn))) :
    (Program.outcomeOfText {} text).1 =
      .ok (.parseFailed (.parse (brokenOffError carriageReturn))) := by
  apply Program.outcomeOfText_of_parse_eq_error
  apply (Program.parse_unlimited short _).trans refused
  intro callee allowed found refused'
  rw [refused] at refused'
  cases refused'
  have small : (1 : Int).natAbs < 10 ^ 4300 := by decide +kernel
  exact ⟨_, Limits.write_eq_ok_of_lt rfl small⟩

theorem load_filesOf {text : String}
    (decoded : Text.Utf8.decode text.toUTF8.data.toList = .ok text) (path : String) :
    load (filesOf text) path =
      if path.toList.contains '\x00' then .error (.ofFault .nullInPath) else .ok text := by
  rw [load, filesOf]
  simp only [decoded]
  rfl

/-- The two diagnostics underline two and three columns, and the same is printed. -/
theorem brokenOffText_lineEnds :
    (Program.outcomeOfText {} brokenOffText).1 =
        .ok (.parseFailed (.parse (brokenOffError false))) ∧
      (Program.outcomeOfText {} returnedText).1 =
        .ok (.parseFailed (.parse (brokenOffError true))) ∧
      (brokenOffError false).diagnostic.length = 2 ∧
      (brokenOffError true).diagnostic.length = 3 ∧
      run .plain (filesOf returnedText) "" ["F"] =
        run .plain (filesOf brokenOffText) "" ["F"] := by
  have ends : LineEnds brokenOffText.toList returnedText.toList := by
    have first : brokenOffText.toList =
        "DEF F x \x7b x \x7d ;\nDEF MAIN \x7b F(1 ".toList ++ [';', '\n'] := rfl
    have second : returnedText.toList =
        "DEF F x \x7b x \x7d ;\nDEF MAIN \x7b F(1 ".toList ++ [';', '\r', '\n'] := rfl
    rw [first, second]
    exact .append _ (.widen .nil)
  have decoded : Text.Utf8.decode brokenOffText.toUTF8.data.toList = .ok brokenOffText := rfl
  have decoded' : Text.Utf8.decode returnedText.toUTF8.data.toList = .ok returnedText := rfl
  refine ⟨outcomeOfText_brokenOff (by decide +kernel) (by cbv),
    outcomeOfText_brokenOff (by decide +kernel) (by cbv), rfl, rfl, ?_⟩
  apply (run_lineEnds ends).1
  intro path
  rw [load_filesOf decoded, load_filesOf decoded']
  by_cases refused : path.toList.contains '\x00' = true
  · rw [if_pos refused, if_pos refused]
    exact Or.inl rfl
  · rw [if_neg refused, if_neg refused]
    exact Or.inr ⟨rfl, rfl⟩

end CommandLine

end Polycalc

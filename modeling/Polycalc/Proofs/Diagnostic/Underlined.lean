import Polycalc.Proofs.Diagnostic.Excerpt
import Polycalc.Proofs.Expr.Quoting
import Polycalc.Proofs.Program.Registry

/-!
# What is underlined of a bad call

The error about a bad call underlines as many characters as the normal form of the
call's text has, because it quotes the call in this form.  So the whole call is
underlined if no number in it begins with a zero that could be left out, and otherwise
its last characters are not (`Program.bad_call_underlined`).
-/

namespace Polycalc

open Text Grammar

/-! ## Lines -/

/-- What is written at a place without a line boundary is on the line with the number of
the place, from its column on. -/
theorem Cursor.Reaches.exists_line {text : String} {here : Cursor} {own after : List Char}
    (reaches : (Cursor.start text).Reaches here) (ahead : here.rest = own ++ after)
    (unbroken : ∀ c ∈ own, isLineBreak c = false) (nonempty : own ≠ []) :
    ∃ above : Nat, ∃ margin remainder : List Char,
      here.position = ⟨(above + 1 : Nat), (margin.length + 1 : Nat)⟩ ∧
        (lines text)[above]? = some (String.ofList (margin ++ own ++ remainder)) := by
  rcases reaches.exists_standsOn with ⟨line, above, part, standsOn⟩
  have whole : ∀ c ∈ part ++ own, isLineBreak c = false := by
    rw [List.forall_mem_append]
    exact ⟨standsOn.unbroken, unbroken⟩
  have some : part ++ own ++ after ≠ [] := by simp [nonempty]
  rcases exists_splitLines_append whole some with ⟨remainder, below, split⟩
  refine ⟨above.length, part, remainder, standsOn.position_eq, ?_⟩
  rw [lines, standsOn.lines, standsOn.rest, ahead, ← List.append_assoc, split]
  simp

namespace Console

/-- A line in three parts, of which the second one is painted, with a caret and a bar
under this part. -/
def marked (painting : Text.Painting) (warning : Bool) (before part after : List Char) : String :=
  let paint := painting.paint .bold (some (severityColour warning))
  "  " ++ String.ofList before ++ paint (String.ofList part) ++ String.ofList after ++ "\n"
    ++ "  " ++ String.ofList (List.replicate before.length ' ')
    ++ paint (String.ofList ('^' :: List.replicate (part.length - 1) '~'))

/-- A part of a line is underlined where it stands and as far as it goes. -/
theorem underline_eq_marked (painting : Text.Painting) (warning : Bool) {part : List Char}
    (nonempty : part ≠ []) (before after : List Char) :
    underline painting (before.length + 1 : Nat) part.length
        (String.ofList (before ++ part ++ after)) warning =
      marked painting warning before part after := by
  have some := List.length_pos_of_ne_nil nonempty
  have length : (before ++ part ++ after).length =
      before.length + (part.length + after.length) := by simp
  have cut : min (before.length + part.length)
      (max (before ++ part ++ after).length (before.length + 1)) =
        (before ++ part).length := by
    rw [length, List.length_append]
    omega
  have bar : min part.length ((before ++ part ++ after).length - before.length) - 1 =
      part.length - 1 := by
    rw [length]
    omega
  simp only [underline, marked, String.toList_ofList, cutoff_succ, marginWidth_succ,
    barWidth_succ, cut, bar, List.take_left, List.drop_left]
  rw [List.append_assoc, List.take_left]

/-- The source line of a diagnostic is shown with as many characters marked as the
diagnostic underlines. -/
theorem excerpt_eq_marked {console : Console} {category : Category} {message : List Piece}
    {position : Position} {margin own remainder : List Char} {count : Nat}
    (found : console.sourceLine (.placed category message position count) =
      some (String.ofList (margin ++ own ++ remainder)))
    (col : position.col = (margin.length + 1 : Nat)) (positive : 0 < count)
    (within : count ≤ own.length) (warning : Bool) :
    console.excerpt (.placed category message position count) warning =
      .ok (marked console.painted warning margin (own.take count) (own.drop count ++ remainder)
        ++ "\n") := by
  have part : (own.take count).length = count := List.length_take_of_le within
  have nonempty : own.take count ≠ [] := List.ne_nil_of_length_pos (by rwa [part])
  have inside : margin.length ≤ (String.ofList (margin ++ own ++ remainder)).length := by simp
  have regrouped : margin ++ own ++ remainder =
      margin ++ own.take count ++ (own.drop count ++ remainder) := by
    rw [List.append_assoc margin, List.append_assoc margin, ← List.append_assoc (own.take count),
      List.take_append_drop]
  have underlined := underline_eq_marked console.painted warning nonempty margin
    (own.drop count ++ remainder)
  rw [part, ← regrouped] at underlined
  simp only [excerpt, found,
    diagnose_placed console.painted category message col count (checkMargin_succ inside)]
  rw [underlined]
  rfl

end Console

/-! ## Bad calls -/

/-- A text that was read has a call that was registered at the place with its
position. -/
theorem Program.exists_call_text {settings : Settings} {text : String} {program : Program}
    (parsed : Program.parse settings text = .ok program) {call : Call}
    (member : call ∈ program.calls) :
    ∃ before own after, ∃ here : Cursor, text.toList = before ++ own ++ after ∧
      call.toExpr.Stands (Position.start.past before) own ∧
      (Cursor.start text).Reaches here ∧ here.position = call.position ∧
      here.rest = own ++ after := by
  rcases exists_definitionsStand parsed with ⟨definitions, stand, rfl, _⟩
  rcases List.mem_flatMap.mp member with ⟨definition, inText, inBody⟩
  rcases stand.exists_span definition inText _ (Expr.mem_calls_iff.mp inBody) with
    ⟨span, before, own, after, split, _, _, stands⟩
  rcases pointsInto_call parsed member with ⟨here, reaches, place, _⟩
  refine ⟨before, own, after, here, split, stands, reaches, place, ?_⟩
  rcases reaches.exists_read with ⟨read, whole, _, _, onlyThere⟩
  have within : before.length ≤ text.toList.length := by
    rw [split, List.append_assoc, List.length_append]
    exact Nat.le_add_right _ _
  have same : before.length = read.length := by
    rw [← onlyThere before.length within, split, List.append_assoc, List.take_left, place]
    exact stands.position_eq.symm
  rw [split, List.append_assoc] at whole
  exact (List.append_inj whole same).2.symm

/-- The name of a call stands at its beginning and its closing parenthesis at its end. -/
theorem Expr.Stands.exists_given {place : Position} {own : List Char} {call : Call}
    (stands : call.toExpr.Stands place own) :
    ∃ given, own = call.name.toList ++ '(' :: given ++ [')'] ∧
      IsFunctionName call.name := by
  cases stands with
  | @call _ _ _ given _ callee _ => exact ⟨given, rfl, callee⟩

/-- The diagnostic underlines, of a call that is written in the text from the first letter
of its name to its closing parenthesis, as many characters as the normal form has. -/
structure Diagnostic.Underlines (text : String) (call : Call) (own : List Char)
    (diagnostic : Diagnostic) : Prop where
  spelled : ∃ given, own = call.name.toList ++ '(' :: given ++ [')']
  position : diagnostic.position = some call.position
  quotes : diagnostic.offending.toList = Grammar.normalize own
  length : diagnostic.length = (Grammar.normalize own).length
  /-- in the text, the characters from the position on -/
  inText : ∃ before after, text.toList = before ++ own ++ after ∧
    call.toExpr.Stands (Position.start.past before) own ∧
    call.position.Locates text.toList before.length ∧
    (text.toList.drop before.length).take diagnostic.length.toNat =
      own.take (Grammar.normalize own).length
  /-- in the source line that is shown, these characters and nothing else -/
  inLine : ∃ margin remainder, ∀ (console : Console) (path : String),
    (console.registerSource path text).sourceLine diagnostic =
        some (String.ofList (margin ++ own ++ remainder)) ∧
      (console.registerSource path text).excerpt diagnostic false =
        .ok (Console.marked console.painted false margin (own.take (Grammar.normalize own).length)
          (own.drop (Grammar.normalize own).length ++ remainder) ++ "\n")

/-- An error about a call that was read underlines the call's own text. -/
theorem Program.exists_underlines {settings : Settings} {text quoted : String}
    {program : Program} (parsed : Program.parse settings text = .ok program) {call : Call}
    (member : call ∈ program.calls) (written : call.render settings.limits = .ok quoted)
    {error : ParseError} (blames : error.Blames program call quoted) :
    ∃ own, error.diagnostic.Underlines text call own := by
  obtain ⟨before, own, after, here, split, stands, reaches, place, ahead⟩ :=
    exists_call_text parsed member
  rcases stands.exists_given with ⟨given, spelled, callee⟩
  rcases blames.exists_placed with ⟨⟨message, placed⟩, quotes⟩
  have normal : quoted.toList = Grammar.normalize own := stands.toList_render quoted written
  have shorter := (normalize_sublist own).length_le
  have some : 0 < (Grammar.normalize own).length := by
    rw [spelled, normalize_call callee]
    simp
  have width : Diagnostic.widthOf quoted = (Grammar.normalize own).length := by
    rw [Diagnostic.widthOf, ← String.length_toList, normal, Nat.max_eq_left some]
  rw [width] at placed
  refine ⟨own, ⟨given, spelled⟩, by rw [placed]; rfl, by rw [quotes, normal],
    by rw [placed]; rfl, ⟨before, after, split, stands, ?_, ?_⟩, ?_⟩
  · have position : call.position = Position.start.past before := stands.position_eq
    rw [position, split, List.append_assoc]
    exact Position.past_locates before (own ++ after)
  · rw [placed, split, List.append_assoc, List.drop_left]
    exact List.take_append_of_le_length shorter
  · obtain ⟨above, margin, remainder, position, line⟩ :=
      reaches.exists_line ahead stands.unbroken stands.ne_nil
    rw [place] at position
    refine ⟨margin, remainder, fun console path => ?_⟩
    have found : (console.registerSource path text).sourceLine error.diagnostic =
        Option.some (String.ofList (margin ++ own ++ remainder)) := by
      rw [Console.sourceLine_registerSource error.diagnostic (by rw [placed]; rfl)
        (congrArg Position.line position) console path text, line]
    refine ⟨found, ?_⟩
    rw [placed] at found ⊢
    exact Console.excerpt_eq_marked found (congrArg Position.col position) some shorter false

/-- Where validation fails because of a call, the error is about the first call that is
not accepted and underlines the call's own text: all of it if this text is normal, and
only its first characters if a number in it begins with a zero that could be left out. -/
theorem Program.bad_call_underlined {settings : Settings} {text : String} {program : Program}
    {failure : Failure} (parsed : Program.parse settings text = .ok program)
    (hasEntry : program.contains entryName = true)
    (failed : parseValid settings text = .error failure) :
    ∃ call error own, program.FirstRefused call ∧ failure = .parse error ∧
      error.diagnostic.Underlines text call own ∧
      (own.take (Grammar.normalize own).length = own ↔ Grammar.normalize own = own) := by
  obtain ⟨call, quoted, error, first, written, rfl, blames⟩ :=
    exists_firstRefused parsed hasEntry ((parseValid_eq_error_iff parsed).mp failed)
  have member : call ∈ program.calls := by
    rcases first.2 with ⟨earlier, later, split, _⟩
    simp [split]
  rcases exists_underlines parsed member written blames with ⟨own, underlines⟩
  exact ⟨call, error, own, first, rfl, underlines, take_length_normalize_eq_iff own⟩

/-- A text with a bad call whose argument begins with zeros. -/
def zeroedText : String :=
  "DEF MAIN \x7b F(007) \x7d ;\n"

/-- The call in the text. -/
def zeroedCall : Call :=
  ⟨.parsed 0, "F", [.number 7 ⟨1, 14⟩], ⟨1, 12⟩⟩

/-- What the text is read as. -/
def zeroed : Program :=
  .ofDefinitions [⟨entryName, [], zeroedCall.toExpr, 1⟩]

theorem zeroed_checkCall :
    zeroed.checkCall .standard zeroedCall =
      .error (.parse (.unknownFunction zeroedCall.toExpr "F(7)")) := by
  have written : zeroedCall.render .standard = .ok "F(7)" := by decide +kernel
  have quoted : Program.badCallText .standard zeroedCall.toExpr = .ok "F(7)" :=
    Failure.ofFault_eq_ok_iff.mpr written
  have undefined : zeroed.find? zeroedCall.name = none := by cbv
  rw [Program.checkCall, undefined]
  exact congrArg
    (· >>= fun text => .error (.parse (.unknownFunction zeroedCall.toExpr text))) quoted

theorem zeroedText_refused :
    Program.parse {} zeroedText = .ok zeroed ∧ zeroed.contains entryName = true ∧
      Program.parseValid {} zeroedText =
        .error (.parse (.unknownFunction zeroedCall.toExpr "F(7)")) := by
  have parsed : Program.parse {} zeroedText = .ok zeroed := by cbv
  have hasEntry : zeroed.contains entryName = true := by cbv
  refine ⟨parsed, hasEntry, ?_⟩
  rw [Program.parseValid_eq_error_iff parsed, Program.validate, if_pos hasEntry]
  exact congrArg (fun checked => (checked >>= fun _ => .ok ()) >>= fun _ => .ok ())
    zeroed_checkCall

theorem zeroedText_underlined :
    zeroed.contains entryName = true ∧
      ∃ call error own, zeroed.FirstRefused call ∧
        Program.parseValid {} zeroedText = .error (.parse error) ∧
        error.diagnostic.Underlines zeroedText call own ∧
        (own.take (Grammar.normalize own).length = own ↔ Grammar.normalize own = own) := by
  rcases zeroedText_refused with ⟨parsed, hasEntry, failed⟩
  obtain ⟨call, error, own, first, same, underlines⟩ :=
    Program.bad_call_underlined parsed hasEntry failed
  rw [same] at failed
  exact ⟨hasEntry, call, error, own, first, failed, underlines⟩

/-- Of the six characters of the call only four are underlined. -/
theorem zeroedText_partly_underlined :
    Program.parse {} zeroedText = .ok zeroed ∧
      Program.parseValid {} zeroedText =
        .error (.parse (.unknownFunction zeroedCall.toExpr "F(7)")) ∧
      (ParseError.unknownFunction zeroedCall.toExpr "F(7)").diagnostic.position =
        some ⟨1, 12⟩ ∧
      (ParseError.unknownFunction zeroedCall.toExpr "F(7)").diagnostic.length = 4 ∧
      zeroedCall.toExpr.Occupies .start zeroedText.toList ⟨11, 17⟩ ∧
      (zeroedText.toList.take 17).drop 11 = "F(007)".toList ∧
      (zeroedText.toList.drop 11).take 4 = "F(00".toList := by
  rcases zeroedText_refused with ⟨parsed, _, failed⟩
  have callee : IsFunctionName "F" := by simp [IsFunctionName, IsRun]
  have numeral : IsRun Char.isDigit "007".toList := by simp [IsRun]
  have stands : zeroedCall.toExpr.Stands (Position.start.past "DEF MAIN \x7b ".toList)
      ("F".toList ++ '(' :: "007".toList ++ [')']) := by
    exact .call callee (.one (.number numeral))
  refine ⟨parsed, failed, rfl, rfl, ?_, by decide, by decide⟩
  exact ⟨_, _, " \x7d ;\n".toList, by simp [zeroedText], rfl, rfl, stands⟩

end Polycalc

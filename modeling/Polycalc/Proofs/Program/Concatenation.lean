import Polycalc.Proofs.Grammar.Soundness
import Polycalc.Proofs.Program.Moving
import Polycalc.Proofs.Program.Performing

/-!
# Texts one after the other

A text that is accepted ends with the end of a line, so its tokens are the same
with more text after it, and reading both texts is reading the second one after
the definitions of the first (`ProgramReader.Path.runFrom_eq`).  Hence two texts
in a row are accepted if the second one is; they make the program of all their
definitions, and otherwise the second text fails as it does by itself, further
down (`Program.parse_append`).
-/

namespace Polycalc

/-! ## Longer texts -/

namespace Lexeme

/-- A run of characters that does not reach to the end of a text is the same in a
longer text. -/
theorem scanRun_append_of_stops {kind : Char → Bool} {make : String → Lexeme}
    (isWord : ∀ word carriageReturn, make word ≠ .endOfStatement carriageReturn)
    {text rest : List Char} {lexeme : Lexeme} (scanned : scanRun kind make text = (lexeme, rest))
    (stops : rest = [] → ∃ carriageReturn, lexeme = .endOfStatement carriageReturn)
    (more : List Char) : scanRun kind make (text ++ more) = (lexeme, rest ++ more) := by
  cases scanned
  have remaining : text.dropWhile kind ≠ [] := by
    intro nothing
    rcases stops nothing with ⟨carriageReturn, same⟩
    exact isWord _ carriageReturn same
  have shorter : (text.takeWhile kind).length ≠ text.length := by
    intro whole
    have parts := congrArg List.length (List.takeWhile_append_dropWhile (p := kind) (l := text))
    rw [List.length_append, whole, Nat.add_eq_left, List.length_eq_zero_iff] at parts
    exact remaining parts
  rw [scanRun, List.takeWhile_append, List.dropWhile_append, if_neg shorter,
    if_neg (by simpa using remaining)]

theorem ofCapitals_ne_endOfStatement (word : String) (carriageReturn : Bool) :
    ofCapitals word ≠ .endOfStatement carriageReturn := by
  unfold ofCapitals
  split
  · simp
  · split <;> simp

theorem scanLineEnd?_append {text rest : List Char} {lexeme : Lexeme}
    (scanned : scanLineEnd? text = some (lexeme, rest)) (more : List Char) :
    scanLineEnd? (text ++ more) = some (lexeme, rest ++ more) := by
  unfold scanLineEnd? at scanned
  split at scanned
  · cases scanned
    rfl
  · cases scanned
    rfl
  · cases scanned

/-- Only a word at the end of a text can be longer in a longer text. -/
theorem scan_append {text rest : List Char} {lexeme : Lexeme}
    (scanned : scan text = .ok (lexeme, rest)) (nonempty : text ≠ [])
    (stops : rest = [] → ∃ carriageReturn, lexeme = .endOfStatement carriageReturn)
    (more : List Char) : scan (text ++ more) = .ok (lexeme, rest ++ more) := by
  cases text with
  | nil => exact absurd rfl nonempty
  | cons c tail =>
      rw [List.cons_append]
      unfold scan at scanned ⊢
      simp only at scanned ⊢
      split at scanned
      · rw [if_pos ‹_›]
        split at scanned
        · cases scanned
          rw [scanLineEnd?_append ‹_› more]
        · cases scanned
      · rw [if_neg ‹_›]
        split at scanned
        · cases scanned
          rfl
        · rw [← List.cons_append]
          split at scanned
          · rw [if_pos ‹_›, scanRun_append_of_stops ofCapitals_ne_endOfStatement
              (Except.ok.inj scanned) stops]
          · rw [if_neg ‹_›]
            split at scanned
            · rw [if_pos ‹_›, scanRun_append_of_stops (by simp) (Except.ok.inj scanned) stops]
            · rw [if_neg ‹_›]
              split at scanned
              · rw [if_pos ‹_›, scanRun_append_of_stops (by simp) (Except.ok.inj scanned) stops]
              · cases scanned

end Lexeme

namespace Cursor

/-- The same place in a text with more after it. -/
def followedBy (cursor : Cursor) (more : List Char) : Cursor :=
  { cursor with rest := cursor.rest ++ more }

theorem start_append (first second : String) :
    start (first ++ second) = (start first).followedBy second.toList := by
  rw [start, followedBy, start, String.toList_append]

theorem next_followedBy {cursor after : Cursor} {token : Token}
    (next : cursor.next = .ok (token, after)) (nonempty : cursor.rest ≠ [])
    (stops : after.rest = [] → ∃ carriageReturn, token.lexeme = .endOfStatement carriageReturn)
    (more : List Char) :
    (cursor.followedBy more).next = .ok (token, after.followedBy more) := by
  rcases next_eq_ok_iff.mp next with ⟨scanned, stands, offset, position⟩
  exact next_eq_ok_iff.mpr
    ⟨Lexeme.scan_append scanned nonempty stops more, stands, offset, position⟩

end Cursor

namespace ProgramReader

variable {settings : Settings} {cursor after final : Cursor}
  {reader reader' last : ProgramReader} {token : Token} {definitions : List Definition}

/-- Only the end of a statement completes a definition. -/
theorem Reads.endOfStatement_of_start (reads : Reads settings reader token reader')
    (complete : reader'.phase = .start) :
    ∃ carriageReturn, token.lexeme = .endOfStatement carriageReturn := by
  cases reads with
  | endOfStatement => exact ⟨_, rfl⟩
  | _ => cases complete

namespace Path

/-- A path through a text that is complete is one through a longer text. -/
theorem followedBy (path : Path settings cursor reader definitions final last)
    (atEnd : final.rest = []) (complete : last.phase = .start) (more : List Char) :
    Path settings (cursor.followedBy more) reader definitions (final.followedBy more) last := by
  induction path with
  | refl => exact .refl
  | step nonempty next short reads later ih =>
      have stops := fun nothing : _ = [] => by
        cases later with
        | refl => exact reads.endOfStatement_of_start complete
        | step nonempty' _ _ _ _ => exact absurd nothing nonempty'
      have nonempty' := List.append_ne_nil_of_left_ne_nil nonempty more
      have next' := Cursor.next_followedBy next nonempty stops more
      exact .step nonempty' next' short reads (ih atEnd complete)

end Path

end ProgramReader

/-! ## Lines -/

/-- Only the end of a statement ends a line. -/
theorem Lexeme.after_eq_advance {lexeme : Lexeme}
    (ordinary : ∀ carriageReturn, lexeme ≠ .endOfStatement carriageReturn)
    (position : Position) : lexeme.after position = position.advance lexeme.length := by
  cases lexeme with
  | endOfStatement carriageReturn => exact absurd rfl (ordinary carriageReturn)
  | _ => rfl

/-- A statement does not end within an expression. -/
theorem ExprReader.Reads.ne_endOfStatement {settings : Settings} {scope : List String}
    {reader reader' : ExprReader} {token : Token}
    (reads : Reads settings scope reader token reader') (carriageReturn : Bool) :
    token.lexeme ≠ .endOfStatement carriageReturn := by
  cases reads with
  | name _ names =>
      rintro rfl
      cases names
  | _ => simp

namespace ProgramReader

/-- The cursor is on the line of the definition that is being read, and at its
beginning if and only if nothing of the definition has been read. -/
structure OnLine (cursor : Cursor) (reader : ProgramReader) : Prop where
  line : cursor.position.line = (reader.count + 1 : Nat)
  col : reader.phase = .start → cursor.position.col = 1
  begun : reader.phase ≠ .start → 1 < cursor.position.col

theorem OnLine.one_le_col (onLine : OnLine cursor reader) : 1 ≤ cursor.position.col := by
  by_cases begun : reader.phase = .start
  · exact Int.le_of_eq (onLine.col begun).symm
  · exact Int.le_of_lt (onLine.begun begun)

/-- A token within a statement leads further to the right. -/
theorem OnLine.advance (onLine : OnLine cursor reader) (more : cursor.rest ≠ [])
    (next : cursor.next = .ok (token, after))
    (ordinary : ∀ carriageReturn, token.lexeme ≠ .endOfStatement carriageReturn)
    (sameCount : reader'.count = reader.count) (begun : reader'.phase ≠ .start) :
    OnLine after reader' := by
  have place := Cursor.position_next next
  rw [Lexeme.after_eq_advance ordinary] at place
  constructor
  · rw [place, sameCount]
    exact onLine.line
  · exact fun complete => absurd complete begun
  · intro _
    have further : cursor.position.col < cursor.position.col + token.lexeme.length :=
      Int.lt_add_of_pos_right _ (Int.natCast_pos.mpr (Cursor.length_pos_of_next next more))
    rw [place]
    exact Int.lt_of_le_of_lt onLine.one_le_col further

theorem OnLine.step (onLine : OnLine cursor reader) (more : cursor.rest ≠ [])
    (next : cursor.next = .ok (token, after)) (reads : Reads settings reader token reader') :
    OnLine after reader' := by
  cases reads with
  | endOfStatement =>
      have place := Cursor.position_next next
      constructor
      · rw [place]
        simp only [Lexeme.after, Position.nextLine, onLine.line, endDefinition]
        rfl
      · intro _
        rw [place]
        rfl
      · exact fun begun => absurd rfl begun
  | name names =>
      refine onLine.advance more next ?_ rfl (by simp)
      rintro carriageReturn rfl
      cases names
  | body _ reads => exact onLine.advance more next reads.ne_endOfStatement rfl (by simp)
  | _ => exact onLine.advance more next (by simp) rfl (by simp)

theorem onLine_start (text : String) : OnLine (.start text) .start where
  line := rfl
  col := fun _ => rfl
  begun := fun begun => absurd rfl begun

theorem OnLine.path (onLine : OnLine cursor reader)
    (path : Path settings cursor reader definitions final last) : OnLine final last := by
  induction path with
  | refl => exact onLine
  | step more next _ reads _ ih => exact ih (onLine.step more next reads)

/-- The text after some definitions begins so many lines below the first one. -/
theorem Path.position_eq {text : String}
    (path : Path settings (.start text) .start definitions final last)
    (complete : last.phase = .start) :
    final.position = Position.start.moved definitions.length := by
  have onLine := (onLine_start text).path path
  have line := onLine.line
  rw [path.count] at line
  have col := onLine.col complete
  generalize final.position = position at line col
  rcases position with ⟨row, column⟩
  simp only at line col
  subst line col
  simp [Position.moved, Position.start, ProgramReader.start]
  omega

/-! ## What follows a text -/

/-- The end of a text is a beginning further down for the text that follows. -/
theorem Path.isMoved_start {first : String}
    (path : Path settings (.start first) .start definitions final last)
    (atEnd : final.rest = []) (complete : last.phase = .start) (second : String) :
    (Cursor.start second).IsMoved definitions.length (final.followedBy second.toList) := by
  constructor
  · rw [Cursor.followedBy, atEnd, List.nil_append, Cursor.start]
  · exact path.position_eq complete

/-- A reader that begins the text follows the reader that was left at the end of
the first one. -/
theorem Path.follows_start
    (path : Path settings cursor .start definitions final last) (complete : last.phase = .start) :
    start.Follows ⟨definitions.length, last.program.calls.length⟩ last.program.calls last := by
  constructor
  · exact complete
  · exact path.count.trans (Nat.add_comm _ _)
  · exact (List.append_nil _).symm

end ProgramReader

open ProgramReader

/-- The text is accepted, and these are its definitions in their order, those
included that are replaced later. -/
def Defines (settings : Settings) (text : String) (definitions : List Definition) : Prop :=
  ∃ final last, Path settings (.start text) .start definitions final last ∧
    final.rest = [] ∧ last.phase = .start

variable {settings : Settings} {first second : String} {definitions others : List Definition}

theorem Defines.parse_eq_ok (defines : Defines settings first definitions) :
    Program.parse settings first = .ok (.ofDefinitions definitions) := by
  rcases defines with ⟨final, last, path, atEnd, complete⟩
  exact Program.parse_eq_ok_iff.mpr
    ⟨definitions, final, last, path, atEnd, complete, (path.program_eq complete).1⟩

theorem exists_defines {program : Program}
    (accepted : Program.parse settings first = .ok program) :
    ∃ definitions, Defines settings first definitions ∧ program = .ofDefinitions definitions := by
  obtain ⟨definitions, final, last, path, atEnd, complete, rfl⟩ :=
    Program.parse_eq_ok_iff.mp accepted
  exact ⟨definitions, ⟨final, last, path, atEnd, complete⟩, (path.program_eq complete).1⟩

namespace Defines

/-- How much further down a text stands after these definitions. -/
def move (definitions : List Definition) : Move :=
  ⟨definitions.length, (Program.ofDefinitions definitions).calls.length⟩

/-- A text after an accepted one is accepted, or it is refused for the same reason
further down. -/
theorem alongside_append (defines : Defines settings first definitions) (second : String) :
    Alongside definitions.length (fun _ _ => True) (Program.parse settings second)
      (Program.parse settings (first ++ second)) := by
  rcases defines with ⟨final, last, path, atEnd, complete⟩
  have whole : Program.parse settings (first ++ second) =
      last.runFrom settings (final.followedBy second.toList) := by
    rw [← (path.followedBy atEnd complete second.toList).runFrom_eq, ← Cursor.start_append]
    rfl
  rw [whole]
  exact (path.follows_start complete).runFrom rfl keeps_start
    (path.isMoved_start atEnd complete second)

/-- The definitions of two texts in a row, and their calls. -/
theorem append (defines : Defines settings first definitions)
    (defines' : Defines settings second others) :
    Defines settings (first ++ second) (definitions ++ others.map (.moved (move definitions))) ∧
      (Program.ofDefinitions (definitions ++ others.map (.moved (move definitions)))).calls =
        (Program.ofDefinitions definitions).calls ++
          (Program.ofDefinitions others).calls.map (.moved (move definitions)) := by
  rcases defines with ⟨final, last, path, atEnd, complete⟩
  rcases defines' with ⟨final', last', path', atEnd', complete'⟩
  have follows := path.follows_start complete
  have isMoved := path.isMoved_start atEnd complete second
  have longer := path.followedBy atEnd complete second.toList
  rw [← Cursor.start_append] at longer
  obtain ⟨final'', last'', later, finalMoved, lastFollows⟩ :=
    path'.moved keeps_start rfl isMoved follows
  have whole := longer.trans later
  have complete'' : last''.phase = .start := by
    rw [lastFollows.phase, complete']
    rfl
  have calls := lastFollows.calls
  rw [(whole.program_eq complete'').1, (path'.program_eq complete').1] at calls
  rw [(path.program_eq complete).1] at whole calls
  exact ⟨⟨final'', last'', whole, finalMoved.rest.trans atEnd', complete''⟩, calls⟩

end Defines

/-- After an accepted text another text is accepted exactly if it is accepted by
itself.  The program is then what results from performing the definitions of the
first text and those of the second, which stand below those of the first: the
names are in the order of their first definitions, a name means what was defined
last, the definitions of a name that had one were noted, and the calls of the
first text come before those of the second.  If the second text is refused, so
are both, and what is said about that differs in the line only. -/
theorem Program.parse_append (settings : Settings) {first : String} {program : Program}
    (accepted : Program.parse settings first = .ok program) (second : String) :
    ∃ definitions, Defines settings first definitions ∧ program = .ofDefinitions definitions ∧
      ((∃ whole, Program.parse settings (first ++ second) = .ok whole) ↔
        ∃ other, Program.parse settings second = .ok other) ∧
      (∀ other, Program.parse settings second = .ok other →
        ∃ others all whole, Defines settings second others ∧ other = .ofDefinitions others ∧
          all = definitions ++
            others.map (Definition.moved ⟨definitions.length, program.calls.length⟩) ∧
          Defines settings (first ++ second) all ∧
          Program.parse settings (first ++ second) = .ok whole ∧ whole = .ofDefinitions all ∧
          whole.functions.names = (all.map Definition.name).eraseDups ∧
          (∀ name, whole.find? name = all.reverse.find? (·.name = name)) ∧
          whole.redefined = Definition.repetitions [] all ∧
          whole.calls = program.calls ++
            other.calls.map (Call.moved ⟨definitions.length, program.calls.length⟩)) ∧
      ∀ failure, Program.parse settings second = .error failure →
        ∃ failure', Program.parse settings (first ++ second) = .error failure' ∧
          ((∃ error error' : SourceError, failure = .source error ∧ failure' = .source error' ∧
            error'.diagnostic =
              { error.diagnostic with
                line := error.diagnostic.line.map (· + (definitions.length : Int)) }) ∨
          ∃ fault, failure = .fault fault ∧ failure' = .fault fault) := by
  obtain ⟨definitions, defines, rfl⟩ := exists_defines accepted
  have alongside := defines.alongside_append second
  refine ⟨definitions, defines, rfl, alongside.exists_ok_iff, ?_, ?_⟩
  · intro other acceptedAlone
    obtain ⟨others, defines', rfl⟩ := exists_defines acceptedAlone
    rcases defines.append defines' with ⟨whole, calls⟩
    exact ⟨others, _, _, defines', rfl, rfl, whole, whole.parse_eq_ok, rfl,
      names_ofDefinitions _, find?_ofDefinitions _, redefined_ofDefinitions _, calls⟩
  · intro failure refusedAlone
    rw [refusedAlone] at alongside
    rcases alongside.exists_error with ⟨failure', refused, further⟩
    exact ⟨failure', refused, further.diagnostic⟩

/-- A text with a line end of two characters. -/
def callingItself : String :=
  "DEF F x \x7b F(x)+1 \x7d ;\r\n"

/-- What the text is read as. -/
def callingItselfProgram : Program :=
  .ofDefinitions
    [⟨"F", ["x"], .join .sum
        (.call (.parsed 0) "F" [.parameter "x" ⟨1, 13⟩] ⟨1, 11⟩) (.number 1 ⟨1, 16⟩), 1⟩]

/-- A text with a parameter that is not declared is refused at its place below
another text. -/
theorem callingItself_parse_append :
    Program.parse {} callingItself = .ok callingItselfProgram ∧
      Program.parse {} "DEF G \x7b x \x7d ;\n" =
        .error (.parse (.unknownParameter "x" ⟨1, 9⟩)) ∧
      ∃ error, Program.parse {} (callingItself ++ "DEF G \x7b x \x7d ;\n") =
          .error (.source error) ∧
        error.diagnostic.line = some 2 ∧ error.diagnostic.col = some 9 := by
  have accepted : Program.parse {} callingItself = .ok callingItselfProgram := by cbv
  have refused : Program.parse {} "DEF G \x7b x \x7d ;\n" =
      .error (.parse (.unknownParameter "x" ⟨1, 9⟩)) := by cbv
  obtain ⟨definitions, _, same, _, _, below⟩ :=
    Program.parse_append {} accepted "DEF G \x7b x \x7d ;\n"
  have single : definitions.length = 1 := by
    rw [← Program.size_add_length_redefined_ofDefinitions, ← same]
    rfl
  refine ⟨accepted, refused, ?_⟩
  obtain ⟨failure, parsed, ⟨error, error', placed, rfl, diagnostic⟩ | ⟨fault, faulty, _⟩⟩ :=
    below _ refused
  · cases placed
    refine ⟨error', parsed, ?_⟩
    rw [diagnostic, single]
    exact ⟨rfl, rfl⟩
  · cases faulty

end Polycalc

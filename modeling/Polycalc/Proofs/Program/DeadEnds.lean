import Polycalc.Proofs.Program.Beginnings

/-!
# Tokens that never fit

The tokens that were read determine the state of the reader, whatever the settings
are and whatever text they are from (`ProgramReader.ReadsAll.unique`).  A token that
is refused in this state for what it is can therefore not stand behind them in any
program (`ProgramReader.ReadsAll.neverBegins`).
-/

namespace Polycalc

namespace ProgramReader

variable {settings settings' : Settings} {reader last : ProgramReader}

/-! ## Tokens one after the other -/

/-- Tokens take the reader from one state to the other. -/
inductive ReadsAll (settings : Settings) : ProgramReader → List Token → ProgramReader → Prop
  | nil {reader : ProgramReader} : ReadsAll settings reader [] reader
  | cons {reader between last : ProgramReader} {token : Token} {tokens : List Token}
      (reads : Reads settings reader token between)
      (later : ReadsAll settings between tokens last) :
      ReadsAll settings reader (token :: tokens) last

namespace ReadsAll

variable {tokens more : List Token}

/-- Tokens take a reader to one state, whatever the settings are. -/
theorem unique {other : ProgramReader} (readsAll : ReadsAll settings reader tokens last)
    (readsAll' : ReadsAll settings' reader tokens other) : last = other := by
  induction readsAll with
  | nil =>
      cases readsAll'
      rfl
  | cons reads _ ih =>
      cases readsAll' with
      | cons reads' later' =>
          rw [← reads.unique reads'] at later'
          exact ih later'

theorem exists_between (readsAll : ReadsAll settings reader (tokens ++ more) last) :
    ∃ between, ReadsAll settings reader tokens between ∧ ReadsAll settings between more last := by
  induction tokens generalizing reader with
  | nil => exact ⟨reader, .nil, readsAll⟩
  | cons token tokens ih =>
      cases readsAll with
      | cons reads later =>
          rcases ih later with ⟨between, first, second⟩
          exact ⟨between, .cons reads first, second⟩

end ReadsAll

/-- A path to the end of a text is one along all of its tokens. -/
theorem Path.readsAll {cursor final : Cursor} {definitions : List Definition}
    (path : Path settings cursor reader definitions final last) (atEnd : final.rest = []) :
    cursor.scanAll.stop = final ∧ ReadsAll settings reader cursor.scanAll.tokens last := by
  induction path with
  | refl =>
      rw [Cursor.scanAll_of_rest_eq_nil atEnd]
      exact ⟨rfl, .nil⟩
  | step more next _ reads _ ih =>
      rcases ih atEnd with ⟨stop, later⟩
      rw [Cursor.scanAll_of_next_eq_ok more next]
      exact ⟨stop, .cons reads later⟩

theorem Path.exists_tokens {text : String} {final : Cursor} {definitions : List Definition}
    (path : Path settings (.start text) .start definitions final last)
    (atEnd : final.rest = []) :
    ∃ tokens, tokenize text = .ok (tokens ++ [⟨.endOfInput, final.position⟩]) ∧
      ReadsAll settings .start tokens last := by
  rcases path.readsAll atEnd with ⟨stop, readsAll⟩
  refine ⟨_, tokenize_eq_ok_iff.mpr ?_, readsAll⟩
  rw [stop]
  exact ⟨atEnd, rfl⟩

/-- What was read on a path has the tokens on the path. -/
theorem Path.exists_tokens_read {text : String} {here : Cursor} {definitions : List Definition}
    (path : Path settings (.start text) .start definitions here last) {read : List Char}
    (split : text.toList = read ++ here.rest) :
    ∃ tokens, tokenize (String.ofList read) = .ok (tokens ++ [⟨.endOfInput, here.position⟩]) ∧
      ReadsAll settings .start tokens last := by
  have alone : (Cursor.start (String.ofList read)).rest = read ++ [] := by
    rw [List.append_nil]
    exact String.toList_ofList
  obtain ⟨final, path', atEnd, place⟩ := path.redirect split (fun _ => apart_nil) alone rfl
  rw [← place]
  exact path'.exists_tokens atEnd

/-! ## Refused tokens -/

/-- Where a token is refused for what it is, none like it follows in a complete
program; the end of the input is refused within a definition only. -/
theorem ReadsAll.not_prefix {before tokens : List Token} {found : Token} {error : ParseError}
    {last' : ProgramReader} (readsAll : ReadsAll settings reader before last)
    (refused : last.step settings found = .error (.parse error))
    (absolute : ¬ error.IsOfSettings) (begun : found.lexeme = .endOfInput → last.phase ≠ .start)
    (readsAll' : ReadsAll settings' reader tokens last') (complete : last'.phase = .start)
    (position : Position) : ¬ before ++ [found] <+: tokens ++ [⟨.endOfInput, position⟩] := by
  intro begins
  rcases List.prefix_concat_iff.mp begins with whole | ⟨more, within⟩
  · rcases List.append_inj' whole rfl with ⟨rfl, same⟩
    rw [List.singleton_inj] at same
    rw [readsAll.unique readsAll'] at begun
    exact begun (congrArg Token.lexeme same) complete
  · rw [← within, List.append_assoc] at readsAll'
    rcases readsAll'.exists_between with ⟨between, first, second⟩
    rw [← readsAll.unique first] at second
    cases second with
    | cons reads _ =>
        exact not_reads_of_step_eq_error refused absolute settings' _ reads

end ProgramReader

/-- No text that is read as a program has tokens that begin with these. -/
def Program.NeverBegins (lexemes : List Lexeme) : Prop :=
  ∀ settings text program, Program.parse settings text = .ok program →
    ∃ tokens, tokenize text = .ok tokens ∧ ¬ lexemes <+: tokens.map Token.lexeme

/-- Behind the tokens that were read a token that is refused for what it is never
fits. -/
theorem ProgramReader.ReadsAll.neverBegins {settings : Settings} {text : String}
    {before : List Token} {last : ProgramReader} {found : Token} {error : ParseError}
    (readsAll : ReadsAll settings .start before last)
    (tokenized : tokenize text = .ok (before ++ [⟨.endOfInput, found.position⟩]))
    (refused : last.step settings found = .error (.parse error))
    (absolute : ¬ error.IsOfSettings) (begun : found.lexeme = .endOfInput → last.phase ≠ .start) :
    Program.NeverBegins (before.map Token.lexeme ++ [found.lexeme]) := by
  intro settings' other program parsed
  rcases Program.parse_eq_ok_iff.mp parsed with ⟨_, final, last', path, atEnd, complete, _⟩
  rcases path.exists_tokens atEnd with ⟨tokens, tokenized', readsAll'⟩
  refine ⟨_, tokenized', ?_⟩
  rintro ⟨more, begins⟩
  apply readsAll.not_prefix refused absolute begun readsAll' complete final.position
  -- Lexemes say where tokens stand, so equal lexemes are equal tokens.
  rcases Token.position_of_placed (tokenize_placed tokenized) with ⟨same, place⟩
  rw [tokenize_placed tokenized', ← begins, Token.placed_append, Token.placed_append, ← same,
    Token.placed, Token.placed, ← place]
  exact List.prefix_append _ _

end Polycalc

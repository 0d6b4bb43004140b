import Polycalc.Proofs.Program.DeadEnds
import Polycalc.Proofs.Program.Numerals

/-!
# The correct prefix property

An error is reported at the first place where something is wrong: what stands before
the place is the beginning of a program, and what stands before it together with the
token there is not.  Only a call that has as many arguments as it may have could go on
if it might have more (`Program.correct_prefix`).  Where nothing limits how deeply calls
are nested, the beginning and the whole text are read under the same limits
(`Program.correct_prefix_of_any_depth`).
-/

namespace Polycalc

open Grammar

/-! ## Full calls -/

/-- The text does not end in a capital letter, so that a name behind it begins there. -/
def EndsBeforeName (text : List Char) : Prop :=
  ∀ c ∈ text.getLast?, c.isUpper = false

/-- The text ends where an argument of an open call may begin, but the call has as many
as it may have. -/
def Program.EndsInFullCall (bounds : Bounds) (callee : String) (text : List Char) : Prop :=
  ∃ begun scope given arguments,
    text = begun ++ callee.toList ++ '(' :: (given ++ if arguments = [] then [] else [' ']) ∧
      EndsBeforeName begun ∧ IsFunctionName callee ∧
      AreArguments bounds scope given arguments ∧ arguments.length = bounds.arguments

theorem endsBeforeName_nil : EndsBeforeName [] := by
  intro c member
  cases member

theorem endsBeforeName_concat {c : Char} (symbol : c.isUpper = false) (text : List Char) :
    EndsBeforeName (text ++ [c]) := by
  intro last isLast
  rw [List.getLast?_concat] at isLast
  cases isLast
  exact symbol

theorem EndsBeforeName.append {first second : List Char} (before : EndsBeforeName first)
    (after : EndsBeforeName second) : EndsBeforeName (first ++ second) := by
  cases second using List.reverseRecOn with
  | nil =>
      rw [List.append_nil]
      exact before
  | append_singleton second c _ =>
      rw [← List.append_assoc]
      apply endsBeforeName_concat
      exact after c List.getLast?_concat

section

variable {bounds : Bounds} {scope : List String} {text : List Char}

/-- Behind what waits for an operand a name begins. -/
theorem Pending.Spells.endsBeforeName {pending : Pending}
    (spells : pending.Spells bounds scope text) : EndsBeforeName text := by
  cases spells with
  | nothing => exact endsBeforeName_nil
  | product _ => exact endsBeforeName_concat (by decide) _
  | sum _ => exact endsBeforeName_concat (by decide) _
  | both _ _ => exact endsBeforeName_concat (by decide) _

theorem OpenCall.Spells.endsBeforeName {call : OpenCall}
    (spells : call.Spells bounds scope text) : EndsBeforeName text := by
  cases spells with
  | fresh _ _ => exact endsBeforeName_concat (by decide) _
  | more _ _ _ _ => exact endsBeforeName_concat (by decide) _

theorem StackSpells.endsBeforeName {stack : List OpenCall}
    (spells : StackSpells bounds scope stack text) : EndsBeforeName text := by
  induction spells with
  | nil => exact endsBeforeName_nil
  | cons _ opened _ ih => exact ih.append opened.endsBeforeName

/-- A call that may not have another argument is full. -/
theorem OpenCall.Spells.endsInFullCall {call : OpenCall}
    (spells : call.Spells bounds scope text) (full : call.arguments.length = bounds.arguments)
    {before : List Char} (apart : EndsBeforeName before) :
    Program.EndsInFullCall bounds call.name (before ++ text) := by
  cases spells with
  | @fresh name _ _ waiting waits callee =>
      refine ⟨before ++ waiting, scope, [], [], ?_, apart.append waits.endsBeforeName, callee,
        .none, full⟩
      simp
  | @more name _ _ waiting given arguments waits callee areArguments nonempty =>
      refine ⟨before ++ waiting, scope, given, arguments, ?_, apart.append waits.endsBeforeName,
        callee, areArguments, full⟩
      simp [nonempty]

/-- Where another argument may begin there is not yet one too many. -/
theorem ExprReader.Spells.endsInFullCall {reader : ExprReader} {innermost : OpenCall}
    {outer : List OpenCall} (spells : reader.Spells bounds scope text)
    (isArgument : reader.awaiting.IsArgument) (stack : reader.stack = innermost :: outer)
    (full : bounds.arguments ≤ innermost.arguments.length) {before : List Char}
    (apart : EndsBeforeName before) :
    Program.EndsInFullCall bounds innermost.name (before ++ text) := by
  cases spells with
  | firstArgument enclosing opened none =>
      cases stack
      have few : innermost.arguments.length ≤ bounds.arguments := by
        rw [none]
        exact Nat.zero_le _
      rw [← List.append_assoc]
      exact opened.endsInFullCall (Nat.le_antisymm few full)
        (apart.append enclosing.endsBeforeName)
  | nextArgument enclosing opened few =>
      cases stack
      rw [← List.append_assoc]
      exact opened.endsInFullCall (Nat.le_antisymm few full)
        (apart.append enclosing.endsBeforeName)
  | operand _ _ => rcases isArgument with awaiting | awaiting <;> cases awaiting
  | parenthesis _ _ _ => rcases isArgument with awaiting | awaiting <;> cases awaiting
  | continuation _ _ _ => rcases isArgument with awaiting | awaiting <;> cases awaiting

end

section

variable {settings : Settings} {token found : Token} {callee : String} {allowed : Int}

namespace ExprReader

variable {scope : List String} {reader : ExprReader}

theorem readOperand_ne_tooManyArguments :
    reader.readOperand scope token ≠ .error (.parse (.tooManyArguments callee allowed found)) := by
  intro refused
  unfold readOperand at refused
  split at refused
  · cases refused
  · split at refused
    · cases refused
    · cases refused
  · cases refused
  · cases refused
  · cases refused

/-- The token would begin an argument of a call that has no room for it. -/
theorem of_readArgument_eq_tooManyArguments
    (refused : reader.readArgument settings scope token =
      .error (.parse (.tooManyArguments callee allowed found))) :
    ∃ innermost outer, reader.stack = innermost :: outer ∧ innermost.name = callee ∧
      settings.maxArguments = some allowed ∧ allowed ≤ innermost.arguments.length ∧
      token = found := by
  unfold readArgument at refused
  split at refused
  · exact absurd refused readOperand_ne_tooManyArguments
  · rename_i innermost outer stack
    rcases Except.of_bind_eq_error refused with noRoom | ⟨_, _, unread⟩
    · rcases OpenCall.of_checkRoom_eq_error noRoom with ⟨_, fault⟩ | ⟨most, given, full, same⟩
      · cases fault
      · cases OpenCall.of_overfull_eq_parse same.symm
        exact ⟨innermost, outer, stack, rfl, given, full, rfl⟩
    · exact absurd unread readOperand_ne_tooManyArguments

theorem of_step_eq_tooManyArguments
    (refused : reader.step settings scope token =
      .error (.parse (.tooManyArguments callee allowed found))) :
    reader.awaiting.IsArgument ∧
      ∃ innermost outer, reader.stack = innermost :: outer ∧ innermost.name = callee ∧
        settings.maxArguments = some allowed ∧ allowed ≤ innermost.arguments.length ∧
        token = found := by
  unfold step at refused
  split at refused
  · exact absurd refused readOperand_ne_tooManyArguments
  · split at refused
    · unfold openCall at refused
      split at refused
      · cases refused
      · cases refused
    · cases refused
  · rename_i awaiting
    unfold readFirstArgument at refused
    split at refused
    · cases refused
    · exact ⟨Or.inl awaiting, of_readArgument_eq_tooManyArguments refused⟩
  · rename_i awaiting
    exact ⟨Or.inr awaiting, of_readArgument_eq_tooManyArguments refused⟩
  · unfold readContinuation at refused
    split at refused
    all_goals cases refused

end ExprReader

namespace ProgramReader

variable {reader : ProgramReader}

theorem require_ne_tooManyArguments {lexeme : Lexeme} {expected : Expected} {phase : Phase} :
    reader.require lexeme expected token phase ≠
      .error (.parse (.tooManyArguments callee allowed found)) := by
  intro refused
  unfold require at refused
  split at refused
  · cases refused
  · cases refused

/-- Only in a body there are arguments. -/
theorem of_step_eq_tooManyArguments
    (refused : reader.step settings token =
      .error (.parse (.tooManyArguments callee allowed found))) :
    ∃ heading body, reader.phase = .body heading body ∧
      body.step settings heading.parameters token =
        .error (.parse (.tooManyArguments callee allowed found)) := by
  unfold step at refused
  split at refused
  · exact absurd refused require_ne_tooManyArguments
  · exact absurd refused require_ne_tooManyArguments
  · unfold readName at refused
    split at refused
    all_goals cases refused
  · exact absurd refused require_ne_tooManyArguments
  · unfold readParameter at refused
    split at refused
    · split at refused
      all_goals cases refused
    · cases refused
    · cases refused
  · split at refused
    all_goals cases refused
  · rename_i heading body phase
    refine ⟨heading, body, phase, ?_⟩
    unfold readBody at refused
    split at refused
    · split at refused
      all_goals cases refused
    · rcases Except.of_bind_eq_error refused with refused | ⟨_, _, entered⟩
      · exact refused
      · cases entered
  · exact absurd refused require_ne_tooManyArguments
  · exact absurd refused require_ne_tooManyArguments
  · split at refused
    all_goals cases refused

/-- A call is reported to be full where it is. -/
theorem Path.endsInFullCall {bounds : Bounds} {text : String} {definitions : List Definition}
    {here : Cursor} {last : ProgramReader} (imposes : settings.Imposes bounds)
    (path : Path settings (.start text) .start definitions here last) {read : List Char}
    (split : text.toList = read ++ here.rest)
    (refused : last.step settings token =
      .error (.parse (.tooManyArguments callee allowed found))) :
    Program.EndsInFullCall bounds callee read ∧ token = found := by
  rcases of_step_eq_tooManyArguments refused with ⟨heading, body, phase, refused'⟩
  rcases body.of_step_eq_tooManyArguments refused' with
    ⟨isArgument, innermost, outer, stack, rfl, given, full, same⟩
  have enough : bounds.arguments ≤ innermost.arguments.length := by
    rcases imposes.arguments with ⟨most, given', toNat⟩
    cases given.symm.trans given'
    omega
  rcases path.spells imposes .start split with ⟨before, begun, whole, spells⟩
  rw [phase] at spells
  rw [List.nil_append] at whole
  cases spells with
  | body formed spells =>
      have apart : EndsBeforeName (before ++ (heading.text ++ " \x7b ".toList)) := by
        have spelled : before ++ (heading.text ++ " \x7b ".toList) =
            before ++ heading.text ++ " \x7b".toList ++ [' '] := by simp
        rw [spelled]
        exact endsBeforeName_concat (by decide) _
      rw [whole, ← List.append_assoc]
      exact ⟨spells.endsInFullCall isArgument stack enough apart, same⟩

end ProgramReader

end

/-! ## The place of an error -/

/-- An error with a position is about the place where reading stops. -/
theorem ProgramReader.StopsAt.position_eq {settings : Settings} {here : Cursor}
    {last : ProgramReader} {error : SourceError} {position : Position}
    (stops : StopsAt settings here last (.source error))
    (placed : error.diagnostic.position = some position) : here.position = position := by
  cases stops with
  | @lexical reason next =>
      rw [← (Cursor.next_eq_error_iff.mp next).2]
      rcases reason with ⟨cause, place⟩
      cases cause with
      | unterminatedStatement =>
          cases placed
          rfl
      | unexpectedCharacter c =>
          cases placed
          rfl
  | refused next refused _ =>
      rw [← Cursor.token_position_of_next next]
      cases isRefused_of_step refused with
      | nestedTooDeeply => cases placed
      | _ =>
          cases placed
          rfl

/-- A text with an error that has a position is read up to the position. -/
theorem ProgramReader.exists_place {settings : Settings} {text : String} {error : SourceError}
    {position : Position}
    (readable : ∀ token ∈ (Cursor.start text).scanAll.tokens,
      token.checkDigits settings.limits = .ok ())
    (failed : Program.parse settings text = .error (.source error))
    (placed : error.diagnostic.position = some position) :
    ∃ offset definitions last, position.HasOffset text offset ∧
      Path settings (.start text) .start definitions
        ⟨text.toList.drop offset, offset, position⟩ last ∧
      StopsAt settings ⟨text.toList.drop offset, offset, position⟩ last (.source error) := by
  rcases exists_stop readable failed with ⟨definitions, here, last, path, stops⟩
  rcases path.reaches.exists_read with ⟨read, split, offset, hasOffset⟩
  have left : text.toList.drop read.length = here.rest := by rw [split, List.drop_left]
  have place : here = ⟨text.toList.drop read.length, read.length, position⟩ := by
    rw [left, ← offset, ← stops.position_eq placed]
  rw [place] at path stops hasOffset
  exact ⟨read.length, definitions, last, hasOffset, path, stops⟩

/-- A token that is refused at the end of a path does not fit behind the tokens there, or
the call that it stands in is full. -/
theorem ProgramReader.Path.exists_refused {settings : Settings} {bounds : Bounds}
    {text : String} {definitions : List Definition} {offset : Nat} {position : Position}
    {last : ProgramReader} {error : ParseError} (imposes : settings.Imposes bounds)
    (path : Path settings (.start text) .start definitions
      ⟨text.toList.drop offset, offset, position⟩ last)
    (stops : StopsAt settings ⟨text.toList.drop offset, offset, position⟩ last
      (.source (.parse error)))
    (placed : error.diagnostic.position = some position) :
    ∃ before found after,
      tokenize (String.ofList (text.toList.take offset)) =
        .ok (before ++ [⟨.endOfInput, position⟩]) ∧
      Cursor.next ⟨text.toList.drop offset, offset, position⟩ = .ok (found, after) ∧
      ((∀ callee allowed token, error ≠ .tooManyArguments callee allowed token) →
        Program.NeverBegins (before.map Token.lexeme ++ [found.lexeme])) ∧
      ∀ callee allowed token, error = .tooManyArguments callee allowed token →
        token = found ∧ Program.EndsInFullCall bounds callee (text.toList.take offset) := by
  have split := (List.take_append_drop offset text.toList).symm
  cases stops with
  | @refused found after _ next refused begun =>
      rcases path.exists_tokens_read split with ⟨before, tokenized, readsAll⟩
      refine ⟨before, found, after, tokenized, next, ?_, ?_⟩
      · intro absolute
        have same : found.position = position := Cursor.token_position_of_next next
        rw [← same] at tokenized
        apply readsAll.neverBegins tokenized refused
        · cases error with
          | tooManyArguments callee allowed token => exact absurd rfl (absolute callee allowed token)
          | nestedTooDeeply => cases placed
          | _ => exact id
        · exact fun ended => begun (Cursor.rest_eq_nil_of_next next ended)
      · rintro callee allowed token rfl
        rcases path.endsInFullCall imposes split refused with ⟨full, isFound⟩
        exact ⟨isFound.symm, full⟩

/-- An error under any settings that limit arguments and digits: what stands before it
begins a program where calls may be nested one deeper. -/
theorem Program.prefix_of_error {settings : Settings} {bounds : Bounds} {text : String}
    {error : SourceError} {position : Position} (imposes : settings.Imposes bounds)
    (positive : 0 < bounds.digits) (short : ShortNumerals bounds.digits text)
    (failed : Program.parse settings text = .error (.source error))
    (placed : error.diagnostic.position = some position) :
    ∃ offset, position.HasOffset text offset ∧
      Begins settings.limits.deeper (text.toList.take offset) ∧
      ∀ parseError, error = .parse parseError →
        ∃ before found after,
          tokenize (String.ofList (text.toList.take offset)) =
            .ok (before ++ [⟨.endOfInput, position⟩]) ∧
          Cursor.next ⟨text.toList.drop offset, offset, position⟩ = .ok (found, after) ∧
          ((∀ callee allowed token, parseError ≠ .tooManyArguments callee allowed token) →
            NeverBegins (before.map Token.lexeme ++ [found.lexeme])) ∧
          ∀ callee allowed token, parseError = .tooManyArguments callee allowed token →
            token = found ∧ EndsInFullCall bounds callee (text.toList.take offset) := by
  have readable := (shortNumerals_iff imposes.digits).mp short
  rcases ProgramReader.exists_place readable failed placed with
    ⟨offset, definitions, last, hasOffset, path, stops⟩
  have begins := begins_of_path imposes positive path
    (List.take_append_drop offset text.toList).symm
  refine ⟨offset, hasOffset, begins, ?_⟩
  rintro parseError rfl
  exact path.exists_refused imposes stops placed

/-- What stands before the position of an error is the beginning of a program, and no
program begins with it and with the token at the position.  Only a token that would
begin an argument too many may stand there under other settings; it is the first one
where an argument may begin and the call has as many as it may have.

The program may have more arguments in a call than were allowed.  It may also need one
call more in a nest, since a name that no parenthesis follows yet may already stand in
as many open calls as allowed. -/
theorem Program.correct_prefix {maxArguments : Int} {nesting : Option Nat} {liveCalls : Nat}
    {text : String} {error : SourceError} {position : Position}
    (short : ShortNumerals 4300 text)
    (failed : Program.parse ⟨some maxArguments, ⟨some 4300, nesting, liveCalls⟩⟩ text =
      .error (.source error))
    (placed : error.diagnostic.position = some position) :
    ∃ offset, position.HasOffset text offset ∧
      Begins ⟨some 4300, nesting.map (· + 1), liveCalls⟩ (text.toList.take offset) ∧
      ∀ parseError, error = .parse parseError →
        ∃ before found after,
          tokenize (String.ofList (text.toList.take offset)) =
            .ok (before ++ [⟨.endOfInput, position⟩]) ∧
          Cursor.next ⟨text.toList.drop offset, offset, position⟩ = .ok (found, after) ∧
          ((∀ callee allowed token, parseError ≠ .tooManyArguments callee allowed token) →
            NeverBegins (before.map Token.lexeme ++ [found.lexeme])) ∧
          ∀ callee allowed token, parseError = .tooManyArguments callee allowed token →
            token = found ∧
              EndsInFullCall ⟨maxArguments.toNat, 4300⟩ callee (text.toList.take offset) := by
  have imposes : Settings.Imposes ⟨some maxArguments, ⟨some 4300, nesting, liveCalls⟩⟩
      ⟨maxArguments.toNat, 4300⟩ := ⟨⟨maxArguments, rfl, rfl⟩, rfl⟩
  exact prefix_of_error imposes (Nat.succ_pos 4299) short failed placed

/-- A text without numbers has no long one. -/
theorem shortNumerals_of_forall_notMem {digits : Nat} {text : String} {lexemes : List Lexeme}
    (listed : (Cursor.start text).scanAll.tokens.map Token.lexeme = lexemes)
    (none : ∀ numeral, .number numeral ∉ lexemes) : ShortNumerals digits text := by
  intro token member numeral isNumber
  rw [← listed] at none
  exact absurd (List.mem_map.mpr ⟨token, member, isNumber⟩) (none numeral)

/-- What the lexemes before the end of a text are, once they are read. -/
theorem map_lexeme_eq_of_tokenize {text : String} {before : List Token} {position : Position}
    {lexemes : List Lexeme}
    (tokenized : tokenize text = .ok (before ++ [⟨.endOfInput, position⟩]))
    (read : (tokenize text).map (List.map Token.lexeme) = .ok (lexemes ++ [.endOfInput])) :
    before.map Token.lexeme = lexemes := by
  rw [tokenized, Except.map, List.map_append, Except.ok.injEq] at read
  exact (List.append_inj' read rfl).1

/-- The lexemes of a definition up to a call in its body. -/
def unfinishedBody : List Lexeme :=
  [.define, .space, .function "F", .space, .parameter "x", .space, .openBrace, .space,
    .function "F", .openParen, .parameter "x", .closeParen]

/-- After a call in its body a definition goes on, but not with a parameter. -/
theorem unfinishedBody_correct_prefix :
    Program.parse {} "DEF F x \x7b F(x)x" =
        .error (.parse (.unexpected .space ⟨.parameter "x", ⟨1, 15⟩⟩)) ∧
      Program.Begins ⟨some 4300, some 251, 320⟩ "DEF F x \x7b F(x)".toList ∧
      Program.NeverBegins (unfinishedBody ++ [.parameter "x"]) := by
  have failed : Program.parse ⟨some 1, ⟨some 4300, some 250, 320⟩⟩ "DEF F x \x7b F(x)x" =
      .error (.parse (.unexpected .space ⟨.parameter "x", ⟨1, 15⟩⟩)) := by
    cbv
  have lexemes : (Cursor.start "DEF F x \x7b F(x)x").scanAll.tokens.map Token.lexeme =
      unfinishedBody ++ [.parameter "x"] := by
    cbv
  have short : ShortNumerals 4300 "DEF F x \x7b F(x)x" := by
    apply shortNumerals_of_forall_notMem lexemes
    simp [unfinishedBody]
  obtain ⟨offset, ⟨_, unique⟩, begins, refused⟩ := Program.correct_prefix short failed rfl
  have isOffset : 14 = offset := by
    apply (unique 14 (by decide)).mp
    decide
  subst isOffset
  rcases refused _ rfl with ⟨before, found, after, tokenized, next, never, _⟩
  have stands : Cursor.next ⟨['x'], 14, ⟨1, 15⟩⟩ =
      .ok (⟨.parameter "x", ⟨1, 15⟩⟩, ⟨[], 15, ⟨1, 16⟩⟩) := by
    cbv
  cases stands.symm.trans next
  have prefixText : String.ofList ("DEF F x \x7b F(x)x".toList.take 14) = "DEF F x \x7b F(x)" := by
    decide
  have prefixLexemes : (tokenize "DEF F x \x7b F(x)").map (List.map Token.lexeme) =
      .ok (unfinishedBody ++ [.endOfInput]) := by
    cbv
  rw [prefixText] at tokenized
  rw [map_lexeme_eq_of_tokenize tokenized prefixLexemes] at never
  exact ⟨failed, begins, never (by rintro _ _ _ ⟨⟩)⟩

/-- Where calls may be nested to any depth, what stands before the position of an error
is the beginning of a program under the same limits. -/
theorem Program.correct_prefix_of_any_depth {maxArguments : Int} {liveCalls : Nat}
    {text : String} {error : SourceError} {position : Position}
    (short : ShortNumerals 4300 text)
    (failed : Program.parse ⟨some maxArguments, ⟨some 4300, none, liveCalls⟩⟩ text =
      .error (.source error))
    (placed : error.diagnostic.position = some position) :
    ∃ offset, position.HasOffset text offset ∧
      Begins ⟨some 4300, none, liveCalls⟩ (text.toList.take offset) ∧
      ∀ parseError, error = .parse parseError →
        ∃ before found after,
          tokenize (String.ofList (text.toList.take offset)) =
            .ok (before ++ [⟨.endOfInput, position⟩]) ∧
          Cursor.next ⟨text.toList.drop offset, offset, position⟩ = .ok (found, after) ∧
          ((∀ callee allowed token, parseError ≠ .tooManyArguments callee allowed token) →
            NeverBegins (before.map Token.lexeme ++ [found.lexeme])) ∧
          ∀ callee allowed token, parseError = .tooManyArguments callee allowed token →
            token = found ∧
              EndsInFullCall ⟨maxArguments.toNat, 4300⟩ callee (text.toList.take offset) := by
  have imposes : Settings.Imposes ⟨some maxArguments, ⟨some 4300, none, liveCalls⟩⟩
      ⟨maxArguments.toNat, 4300⟩ := ⟨⟨maxArguments, rfl, rfl⟩, rfl⟩
  exact prefix_of_error imposes (Nat.succ_pos 4299) short failed placed

/-- The lexemes of a definition up to an argument of a call in a call. -/
def unfinishedNest : List Lexeme :=
  [.define, .space, .function "F", .space, .openBrace, .space, .function "F", .openParen,
    .function "F", .openParen]

/-- An argument may follow where calls are open, but not a parameter that nobody
declares. -/
theorem unfinishedNest_correct_prefix :
    Program.parse ⟨some 1, ⟨some 4300, none, 320⟩⟩ "DEF F \x7b F(F(x" =
        .error (.parse (.unknownParameter "x" ⟨1, 13⟩)) ∧
      Program.Begins ⟨some 4300, none, 320⟩ "DEF F \x7b F(F(".toList ∧
      Program.NeverBegins (unfinishedNest ++ [.parameter "x"]) := by
  have failed : Program.parse ⟨some 1, ⟨some 4300, none, 320⟩⟩ "DEF F \x7b F(F(x" =
      .error (.parse (.unknownParameter "x" ⟨1, 13⟩)) := by
    cbv
  have lexemes : (Cursor.start "DEF F \x7b F(F(x").scanAll.tokens.map Token.lexeme =
      unfinishedNest ++ [.parameter "x"] := by
    cbv
  have short : ShortNumerals 4300 "DEF F \x7b F(F(x" := by
    apply shortNumerals_of_forall_notMem lexemes
    simp [unfinishedNest]
  obtain ⟨offset, ⟨_, unique⟩, begins, refused⟩ :=
    Program.correct_prefix_of_any_depth short failed rfl
  have isOffset : 12 = offset := by
    apply (unique 12 (by decide)).mp
    decide
  subst isOffset
  rcases refused _ rfl with ⟨before, found, after, tokenized, next, never, _⟩
  have stands : Cursor.next ⟨['x'], 12, ⟨1, 13⟩⟩ =
      .ok (⟨.parameter "x", ⟨1, 13⟩⟩, ⟨[], 13, ⟨1, 14⟩⟩) := by
    cbv
  cases stands.symm.trans next
  have prefixText : String.ofList ("DEF F \x7b F(F(x".toList.take 12) = "DEF F \x7b F(F(" := by
    decide
  have prefixLexemes : (tokenize "DEF F \x7b F(F(").map (List.map Token.lexeme) =
      .ok (unfinishedNest ++ [.endOfInput]) := by
    cbv
  rw [prefixText] at tokenized
  rw [map_lexeme_eq_of_tokenize tokenized prefixLexemes] at never
  exact ⟨failed, begins, never (by rintro _ _ _ ⟨⟩)⟩

end Polycalc

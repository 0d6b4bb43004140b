import Polycalc.Program.Validation
import Polycalc.Proofs.Expr.Outline
import Polycalc.Proofs.Program.Numerals

/-!
# Outlines of programs

Neither reading a text nor validating what was read takes a decision that depends
on a number.  A text is read as a program exactly if its outlined tokens are, and
these are read as the outline of the program (`ProgramReader.run_outline`); a program
is as valid as its outline.  So of two texts that differ in digits both are accepted
or neither, with equal outlines (`Program.parseValid_together`).
-/

namespace Polycalc

/-! ## Programs -/

/-- A definition with the outline of its body. -/
def Definition.outline (definition : Definition) : Definition :=
  { definition with body := definition.body.outline }

theorem Definition.map_outline_insertInto (definition : Definition) (entries : List Definition) :
    (definition.insertInto entries).map outline =
      definition.outline.insertInto (entries.map outline) := by
  induction entries with
  | nil => rfl
  | cons entry rest ih =>
      by_cases same : entry.name = definition.name
      · have same' : entry.outline.name = definition.outline.name := same
        rw [insertInto, if_pos same, List.map_cons, List.map_cons, insertInto, if_pos same']
      · have different : ¬ entry.outline.name = definition.outline.name := same
        rw [insertInto, if_neg same, List.map_cons, List.map_cons, insertInto, if_neg different, ih]

namespace FunctionTable

/-- The outlines of the functions of a table. -/
def outline (table : FunctionTable) : FunctionTable where
  entries := table.entries.map Definition.outline
  distinct := by
    rw [List.map_map]
    exact table.distinct

theorem outline_insert (table : FunctionTable) (definition : Definition) :
    (table.insert definition).outline = table.outline.insert definition.outline := by
  have same := definition.map_outline_insertInto table.entries
  simp only [outline, insert, same]

/-- A name means the outline of what it meant. -/
theorem find?_outline (table : FunctionTable) (name : String) :
    table.outline.find? name = (table.find? name).map Definition.outline := by
  rw [find?, find?, outline, List.find?_map]
  rfl

theorem contains_outline (table : FunctionTable) (name : String) :
    table.outline.contains name = table.contains name := by
  rw [contains, contains, find?_outline, Option.isSome_map]

end FunctionTable

namespace Program

/-- A program in which every number is zero and which stands nowhere. -/
def outline (program : Program) : Program where
  functions := program.functions.outline
  calls := program.calls.map Call.outline
  registered := program.registered.map Expr.outline
  redefined := program.redefined.map Definition.outline

theorem find?_outline (program : Program) (name : String) :
    program.outline.find? name = (program.find? name).map Definition.outline :=
  program.functions.find?_outline name

theorem outline_define (program : Program) (definition : Definition) :
    (program.define definition).outline = program.outline.define definition.outline := by
  have contained := program.functions.contains_outline definition.name
  simp only [define, outline, FunctionTable.outline_insert]
  simp only [Definition.outline, contained]
  split
  · rw [List.map_append]
    rfl
  · rfl

end Program

/-! ## Steps -/

/-- The outline of how far a definition has been read. -/
def Phase.outline : Phase → Phase
  | start => start
  | define => define
  | name => name
  | word heading => word heading
  | parameters heading => parameters heading
  | brace heading => brace heading
  | body heading reader => body heading reader.outline
  | bodyEnd heading expr => bodyEnd heading expr.outline
  | closed heading expr => closed heading expr.outline
  | statementEnd heading expr => statementEnd heading expr.outline

/-- The outline of how far a program has been read. -/
def ProgramReader.outline (reader : ProgramReader) : ProgramReader :=
  ⟨reader.program.outline, reader.count, reader.phase.outline⟩

theorem Lexeme.outline_eq_iff {lexeme : Lexeme} (noNumber : ∀ digits, lexeme ≠ number digits)
    (other : Lexeme) : other.outline = lexeme ↔ other = lexeme := by
  cases other with
  | number digits => simp [outline, Ne.symm (noNumber _)]
  | _ => rfl

namespace ProgramReader

variable {settings : Settings}

theorem require_outline (reader : ProgramReader) {lexeme : Lexeme}
    (noNumber : ∀ digits, lexeme ≠ .number digits) (expected : Expected) (token : Token)
    (phase : Phase) :
    Outlines outline (reader.require lexeme expected token phase)
      (reader.outline.require lexeme expected token.outline phase.outline) := by
  have same := Lexeme.outline_eq_iff noNumber token.lexeme
  simp only [require, Token.outline, same]
  split
  · exact .ok _
  · exact .error _ _

theorem readName_outline (reader : ProgramReader) (token : Token) :
    Outlines outline (reader.readName token) (reader.outline.readName token.outline) := by
  rcases token with ⟨lexeme, position⟩
  cases lexeme with
  | entry => exact .ok _
  | function name => exact .ok _
  | _ => exact .error _ _

theorem readParameter_outline (reader : ProgramReader) (heading : Heading) (token : Token) :
    Outlines outline (reader.readParameter heading token)
      (reader.outline.readParameter heading token.outline) := by
  rcases token with ⟨lexeme, position⟩
  cases lexeme with
  | parameter name =>
      simp only [readParameter, Token.outline, Lexeme.outline]
      split
      · exact .error _ _
      · exact .ok _
  | openBrace => exact .ok _
  | _ => exact .error _ _

theorem readBody_outline (reader : ProgramReader) (heading : Heading) (body : ExprReader)
    (token : Token) :
    Outlines outline (reader.readBody settings heading body token)
      (reader.outline.readBody settings heading body.outline token.outline) := by
  have space : token.lexeme.outline = .space ↔ token.lexeme = .space :=
    Lexeme.outline_eq_iff (by simp) _
  have finished := body.finished?_outline token.lexeme
  unfold readBody
  simp only [Token.outline] at space ⊢
  rw [finished]
  cases body.finished? token.lexeme with
  | some expr =>
      simp only [Option.map_some, space]
      split
      · exact .ok _
      · exact .error _ _
  | none =>
      simp only [Option.map_none]
      exact (body.step_outline token).bind fun _ => .ok _

/-- A reader of programs does with a token what its outline does with the outline of
the token. -/
theorem step_outline (reader : ProgramReader) (token : Token) :
    Outlines outline (reader.step settings token)
      (reader.outline.step settings token.outline) := by
  rcases reader with ⟨program, count, phase⟩
  cases phase with
  | start => exact require_outline _ (by simp) _ token _
  | define => exact require_outline _ (by simp) _ token _
  | name => exact readName_outline _ token
  | word heading => exact require_outline _ (by simp) _ token _
  | parameters heading => exact readParameter_outline _ heading token
  | brace heading =>
      have space : token.lexeme.outline = .space ↔ token.lexeme = .space :=
        Lexeme.outline_eq_iff (by simp) _
      simp only [step, outline, Phase.outline, Token.outline, space]
      split
      · exact .ok _
      · exact .error _ _
  | body heading body => exact readBody_outline _ heading body token
  | bodyEnd heading body => exact require_outline _ (by simp) _ token _
  | closed heading body => exact require_outline _ (by simp) _ token _
  | statementEnd heading body =>
      rcases token with ⟨lexeme, position⟩
      cases lexeme with
      | endOfStatement carriageReturn =>
          apply Outlines.of_eq
          simp only [outline, endDefinition, Program.outline_define]
          rfl
      | _ => exact .error _ _

/-! ## Runs -/

/-- Only between two definitions may a text end, whatever the token is that says
so. -/
theorem finish_outline (reader : ProgramReader) (last last' : Token) :
    Outlines Program.outline (reader.finish settings last)
      (reader.outline.finish settings last') := by
  rcases reader with ⟨program, count, phase⟩
  cases phase with
  | start => exact .ok program
  | _ =>
    simp only [finish, outline, Phase.outline]
    split <;> split <;> exact .error _ _

variable {maxArguments : Option Int} {limits : Limits} {ending ending' : Except LexError Token}

theorem exists_following_outline
    (ended : (∃ last, ending = .ok last) ↔ ∃ last, ending' = .ok last) (remaining : List Token) :
    (∃ next, (Token.following remaining ending).mapError Failure.lexical = .ok next) ↔
      ∃ next, (Token.following (remaining.map Token.outline) ending').mapError
        Failure.lexical = .ok next := by
  cases remaining with
  | nil =>
    simp only [Token.following, List.map_nil]
    cases ending <;> cases ending' <;> simp_all [Except.mapError]
  | cons token remaining => exact ⟨fun _ => ⟨_, rfl⟩, fun _ => ⟨_, rfl⟩⟩

/-- Outlined tokens are read as the outline of the program. -/
theorem run_outline (ended : (∃ last, ending = .ok last) ↔ ∃ last, ending' = .ok last)
    (reader : ProgramReader) (tokens : List Token) :
    Outlines Program.outline (reader.run ⟨maxArguments, limits.unlimited⟩ ending tokens)
      (reader.outline.run ⟨maxArguments, limits.unlimited⟩ ending'
        (tokens.map Token.outline)) := by
  induction tokens generalizing reader with
  | nil =>
      rw [List.map_nil]
      cases ending with
      | ok last =>
          rcases ended.mp ⟨last, rfl⟩ with ⟨last', rfl⟩
          exact reader.finish_outline last last'
      | error failure =>
          cases ending' with
          | ok last' =>
              rcases ended.mpr ⟨last', rfl⟩ with ⟨_, impossible⟩
              cases impossible
          | error failure' => exact .error _ _
  | cons token remaining ih =>
      rw [List.map_cons, run, run, Token.checkDigits_unlimited, Token.checkDigits_unlimited]
      apply (reader.step_outline token).bind
      intro reader'
      apply Outlines.after (exists_following_outline ended remaining)
      exact ih reader'

end ProgramReader

/-- The texts have the same tokens but for the digits of their numbers. -/
structure SameButDigits (text text' : String) : Prop where
  tokens : (Cursor.start text').scanAll.tokens.map Token.outline =
    (Cursor.start text).scanAll.tokens.map Token.outline
  /-- either can be split to its end, or neither -/
  ended : (∃ last, (Cursor.start text).scanAll.ending = .ok last) ↔
    ∃ last, (Cursor.start text').scanAll.ending = .ok last

namespace Program

variable {settings : Settings} {limits : Limits} {program : Program}

/-! ## Validation -/

theorem accepts_outline (program : Program) (call : Call) :
    program.outline.Accepts call.outline ↔ program.Accepts call := by
  have callee : program.outline.find? call.outline.name =
      (program.find? call.name).map Definition.outline :=
    program.find?_outline call.name
  have given : call.outline.arguments.length = call.arguments.length :=
    List.length_map _
  rw [Accepts, Accepts, callee, given]
  simp only [Option.map_eq_some_iff]
  constructor
  · rintro ⟨_, ⟨callee, found, rfl⟩, fits⟩
    exact ⟨callee, found, fits⟩
  · rintro ⟨callee, found, fits⟩
    exact ⟨_, ⟨callee, found, rfl⟩, fits⟩

/-- A program that was read is as valid as its outline. -/
theorem validate_outline (nothing : program.registered = []) :
    program.outline.validate limits = .ok () ↔ program.validate limits = .ok () := by
  have nothing' : program.outline.registered = [] := by
    rw [outline, nothing, List.map_nil]
  have hasEntry : program.outline.contains entryName = program.contains entryName :=
    program.functions.contains_outline entryName
  rw [validate_eq_ok_iff nothing, validate_eq_ok_iff nothing', hasEntry]
  apply and_congr_right
  intro _
  rw [outline, List.forall_mem_map]
  exact forall₂_congr fun call _ => program.accepts_outline call

/-! ## Texts -/

variable {text text' : String}

theorem checkDigits_of_shortNumerals
    (short : ∀ digits, limits.digits = some digits → ShortNumerals digits text) :
    ∀ token ∈ (Cursor.start text).scanAll.tokens, token.checkDigits limits = .ok () := by
  cases limited : limits.digits with
  | some digits => exact (shortNumerals_iff limited).mp (short digits limited)
  | none =>
      intro token _
      cases checked : token.checkDigits limits with
      | ok _ => rfl
      | error fault =>
          rcases Token.checkDigits_eq_error_iff.mp checked with ⟨digits, _, limited', _⟩
          rw [limited] at limited'
          cases limited'

/-- A text without long numbers is read as its outlined tokens are. -/
theorem parse_outline
    (short : ∀ digits, settings.limits.digits = some digits → ShortNumerals digits text)
    {ending : Except LexError Token}
    (ended : (∃ last, (Cursor.start text).scanAll.ending = .ok last) ↔
      ∃ last, ending = .ok last) :
    Outlines outline (Program.parse settings text)
      (ProgramReader.start.run ⟨settings.maxArguments, settings.limits.unlimited⟩ ending
        ((Cursor.start text).scanAll.tokens.map Token.outline)) := by
  have unlimited : Outlines outline
      (Program.parse ⟨settings.maxArguments, settings.limits.unlimited⟩ text)
      (ProgramReader.start.run ⟨settings.maxArguments, settings.limits.unlimited⟩ ending
        ((Cursor.start text).scanAll.tokens.map Token.outline)) :=
    ProgramReader.run_outline ended .start _
  have compares := parse_sameUnlessLimited
    (Settings.freer_unlimited settings.maxArguments settings.limits) text
  generalize Program.parse ⟨settings.maxArguments, settings.limits.unlimited⟩ text = free
    at compares unlimited
  generalize Program.parse ⟨settings.maxArguments, settings.limits⟩ text = result at compares ⊢
  generalize ProgramReader.run _ ending .start _ = outlined at unlimited ⊢
  cases compares with
  | same => exact unlimited
  | nesting deep allowed => exact absurd (allowed.symm.trans deep) (by decide)
  | numeral member long =>
      rw [checkDigits_of_shortNumerals short _ member] at long
      cases long
  | bound =>
      cases unlimited with
      | error _ failure => exact .error _ failure

/-- Of two texts that differ in digits both are accepted or neither, and the programs
have equal outlines. -/
theorem parseValid_together (same : SameButDigits text text')
    (short : ∀ digits, settings.limits.digits = some digits →
      ShortNumerals digits text ∧ ShortNumerals digits text') :
    ((∃ program, parseValid settings text = .ok program) ↔
        ∃ program, parseValid settings text' = .ok program) ∧
      ∀ program program', parseValid settings text = .ok program →
        parseValid settings text' = .ok program' → program'.outline = program.outline := by
  have read := parse_outline (fun digits limited => (short digits limited).1) Iff.rfl
  have read' := parse_outline (fun digits limited => (short digits limited).2) same.ended.symm
  rw [same.tokens] at read'
  rcases read.together read' with ⟨both, alike⟩
  have valid : ∀ program program', Program.parse settings text = .ok program →
      Program.parse settings text' = .ok program' →
        (program'.validate settings.limits = .ok () ↔
          program.validate settings.limits = .ok ()) := by
    intro program program' parsed parsed'
    rw [← validate_outline (registered_of_parse parsed),
      ← validate_outline (registered_of_parse parsed'), alike program program' parsed parsed']
  constructor
  · constructor
    · rintro ⟨program, accepted⟩
      rcases parseValid_eq_ok_iff.mp accepted with ⟨parsed, passed⟩
      rcases both.mp ⟨program, parsed⟩ with ⟨program', parsed'⟩
      exact ⟨program', parseValid_eq_ok_iff.mpr
        ⟨parsed', (valid program program' parsed parsed').mpr passed⟩⟩
    · rintro ⟨program', accepted⟩
      rcases parseValid_eq_ok_iff.mp accepted with ⟨parsed', passed⟩
      rcases both.mpr ⟨program', parsed'⟩ with ⟨program, parsed⟩
      exact ⟨program, parseValid_eq_ok_iff.mpr
        ⟨parsed, (valid program program' parsed parsed').mp passed⟩⟩
  · intro program program' accepted accepted'
    exact alike program program' (parseValid_eq_ok_iff.mp accepted).1
      (parseValid_eq_ok_iff.mp accepted').1

end Program

end Polycalc

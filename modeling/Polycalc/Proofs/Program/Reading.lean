import Polycalc.Proofs.Expr.Reading
import Polycalc.Proofs.Program.Paths

/-!
# What a text is read as

A text is read as a list of definitions: the program is what results from
performing them in turn, and its calls are those of their bodies
(`Program.exists_definitions`).  Replaced definitions count, since their calls
stay registered.
-/

namespace Polycalc

/-! ## Definitions that can be read -/

/-- The entry function has no parameters. -/
def Heading.Valid (heading : Heading) : Prop :=
  heading.name = entryName → heading.parameters = []

/-- A definition as it can be read: its body uses what it declares, and the
entry function has no parameters. -/
structure Definition.Read (definition : Definition) : Prop where
  body : definition.body.ReadIn definition.parameters
  entry : definition.name = entryName → definition.parameters = []

namespace Program

/-- The program that results from definitions in the order of a text. -/
def ofDefinitions (definitions : List Definition) : Program :=
  { definitions.foldl define empty with
    calls := definitions.flatMap fun definition => definition.body.calls }

/-- One more definition is performed after its calls were registered. -/
theorem ofDefinitions_append (definitions : List Definition) (definition : Definition) :
    ofDefinitions (definitions ++ [definition]) =
      define
        { ofDefinitions definitions with
          calls := (ofDefinitions definitions).calls ++ definition.body.calls }
        definition := by
  simp only [ofDefinitions, define, List.foldl_append, List.flatMap_append,
    List.flatMap_singleton, List.foldl_cons, List.foldl_nil]
  rfl

end Program

/-! ## What a reader of programs keeps -/

/-- What has been read of a definition, after a program. -/
def Phase.Keeps (before program : Program) : Phase → Prop
  | .start | .define | .name => program = before
  | .word heading | .parameters heading | .brace heading =>
    program = before ∧ heading.Valid
  | .body heading reader =>
    program = before ∧ heading.Valid ∧ reader.Keeps heading.parameters before.calls
  | .bodyEnd heading expr | .closed heading expr | .statementEnd heading expr =>
    program = { before with calls := before.calls ++ expr.calls } ∧ heading.Valid ∧
      expr.ReadIn heading.parameters

/-- The definitions that are complete made the program, and the phase keeps
what has been read of the next one. -/
structure ProgramReader.Keeps (definitions : List Definition) (reader : ProgramReader) :
    Prop where
  read : ∀ definition ∈ definitions, definition.Read
  numbered : Numbered reader.program.calls
  phase : reader.phase.Keeps (.ofDefinitions definitions) reader.program

/-- A finished expression is all that the reader held. -/
theorem ExprReader.Keeps.finished {scope : List String} {before : List Call}
    {reader : ExprReader} {next : Lexeme} {expr : Expr} (keeps : reader.Keeps scope before)
    (finished : reader.finished? next = some expr) :
    expr.ReadIn scope ∧ reader.calls = before ++ expr.calls := by
  rcases exists_of_finished?_eq_some finished with ⟨pending, operand, calls, rfl, rfl⟩
  have held := keeps.readIn
  have registered := keeps.calls
  simp only [held_mk, List.reverse_nil, List.flatMap_nil, List.nil_append,
    Awaiting.held_continuation, List.forall_mem_append, List.forall_mem_singleton] at held
  constructor
  · exact Pending.readIn_closeSum held.1 held.2
  · simpa [held_mk, Pending.calls_closeSum] using registered

namespace ProgramReader

variable {settings : Settings}

/-- A token that completes no definition adds none. -/
theorem Keeps.quiet {definitions : List Definition} {reader : ProgramReader}
    (keeps : reader.Keeps definitions) : reader.Keeps (definitions ++ []) := by
  rw [List.append_nil]
  exact keeps

/-- No transition breaks what a reader keeps. -/
theorem Keeps.step {definitions : List Definition} {reader reader' : ProgramReader}
    {token : Token} (keeps : reader.Keeps definitions)
    (reads : Reads settings reader token reader') :
    reader'.Keeps (definitions ++ reader.completed token) := by
  rcases keeps with ⟨read, numbered, phase⟩
  cases reads with
  | define => exact .quiet ⟨read, numbered, phase⟩
  | defineSpace => exact .quiet ⟨read, numbered, phase⟩
  | name _ => exact .quiet ⟨read, numbered, phase, fun _ => rfl⟩
  | wordSpace => exact .quiet ⟨read, numbered, phase⟩
  | parameter ordinary =>
      exact .quiet ⟨read, numbered, phase.1, fun entry => absurd entry ordinary⟩
  | openBrace => exact .quiet ⟨read, numbered, phase⟩
  | braceSpace =>
      rcases phase with ⟨rfl, valid⟩
      exact .quiet ⟨read, numbered, rfl, valid, .start numbered⟩
  | body _ reads =>
      rcases phase with ⟨same, valid, keeps⟩
      exact .quiet ⟨read, numbered, same, valid, keeps.step reads⟩
  | bodySpace finished =>
      rcases phase with ⟨rfl, valid, keeps⟩
      rcases keeps.finished finished with ⟨readIn, registered⟩
      exact .quiet ⟨read, keeps.numbered, by rw [registered], valid, readIn⟩
  | closeBrace => exact .quiet ⟨read, numbered, phase⟩
  | closedSpace => exact .quiet ⟨read, numbered, phase⟩
  | endOfStatement =>
      rcases phase with ⟨rfl, valid, readIn⟩
      rw [completed]
      constructor
      · rw [List.forall_mem_append, List.forall_mem_singleton]
        exact ⟨read, readIn, valid⟩
      · exact numbered
      · rw [Program.ofDefinitions_append]
        rfl

theorem keeps_start : start.Keeps [] where
  read := by simp
  numbered := rfl
  phase := rfl

/-- What a reader keeps is kept on a path. -/
theorem Path.keeps {cursor final : Cursor} {reader last : ProgramReader}
    {before definitions : List Definition}
    (path : Path settings cursor reader definitions final last)
    (keeps : reader.Keeps before) : last.Keeps (before ++ definitions) := by
  induction path generalizing before with
  | refl =>
      rw [List.append_nil]
      exact keeps
  | step _ _ _ reads _ ih =>
      rw [← List.append_assoc]
      exact ih (keeps.step reads)

/-- The definitions that are completed on a path make the program. -/
theorem Path.program_eq {cursor final : Cursor} {last : ProgramReader}
    {definitions : List Definition}
    (path : Path settings cursor .start definitions final last)
    (complete : last.phase = .start) :
    last.program = .ofDefinitions definitions ∧ Numbered last.program.calls ∧
      ∀ definition ∈ definitions, definition.Read := by
  rcases path.keeps keeps_start with ⟨read, numbered, phase⟩
  rw [complete] at phase
  exact ⟨phase, numbered, read⟩

end ProgramReader

/-- The program that is read results from definitions that can be read, and its
calls are numbered. -/
theorem Program.exists_definitions {settings : Settings} {text : String} {program : Program}
    (parsed : Program.parse settings text = .ok program) :
    ∃ definitions, program = .ofDefinitions definitions ∧ Numbered program.calls ∧
      ∀ definition ∈ definitions, definition.Read := by
  rcases Program.parse_eq_ok_iff.mp parsed with ⟨definitions, final, last, path, _, complete, rfl⟩
  exact ⟨definitions, path.program_eq complete⟩

end Polycalc

import Polycalc.Program.Parser
import Polycalc.Proofs.Expr.Transitions

/-!
# The transitions of a reader of programs

`ProgramReader.Reads` lists what one token can do to a reader, phase by phase,
and `ProgramReader.step_eq_ok_iff` says that these are exactly the steps that
succeed.
-/

namespace Polycalc

namespace ProgramReader

/-- `Reads settings reader token reader'`: the token takes the reader from one
state to the other. -/
inductive Reads (settings : Settings) : ProgramReader → Token → ProgramReader → Prop
  | define {program : Program} {count : Nat} {position : Position} :
      Reads settings ⟨program, count, .start⟩ ⟨.define, position⟩ ⟨program, count, .define⟩
  | defineSpace {program : Program} {count : Nat} {position : Position} :
      Reads settings ⟨program, count, .define⟩ ⟨.space, position⟩ ⟨program, count, .name⟩
  | name {program : Program} {count : Nat} {lexeme : Lexeme} {name : String}
      {position : Position} (names : lexeme.callee? = some name) :
      Reads settings ⟨program, count, .name⟩ ⟨lexeme, position⟩
        ⟨program, count, .word ⟨name, []⟩⟩
  | wordSpace {program : Program} {count : Nat} {heading : Heading} {position : Position} :
      Reads settings ⟨program, count, .word heading⟩ ⟨.space, position⟩
        ⟨program, count, .parameters heading⟩
  | parameter {program : Program} {count : Nat} {heading : Heading} {name : String}
      {position : Position} (ordinary : heading.name ≠ entryName) :
      Reads settings ⟨program, count, .parameters heading⟩ ⟨.parameter name, position⟩
        ⟨program, count, .word ⟨heading.name, heading.parameters ++ [name]⟩⟩
  | openBrace {program : Program} {count : Nat} {heading : Heading} {position : Position} :
      Reads settings ⟨program, count, .parameters heading⟩ ⟨.openBrace, position⟩
        ⟨program, count, .brace heading⟩
  | braceSpace {program : Program} {count : Nat} {heading : Heading} {position : Position} :
      Reads settings ⟨program, count, .brace heading⟩ ⟨.space, position⟩
        ⟨program, count, .body heading (.start program.calls)⟩
  | body {program : Program} {count : Nat} {heading : Heading} {reader reader' : ExprReader}
      {token : Token} (unfinished : reader.finished? token.lexeme = none)
      (reads : reader.Reads settings heading.parameters token reader') :
      Reads settings ⟨program, count, .body heading reader⟩ token
        ⟨program, count, .body heading reader'⟩
  | bodySpace {program : Program} {count : Nat} {heading : Heading} {reader : ExprReader}
      {expr : Expr} {position : Position} (finished : reader.finished? .space = some expr) :
      Reads settings ⟨program, count, .body heading reader⟩ ⟨.space, position⟩
        ⟨{ program with calls := reader.calls }, count, .bodyEnd heading expr⟩
  | closeBrace {program : Program} {count : Nat} {heading : Heading} {expr : Expr}
      {position : Position} :
      Reads settings ⟨program, count, .bodyEnd heading expr⟩ ⟨.closeBrace, position⟩
        ⟨program, count, .closed heading expr⟩
  | closedSpace {program : Program} {count : Nat} {heading : Heading} {expr : Expr}
      {position : Position} :
      Reads settings ⟨program, count, .closed heading expr⟩ ⟨.space, position⟩
        ⟨program, count, .statementEnd heading expr⟩
  | endOfStatement {program : Program} {count : Nat} {heading : Heading} {expr : Expr}
      {carriageReturn : Bool} {position : Position} :
      Reads settings ⟨program, count, .statementEnd heading expr⟩
        ⟨.endOfStatement carriageReturn, position⟩
        (endDefinition ⟨program, count, .statementEnd heading expr⟩ heading expr)

variable {settings : Settings} {reader reader' : ProgramReader} {token : Token}

theorem require_eq_ok_iff {lexeme : Lexeme} {expected : Expected} {phase : Phase} :
    reader.require lexeme expected token phase = .ok reader' ↔
      token.lexeme = lexeme ∧ reader.enter phase = reader' := by
  unfold require
  split <;> simp [*]

/-- A step that succeeds is one of the transitions. -/
theorem Reads.of_step (stepped : reader.step settings token = .ok reader') :
    Reads settings reader token reader' := by
  rcases reader with ⟨program, count, phase⟩
  rcases token with ⟨lexeme, position⟩
  cases phase with
  | start =>
      rcases require_eq_ok_iff.mp stepped with ⟨rfl, rfl⟩
      exact .define
  | define =>
      rcases require_eq_ok_iff.mp stepped with ⟨rfl, rfl⟩
      exact .defineSpace
  | name =>
      cases lexeme with
      | entry =>
          cases stepped
          exact .name rfl
      | function name =>
          cases stepped
          exact .name rfl
      | _ => cases stepped
  | word heading =>
      rcases require_eq_ok_iff.mp stepped with ⟨rfl, rfl⟩
      exact .wordSpace
  | parameters heading =>
      cases lexeme with
      | parameter name =>
          simp only [step, readParameter] at stepped
          split at stepped
          · cases stepped
          · cases stepped
            exact .parameter ‹_›
      | openBrace =>
          cases stepped
          exact .openBrace
      | _ => cases stepped
  | brace heading =>
      simp only [step] at stepped
      split at stepped
      · subst_vars
        cases stepped
        exact .braceSpace
      · cases stepped
  | body heading reader =>
      simp only [step, readBody] at stepped
      split at stepped
      · split at stepped
        · subst_vars
          cases stepped
          exact .bodySpace ‹_›
        · cases stepped
      · cases read : reader.step settings heading.parameters ⟨lexeme, position⟩ with
        | error failure =>
            rw [read] at stepped
            cases stepped
        | ok next =>
            rw [read] at stepped
            cases stepped
            exact .body ‹_› (.of_step read)
  | bodyEnd heading expr =>
      rcases require_eq_ok_iff.mp stepped with ⟨rfl, rfl⟩
      exact .closeBrace
  | closed heading expr =>
      rcases require_eq_ok_iff.mp stepped with ⟨rfl, rfl⟩
      exact .closedSpace
  | statementEnd heading expr =>
      cases lexeme with
      | endOfStatement carriageReturn =>
          cases stepped
          exact .endOfStatement
      | _ => cases stepped

/-- Every transition is a step. -/
theorem Reads.step_eq_ok (reads : Reads settings reader token reader') :
    reader.step settings token = .ok reader' := by
  cases reads with
  | @name _ _ lexeme _ _ names => cases lexeme <;> cases names <;> rfl
  | parameter ordinary => simp [step, readParameter, ordinary, enter]
  | body unfinished reads =>
      simp only [step, readBody, unfinished, reads.step_eq_ok]
      rfl
  | bodySpace finished => simp [step, readBody, finished, endBody]
  | _ => rfl

/-- The steps that succeed are the transitions. -/
theorem step_eq_ok_iff :
    reader.step settings token = .ok reader' ↔ Reads settings reader token reader' :=
  ⟨Reads.of_step, Reads.step_eq_ok⟩

/-! ## Runs -/

theorem finish_eq_ok_iff {last : Token} {program : Program} :
    reader.finish settings last = .ok program ↔
      reader.phase = .start ∧ reader.program = program := by
  rcases reader with ⟨read, count, phase⟩
  cases phase with
  | start => simp [finish]
  | _ =>
      simp only [finish]
      split <;> simp

theorem run_cons_eq_ok_iff {ending : Except LexError Token} {remaining : List Token}
    {program : Program} :
    reader.run settings ending (token :: remaining) = .ok program ↔
      ∃ reader', Reads settings reader token reader' ∧
        (∃ next, Token.following remaining ending = .ok next) ∧
        token.checkDigits settings.limits = .ok () ∧
        reader'.run settings ending remaining = .ok program := by
  rw [run]
  constructor
  · intro ran
    cases stepped : reader.step settings token with
    | error failure =>
        rw [stepped] at ran
        cases ran
    | ok reader' =>
        cases following : Token.following remaining ending with
        | error failure =>
            rw [stepped, following] at ran
            cases ran
        | ok next =>
            cases checked : token.checkDigits settings.limits with
            | error fault =>
                rw [stepped, following, checked] at ran
                cases ran
            | ok _ =>
                rw [stepped, following, checked] at ran
                exact ⟨reader', .of_step stepped, ⟨next, rfl⟩, rfl, ran⟩
  · rintro ⟨reader', reads, ⟨next, following⟩, checked, ran⟩
    rw [reads.step_eq_ok, following, checked]
    exact ran

end ProgramReader

end Polycalc

import Polycalc.Proofs.Grammar.Acceptance

/-!
# Completing what was begun

Whatever has been read of a program, there is a text that completes it
(`Phase.completion`): the operand that is missing, the parentheses that are open and
the rest of the definition.  It is read to the end of a definition
(`ProgramReader.completes`) if calls may be nested one deeper than they are and the
innermost call may have one more argument.
-/

namespace Polycalc

open Grammar

/-! ## Expressions -/

/-- The text that is missing before a parenthesis may be closed or the expression
may end. -/
def Awaiting.completion : Awaiting → List Char
  | operand | nextArgument => ['0']
  | parenthesis _ _ => ['(', ')']
  | firstArgument | continuation _ => []

namespace ExprReader

/-- The text that completes the expression. -/
def completion (reader : ExprReader) : List Char :=
  reader.awaiting.completion ++ List.replicate reader.stack.length ')'

/-- The settings leave room for the completion. -/
structure Completable (settings : Settings) (reader : ExprReader) : Prop where
  digit : settings.limits.checkDigits "0" = .ok ()
  nesting : ∀ name position, reader.awaiting = .parenthesis name position →
    settings.limits.allowsNesting (reader.stack.length + 1) = true
  opened : reader.awaiting = .firstArgument → reader.stack ≠ []
  room : reader.awaiting = .nextArgument →
    ∀ innermost ∈ reader.stack.head?, innermost.HasRoom settings

variable {settings : Settings} {scope : List String}

theorem completable_start (digit : settings.limits.checkDigits "0" = .ok ())
    (calls : List Call) : (start calls).Completable settings where
  digit := digit
  nesting := by
    intro name position awaiting
    cases awaiting
  opened := by
    intro awaiting
    cases awaiting
  room := by
    intro awaiting
    cases awaiting

/-- All open calls are closed behind an operand. -/
theorem reaches_closed {cursor : Cursor} {stack : List OpenCall} {pending : Pending}
    {operand : Expr} {calls : List Call} {rest : List Char}
    (here : cursor.rest = List.replicate stack.length ')' ++ rest) :
    ∃ pending' operand' calls', Reaches settings scope cursor
      ⟨stack, pending, .continuation operand, calls⟩ rest
      ⟨[], pending', .continuation operand', calls'⟩ := by
  induction stack generalizing cursor pending operand calls with
  | nil => exact ⟨pending, operand, calls, cursor, here, .refl⟩
  | cons innermost outer ih =>
      rw [List.length_cons, List.replicate_succ, List.cons_append] at here
      rcases reaches_closeParen here with ⟨site, calls', after, left, path⟩
      rcases ih left with ⟨pending', operand', calls'', reaches⟩
      exact ⟨pending', operand', calls'', reaches.after path⟩

/-- So are they behind an operand that is missing. -/
theorem reaches_closed_of_ready {cursor : Cursor} {reader : ExprReader} {rest : List Char}
    (digit : settings.limits.checkDigits "0" = .ok ()) (ready : reader.Ready settings)
    (here : cursor.rest = '0' :: (List.replicate reader.stack.length ')' ++ rest))
    (apart : Apart rest) :
    ∃ pending operand calls, Reaches settings scope cursor reader rest
      ⟨[], pending, .continuation operand, calls⟩ := by
  have apart' : Apart (List.replicate reader.stack.length ')' ++ rest) := by
    cases reader.stack with
    | nil => exact apart
    | cons innermost outer => exact apart_cons (by decide)
  rcases Reaches.token (.number "0") here (by simp [Lexeme.Formed, IsRun]) (by simp)
    (fun _ => apart') digit (finished?_of_ready ready _) (.number ready) with
    ⟨after, left, path⟩
  rcases reaches_closed left with ⟨pending, operand, calls, reaches⟩
  exact ⟨pending, operand, calls, reaches.after path⟩

/-- What was begun of an expression is completed. -/
theorem Completable.reaches {cursor : Cursor} {reader : ExprReader} {rest : List Char}
    (completable : reader.Completable settings)
    (here : cursor.rest = reader.completion ++ rest) (apart : Apart rest) :
    ∃ pending operand calls, Reaches settings scope cursor reader rest
      ⟨[], pending, .continuation operand, calls⟩ := by
  rcases reader with ⟨stack, pending, awaiting, calls⟩
  rw [completion, List.append_assoc] at here
  cases awaiting with
  | operand => exact reaches_closed_of_ready completable.digit (Or.inl rfl) here apart
  | parenthesis name place =>
      rcases reaches_openParen (completable.nesting name place rfl) here with ⟨opened, left, path⟩
      rcases reaches_closeEmpty left with ⟨site, calls', closed, left', path'⟩
      rcases reaches_closed left' with ⟨pending', operand, calls'', reaches⟩
      exact ⟨pending', operand, calls'', (reaches.after path').after path⟩
  | firstArgument =>
      cases stack with
      | nil => exact absurd rfl (completable.opened rfl)
      | cons innermost outer =>
          rcases reaches_closeEmpty here with ⟨site, calls', closed, left, path⟩
          rcases reaches_closed left with ⟨pending', operand, calls'', reaches⟩
          exact ⟨pending', operand, calls'', reaches.after path⟩
  | nextArgument =>
      have ready : Ready settings ⟨stack, pending, .nextArgument, calls⟩ :=
        Or.inr ⟨Or.inr rfl, completable.room rfl⟩
      exact reaches_closed_of_ready completable.digit ready here apart
  | continuation operand => exact reaches_closed here

end ExprReader

/-! ## Definitions -/

/-- The text that completes the definition. -/
def Phase.completion : Phase → List Char
  | start => []
  | define => " F \x7b 0 \x7d ;\n".toList
  | name => "F \x7b 0 \x7d ;\n".toList
  | word _ => " \x7b 0 \x7d ;\n".toList
  | parameters _ => "\x7b 0 \x7d ;\n".toList
  | brace _ => " 0 \x7d ;\n".toList
  | body _ reader => reader.completion ++ " \x7d ;\n".toList
  | bodyEnd _ _ => "\x7d ;\n".toList
  | closed _ _ => " ;\n".toList
  | statementEnd _ _ => ";\n".toList

namespace ProgramReader

/-- The completion is read to the end of the definition. -/
def Completes (settings : Settings) (reader : ProgramReader) : Prop :=
  ∀ cursor : Cursor, cursor.rest = reader.phase.completion →
    ∃ definitions final last, Path settings cursor reader definitions final last ∧
      final.rest = [] ∧ last.phase = .start

variable {settings : Settings} {reader reader' : ProgramReader}

/-- What completes a definition after a token completes it with the token in
front. -/
theorem Completes.token (completes : reader'.Completes settings) (lexeme : Lexeme)
    (spelled : reader.phase.completion = lexeme.text.toList ++ reader'.phase.completion)
    (formed : lexeme.Formed) (isText : lexeme ≠ .endOfInput)
    (apart : lexeme.IsWord → Apart reader'.phase.completion)
    (noNumber : ∀ position, Token.checkDigits settings.limits ⟨lexeme, position⟩ = .ok ())
    (reads : ∀ position, Reads settings reader ⟨lexeme, position⟩ reader') :
    reader.Completes settings := by
  intro cursor here
  rw [spelled] at here
  rcases Cursor.next_complete lexeme here formed isText apart with ⟨more, after, next, left⟩
  rcases completes after left with ⟨definitions, final, last, path, ended⟩
  exact ⟨_, final, last, .step more next (noNumber _) (reads _) path, ended⟩

section

variable {program : Program} {count : Nat} {heading : Heading} {expr : Expr}

theorem completes_start : Completes settings ⟨program, count, .start⟩ :=
  fun cursor here => ⟨[], cursor, _, .refl, here, rfl⟩

theorem completes_statementEnd :
    Completes settings ⟨program, count, .statementEnd heading expr⟩ :=
  completes_start.token (.endOfStatement false) rfl trivial (by simp) False.elim (fun _ => rfl)
    fun _ => .endOfStatement

theorem completes_closed : Completes settings ⟨program, count, .closed heading expr⟩ :=
  completes_statementEnd.token .space rfl trivial (by simp) False.elim (fun _ => rfl)
    fun _ => .closedSpace

theorem completes_bodyEnd : Completes settings ⟨program, count, .bodyEnd heading expr⟩ :=
  completes_closed.token .closeBrace rfl trivial (by simp) False.elim (fun _ => rfl)
    fun _ => .closeBrace

/-- The space after a body that is completed ends it. -/
theorem completes_body {body : ExprReader} (completable : body.Completable settings) :
    Completes settings ⟨program, count, .body heading body⟩ := by
  intro cursor here
  obtain ⟨pending, operand, calls, after, left, path⟩ :
      ∃ pending operand calls, ExprReader.Reaches settings heading.parameters cursor body _
        ⟨[], pending, .continuation operand, calls⟩ :=
    completable.reaches here (apart_cons (by decide))
  rcases Cursor.next_complete .space left trivial (by simp) False.elim with
    ⟨more, further, next, left'⟩
  have reads : Reads settings
      ⟨program, count, .body heading ⟨[], pending, .continuation operand, calls⟩⟩
      ⟨.space, after.position⟩ _ := .bodySpace rfl
  rcases completes_bodyEnd further left' with ⟨definitions, final, last, path', ended⟩
  exact ⟨_, final, last, (path_of_advances path).trans (.step more next rfl reads path'), ended⟩

theorem completes_brace (digit : settings.limits.checkDigits "0" = .ok ()) :
    Completes settings ⟨program, count, .brace heading⟩ :=
  (completes_body (ExprReader.completable_start digit program.calls)).token .space rfl trivial
    (by simp) False.elim (fun _ => rfl) fun _ => .braceSpace

theorem completes_parameters (digit : settings.limits.checkDigits "0" = .ok ()) :
    Completes settings ⟨program, count, .parameters heading⟩ :=
  (completes_brace digit).token .openBrace rfl trivial (by simp) False.elim (fun _ => rfl)
    fun _ => .openBrace

theorem completes_word (digit : settings.limits.checkDigits "0" = .ok ()) :
    Completes settings ⟨program, count, .word heading⟩ :=
  (completes_parameters digit).token .space rfl trivial (by simp) False.elim (fun _ => rfl)
    fun _ => .wordSpace

theorem completes_name (digit : settings.limits.checkDigits "0" = .ok ()) :
    Completes settings ⟨program, count, .name⟩ := by
  have formed : (Lexeme.function "F").Formed := by
    simp [Lexeme.Formed, IsFunctionName, IsRun, entryName]
  exact (completes_word digit).token (.function "F") rfl formed (by simp)
    (fun _ => apart_cons (by decide)) (fun _ => rfl) fun _ => .name rfl

theorem completes_define (digit : settings.limits.checkDigits "0" = .ok ()) :
    Completes settings ⟨program, count, .define⟩ :=
  (completes_name digit).token .space rfl trivial (by simp) False.elim (fun _ => rfl)
    fun _ => .defineSpace

end

/-- What was begun of a program is completed. -/
theorem completes (digit : settings.limits.checkDigits "0" = .ok ())
    (completable : ∀ heading body, reader.phase = .body heading body →
      body.Completable settings) : reader.Completes settings := by
  rcases reader with ⟨program, count, phase⟩
  cases phase with
  | start => exact completes_start
  | define => exact completes_define digit
  | name => exact completes_name digit
  | word heading => exact completes_word digit
  | parameters heading => exact completes_parameters digit
  | brace heading => exact completes_brace digit
  | body heading body => exact completes_body (completable heading body rfl)
  | bodyEnd heading expr => exact completes_bodyEnd
  | closed heading expr => exact completes_closed
  | statementEnd heading expr => exact completes_statementEnd

end ProgramReader

end Polycalc

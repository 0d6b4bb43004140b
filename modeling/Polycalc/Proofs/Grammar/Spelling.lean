import Polycalc.Proofs.Expr.Nesting
import Polycalc.Proofs.Grammar.Lexemes
import Polycalc.Proofs.Program.Reading

/-!
# What has been read is grammatical

Between two tokens the text that has been read is spelled by what the reader
holds: by the calls that are open, the sum and the product that wait, and what
was read last, each of them with a derivation for its own piece of the text.
`ExprReader.Spells.step` says that a token takes the spelling along.
-/

namespace Polycalc

open Grammar

/-- The settings allow as many arguments and digits as the grammar. -/
structure Settings.Imposes (settings : Settings) (bounds : Bounds) : Prop where
  arguments : ∃ allowed, settings.maxArguments = some allowed ∧ allowed.toNat = bounds.arguments
  digits : settings.limits.digits = some bounds.digits

namespace Settings.Imposes

variable {settings : Settings} {bounds : Bounds}

theorem hasRoom_iff (imposes : settings.Imposes bounds) {call : OpenCall} :
    call.HasRoom settings ↔ call.arguments.length < bounds.arguments := by
  rcases imposes.arguments with ⟨allowed, given, same⟩
  rw [OpenCall.HasRoom, given, ← same]
  constructor
  · rintro ⟨allowed', equal, room⟩
    cases equal
    omega
  · intro room
    exact ⟨allowed, rfl, by omega⟩

theorem checkDigits_number_iff (imposes : settings.Imposes bounds) {digits : String}
    {position : Position} :
    Token.checkDigits settings.limits ⟨.number digits, position⟩ = .ok () ↔
      digits.toList.length ≤ bounds.digits := by
  simp only [Token.checkDigits, Limits.checkDigits, imposes.digits, String.length_toList]
  split <;> simp [*]

end Settings.Imposes

theorem Lexeme.Formed.callee {lexeme : Lexeme} {name : String} (formed : lexeme.Formed)
    (names : lexeme.callee? = some name) : IsFunctionName name ∧ lexeme.text = name := by
  cases lexeme with
  | function other =>
      cases names
      exact ⟨formed.1, rfl⟩
  | entry =>
      cases names
      exact ⟨⟨by simp [IsRun, entryName], by decide⟩, rfl⟩
  | _ => cases names

/-! ## Expressions -/

/-- The text of what waits for an operand. -/
inductive Pending.Spells (bounds : Bounds) (scope : List String) : Pending → List Char → Prop
  | nothing : Spells bounds scope .nothing []
  | product {text : List Char} {expr : Expr} (isProduct : IsProduct bounds scope text expr) :
      Spells bounds scope ⟨none, some expr⟩ (text ++ ['*'])
  | sum {text : List Char} {expr : Expr} (isSum : IsSum bounds scope text expr) :
      Spells bounds scope ⟨some expr, none⟩ (text ++ ['+'])
  | both {first second : List Char} {left right : Expr}
      (isSum : IsSum bounds scope first left)
      (isProduct : IsProduct bounds scope second right) :
      Spells bounds scope ⟨some left, some right⟩ (first ++ ['+'] ++ second ++ ['*'])

/-- The text of an open call up to the argument that is read next. -/
inductive OpenCall.Spells (bounds : Bounds) (scope : List String) : OpenCall → List Char → Prop
  | fresh {name : String} {position : Position} {outer : Pending} {text : List Char}
      (waiting : outer.Spells bounds scope text) (callee : IsFunctionName name) :
      Spells bounds scope ⟨name, position, [], outer⟩ (text ++ name.toList ++ ['('])
  | more {name : String} {position : Position} {outer : Pending} {text given : List Char}
      {arguments : List Expr} (waiting : outer.Spells bounds scope text)
      (callee : IsFunctionName name) (areArguments : AreArguments bounds scope given arguments)
      (nonempty : arguments ≠ []) :
      Spells bounds scope ⟨name, position, arguments, outer⟩
        (text ++ name.toList ++ ['('] ++ given ++ [' '])

/-- The text of open calls in each of which an argument is being read. -/
inductive StackSpells (bounds : Bounds) (scope : List String) :
    List OpenCall → List Char → Prop
  | nil : StackSpells bounds scope [] []
  | cons {call : OpenCall} {outer : List OpenCall} {before text : List Char}
      (enclosing : StackSpells bounds scope outer before)
      (opened : call.Spells bounds scope text)
      (room : call.arguments.length < bounds.arguments) :
      StackSpells bounds scope (call :: outer) (before ++ text)

/-- The text that a reader has read. -/
inductive ExprReader.Spells (bounds : Bounds) (scope : List String) :
    ExprReader → List Char → Prop
  | operand {stack : List OpenCall} {pending : Pending} {calls : List Call}
      {before waiting : List Char} (enclosing : StackSpells bounds scope stack before)
      (waits : pending.Spells bounds scope waiting) :
      Spells bounds scope ⟨stack, pending, .operand, calls⟩ (before ++ waiting)
  | parenthesis {stack : List OpenCall} {pending : Pending} {calls : List Call}
      {before waiting : List Char} {name : String} {position : Position}
      (enclosing : StackSpells bounds scope stack before)
      (waits : pending.Spells bounds scope waiting) (callee : IsFunctionName name) :
      Spells bounds scope ⟨stack, pending, .parenthesis name position, calls⟩
        (before ++ waiting ++ name.toList)
  | firstArgument {call : OpenCall} {outer : List OpenCall} {calls : List Call}
      {before text : List Char} (enclosing : StackSpells bounds scope outer before)
      (opened : call.Spells bounds scope text) (none : call.arguments = []) :
      Spells bounds scope ⟨call :: outer, .nothing, .firstArgument, calls⟩ (before ++ text)
  | nextArgument {call : OpenCall} {outer : List OpenCall} {calls : List Call}
      {before text : List Char} (enclosing : StackSpells bounds scope outer before)
      (opened : call.Spells bounds scope text)
      (few : call.arguments.length ≤ bounds.arguments) :
      Spells bounds scope ⟨call :: outer, .nothing, .nextArgument, calls⟩ (before ++ text)
  | continuation {stack : List OpenCall} {pending : Pending} {calls : List Call}
      {before waiting read : List Char} {operand : Expr}
      (enclosing : StackSpells bounds scope stack before)
      (waits : pending.Spells bounds scope waiting)
      (isAtom : IsAtom bounds scope read operand) :
      Spells bounds scope ⟨stack, pending, .continuation operand, calls⟩
        (before ++ waiting ++ read)

section

variable {settings : Settings} {bounds : Bounds} {scope : List String}

namespace Pending.Spells

variable {pending : Pending} {text read : List Char} {operand : Expr}

theorem isSum_closeSum (spells : pending.Spells bounds scope text)
    (isAtom : IsAtom bounds scope read operand) :
    IsSum bounds scope (text ++ read) (pending.closeSum operand) := by
  cases spells with
  | nothing => exact .product (.atom isAtom)
  | product isProduct =>
      rw [List.append_assoc]
      exact .product (.times isProduct isAtom)
  | sum isSum =>
      rw [List.append_assoc]
      exact .plus isSum (.atom isAtom)
  | both isSum isProduct =>
      simp only [List.append_assoc]
      exact .plus isSum (.times isProduct isAtom)

theorem plus (spells : pending.Spells bounds scope text)
    (isAtom : IsAtom bounds scope read operand) :
    (pending.plus operand).Spells bounds scope (text ++ read ++ ['+']) :=
  .sum (spells.isSum_closeSum isAtom)

theorem times (spells : pending.Spells bounds scope text)
    (isAtom : IsAtom bounds scope read operand) :
    (pending.times operand).Spells bounds scope (text ++ read ++ ['*']) := by
  cases spells with
  | nothing => exact .product (.atom isAtom)
  | @product text _ isProduct =>
      have regrouped : text ++ ['*'] ++ read ++ ['*'] = (text ++ '*' :: read) ++ ['*'] := by simp
      rw [regrouped]
      exact .product (.times isProduct isAtom)
  | sum isSum => exact .both isSum (.atom isAtom)
  | @both first second _ _ isSum isProduct =>
      have regrouped : first ++ ['+'] ++ second ++ ['*'] ++ read ++ ['*'] =
          first ++ ['+'] ++ (second ++ '*' :: read) ++ ['*'] := by simp
      rw [regrouped]
      exact .both isSum (.times isProduct isAtom)

end Pending.Spells

namespace OpenCall.Spells

variable {call : OpenCall} {text read : List Char} {argument : Expr}

/-- Another argument is complete. -/
theorem space (opened : call.Spells bounds scope text)
    (isSum : IsSum bounds scope read argument) :
    OpenCall.Spells bounds scope { call with arguments := call.arguments ++ [argument] }
      (text ++ read ++ [' ']) := by
  cases opened with
  | fresh waiting callee => exact .more waiting callee (.one isSum) (by simp)
  | @more name _ _ before given _ waiting callee areArguments nonempty =>
      have regrouped : before ++ name.toList ++ ['('] ++ given ++ [' '] ++ read ++ [' '] =
          before ++ name.toList ++ ['('] ++ (given ++ ' ' :: read) ++ [' '] := by simp
      rw [regrouped]
      exact .more waiting callee (.more nonempty areArguments isSum) (by simp)

/-- The last argument is complete. -/
theorem closeParen (opened : call.Spells bounds scope text)
    (isSum : IsSum bounds scope read argument)
    (room : call.arguments.length < bounds.arguments) (site : Site) :
    ∃ before spelled, text ++ read ++ [')'] = before ++ spelled ∧
      call.outer.Spells bounds scope before ∧
      IsAtom bounds scope spelled
        (.call site call.name (call.arguments ++ [argument]) call.position) := by
  cases opened with
  | @fresh name _ _ before waiting callee =>
      refine ⟨before, name.toList ++ '(' :: read ++ [')'], by simp, waiting, ?_⟩
      exact .call callee (.one isSum) room
  | @more name _ _ before given _ waiting callee areArguments nonempty =>
      refine ⟨before, name.toList ++ '(' :: (given ++ ' ' :: read) ++ [')'], by simp, waiting, ?_⟩
      apply IsAtom.call callee (.more nonempty areArguments isSum)
      rw [List.length_append, List.length_singleton]
      exact room

/-- There are no arguments. -/
theorem closeEmpty (opened : call.Spells bounds scope text) (none : call.arguments = [])
    (site : Site) :
    ∃ before spelled, text ++ [')'] = before ++ spelled ∧
      call.outer.Spells bounds scope before ∧
      IsAtom bounds scope spelled (.call site call.name [] call.position) := by
  cases opened with
  | @fresh name _ _ before waiting callee =>
      refine ⟨before, name.toList ++ '(' :: [] ++ [')'], by simp, waiting, ?_⟩
      exact .call callee .none (Nat.zero_le _)
  | more _ _ _ nonempty => exact absurd none nonempty

end OpenCall.Spells

namespace ExprReader.Spells

variable {reader reader' : ExprReader} {token : Token} {text : List Char}

theorem start (calls : List Call) : (ExprReader.start calls).Spells bounds scope [] :=
  .operand .nil .nothing

theorem of_eq {other : List Char} (spells : reader.Spells bounds scope other)
    (same : text = other) : reader.Spells bounds scope text :=
  same ▸ spells

/-- Before an operand there are open calls and what waits. -/
theorem of_ready (imposes : settings.Imposes bounds) (spells : reader.Spells bounds scope text)
    (ready : reader.Ready settings) :
    ∃ before waiting, text = before ++ waiting ∧ StackSpells bounds scope reader.stack before ∧
      reader.pending.Spells bounds scope waiting := by
  cases spells with
  | operand enclosing waits => exact ⟨_, _, rfl, enclosing, waits⟩
  | parenthesis _ _ _ => rcases ready with ready | ⟨ready | ready, _⟩ <;> cases ready
  | firstArgument enclosing opened _ =>
      rcases ready with ready | ⟨_, room⟩
      · cases ready
      · have enough := imposes.hasRoom_iff.mp (room _ rfl)
        exact ⟨_, [], (List.append_nil _).symm, .cons enclosing opened enough, .nothing⟩
  | nextArgument enclosing opened _ =>
      rcases ready with ready | ⟨_, room⟩
      · cases ready
      · have enough := imposes.hasRoom_iff.mp (room _ rfl)
        exact ⟨_, [], (List.append_nil _).symm, .cons enclosing opened enough, .nothing⟩
  | continuation _ _ _ => rcases ready with ready | ⟨ready | ready, _⟩ <;> cases ready

/-- An operand without arguments is read. -/
theorem atom (imposes : settings.Imposes bounds) (spells : reader.Spells bounds scope text)
    (ready : reader.Ready settings) {read : List Char} {operand : Expr}
    (isAtom : IsAtom bounds scope read operand) :
    Spells bounds scope { reader with awaiting := .continuation operand } (text ++ read) := by
  rcases spells.of_ready imposes ready with ⟨before, waiting, rfl, enclosing, waits⟩
  exact .continuation enclosing waits isAtom

/-- A token takes the spelling along. -/
theorem step (imposes : settings.Imposes bounds) (spells : reader.Spells bounds scope text)
    (formed : token.lexeme.Formed) (short : token.checkDigits settings.limits = .ok ())
    (reads : Reads settings scope reader token reader') :
    reader'.Spells bounds scope (text ++ token.lexeme.text.toList) := by
  cases reads with
  | @number _ digits position ready =>
      have isAtom : IsAtom bounds scope digits.toList (.number (decimal digits.toList) position) :=
        .number formed (imposes.checkDigits_number_iff.mp short)
      rw [← ofDigitChars_eq_decimal] at isAtom
      exact spells.atom imposes ready isAtom
  | parameter ready declared => exact spells.atom imposes ready (.parameter formed declared)
  | name ready names =>
      rcases formed.callee names with ⟨callee, spelled⟩
      rcases spells.of_ready imposes ready with ⟨before, waiting, rfl, enclosing, waits⟩
      rw [spelled]
      exact .parenthesis enclosing waits callee
  | openParen _ =>
      cases spells with
      | parenthesis enclosing waits callee =>
          exact (Spells.firstArgument enclosing (.fresh waits callee) rfl).of_eq
            (by simp [Lexeme.text])
  | plus =>
      cases spells with
      | continuation enclosing waits isAtom =>
          exact (Spells.operand enclosing (waits.plus isAtom)).of_eq (by simp [Lexeme.text])
  | times =>
      cases spells with
      | continuation enclosing waits isAtom =>
          exact (Spells.operand enclosing (waits.times isAtom)).of_eq (by simp [Lexeme.text])
  | space =>
      cases spells with
      | continuation enclosing waits isAtom =>
          cases enclosing with
          | cons enclosing opened room =>
              have isSum := waits.isSum_closeSum isAtom
              apply (Spells.nextArgument enclosing (opened.space isSum) _).of_eq
              · simp [Lexeme.text]
              · rw [List.length_append, List.length_singleton]
                exact room
  | closeParen =>
      cases spells with
      | continuation enclosing waits isAtom =>
          cases enclosing with
          | cons enclosing opened room =>
              have isSum := waits.isSum_closeSum isAtom
              obtain ⟨before, spelled, regrouped, waits', isCall⟩ :=
                opened.closeParen isSum room (.parsed _)
              apply (Spells.continuation enclosing waits' isCall).of_eq
              rw [List.append_assoc _ before, ← regrouped]
              simp [Lexeme.text]
  | closeEmpty =>
      cases spells with
      | firstArgument enclosing opened none =>
          obtain ⟨before, spelled, regrouped, waits, isCall⟩ :=
            opened.closeEmpty none (.parsed _)
          apply (Spells.continuation enclosing waits isCall).of_eq
          rw [List.append_assoc _ before, ← regrouped]
          simp [Lexeme.text]

end ExprReader.Spells

end

end Polycalc

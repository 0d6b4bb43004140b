import Polycalc.Diagnostic.Wording
import Polycalc.Proofs.Program.Numerals
import Polycalc.Proofs.Program.Standing
import Polycalc.Proofs.Token.Exact

/-!
# The calls of a text

The calls that are registered while a text is read are the calls of all bodies, in the
order of their closing parentheses, and every part of a body has the position of its
first character.  So a call is told by its position, and validation reports the first
call that the table of functions does not accept (`Program.registry_exact`).
-/

namespace Polycalc

/-! ## Positions -/

/-- Of a chain whose text begins at a place, the first operand stands there. -/
theorem Expr.Stands.position_of_mem_head?_unfoldChain {operator : Operator} {chain operand : Expr}
    {collected : List Expr} {place : Position} {text : List Char}
    (stands : chain.Stands place text)
    (first : operand ∈ (unfoldChain operator chain collected).head?) :
    operand.position = place := by
  fun_induction unfoldChain operator chain collected generalizing text with
  | case1 collected left right position ih =>
      cases stands with
      | binary leftStands _ _ _ => exact ih leftStands first
  | case2 collected other left right position _ =>
      cases first
      exact stands.position_eq
  | case3 collected chain _ =>
      cases first
      exact stands.position_eq

/-- An expression stands where the first operand of its chain does. -/
theorem Expr.Stands.position_of_mem_head?_operands {expr operand : Expr} {place : Position}
    {text : List Char} (stands : expr.Stands place text) (first : operand ∈ expr.operands.head?) :
    operand.position = place := by
  cases stands with
  | binary leftStands _ _ _ => exact leftStands.position_of_mem_head?_unfoldChain first
  | number _ | parameter _ | call _ _ =>
      cases first
      rfl

/-- The expression occupies a piece of the text, and its position is that of the first
character of this piece, as is that of the first operand of its chain. -/
def Expr.Placed (text : List Char) (expr : Expr) : Prop :=
  ∃ span, expr.Occupies .start text span ∧ expr.position.Locates text span.first ∧
    ∀ operand ∈ expr.operands.head?, operand.position = expr.position

theorem Expr.Occupies.placed {text : List Char} {expr : Expr} {span : Span}
    (occupies : expr.Occupies .start text span) : expr.Placed text := by
  refine ⟨span, occupies, ?_, ?_⟩
  all_goals rcases occupies with ⟨before, own, after, rfl, first, _, stands⟩
  · rw [stands.position_eq, ← first, List.append_assoc]
    exact Position.past_locates before (own ++ after)
  · intro operand isFirst
    rw [stands.position_eq, stands.position_of_mem_head?_operands isFirst]

/-- Where calls are known by their sites and by their positions, a call is live if its
position is that of a live call. -/
theorem Call.isLive_iff_position {calls live : List Call} {call : Call}
    (sites : (calls.map Call.site).Nodup) (positions : (calls.map Call.position).Nodup)
    (member : call ∈ calls) (among : live ⊆ calls) :
    call.isLive (live.map toExpr) = true ↔ call.position ∈ live.map position := by
  have isLive : liveSites (live.map toExpr) = live.map site := by
    rw [liveSites, List.filterMap_map]
    exact congrFun List.filterMap_eq_map live
  rw [isLive_iff, isLive, List.mem_map, List.mem_map]
  constructor
  · rintro ⟨other, inLive, same⟩
    exact ⟨other, inLive,
      congrArg position (List.inj_on_of_nodup_map sites (among inLive) member same)⟩
  · rintro ⟨other, inLive, same⟩
    exact ⟨other, inLive,
      congrArg site (List.inj_on_of_nodup_map positions (among inLive) member same)⟩

/-! ## Refusals -/

/-- A loop that fails does so at the first value that is refused. -/
theorem exists_first_of_forM_eq_error {ε α : Type} {check : α → Except ε Unit} {values : List α}
    {reason : ε} (failed : values.forM check = .error reason) :
    ∃ earlier value later, values = earlier ++ value :: later ∧
      (∀ other ∈ earlier, check other = .ok ()) ∧ check value = .error reason := by
  induction values with
  | nil => cases failed
  | cons value rest ih =>
      rcases Except.of_bind_eq_error failed with first | ⟨_, checked, others⟩
      · exact ⟨[], value, rest, rfl, by simp, first⟩
      · rcases ih others with ⟨earlier, other, later, rfl, passed, failed⟩
        refine ⟨value :: earlier, other, later, rfl, ?_, failed⟩
        rw [List.forall_mem_cons]
        exact ⟨checked, passed⟩

/-- No part of an expression is nested more deeply than the expression. -/
theorem Limits.AllowsAt.of_mem_parts {limits : Limits} {depth : Nat} {part : Expr} :
    ∀ expr : Expr, part ∈ expr.parts → limits.AllowsAt depth expr → limits.AllowsAt depth part
  | .number value position, member, allowed => by
      rw [List.mem_singleton.mp member]
      exact allowed
  | .parameter name position, member, allowed => by
      rw [List.mem_singleton.mp member]
      exact allowed
  | .call site name arguments position, member, allowed => by
      rw [Expr.parts_call, List.mem_append, List.mem_flatMap, List.mem_singleton] at member
      rcases member with ⟨argument, given, inArgument⟩ | rfl
      · have deeper := (Limits.allowsAt_call_iff.mp allowed).2 argument given
        exact of_mem_parts argument inArgument (Limits.allowsNesting_mono (by omega) deeper)
      · exact allowed
  | .binary operator left right position, member, allowed => by
      rw [Expr.parts_binary, List.mem_append, List.mem_append, List.mem_singleton] at member
      rcases Limits.allowsAt_binary_iff.mp allowed with ⟨leftAllowed, rightAllowed⟩
      rcases member with (inLeft | inRight) | rfl
      · exact of_mem_parts left inLeft leftAllowed
      · exact of_mem_parts right inRight rightAllowed
      · exact allowed
  | .foreign kind shown, member, allowed => by
      rw [List.mem_singleton.mp member]
      exact allowed

/-- The error is that the table of functions does not accept the call, whose text it
quotes. -/
inductive ParseError.Blames (program : Program) (call : Call) (text : String) : ParseError → Prop
  | unknownFunction (undefined : program.find? call.name = none) :
      Blames program call text (.unknownFunction call.toExpr text)
  | wrongArity {target : Definition} (found : program.find? call.name = some target)
      (unfit : call.arguments.length ≠ target.arity) :
      Blames program call text (.wrongArity call text target)

/-- Such an error is placed at the call, and it quotes the call first. -/
theorem ParseError.Blames.exists_placed {program : Program} {call : Call} {text : String}
    {error : ParseError} (blames : error.Blames program call text) :
    (∃ message, error.diagnostic =
        .placed .parse message call.position (Diagnostic.widthOf text)) ∧
      error.diagnostic.offending = text := by
  cases blames <;> exact ⟨⟨_, rfl⟩, rfl⟩

namespace Program

variable {settings : Settings} {text : String} {program : Program}

/-- The call is the first one that the program does not accept. -/
def FirstRefused (program : Program) (call : Call) : Prop :=
  ¬ program.Accepts call ∧ ∃ earlier later, program.calls = earlier ++ call :: later ∧
    ∀ other ∈ earlier, program.Accepts other

/-- A text that was read is refused as its program is. -/
theorem parseValid_eq_error_iff (parsed : Program.parse settings text = .ok program)
    {failure : Failure} :
    parseValid settings text = .error failure ↔
      program.validate settings.limits = .error failure := by
  have bound : parseValid settings text =
      (program.validate settings.limits >>= fun _ => .ok program) := by
    rw [parseValid, parsed]
    rfl
  rw [bound]
  cases program.validate settings.limits with
  | error reason =>
      constructor
      · rintro ⟨⟩
        rfl
      · rintro ⟨⟩
        rfl
  | ok _ =>
      constructor
      · rintro ⟨⟩
      · rintro ⟨⟩

theorem not_accepts_of_checkCall {limits : Limits} {call : Call} {failure : Failure}
    (failed : program.checkCall limits call = .error failure) : ¬ program.Accepts call := by
  intro accepts
  rw [checkCall_of_accepts accepts] at failed
  cases failed

/-- A call that can be quoted is refused with an error about it. -/
theorem exists_blames_of_checkCall {limits : Limits} {call : Call} {failure : Failure}
    {quoted : String} (shallow : limits.allowsNesting call.toExpr.nesting = true)
    (written : call.render limits = .ok quoted)
    (failed : program.checkCall limits call = .error failure) :
    ∃ error, failure = .parse error ∧ error.Blames program call quoted := by
  have quotes : badCallText limits call.toExpr = .ok quoted := by
    rw [badCallText, if_pos shallow]
    exact Failure.ofFault_eq_ok_iff.mpr written
  unfold checkCall at failed
  split at failed
  · rename_i undefined
    rw [refuseUnknown, quotes] at failed
    cases failed
    exact ⟨_, rfl, .unknownFunction undefined⟩
  · rename_i target found
    split at failed
    · cases failed
    · rename_i unfit
      rw [quotes] at failed
      cases failed
      exact ⟨_, rfl, .wrongArity found unfit⟩

theorem shallow_of_parse (parsed : Program.parse settings text = .ok program) :
    ∀ call ∈ program.calls, settings.limits.allowsNesting call.toExpr.nesting = true := by
  rcases exists_definitionsStand parsed with ⟨definitions, _, rfl, _, shallow⟩
  intro call member
  rcases List.mem_flatMap.mp member with ⟨definition, inText, inBody⟩
  have body : settings.limits.AllowsAt 0 definition.body := by
    rw [Limits.AllowsAt, Nat.zero_add]
    exact shallow definition inText
  have allowed := body.of_mem_parts _ (Expr.mem_calls_iff.mp inBody)
  rwa [Limits.AllowsAt, Nat.zero_add] at allowed

/-- Validation of a program that was read fails at the first call that is not
accepted. -/
theorem exists_firstRefused (parsed : Program.parse settings text = .ok program)
    (hasEntry : program.contains entryName = true) {failure : Failure}
    (failed : program.validate settings.limits = .error failure) :
    ∃ call quoted error, program.FirstRefused call ∧
      call.render settings.limits = .ok quoted ∧ failure = .parse error ∧
      error.Blames program call quoted := by
  rw [validate, if_pos hasEntry] at failed
  rcases Except.of_bind_eq_error failed with bad | ⟨_, _, bad⟩
  · rcases exists_first_of_forM_eq_error bad with ⟨earlier, call, later, split, passed, refused⟩
    have member : call ∈ program.calls := by simp [split]
    rcases exists_render_of_parse parsed member with ⟨quoted, written⟩
    rcases exists_blames_of_checkCall (shallow_of_parse parsed call member) written refused with
      ⟨error, same, blames⟩
    refine ⟨call, quoted, error, ⟨not_accepts_of_checkCall refused, earlier, later, split, ?_⟩,
      written, same, blames⟩
    exact fun other inEarlier => accepts_of_checkCall (passed other inEarlier)
  · rw [registered_of_parse parsed] at bad
    cases bad

/-- The calls that are registered are those of all bodies of the text, replaced ones
included, each once and in the order of their closing parentheses.  Every part of a body
has the position of its first character, and no two calls have the same position, so that
a call is live if its position is that of a live call.  The text is accepted if the entry
function is defined and the table of functions accepts every call; where only the latter
fails, the error has the position and the text of the first call that is not accepted. -/
theorem registry_exact (parsed : Program.parse settings text = .ok program) :
    (∃ definitions, DefinitionsStand .start text.toList definitions ∧
      program = .ofDefinitions definitions ∧ program.registered = [] ∧
      (program.calls = definitions.flatMap fun definition => definition.body.calls) ∧
      (∀ name, program.find? name = definitions.reverse.find? (·.name = name)) ∧
      ∀ definition ∈ definitions, ∀ part ∈ definition.body.parts, part.Placed text.toList) ∧
    CloseInOrder .start text.toList program.calls ∧
    (program.calls.map Call.position).Nodup ∧
    (∀ call ∈ program.calls, ∀ live ⊆ program.calls,
      call.isLive (live.map Call.toExpr) = true ↔ call.position ∈ live.map Call.position) ∧
    (∀ accepted, parseValid settings text = .ok accepted ↔
      accepted = program ∧ program.contains entryName = true ∧
        ∀ call ∈ program.calls, program.Accepts call) ∧
    (program.contains entryName = true → (¬ ∀ call ∈ program.calls, program.Accepts call) →
      ∃ call quoted error, program.FirstRefused call ∧
        call.render settings.limits = .ok quoted ∧
        parseValid settings text = .error (.parse error) ∧
        error.Blames program call quoted ∧
        error.diagnostic.position = some call.position ∧
        error.diagnostic.offending = quoted) := by
  have nothing := registered_of_parse parsed
  rcases exists_definitionsStand parsed with ⟨definitions, stand, made, numbered, _⟩
  have calls : program.calls = definitions.flatMap fun definition => definition.body.calls := by
    rw [made]
    rfl
  have inOrder : CloseInOrder .start text.toList program.calls := by
    rw [calls]
    exact stand.closeInOrder
  refine ⟨⟨definitions, stand, made, nothing, calls, ?_, ?_⟩, inOrder, inOrder.nodup_positions,
    ?_, ?_, ?_⟩
  · intro name
    rw [made]
    exact find?_ofDefinitions definitions name
  · intro definition member part inBody
    rcases stand.exists_span definition member part inBody with ⟨span, occupies⟩
    exact occupies.placed
  · intro call member live among
    exact Call.isLive_iff_position numbered.nodup inOrder.nodup_positions member among
  · intro accepted
    rw [parseValid_eq_ok_iff, parsed, Except.ok.injEq]
    constructor
    · rintro ⟨rfl, valid⟩
      exact ⟨rfl, (validate_eq_ok_iff nothing).mp valid⟩
    · rintro ⟨rfl, valid⟩
      exact ⟨rfl, (validate_eq_ok_iff nothing).mpr valid⟩
  · intro hasEntry notAll
    cases validated : program.validate settings.limits with
    | ok _ => exact absurd ((validate_eq_ok_iff nothing).mp validated).2 notAll
    | error failure =>
        obtain ⟨call, quoted, error, first, written, rfl, blames⟩ :=
          exists_firstRefused parsed hasEntry validated
        rcases blames.exists_placed with ⟨⟨message, placed⟩, quotes⟩
        refine ⟨call, quoted, error, first, written, ?_, blames, ?_, quotes⟩
        · exact (parseValid_eq_error_iff parsed).mpr validated
        · rw [placed]
          rfl

/-- A text in which a definition is replaced that has a bad call. -/
def replacedText : String :=
  "DEF F \x7b G(1+07) \x7d ;\nDEF F \x7b 1 \x7d ;\nDEF MAIN \x7b F() \x7d ;\n"

/-- What the text is read as. -/
def replacedProgram : Program :=
  .ofDefinitions
    [⟨"F", [],
        .call (.parsed 0) "G" [.join .sum (.number 1 ⟨1, 11⟩) (.number 7 ⟨1, 13⟩)] ⟨1, 9⟩, 1⟩,
      ⟨"F", [], .number 1 ⟨2, 9⟩, 2⟩,
      ⟨entryName, [], .call (.parsed 1) "F" [] ⟨3, 12⟩, 3⟩]

theorem replacedText_registry :
    Program.parse {} replacedText = .ok replacedProgram ∧
      CloseInOrder .start replacedText.toList replacedProgram.calls ∧
      ∃ call quoted error, replacedProgram.FirstRefused call ∧
        call.render .standard = .ok quoted ∧
        parseValid {} replacedText = .error (.parse error) ∧
        error.diagnostic.position = some call.position ∧
        error.diagnostic.offending = quoted := by
  have parsed : Program.parse {} replacedText = .ok replacedProgram := by cbv
  obtain ⟨_, inOrder, _, _, _, refused⟩ := registry_exact parsed
  have undefined : replacedProgram.find? "G" = none := by cbv
  have notAll : ¬ ∀ call ∈ replacedProgram.calls, replacedProgram.Accepts call := by
    intro all
    rcases all _ List.mem_cons_self with ⟨callee, found, _⟩
    rw [undefined] at found
    cases found
  rcases refused (by cbv) notAll with ⟨call, quoted, error, first, written, failed, _, shown⟩
  exact ⟨parsed, inOrder, call, quoted, error, first, written, failed, shown⟩

end Program

end Polycalc

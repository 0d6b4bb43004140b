import Polycalc.Proofs.Program.Refusal

/-!
# Reading under other settings

Settings decide whether a call may have one more argument and whether calls may be
nested one deeper, and nothing else.  What is read under settings is read in the same
way under wider ones (`ProgramReader.Path.widen`), a reader goes on in one way
whatever the settings are (`ProgramReader.Reads.unique`), and a token that does not
fit for another reason is refused under all settings
(`ProgramReader.not_reads_of_step_eq_error`).

Where no number is too long, a text that cannot be read is read up to the place where
a character or a token does not fit (`ProgramReader.exists_stop`).
-/

namespace Polycalc

/-! ## Wider settings -/

/-- What the settings allow is allowed by the wider ones. -/
structure Settings.Within (settings wider : Settings) : Prop where
  room : ∀ call : OpenCall, call.HasRoom settings → call.HasRoom wider
  nesting : ∀ depth, settings.limits.allowsNesting depth = true →
    wider.limits.allowsNesting depth = true

/-- Settings that allow what either of two do. -/
def Settings.either (first second : Settings) : Settings where
  maxArguments := some (max (first.maxArguments.getD 0) (second.maxArguments.getD 0))
  limits := ⟨none, none, 0⟩

theorem Settings.within_of_le {settings wider : Settings} {more : Int}
    (given : wider.maxArguments = some more) (enough : settings.maxArguments.getD 0 ≤ more)
    (nesting : ∀ depth, settings.limits.allowsNesting depth = true →
      wider.limits.allowsNesting depth = true) : settings.Within wider where
  room := by
    rintro call ⟨allowed, bound, room⟩
    rw [bound, Option.getD_some] at enough
    exact ⟨more, given, Int.lt_of_lt_of_le room enough⟩
  nesting := nesting

theorem Settings.within_either_left (first second : Settings) :
    first.Within (first.either second) :=
  within_of_le rfl (Int.le_max_left _ _) fun _ _ => rfl

theorem Settings.within_either_right (first second : Settings) :
    second.Within (first.either second) :=
  within_of_le rfl (Int.le_max_right _ _) fun _ _ => rfl

section

variable {settings wider : Settings} {token : Token}

theorem ExprReader.Ready.widen (within : settings.Within wider) {reader : ExprReader}
    (ready : reader.Ready settings) : reader.Ready wider := by
  rcases ready with operand | ⟨isArgument, room⟩
  · exact Or.inl operand
  · exact Or.inr ⟨isArgument, fun innermost member => within.room _ (room innermost member)⟩

theorem ExprReader.Reads.widen (within : settings.Within wider) {scope : List String}
    {reader reader' : ExprReader} (reads : Reads settings scope reader token reader') :
    Reads wider scope reader token reader' := by
  cases reads with
  | number ready => exact .number (ready.widen within)
  | parameter ready declared => exact .parameter (ready.widen within) declared
  | name ready names => exact .name (ready.widen within) names
  | openParen shallow => exact .openParen (within.nesting _ shallow)
  | plus => exact .plus
  | times => exact .times
  | space => exact .space
  | closeParen => exact .closeParen
  | closeEmpty => exact .closeEmpty

namespace ProgramReader

variable {reader reader' : ProgramReader}

theorem Reads.widen (within : settings.Within wider)
    (reads : Reads settings reader token reader') : Reads wider reader token reader' := by
  cases reads with
  | define => exact .define
  | defineSpace => exact .defineSpace
  | name names => exact .name names
  | wordSpace => exact .wordSpace
  | parameter ordinary => exact .parameter ordinary
  | openBrace => exact .openBrace
  | braceSpace => exact .braceSpace
  | body unfinished reads => exact .body unfinished (reads.widen within)
  | bodySpace finished => exact .bodySpace finished
  | closeBrace => exact .closeBrace
  | closedSpace => exact .closedSpace
  | endOfStatement => exact .endOfStatement

/-- A path is one under wider settings. -/
theorem Path.widen (within : settings.Within wider)
    (short : ∀ token : Token, token.checkDigits settings.limits = .ok () →
      token.checkDigits wider.limits = .ok ())
    {cursor final : Cursor} {last : ProgramReader} {definitions : List Definition}
    (path : Path settings cursor reader definitions final last) :
    Path wider cursor reader definitions final last := by
  induction path with
  | refl => exact .refl
  | step more next shortHere reads _ ih =>
      exact .step more next (short _ shortHere) (reads.widen within) ih

/-- A token takes a reader to one state, whatever the settings are. -/
theorem Reads.unique {other : ProgramReader} {settings' : Settings}
    (reads : Reads settings reader token reader') (reads' : Reads settings' reader token other) :
    reader' = other := by
  have stepped := (reads.widen (settings.within_either_left settings')).step_eq_ok
  have stepped' := (reads'.widen (settings.within_either_right settings')).step_eq_ok
  exact Except.ok.inj (stepped.symm.trans stepped')

end ProgramReader

end

/-! ## Tokens that never fit -/

/-- The token would fit under other settings. -/
def ParseError.IsOfSettings : ParseError → Prop
  | tooManyArguments _ _ _ => True
  | nestedTooDeeply => True
  | _ => False

section

variable {settings : Settings} {token : Token} {error : ParseError}

theorem OpenCall.of_overfull_eq_parse {limits : Limits} {call : OpenCall} {allowed : Int}
    (full : call.overfull limits allowed token = .parse error) :
    error = .tooManyArguments call.name allowed token := by
  unfold overfull at full
  split at full
  · cases full
    rfl
  · cases full

theorem OpenCall.of_checkRoom_eq_error {call : OpenCall} {failure : Failure}
    (failed : call.checkRoom settings token = .error failure) :
    (settings.maxArguments = none ∧ failure = .fault .noArgumentBound) ∨
      ∃ allowed, settings.maxArguments = some allowed ∧ allowed ≤ call.arguments.length ∧
        failure = call.overfull settings.limits allowed token := by
  unfold checkRoom at failed
  split at failed
  · rename_i unbounded
    cases failed
    exact Or.inl ⟨unbounded, rfl⟩
  · rename_i allowed bound
    split at failed
    · rename_i full
      cases failed
      exact Or.inr ⟨allowed, bound, full, rfl⟩
    · cases failed

namespace ExprReader

variable {reader : ExprReader} {scope : List String}

theorem readArgument_eq_error (settings' : Settings)
    (failed : reader.readArgument settings scope token = .error (.parse error))
    (absolute : ¬ error.IsOfSettings) :
    ∃ failure, reader.readArgument settings' scope token = .error failure := by
  unfold readArgument at failed ⊢
  split
  · rename_i stack
    rw [stack] at failed
    exact ⟨_, failed⟩
  · rename_i innermost outer stack
    rw [stack] at failed
    have operand : reader.readOperand scope token = .error (.parse error) := by
      rcases Except.of_bind_eq_error failed with noRoom | ⟨_, _, unread⟩
      · rcases OpenCall.of_checkRoom_eq_error noRoom with ⟨_, fault⟩ | ⟨_, _, _, full⟩
        · cases fault
        · cases OpenCall.of_overfull_eq_parse full.symm
          exact absurd trivial absolute
      · exact unread
    rw [operand]
    cases innermost.checkRoom settings' token with
    | ok _ => exact ⟨_, rfl⟩
    | error failure => exact ⟨failure, rfl⟩

/-- A reader of expressions refuses the token under other settings as well. -/
theorem step_eq_error (settings' : Settings)
    (failed : reader.step settings scope token = .error (.parse error))
    (absolute : ¬ error.IsOfSettings) :
    ∃ failure, reader.step settings' scope token = .error failure := by
  unfold step at failed ⊢
  split
  · rename_i awaiting
    rw [awaiting] at failed
    exact ⟨_, failed⟩
  · rename_i name position awaiting
    rw [awaiting] at failed
    dsimp only at failed
    split at failed
    · unfold openCall at failed
      split at failed
      · cases failed
      · cases failed
        exact absurd trivial absolute
    · rw [if_neg ‹_›]
      exact ⟨_, rfl⟩
  · rename_i awaiting
    rw [awaiting] at failed
    dsimp only at failed
    unfold readFirstArgument at failed ⊢
    split at failed
    · cases failed
    · exact readArgument_eq_error settings' failed absolute
  · rename_i awaiting
    rw [awaiting] at failed
    exact readArgument_eq_error settings' failed absolute
  · rename_i operand awaiting
    rw [awaiting] at failed
    exact ⟨_, failed⟩

end ExprReader

namespace ProgramReader

variable {reader : ProgramReader}

/-- A reader of programs does. -/
theorem step_eq_error (settings' : Settings)
    (failed : reader.step settings token = .error (.parse error))
    (absolute : ¬ error.IsOfSettings) :
    ∃ failure, reader.step settings' token = .error failure := by
  rcases reader with ⟨program, count, phase⟩
  cases phase with
  | body heading body =>
      simp only [step, readBody] at failed ⊢
      cases finished : body.finished? token.lexeme with
      | some expr =>
          rw [finished] at failed
          exact ⟨_, failed⟩
      | none =>
          rw [finished] at failed
          rcases Except.of_bind_eq_error failed with refused | ⟨_, _, entered⟩
          · rcases body.step_eq_error settings' refused absolute with ⟨failure, refused'⟩
            exact ⟨failure, by rw [refused']; rfl⟩
          · cases entered
  | _ => exact ⟨_, failed⟩

/-- A token that is refused for what it is is never read. -/
theorem not_reads_of_step_eq_error
    (failed : reader.step settings token = .error (.parse error))
    (absolute : ¬ error.IsOfSettings) (settings' : Settings) (reader' : ProgramReader) :
    ¬ Reads settings' reader token reader' := by
  intro reads
  rcases reader.step_eq_error settings' failed absolute with ⟨failure, refused⟩
  rw [reads.step_eq_ok] at refused
  cases refused

end ProgramReader

end

/-! ## Where reading stops -/

namespace ProgramReader

variable {settings : Settings} {reader : ProgramReader}

/-- At this place the reader cannot go on. -/
inductive StopsAt (settings : Settings) (here : Cursor) (reader : ProgramReader) :
    Failure → Prop
  /-- no lexeme begins there -/
  | lexical {error : LexError} (next : here.next = .error error) :
      StopsAt settings here reader (.lexical error)
  /-- the token is refused; the end of the input is so within a definition only -/
  | refused {token : Token} {after : Cursor} {failure : Failure}
      (next : here.next = .ok (token, after))
      (refused : reader.step settings token = .error failure)
      (begun : here.rest = [] → reader.phase ≠ .start) :
      StopsAt settings here reader failure

/-- No definition goes on with the end of the input. -/
theorem Reads.ne_endOfInput {token : Token} {reader' : ProgramReader}
    (reads : Reads settings reader token reader') : token.lexeme ≠ .endOfInput := by
  cases reads with
  | name names =>
      rintro rfl
      cases names
  | body _ reads =>
      cases reads with
      | name _ names =>
          rintro rfl
          cases names
      | _ => simp
  | _ => simp

/-- The end of the input is refused as any other token is. -/
theorem step_of_finish_eq_error {position : Position} {failure : Failure}
    (failed : reader.finish settings ⟨.endOfInput, position⟩ = .error failure) :
    reader.phase ≠ .start ∧ reader.step settings ⟨.endOfInput, position⟩ = .error failure := by
  constructor
  · exact (isRefused_of_finish failed).1
  · unfold finish at failed
    split at failed
    · cases failed
    · split at failed
      · rename_i refused
        cases failed
        exact refused
      · rename_i stepped
        exact absurd rfl (Reads.of_step stepped).ne_endOfInput

/-- A text without long numbers that cannot be read is read up to a place where the
reader cannot go on. -/
theorem exists_stop {cursor : Cursor} {failure : Failure}
    (short : ∀ token ∈ cursor.scanAll.tokens, token.checkDigits settings.limits = .ok ())
    (failed : reader.runFrom settings cursor = .error failure) :
    ∃ definitions here last, Path settings cursor reader definitions here last ∧
      StopsAt settings here last failure := by
  induction remaining : cursor.rest.length using Nat.strongRecOn
    generalizing cursor reader with
  | ind remaining ih =>
      subst remaining
      by_cases more : cursor.rest = []
      · rw [runFrom_of_rest_eq_nil more] at failed
        rcases step_of_finish_eq_error failed with ⟨begun, refused⟩
        exact ⟨[], cursor, reader, .refl,
          .refused (Cursor.next_of_rest_eq_nil more) refused fun _ => begun⟩
      · cases next : cursor.next with
        | error error =>
            rw [runFrom_of_next_eq_error more next] at failed
            cases failed
            exact ⟨[], cursor, reader, .refl, .lexical next⟩
        | ok read =>
            rcases read with ⟨token, after⟩
            rw [Cursor.scanAll_of_next_eq_ok more next, List.forall_mem_cons] at short
            rw [runFrom_of_next_eq_ok more next] at failed
            rcases Except.of_bind_eq_error failed with refused | ⟨reader', stepped, failed⟩
            · exact ⟨[], cursor, reader, .refl,
                .refused next refused fun atEnd => absurd atEnd more⟩
            have reads := Reads.of_step stepped
            rcases Except.of_bind_eq_error failed with noToken | ⟨_, _, failed⟩
            · -- The token after this one is looked at before anything else.
              cases next' : after.next with
              | error error =>
                  rw [next'] at noToken
                  cases noToken
                  exact ⟨_, after, reader', .step more next short.1 reads .refl, .lexical next'⟩
              | ok _ =>
                  rw [next'] at noToken
                  cases noToken
            rcases Except.of_bind_eq_error failed with tooLong | ⟨_, _, failed⟩
            · rw [short.1] at tooLong
              cases tooLong
            · rcases ih _ (Cursor.length_rest_next_lt next more) short.2 failed rfl with
                ⟨definitions, here, last, path, stops⟩
              exact ⟨_, here, last, .step more next short.1 reads path, stops⟩

end ProgramReader

end Polycalc

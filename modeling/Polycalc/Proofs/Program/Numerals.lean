import Polycalc.Proofs.Evaluation.Numerals
import Polycalc.Proofs.Evaluation.Safety
import Polycalc.Proofs.Grammar.Printing
import Polycalc.Proofs.Program.Limits
import Polycalc.Proofs.Program.Origins

/-!
# Outcomes within a limit on numerals

Running a text has an outcome unless a number of the text, a value of the
evaluation or the bound on arguments, where an error quotes it, has too many digits
(`Program.outcome_unless_too_long`).  The numbers that were read are never in the way:
they can be written, and so can every call that an error quotes
(`Program.bodies_writable`, `Program.exists_render_of_parse`).
-/

namespace Polycalc

open Grammar

/-- The same limits but for the one on numerals. -/
def Limits.unlimited (limits : Limits) : Limits :=
  { limits with digits := none }

/-! ## Numbers of a text -/

/-- A number that was met may be written. -/
theorem Cursor.Meets.exists_write {limits : Limits} {cursor : Cursor} {digits : String}
    {position : Position} (meets : cursor.Meets limits ⟨.number digits, position⟩) :
    ∃ text, limits.write (Text.Numeral.value digits) = .ok text := by
  rcases meets with ⟨short, here, after, _, _, next⟩
  cases limited : limits.digits with
  | none => exact ⟨_, Limits.write_eq_ok limited _⟩
  | some limit =>
      have numeral : IsRun Char.isDigit digits.toList := (Cursor.next_sound next).1
      have few : digits.toList.length ≤ limit := by
        simp only [Token.checkDigits, Limits.checkDigits, limited] at short
        split at short
        · rwa [String.length_toList]
        · cases short
      have wide : limits.digits = some (Bounds.digits ⟨0, limit⟩) := limited
      have written := write_decimal wide numeral few
      rw [← ofDigitChars_eq_decimal] at written
      exact ⟨_, written⟩

theorem Expr.ReadFrom.writable {limits : Limits} {cursor : Cursor} {expr : Expr}
    (read : expr.ReadFrom (cursor.Meets limits)) : expr.Writable limits := by
  intro value position member
  rcases read _ member with ⟨digits, meets, rfl⟩
  exact meets.exists_write

namespace Program

variable {settings : Settings} {text : String} {program : Program}

/-- The bodies of a program that was read can be written. -/
theorem bodies_writable (parsed : Program.parse settings text = .ok program) :
    ∀ body ∈ program.bodies, body.Genuine ∧ body.Writable settings.limits := by
  obtain ⟨definitions, final, last, path, _, complete, rfl⟩ := Program.parse_eq_ok_iff.mp parsed
  have read := path.readFrom trivial fun _ meets => meets
  rw [(path.program_eq complete).1]
  intro body isBody
  rcases List.mem_map.mp isBody with ⟨definition, inForce, rfl⟩
  have readBody := read definition (entries_ofDefinitions_subset definitions inForce)
  exact ⟨readBody.genuine, readBody.writable⟩

/-- So can its calls, those in replaced definitions too. -/
theorem exists_render_of_parse (parsed : Program.parse settings text = .ok program) {call : Call}
    (member : call ∈ program.calls) : ∃ text, call.render settings.limits = .ok text := by
  have read := calls_readFrom parsed call member
  exact read.genuine.exists_render read.writable

end Program

/-! ## Reading -/

theorem Token.checkDigits_unlimited (limits : Limits) (token : Token) :
    token.checkDigits limits.unlimited = .ok () := by
  rcases token with ⟨lexeme, position⟩
  cases lexeme <;> rfl

namespace ProgramReader

variable {ending : Except LexError Token} {tokens : List Token}

/-- All numbers of a text that is read are short enough. -/
theorem short_of_run {settings : Settings} {reader : ProgramReader} {program : Program}
    (ran : reader.run settings ending tokens = .ok program) :
    ∀ token ∈ tokens, token.checkDigits settings.limits = .ok () := by
  induction tokens generalizing reader with
  | nil => simp
  | cons token remaining ih =>
      rcases run_cons_eq_ok_iff.mp ran with ⟨reader', _, _, short, ran'⟩
      rw [List.forall_mem_cons]
      exact ⟨short, ih ran'⟩

end ProgramReader

/-! ## Validation -/

theorem forM_congr_of_forall {ε α : Type} {check other : α → Except ε Unit} {values : List α}
    (each : ∀ value ∈ values, check value = other value) :
    values.forM check = values.forM other := by
  induction values with
  | nil => rfl
  | cons value rest ih =>
      rw [List.forall_mem_cons] at each
      have unfolded : ∀ f : α → Except ε Unit,
          (value :: rest).forM f = (f value >>= fun _ => rest.forM f) :=
        fun _ => rfl
      rw [unfolded, unfolded, each.1, ih each.2]

namespace Program

variable {limits : Limits} {program : Program}

/-- Where the calls can be written, validation does not depend on the limit on
numerals. -/
theorem validate_unlimited (nothing : program.registered = [])
    (writable : ∀ call ∈ program.calls, call.toExpr.Writable limits) :
    program.validate limits = program.validate limits.unlimited := by
  have same : program.calls.forM (program.checkCall limits) =
      program.calls.forM (program.checkCall limits.unlimited) := by
    apply forM_congr_of_forall
    intro call member
    have unbounded : limits.unlimited.digits = none := rfl
    have written := (writable call member).render_eq unbounded
    simp only [checkCall, refuseUnknown, badCallText, written]
    rfl
  rw [validate, validate, nothing, same]
  rfl

/-! ## Evaluation -/

/-- Where the values in its steps can be written, a sound program runs as it
does without the limit on numerals. -/
theorem Sound.run_unlimited (sound : program.Sound)
    (bodies : ∀ body ∈ program.bodies, body.Genuine ∧ body.Writable limits)
    (short : StepsWritable limits (program.run limits.unlimited).onNewMachine.2.steps.toList) :
    (program.run limits).onNewMachine = (program.run limits.unlimited).onNewMachine := by
  rcases sound.exists_entry with ⟨definition, found, _, same⟩
  rw [same] at short ⊢
  rw [same]
  rcases exists_run limits.unlimited program limits.liveCalls [] [] definition.body with
    ⟨result, steps, runs⟩
  have free : (program.evaluate limits.unlimited [] definition.body).onNewMachine =
      (result, ⟨[], steps.toArray⟩) :=
    runs.onNewMachine
  rw [free] at short ⊢
  rcases bodies _ (body_mem_bodies found) with ⟨genuine, writable⟩
  exact (runs.within rfl bodies genuine writable short).onNewMachine

end Program

/-! ## Texts -/

theorem Outcome.of_ofResult_eq_error {result : Except Failure Int} {fault : Fault}
    (failed : ofResult result = .error fault) : result = .error (.fault fault) := by
  unfold ofResult at failed
  split at failed
  all_goals cases failed
  rfl

/-- No number of the text has more digits. -/
def ShortNumerals (digits : Nat) (text : String) : Prop :=
  ∀ token ∈ (Cursor.start text).scanAll.tokens, ∀ numeral,
    token.lexeme = .number numeral → numeral.length ≤ digits

/-- No integer in the steps has more digits. -/
def ShortSteps (digits : Nat) (steps : Array Step) : Prop :=
  ∀ step ∈ steps, ∀ value ∈ step.values, value.natAbs < 10 ^ digits

theorem Token.checkDigits_eq_error_iff {limits : Limits} {token : Token} {fault : Fault} :
    token.checkDigits limits = .error fault ↔
      ∃ digits numeral, limits.digits = some digits ∧ token.lexeme = .number numeral ∧
        digits < numeral.length ∧ fault = .numeralTooLong digits numeral.length := by
  rcases token with ⟨lexeme, position⟩
  cases limited : limits.digits with
  | none => cases lexeme <;> simp [checkDigits, Limits.checkDigits, limited]
  | some digits =>
      cases lexeme with
      | number numeral =>
          by_cases short : numeral.length ≤ digits
          · simp [checkDigits, Limits.checkDigits, limited, short, Nat.not_lt.mpr short]
          · simp [checkDigits, Limits.checkDigits, limited, short, Nat.lt_of_not_le short, eq_comm]
      | _ => simp [checkDigits]

theorem shortNumerals_iff {limits : Limits} {digits : Nat} (limited : limits.digits = some digits)
    {text : String} :
    ShortNumerals digits text ↔
      ∀ token ∈ (Cursor.start text).scanAll.tokens, token.checkDigits limits = .ok () := by
  apply forall₂_congr
  intro token _
  cases checked : token.checkDigits limits with
  | ok _ =>
      simp only [iff_true]
      intro numeral isNumber
      by_contra long
      have failed : token.checkDigits limits = .error (.numeralTooLong digits numeral.length) :=
        Token.checkDigits_eq_error_iff.mpr
          ⟨digits, numeral, limited, isNumber, Nat.lt_of_not_le long, rfl⟩
      rw [checked] at failed
      cases failed
  | error fault =>
      rcases Token.checkDigits_eq_error_iff.mp checked with
        ⟨digits', numeral, limited', isNumber, long, _⟩
      rw [limited, Option.some.injEq] at limited'
      subst limited'
      simp only [reduceCtorEq, iff_false]
      intro short
      exact Nat.not_le.mpr long (short numeral isNumber)

/-- If a call has too many arguments, the number of those that it may have has no more
digits. -/
def ShortBound (digits : Nat) (result : Except Fault Outcome) : Prop :=
  ∀ callee allowed found,
    result = .ok (.parseFailed (.parse (.tooManyArguments callee allowed found))) →
      allowed.natAbs < 10 ^ digits

theorem Settings.freer_unlimited (maxArguments : Option Int) (limits : Limits) :
    Settings.Freer ⟨maxArguments, limits⟩ ⟨maxArguments, limits.unlimited⟩ where
  maxArguments := rfl
  nesting := fun _ shallow => shallow
  digits := Or.inr rfl

namespace Program

variable {maxArguments : Option Int} {limits : Limits} {settings : Settings} {text : String}

/-- Without a limit on numerals a text is read or refused. -/
theorem parse_ne_fault_of_unlimited (bounded : settings.maxArguments ≠ none)
    (unbounded : settings.limits.digits = none) (fault : Fault) :
    Program.parse settings text ≠ .error (.fault fault) := by
  have written : ∀ value fault, settings.limits.write value ≠ .error fault := by
    intro value fault failed
    rw [Limits.write_eq_ok unbounded] at failed
    cases failed
  have notRefused : ∀ token : Token, ¬ token.IsRefused settings (.fault fault) := by
    intro token isRefused
    cases isRefused with
    | unwrittenBound _ unwritten => exact written _ _ unwritten
    | noArgumentBound none => exact bounded none
  intro failed
  cases failsFrom_of_parse failed with
  | refused _ _ _ isRefused => exact notRefused _ isRefused
  | tooLong _ _ _ tooLong =>
      rcases Token.checkDigits_eq_error_iff.mp tooLong with ⟨digits, _, limited, _⟩
      rw [unbounded] at limited
      cases limited
  | atEnd _ _ _ isRefused => exact notRefused _ isRefused

/-- Within a limit on numerals a text is read or refused as it is without, unless one of
its numbers is too long or the error that there is without cannot be quoted. -/
theorem parse_unlimited (shortText : ∀ token ∈ (Cursor.start text).scanAll.tokens,
      token.checkDigits limits = .ok ())
    (shortBound : ∀ callee allowed found,
      Program.parse ⟨maxArguments, limits.unlimited⟩ text =
          .error (.parse (.tooManyArguments callee allowed found)) →
        ∃ quoted, limits.write allowed = .ok quoted) :
    Program.parse ⟨maxArguments, limits⟩ text =
      Program.parse ⟨maxArguments, limits.unlimited⟩ text := by
  have compares := parse_sameUnlessLimited (Settings.freer_unlimited maxArguments limits) text
  generalize Program.parse ⟨maxArguments, limits⟩ text = within at compares ⊢
  generalize Program.parse ⟨maxArguments, limits.unlimited⟩ text = free at compares shortBound ⊢
  cases compares with
  | same => rfl
  | nesting deep allowed => exact absurd (allowed.symm.trans deep) (by decide)
  | numeral member long =>
      rw [shortText _ member] at long
      cases long
  | bound bound unwritten written =>
      rcases shortBound _ _ _ rfl with ⟨quoted, short⟩
      cases unwritten.symm.trans short

/-- Only a number that is too long keeps a text from being read or refused, or the bound on
arguments where an error would quote it. -/
theorem of_parse_eq_fault {allowed : Int} {fault : Fault}
    (failed : Program.parse ⟨some allowed, limits⟩ text = .error (.fault fault)) :
    (∃ token ∈ (Cursor.start text).scanAll.tokens, token.checkDigits limits = .error fault) ∨
      limits.write allowed = .error fault ∧
        ∃ callee found, Program.parse ⟨some allowed, limits.unlimited⟩ text =
          .error (.parse (.tooManyArguments callee allowed found)) := by
  have compares := parse_sameUnlessLimited (Settings.freer_unlimited (some allowed) limits) text
  have noFault := @parse_ne_fault_of_unlimited ⟨some allowed, limits.unlimited⟩ text (by simp) rfl
  generalize Program.parse ⟨some allowed, limits.unlimited⟩ text = free at compares noFault ⊢
  rw [failed] at compares
  cases compares with
  | same => exact absurd rfl (noFault fault)
  | numeral member long => exact Or.inl ⟨_, member, long⟩
  | bound bound unwritten written =>
      cases bound
      exact Or.inr ⟨unwritten, _, _, rfl⟩

/-- A text that is read in the same way and whose evaluation shows no long value runs as
it does without the limit on numerals. -/
theorem outcomeOfText_unlimited {digits : Nat} (limited : limits.digits = some digits)
    (same : Program.parse ⟨maxArguments, limits⟩ text =
      Program.parse ⟨maxArguments, limits.unlimited⟩ text)
    (shortSteps : ShortSteps digits (outcomeOfText ⟨maxArguments, limits.unlimited⟩ text).2) :
    outcomeOfText ⟨maxArguments, limits⟩ text =
      outcomeOfText ⟨maxArguments, limits.unlimited⟩ text := by
  unfold outcomeOfText at shortSteps ⊢
  rw [← same] at shortSteps ⊢
  cases parsed : Program.parse ⟨maxArguments, limits⟩ text with
  | error failure => rfl
  | ok program =>
      have bodies := bodies_writable parsed
      have calls : ∀ call ∈ program.calls, call.toExpr.Writable limits :=
        fun call member => (calls_readFrom parsed call member).writable
      have sameValidity := validate_unlimited (registered_of_parse parsed) calls
      rw [parsed] at shortSteps
      simp only [outcome, ← sameValidity] at shortSteps ⊢
      cases valid : program.validate limits with
      | error failure => rfl
      | ok _ =>
          have sound := sound_of_parseValid (parseValid_eq_ok_iff.mpr ⟨parsed, valid⟩)
          rw [valid] at shortSteps
          have written : StepsWritable limits
              (program.run limits.unlimited).onNewMachine.2.steps.toList := by
            intro step member value shown
            have short := shortSteps step (Array.mem_toList_iff.mp member) value shown
            exact ⟨_, Limits.write_eq_ok_of_lt limited short⟩
          simp only [sound.run_unlimited bodies written]

/-- Within the limit on numerals the program that is read is the one that is read
without. -/
theorem parse_unlimited_of_eq_ok {program : Program}
    (parsed : Program.parse ⟨maxArguments, limits⟩ text = .ok program) :
    Program.parse ⟨maxArguments, limits.unlimited⟩ text = .ok program := by
  have compares := parse_sameUnlessLimited (Settings.freer_unlimited maxArguments limits) text
  rw [parsed] at compares
  generalize Program.parse ⟨maxArguments, limits.unlimited⟩ text = free at compares ⊢
  cases compares with
  | same => rfl

/-- Evaluating a program that was read fails with a fault only at a value that cannot be
written. -/
theorem of_outcome_eq_error {program : Program} {fault : Fault}
    (parsed : Program.parse settings text = .ok program)
    (failed : (program.outcome settings.limits).1 = .error fault) :
    ∃ value, settings.limits.write value = .error fault := by
  unfold outcome at failed
  split at failed
  · rename_i failure refused
    cases Outcome.of_ofResult_eq_error failed
    rcases of_validate_eq_error (registered_of_parse parsed) refused with
      noEntry | ⟨call, member, refuses⟩
    · cases noEntry
    · cases refuses with
      | unwritten unwritten =>
          rcases exists_render_of_parse parsed member with ⟨quoted, written⟩
          rw [written] at unwritten
          cases unwritten
  · rename_i valid
    have sound := sound_of_parseValid (parseValid_eq_ok_iff.mpr ⟨parsed, valid⟩)
    rcases sound.exists_entry with ⟨definition, found, fits, same⟩
    rcases exists_runs_onNewMachine settings.limits program [] definition.body with
      ⟨steps, runs⟩
    rw [← same] at runs
    exact runs.exists_of_fault sound.bodies_genuine fits.readIn.genuine
      (Outcome.of_ofResult_eq_error failed)

/-- Without a limit on numerals every text has an outcome. -/
theorem exists_outcome_of_unlimited (bounded : settings.maxArguments ≠ none)
    (unbounded : settings.limits.digits = none) (text : String) :
    ∃ outcome, (outcomeOfText settings text).1 = .ok outcome := by
  cases ended : (outcomeOfText settings text).1 with
  | ok outcome => exact ⟨outcome, rfl⟩
  | error fault =>
      unfold outcomeOfText at ended
      split at ended
      · rename_i failure refused
        cases Outcome.of_ofResult_eq_error ended
        exact absurd refused (parse_ne_fault_of_unlimited bounded unbounded fault)
      · rename_i program parsed
        rcases of_outcome_eq_error parsed ended with ⟨value, unwritten⟩
        rw [Limits.write_eq_ok unbounded] at unwritten
        cases unwritten

/-- A text that can be read has no outcome only if its evaluation shows a value that is
too long. -/
theorem of_outcomeOfText_eq_error {allowed : Int} {program : Program} {fault : Fault}
    (parsed : Program.parse ⟨some allowed, limits⟩ text = .ok program)
    (failed : (outcomeOfText ⟨some allowed, limits⟩ text).1 = .error fault) :
    ∃ digits, limits.digits = some digits ∧ fault = .valueTooLong digits ∧
      ¬ ShortSteps digits (outcomeOfText ⟨some allowed, limits.unlimited⟩ text).2 := by
  have evaluated : (program.outcome limits).1 = .error fault := by
    rw [outcomeOfText, parsed] at failed
    exact failed
  rcases of_outcome_eq_error parsed evaluated with ⟨value, unwritten⟩
  rcases Limits.of_write_eq_error unwritten with ⟨digits, limited, _, named⟩
  refine ⟨digits, limited, named, fun shortSteps => ?_⟩
  have same := outcomeOfText_unlimited limited
    (parsed.trans (parse_unlimited_of_eq_ok parsed).symm) shortSteps
  have unbounded : Settings.maxArguments ⟨some allowed, limits.unlimited⟩ ≠ none := by simp
  rcases exists_outcome_of_unlimited unbounded rfl text with ⟨outcome, ended⟩
  rw [same, ended] at failed
  cases failed

/-- A bound on arguments that is exceeded and has too many digits is not short. -/
theorem not_shortBound {allowed : Int} {digits : Nat} {callee : String} {found : Token}
    (refused : Program.parse settings text =
      .error (.parse (.tooManyArguments callee allowed found)))
    (long : 10 ^ digits ≤ allowed.natAbs) :
    ¬ ShortBound digits (outcomeOfText settings text).1 := fun shortBound =>
  absurd (shortBound _ _ _ (outcomeOfText_of_parse_eq_error refused)) (Nat.not_lt.mpr long)

/-- Running a text has an outcome but for the limit on numerals.  Without it there always
is one.  It makes no difference as long as the numbers of the text, the integers in the
steps of the evaluation and the number of arguments that a message quotes keep to it.
Otherwise the run ends with the fault that names the limit, for a number of the text with
the count of its digits. -/
theorem outcome_unless_too_long (allowed : Int) (digits : Nat) (nesting : Option Nat)
    (liveCalls : Nat) (text : String) :
    let free := outcomeOfText ⟨some allowed, ⟨none, nesting, liveCalls⟩⟩ text
    let limited := outcomeOfText ⟨some allowed, ⟨some digits, nesting, liveCalls⟩⟩ text
    (∃ outcome, free.1 = .ok outcome) ∧
    (ShortNumerals digits text → ShortSteps digits free.2 → ShortBound digits free.1 →
      limited = free) ∧
    ∀ fault, limited.1 = .error fault →
      (∃ token ∈ (Cursor.start text).scanAll.tokens, ∃ numeral,
        token.lexeme = .number numeral ∧ digits < numeral.length ∧
          fault = .numeralTooLong digits numeral.length) ∨
      (fault = .valueTooLong digits ∧
        (¬ ShortSteps digits free.2 ∨ ¬ ShortBound digits free.1)) := by
  intro free limited
  refine ⟨exists_outcome_of_unlimited (by simp) rfl text, ?_, ?_⟩
  · intro shortText shortSteps shortBound
    have bound : ∀ callee allowed' found,
        Program.parse ⟨some allowed, Limits.unlimited ⟨some digits, nesting, liveCalls⟩⟩ text =
            .error (.parse (.tooManyArguments callee allowed' found)) →
          ∃ quoted, Limits.write ⟨some digits, nesting, liveCalls⟩ allowed' = .ok quoted := by
      intro callee allowed' found refused
      have told := shortBound _ _ _ (outcomeOfText_of_parse_eq_error refused)
      exact ⟨_, Limits.write_eq_ok_of_lt rfl told⟩
    exact outcomeOfText_unlimited rfl
      (parse_unlimited ((shortNumerals_iff rfl).mp shortText) bound) shortSteps
  · intro fault failed
    cases parsed : Program.parse ⟨some allowed, ⟨some digits, nesting, liveCalls⟩⟩ text with
    | error failure =>
        simp only [limited, outcomeOfText, parsed] at failed
        cases Outcome.of_ofResult_eq_error failed
        rcases of_parse_eq_fault parsed with
          ⟨token, member, tooLong⟩ | ⟨unwritten, callee, found, refused⟩
        · rcases Token.checkDigits_eq_error_iff.mp tooLong with
            ⟨digits', numeral, isLimit, isNumber, long, named⟩
          cases isLimit
          exact Or.inl ⟨token, member, numeral, isNumber, long, named⟩
        · rcases Limits.of_write_eq_error unwritten with ⟨digits', isLimit, long, named⟩
          cases isLimit
          exact Or.inr ⟨named, Or.inr (not_shortBound refused long)⟩
    | ok program =>
        rcases of_outcomeOfText_eq_error parsed failed with ⟨digits', isLimit, named, long⟩
        cases isLimit
        exact Or.inr ⟨named, Or.inl long⟩

theorem isFunctionName_entryName : IsFunctionName entryName := by
  simp [IsFunctionName, IsRun, entryName]

/-- A text of the form of a program whose number is too long is neither read nor
refused. -/
theorem parse_of_long_number {numeral : String} {limit : Nat}
    (isRun : IsRun Char.isDigit numeral.toList) (limited : settings.limits.digits = some limit)
    (long : limit < numeral.length) :
    Program.parse settings ("DEF MAIN \x7b " ++ numeral ++ " \x7d ;\n") =
      .error (.fault (.numeralTooLong limit numeral.length)) := by
  have here : (Cursor.start ("DEF MAIN \x7b " ++ numeral ++ " \x7d ;\n")).rest =
      "DEF ".toList ++ headingText entryName [] ++
        (" \x7b ".toList ++ (numeral.toList ++ " \x7d ;\n".toList)) := by
    simp [Cursor.start, headingText, entryName]
  obtain ⟨first, left, path⟩ : ProgramReader.Reaches settings (.start _) .start [] _
      ⟨.empty, 0, .word ⟨entryName, []⟩⟩ :=
    ProgramReader.reaches_heading isFunctionName_entryName (by simp) (fun _ => rfl) here
      (apart_cons (by decide))
  obtain ⟨second, left', path'⟩ : ProgramReader.Reaches settings first
      ⟨.empty, 0, .word ⟨entryName, []⟩⟩ [] _
      ⟨.empty, 0, .body ⟨entryName, []⟩ (.start Program.empty.calls)⟩ :=
    ProgramReader.reaches_openBrace left
  obtain ⟨more, after, next, left''⟩ :=
    Cursor.next_complete (.number numeral) left' isRun (by simp) fun _ => apart_cons (by decide)
  obtain ⟨_, further, next', _⟩ :=
    Cursor.next_complete .space left'' trivial (by simp) False.elim
  have ready : ExprReader.Ready settings (.start Program.empty.calls) := Or.inl rfl
  have reads : ProgramReader.Reads settings
      ⟨.empty, 0, .body ⟨entryName, []⟩ (.start Program.empty.calls)⟩
      ⟨.number numeral, second.position⟩ _ :=
    .body (ExprReader.finished?_of_ready ready _) (.number (Or.inl rfl))
  have tooLong : Token.checkDigits settings.limits ⟨.number numeral, second.position⟩ =
      .error (.numeralTooLong limit numeral.length) :=
    Token.checkDigits_eq_error_iff.mpr ⟨limit, numeral, limited, rfl, long, rfl⟩
  apply (path.trans path').runFrom_eq.trans
  rw [ProgramReader.runFrom_of_next_eq_ok more next, reads.step_eq_ok, next', tooLong]
  rfl

/-- So it has no outcome. -/
theorem outcomeOfText_of_long_number {numeral : String} {limit : Nat}
    (isRun : IsRun Char.isDigit numeral.toList) (limited : settings.limits.digits = some limit)
    (long : limit < numeral.length) :
    (outcomeOfText settings ("DEF MAIN \x7b " ++ numeral ++ " \x7d ;\n")).1 =
      .error (.numeralTooLong limit numeral.length) := by
  rw [outcomeOfText, parse_of_long_number isRun limited long]
  rfl

theorem longNumber_has_no_outcome :
    (outcomeOfText {}
        ("DEF MAIN \x7b " ++ String.ofList (List.replicate 4301 '1') ++ " \x7d ;\n")).1 =
      .error (.numeralTooLong 4300 4301) := by
  have length : (String.ofList (List.replicate 4301 '1')).length = 4301 := by
    rw [String.length_ofList, List.length_replicate]
  have isRun : IsRun Char.isDigit (String.ofList (List.replicate 4301 '1')).toList := by
    rw [String.toList_ofList]
    constructor
    · exact nofun
    · intro c member
      rw [List.eq_of_mem_replicate member]
      rfl
  have standard : Settings.limits {} = Limits.standard := rfl
  have long : 4300 < (String.ofList (List.replicate 4301 '1')).length := by
    rw [length]
    decide
  have fault := outcomeOfText_of_long_number isRun (congrArg Limits.digits standard) long
  rwa [length] at fault

end Program

end Polycalc

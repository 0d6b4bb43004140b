import Polycalc.Proofs.Evaluation.Lockstep
import Polycalc.Proofs.Program.Numerals
import Polycalc.Proofs.Program.Reprinting

/-!
# Replaced definitions

A definition replaces an earlier one of its name in the table, but the calls of
the earlier one stay noted, and validation looks at them.  So a program whose
functions call one another well may yet be refused, for a call in a definition
that nothing uses any more.  This is the only way in which a replaced definition
matters: otherwise a text ends as its source form does, where replaced
definitions are left out (`Program.source_outcome`).
-/

namespace Polycalc

/-! ## What an outcome comes down to -/

namespace Outcome

/-- The value, if there is one. -/
def value? : Outcome → Option Int
  | evaluated value => some value
  | _ => none

/-- The kind of an outcome, which the status tells, and the value. -/
def summary (outcome : Outcome) : Int × Option Int :=
  (outcome.status, outcome.value?)

theorem summary_eq_of_bare (failure : Failure) :
    (ofResult (.error failure.bare)).map summary = (ofResult (.error failure)).map summary := by
  cases failure with
  | source error => rfl
  | evaluation error => cases error <;> rfl
  | fault fault => rfl

end Outcome

/-- Results that are alike come down to the same. -/
theorem EndsAlike.summary {result other : Except Failure Int} (alike : EndsAlike result other) :
    (Outcome.ofResult other).map Outcome.summary =
      (Outcome.ofResult result).map Outcome.summary := by
  cases alike with
  | ok value => rfl
  | error same => rw [← Outcome.summary_eq_of_bare, same, Outcome.summary_eq_of_bare]

namespace Program

variable {settings : Settings} {limits : Limits} {text : String} {program other : Program}

/-! ## Outcomes of programs that were read -/

theorem outcomeOfText_of_parse (parsed : Program.parse settings text = .ok program) :
    outcomeOfText settings text = program.outcome settings.limits := by
  rw [outcomeOfText, parsed]

theorem outcome_of_valid (valid : program.validate limits = .ok ()) :
    (program.outcome limits).1 = Outcome.ofResult (program.run limits).onNewMachine.1 := by
  rw [outcome, valid]

/-- A text that is read but not valid is no program. -/
theorem exists_outcome_of_invalid (parsed : Program.parse settings text = .ok program)
    (invalid : program.validate settings.limits ≠ .ok ()) :
    ∃ error, (program.outcome settings.limits).1 = .ok (.parseFailed error) := by
  rw [outcome]
  cases refused : program.validate settings.limits with
  | ok _ => exact absurd refused invalid
  | error failure =>
      rcases of_validate_eq_error (registered_of_parse parsed) refused with
        rfl | ⟨call, member, refuses⟩
      · exact ⟨_, rfl⟩
      · cases refuses with
        | unwritten unwritten =>
            rcases exists_render_of_parse parsed member with ⟨quoted, written⟩
            rw [written] at unwritten
            cases unwritten
        | _ => exact ⟨_, rfl⟩

/-- A valid program is one. -/
theorem Sound.outcome_ne_parseFailed (sound : program.Sound)
    (valid : program.validate limits = .ok ()) (error : SourceError) :
    (program.outcome limits).1 ≠ .ok (.parseFailed error) := by
  rw [outcome_of_valid valid]
  intro failed
  unfold Outcome.ofResult at failed
  split at failed
  all_goals cases failed
  rename_i ended
  rcases sound.of_run_eq_error ended with ⟨_, isFault⟩ | exhausted | ⟨_, _, diverges⟩
  · cases isFault
  · cases exhausted
  · cases diverges

/-- Sound programs that are alike and tell their calls apart end alike. -/
theorem Sound.outcome_alike (sound : program.Sound) (otherSound : other.Sound)
    (alike : program.Alike other) (nodup : (program.bodyCalls.map Call.site).Nodup)
    (otherNodup : (other.bodyCalls.map Call.site).Nodup) (limits : Limits) :
    EndsAlike (program.run limits).onNewMachine.1 (other.run limits).onNewMachine.1 := by
  rcases alike.exists_twin nodup otherNodup with ⟨pairs, programs⟩
  rcases sound.exists_entry with ⟨entry, found, _, same⟩
  rcases otherSound.exists_entry with ⟨entry', found', _, same'⟩
  rcases programs.exists_definition found with ⟨_, found'', twin⟩
  cases found'.symm.trans found''
  rcases exists_runs_onNewMachine limits program [] entry.body with ⟨steps, runs⟩
  have lives : List.Forall₂ pairs (liveSites []) (liveSites []) := .nil
  rcases runs.twin programs lives twin.body with ⟨result', steps', runs', ended⟩
  rw [same, same', runs'.onNewMachine]
  exact ended

/-- The calls in force of a program that was read are told apart by their
sites. -/
theorem nodup_sites (parsed : Program.parse settings text = .ok program) :
    (program.bodyCalls.map Call.site).Nodup := by
  rcases exists_definitions parsed with ⟨definitions, rfl, numbered, _⟩
  rcases bodyCalls_subperm_calls definitions with ⟨calls, perm, sublist⟩
  rw [← (perm.map Call.site).nodup_iff]
  exact numbered.nodup.sublist (sublist.map Call.site)

/-! ## Programs that a replaced definition spoils -/

/-- The program has an entry function and its functions call one another well, but
a call in a replaced definition is bad. -/
structure SpoiltByReplaced (program : Program) : Prop where
  entry : program.contains entryName = true
  bodies : ∀ call ∈ program.bodyCalls, program.Accepts call
  replaced : ∃ call ∈ program.calls, ¬ program.Accepts call

section

variable {source : String} {definitions : List Definition}

/-- If nothing is spoilt, a program that was read ends like one that is alike and
has no replaced definitions. -/
theorem Alike.outcome_eq (alike : program.Alike (.ofDefinitions definitions))
    (distinct : (definitions.map Definition.name).Nodup)
    (parsed : Program.parse settings text = .ok program)
    (reparsed : Program.parse settings source = .ok (.ofDefinitions definitions))
    (sound : ¬ program.SpoiltByReplaced) :
    ((ofDefinitions definitions).outcome settings.limits).1.map Outcome.summary =
      (program.outcome settings.limits).1.map Outcome.summary := by
  by_cases valid : program.validate settings.limits = .ok ()
  · have programSound := sound_of_parseValid (parseValid_eq_ok_iff.mpr ⟨parsed, valid⟩)
    have validAgain := alike.validate_eq_ok programSound distinct settings.limits
    have soundAgain := sound_of_parseValid (parseValid_eq_ok_iff.mpr ⟨reparsed, validAgain⟩)
    rw [outcome_of_valid valid, outcome_of_valid validAgain]
    exact (programSound.outcome_alike soundAgain alike (nodup_sites parsed)
      (nodup_sites reparsed) settings.limits).summary
  · have invalidAgain : (ofDefinitions definitions).validate settings.limits ≠ .ok () := by
      rw [Ne, alike.validate_eq_ok_iff distinct]
      rintro ⟨entry, bodies⟩
      rw [Program.validate_eq_ok_iff (registered_of_parse parsed)] at valid
      apply sound
      constructor
      · exact entry
      · exact bodies
      · by_contra none
        push Not at none
        exact valid ⟨entry, none⟩
    rcases exists_outcome_of_invalid parsed valid with ⟨error, refused⟩
    rcases exists_outcome_of_invalid reparsed invalidAgain with ⟨errorAgain, refusedAgain⟩
    rw [refused, refusedAgain]
    rfl

/-- If a replaced definition spoils a program, it is refused where one that is
alike and has no replaced definitions is not. -/
theorem SpoiltByReplaced.outcomes (spoilt : program.SpoiltByReplaced)
    (alike : program.Alike (.ofDefinitions definitions))
    (distinct : (definitions.map Definition.name).Nodup)
    (parsed : Program.parse settings text = .ok program)
    (reparsed : Program.parse settings source = .ok (.ofDefinitions definitions)) :
    (∃ error, (program.outcome settings.limits).1 = .ok (.parseFailed error)) ∧
      ∀ error, ((ofDefinitions definitions).outcome settings.limits).1 ≠
        .ok (.parseFailed error) := by
  have valid : (ofDefinitions definitions).validate settings.limits = .ok () :=
    (alike.validate_eq_ok_iff distinct _).mpr ⟨spoilt.entry, spoilt.bodies⟩
  have sound := sound_of_parseValid (parseValid_eq_ok_iff.mpr ⟨reparsed, valid⟩)
  constructor
  · apply exists_outcome_of_invalid parsed
    rw [Ne, validate_eq_ok_iff (registered_of_parse parsed)]
    rintro ⟨_, accepted⟩
    rcases spoilt.replaced with ⟨call, member, bad⟩
    exact bad (accepted call member)
  · exact sound.outcome_ne_parseFailed valid

end

/-- A text ends as its source form does, with the same kind of outcome and the
same value or with the same fault, unless it has a bad call in a replaced
definition and nothing else is wrong with it.  Then the text is refused and its
source form is not. -/
theorem source_outcome (maxArguments : Int) (digits : Nat) (nesting : Option Nat)
    (liveCalls : Nat)
    (parsed : Program.parse ⟨some maxArguments, ⟨some digits, nesting, liveCalls⟩⟩ text =
      .ok program) :
    ∃ source, program.source ⟨some digits, nesting, liveCalls⟩ = .ok source ∧
      (¬ program.SpoiltByReplaced →
        (outcomeOfText ⟨some maxArguments, ⟨some digits, nesting, liveCalls⟩⟩ source).1.map
            Outcome.summary =
          (outcomeOfText ⟨some maxArguments, ⟨some digits, nesting, liveCalls⟩⟩ text).1.map
            Outcome.summary) ∧
      (program.SpoiltByReplaced →
        (∃ error,
          (outcomeOfText ⟨some maxArguments, ⟨some digits, nesting, liveCalls⟩⟩ text).1 =
            .ok (.parseFailed error)) ∧
        ∀ error,
          (outcomeOfText ⟨some maxArguments, ⟨some digits, nesting, liveCalls⟩⟩ source).1 ≠
            .ok (.parseFailed error)) := by
  have imposes : Settings.Imposes ⟨some maxArguments, ⟨some digits, nesting, liveCalls⟩⟩
      ⟨maxArguments.toNat, digits⟩ := ⟨⟨maxArguments, rfl, rfl⟩, rfl⟩
  obtain ⟨source, definitions, printed, reparsed, same, _⟩ :=
    Program.exists_reprinted imposes parsed
  have distinct : (definitions.map Definition.name).Nodup := by
    rw [Definition.map_name_eq_of_map_bare_eq same]
    exact program.functions.distinct
  have alike : program.Alike (.ofDefinitions definitions) := by
    rw [Program.Alike, Program.entries_ofDefinitions distinct, same]
  refine ⟨source, printed, ?_⟩
  rw [outcomeOfText_of_parse parsed, outcomeOfText_of_parse reparsed]
  constructor
  · exact alike.outcome_eq distinct parsed reparsed
  · intro spoilt
    exact spoilt.outcomes alike distinct parsed reparsed

/-- A function is replaced that calls one which is nowhere defined. -/
def spoiltText : String :=
  "DEF F \x7b G() \x7d ;\nDEF F \x7b 2 \x7d ;\nDEF MAIN \x7b F() \x7d ;\n"

/-- What the text is read as. -/
def spoilt : Program where
  functions := (ofDefinitions
    [⟨"F", [], .number 2 ⟨2, 9⟩, 2⟩,
      ⟨entryName, [], .call (.parsed 1) "F" [] ⟨3, 12⟩, 3⟩]).functions
  calls := [⟨.parsed 0, "G", [], ⟨1, 9⟩⟩, ⟨.parsed 1, "F", [], ⟨3, 12⟩⟩]
  redefined := [⟨"F", [], .number 2 ⟨2, 9⟩, 2⟩]

theorem spoilt_parse : Program.parse {} spoiltText = .ok spoilt := by
  cbv

theorem spoilt_spoiltByReplaced : spoilt.SpoiltByReplaced := by
  constructor
  · rfl
  · intro call member
    cases List.mem_singleton.mp member
    exact ⟨⟨"F", [], .number 2 ⟨2, 9⟩, 2⟩, rfl, rfl⟩
  · have unknown : ¬ spoilt.Accepts ⟨.parsed 0, "G", [], ⟨1, 9⟩⟩ := by
      rintro ⟨callee, found, _⟩
      cases found
    exact ⟨_, List.mem_cons_self, unknown⟩

theorem spoilt_source_outcome :
    Program.parse {} spoiltText = .ok spoilt ∧ spoilt.SpoiltByReplaced ∧
      (∃ error, (outcomeOfText {} spoiltText).1 = .ok (.parseFailed error)) ∧
      ∃ source, spoilt.source .standard = .ok source ∧
        ∀ error, (outcomeOfText {} source).1 ≠ .ok (.parseFailed error) := by
  obtain ⟨source, printed, _, refused⟩ := source_outcome 1 4300 (some 250) 320 spoilt_parse
  rcases refused spoilt_spoiltByReplaced with ⟨failed, notFailed⟩
  exact ⟨spoilt_parse, spoilt_spoiltByReplaced, failed, source, printed, notFailed⟩

/-- The text is refused with status 1, and its source form has a value. -/
theorem spoiltText_refused :
    Program.parse {} spoiltText = .ok spoilt ∧
      (outcomeOfText {} spoiltText).1.map Outcome.summary = .ok (1, none) ∧
      ∃ source, spoilt.source .standard = .ok source ∧
        (outcomeOfText {} source).1.map Outcome.summary = .ok (0, some 2) := by
  constructor
  · exact spoilt_parse
  · constructor
    · decide +kernel
    · exact ⟨"DEF F \x7b 2 \x7d ;\nDEF MAIN \x7b F() \x7d ;\n", by decide +kernel,
        by decide +kernel⟩

end Program

end Polycalc

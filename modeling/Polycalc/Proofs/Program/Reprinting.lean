import Polycalc.Proofs.Evaluation.Places
import Polycalc.Proofs.Grammar.Printing
import Polycalc.Proofs.Program.Refusal

/-!
# Reading what was printed

The source form of a program that was read is a text of the definitions in
force, and it is read as a program that differs from the first one in places
only: its definitions are numbered anew, and none replaces another
(`source_parses`).  Replaced definitions and their calls are gone, so what is
read again may be valid where the first program is not.
-/

namespace Polycalc

open Grammar

/-! ## Definitions in force -/

/-- Definitions of a program make a program. -/
theorem Grammar.IsProgram.exists_of_subset {bounds : Bounds} {text : List Char}
    {definitions others : List Definition} (isProgram : IsProgram bounds text definitions)
    (subset : others ⊆ definitions) : ∃ text', IsProgram bounds text' others := by
  rcases isProgram with ⟨texts, _, each⟩
  induction others with
  | nil => exact ⟨[], isProgram_nil bounds⟩
  | cons other others ih =>
      rw [List.cons_subset] at subset
      rcases List.mem_iff_getElem.mp subset.1 with ⟨index, bound, rfl⟩
      rcases ih subset.2 with ⟨rest, isProgram⟩
      exact ⟨_, .cons (each.get (each.length_eq ▸ bound) bound) isProgram⟩

namespace Program

/-- If no definition replaces another, the calls that were read are those of the
bodies. -/
theorem calls_ofDefinitions {definitions : List Definition}
    (distinct : (definitions.map Definition.name).Nodup) :
    (ofDefinitions definitions).calls = (ofDefinitions definitions).bodyCalls := by
  rw [bodyCalls, bodies, entries_ofDefinitions distinct, List.flatMap_map]
  rfl

/-- A program without replaced definitions is valid if it is like one that has an
entry function and whose functions call one another well. -/
theorem Alike.validate_eq_ok_iff {program : Program} {definitions : List Definition}
    (alike : program.Alike (ofDefinitions definitions))
    (distinct : (definitions.map Definition.name).Nodup) (limits : Limits) :
    (ofDefinitions definitions).validate limits = .ok () ↔
      program.contains entryName = true ∧ ∀ call ∈ program.bodyCalls, program.Accepts call := by
  rw [Program.validate_eq_ok_iff (registered_ofDefinitions definitions), alike.contains,
    calls_ofDefinitions distinct]
  apply and_congr_right'
  constructor
  · exact fun accepted => alike.symm.accepts_all accepted
  · exact fun accepted => alike.accepts_all accepted

theorem Alike.validate_eq_ok {program : Program} {definitions : List Definition}
    (alike : program.Alike (ofDefinitions definitions)) (sound : program.Sound)
    (distinct : (definitions.map Definition.name).Nodup) (limits : Limits) :
    (ofDefinitions definitions).validate limits = .ok () := by
  rcases sound.entry with ⟨entry, found, _⟩
  rw [alike.validate_eq_ok_iff distinct]
  exact ⟨Option.isSome_iff_exists.mpr ⟨entry, found⟩, sound.calls⟩

end Program

/-! ## Texts -/

section

variable {settings : Settings} {bounds : Bounds} {text : String} {program : Program}

/-- The definitions in force of a program that was read can be printed and read
again. -/
theorem Program.exists_reprinted (imposes : settings.Imposes bounds)
    (parsed : Program.parse settings text = .ok program) :
    ∃ source definitions, program.source settings.limits = .ok source ∧
      Program.parse settings source = .ok (.ofDefinitions definitions) ∧
      definitions.map Definition.bare = program.functions.entries.map Definition.bare ∧
      definitions.map Definition.line = (List.range' 1 definitions.length).map Nat.cast := by
  obtain ⟨read, final, last, path, atEnd, complete, rfl⟩ := Program.parse_eq_ok_iff.mp parsed
  have inText : last.program.functions.entries ⊆ read := by
    rw [(path.program_eq complete).1]
    exact entries_ofDefinitions_subset read
  obtain ⟨pieces, isProgram⟩ :=
    (path.isProgram imposes atEnd complete .start).exists_of_subset inText
  have shallow : ∀ definition ∈ last.program.functions.entries,
      settings.limits.allowsNesting definition.body.nesting = true :=
    fun definition inForce => path.shallow trivial definition (inText inForce)
  have normal : IsProgram bounds (String.ofList (normalize pieces)).toList
      last.program.functions.entries := by
    rw [String.toList_ofList]
    exact isProgram.normalize
  obtain ⟨definitions, final', last', same, path', atEnd', complete'⟩ :=
    exists_path_of_isProgram imposes normal shallow
  refine ⟨_, definitions, isProgram.source_eq_ok imposes.digits, ?_, same, path'.lines⟩
  exact Program.parse_eq_ok_iff.mpr
    ⟨definitions, final', last', path', atEnd', complete', (path'.program_eq complete').1⟩

end

/-- What is printed of a program that was read is read as a program that is
printed the same.  It has the same functions in the same order, which differ
in places only; they are numbered from 1, and none of them replaces another.
If the first program is valid, so is the second, and whatever limits that stop
neither are set, both have the same value or both are stopped by the guard. -/
theorem source_parses (maxArguments : Int) (digits : Nat) (nesting : Option Nat)
    (liveCalls : Nat) {text : String} {program : Program}
    (parsed : Program.parse ⟨some maxArguments, ⟨some digits, nesting, liveCalls⟩⟩ text =
      .ok program) :
    ∃ source again,
      program.source ⟨some digits, nesting, liveCalls⟩ = .ok source ∧
      Program.parse ⟨some maxArguments, ⟨some digits, nesting, liveCalls⟩⟩ source = .ok again ∧
      again.functions.names = program.functions.names ∧
      again.functions.entries.map Definition.parameters =
        program.functions.entries.map Definition.parameters ∧
      (∀ limits,
        again.functions.entries.map (·.body.shape limits) =
            program.functions.entries.map (·.body.shape limits) ∧
          again.functions.entries.map (·.body.render limits) =
            program.functions.entries.map (·.body.render limits)) ∧
      again.functions.entries.map Definition.line =
        (List.range' 1 program.functions.size).map Nat.cast ∧
      again.redefined = [] ∧
      again.source ⟨some digits, nesting, liveCalls⟩ = .ok source ∧
      (program.validate ⟨some digits, nesting, liveCalls⟩ = .ok () →
        again.validate ⟨some digits, nesting, liveCalls⟩ = .ok () ∧
          ∀ limits limits' : Limits, limits.Ample program.bodyCalls →
            limits'.Ample again.bodyCalls →
              (∃ value, (program.run limits).onNewMachine.1 = .ok value ∧
                  (again.run limits').onNewMachine.1 = .ok value) ∨
                (∃ call quoted, (program.run limits).onNewMachine.1 =
                    .error (.evaluation (.diverges call quoted))) ∧
                  ∃ call quoted, (again.run limits').onNewMachine.1 =
                    .error (.evaluation (.diverges call quoted))) := by
  have imposes : Settings.Imposes ⟨some maxArguments, ⟨some digits, nesting, liveCalls⟩⟩
      ⟨maxArguments.toNat, digits⟩ := ⟨⟨maxArguments, rfl, rfl⟩, rfl⟩
  obtain ⟨source, definitions, printed, reparsed, same, lines⟩ :=
    Program.exists_reprinted imposes parsed
  have distinct : (definitions.map Definition.name).Nodup := by
    rw [Definition.map_name_eq_of_map_bare_eq same]
    exact program.functions.distinct
  have inForce := Program.entries_ofDefinitions distinct
  have alike : program.Alike (.ofDefinitions definitions) := by
    rw [Program.Alike, inForce, same]
  refine ⟨source, _, printed, reparsed, alike.names, alike.map_entries fun _ => rfl, ?_, ?_,
    Program.redefined_ofDefinitions_eq_nil_iff.mpr distinct, (alike.source _).trans printed, ?_⟩
  · intro limits
    constructor
    · exact alike.map_entries fun definition => definition.body.shape_bare limits
    · exact alike.map_entries fun definition => definition.body.render_bare limits
  · have length := congrArg List.length same
    rw [List.length_map, List.length_map] at length
    rw [inForce, lines, length, FunctionTable.size]
  · intro valid
    have sound := Program.sound_of_parseValid (Program.parseValid_eq_ok_iff.mpr ⟨parsed, valid⟩)
    have again := alike.validate_eq_ok sound distinct ⟨some digits, nesting, liveCalls⟩
    have soundAgain :=
      Program.sound_of_parseValid (Program.parseValid_eq_ok_iff.mpr ⟨reparsed, again⟩)
    constructor
    · exact again
    · intro limits limits' ample ample'
      exact sound.run_alike soundAgain alike ample ample'

/-- A program that defines a function twice. -/
def replacedText : String :=
  "DEF MAIN \x7b 01+F(2) \x7d ;\r\nDEF F x \x7b 9 \x7d ;\nDEF F y \x7b y*2 \x7d ;\n"

/-- What the text is read as. -/
def replaced : Program :=
  .ofDefinitions
    [⟨entryName, [], .join .sum (.number 1 ⟨1, 12⟩)
        (.call (.parsed 0) "F" [.number 2 ⟨1, 17⟩] ⟨1, 15⟩), 1⟩,
      ⟨"F", ["x"], .number 9 ⟨2, 11⟩, 2⟩,
      ⟨"F", ["y"], .join .product (.parameter "y" ⟨3, 11⟩) (.number 2 ⟨3, 13⟩), 3⟩]

theorem replaced_reparses :
    Program.parse {} replacedText = .ok replaced ∧ replaced.validate .standard = .ok () ∧
      ∃ source again, replaced.source .standard = .ok source ∧
        Program.parse {} source = .ok again ∧ again.functions.names = ["MAIN", "F"] ∧
        again.functions.entries.map Definition.line = [1, 2] ∧ again.redefined = [] ∧
        again.validate .standard = .ok () := by
  have parsed : Program.parse {} replacedText = .ok replaced := by cbv
  have valid : replaced.validate .standard = .ok () := by cbv
  obtain ⟨source, again, printed, reparsed, names, _, _, lines, single, _, validAgain⟩ :=
    source_parses 1 4300 (some 250) 320 parsed
  exact ⟨parsed, valid, source, again, printed, reparsed, names, lines, single,
    (validAgain valid).1⟩

end Polycalc

import Polycalc.Program.Validation
import Polycalc.Proofs.Evaluation.Guard
import Polycalc.Proofs.Program.Reading
import Mathlib.Data.List.Induction
import Mathlib.Data.List.Flatten
import Mathlib.Data.List.Pairwise
import Mathlib.Data.List.Perm.Subperm

/-!
# Programs that have passed validation

Validation looks at registered calls and at nothing else.  Together with what
reading a text guarantees this gives all that an evaluation relies on
(`Program.sound_of_parseValid`): bodies use declared parameters only, every
call in a body fits the function that it names in the end, the entry function
takes no arguments, and a site tells which call it is and in which definition
it stands.
-/

namespace Polycalc

theorem forM_eq_ok_iff {ε α : Type} {check : α → Except ε Unit} {values : List α} :
    values.forM check = .ok () ↔ ∀ value ∈ values, check value = .ok () := by
  induction values with
  | nil => exact ⟨by simp, fun _ => rfl⟩
  | cons value rest ih =>
      have unfolded : (value :: rest).forM check = (check value >>= fun _ => rest.forM check) :=
        rfl
      rw [unfolded, Except.bind_eq_ok_iff, List.forall_mem_cons, ← ih]
      exact ⟨fun ⟨_, first, others⟩ => ⟨first, others⟩, fun ⟨first, others⟩ =>
        ⟨(), first, others⟩⟩

theorem Definition.mem_insertInto {definition other : Definition} {entries : List Definition}
    (member : other ∈ definition.insertInto entries) : other = definition ∨ other ∈ entries := by
  induction entries with
  | nil => exact Or.inl (List.mem_singleton.mp member)
  | cons entry rest ih =>
      unfold insertInto at member
      split at member
      · rcases List.mem_cons.mp member with itself | later
        · exact Or.inl itself
        · exact Or.inr (List.mem_cons_of_mem _ later)
      · rcases List.mem_cons.mp member with itself | later
        · exact Or.inr (itself ▸ List.mem_cons_self)
        · exact (ih later).imp_right (List.mem_cons_of_mem _)

namespace Program

/-- A call names a function that takes as many arguments as it passes. -/
def Accepts (program : Program) (call : Call) : Prop :=
  ∃ callee, program.find? call.name = some callee ∧ call.arguments.length = callee.arity

/-- What an evaluation of a program relies on. -/
structure Sound (program : Program) : Prop where
  bodies : ∀ definition ∈ program.functions.entries,
    definition.body.ReadIn definition.parameters
  calls : ∀ call ∈ program.bodyCalls, program.Accepts call
  entry : ∃ definition, program.find? entryName = some definition ∧
    definition.parameters = []
  identified : IdentifiedBySite program.bodyCalls
  owned : ∀ first ∈ program.functions.entries, ∀ second ∈ program.functions.entries,
    ∀ call ∈ first.body.calls, call ∈ second.body.calls → first = second

/-! ## Validation -/

variable {settings : Settings} {limits : Limits} {program : Program}

theorem accepts_of_checkCall {call : Call} (checked : program.checkCall limits call = .ok ()) :
    program.Accepts call := by
  unfold checkCall at checked
  split at checked
  · rw [refuseUnknown, Except.bind_eq_ok_iff] at checked
    rcases checked with ⟨_, _, thrown⟩
    cases thrown
  · rename_i target found
    split at checked
    · exact ⟨target, found, ‹_›⟩
    · rw [Except.bind_eq_ok_iff] at checked
      rcases checked with ⟨_, _, thrown⟩
      cases thrown

theorem checkCall_of_accepts {call : Call} (accepts : program.Accepts call) :
    program.checkCall limits call = .ok () := by
  rcases accepts with ⟨callee, found, fits⟩
  rw [checkCall, found]
  exact if_pos fits

theorem of_validate_eq_ok (valid : program.validate limits = .ok ()) :
    program.contains entryName = true ∧ ∀ call ∈ program.calls, program.Accepts call := by
  unfold validate at valid
  split at valid
  · rename_i hasEntry
    constructor
    · exact hasEntry
    · intro call member
      rcases Except.bind_eq_ok_iff.mp valid with ⟨_, checked, _⟩
      exact accepts_of_checkCall (forM_eq_ok_iff.mp checked call member)
  · cases valid

/-- Nothing but calls of functions that take as many arguments is registered. -/
theorem validate_eq_ok (hasEntry : program.contains entryName = true)
    (accepted : ∀ call ∈ program.calls, program.Accepts call)
    (nothing : program.registered = []) : program.validate limits = .ok () := by
  have checked : program.calls.forM (program.checkCall limits) = .ok () :=
    forM_eq_ok_iff.mpr fun call member => checkCall_of_accepts (accepted call member)
  rw [validate, if_pos hasEntry, checked, nothing]
  rfl

theorem validate_eq_ok_iff (nothing : program.registered = []) :
    program.validate limits = .ok () ↔
      program.contains entryName = true ∧ ∀ call ∈ program.calls, program.Accepts call :=
  ⟨of_validate_eq_ok, fun valid => validate_eq_ok valid.1 valid.2 nothing⟩

theorem parseValid_eq_ok_iff {text : String} :
    parseValid settings text = .ok program ↔
      Program.parse settings text = .ok program ∧
        program.validate settings.limits = .ok () := by
  rw [parseValid, Except.bind_eq_ok_iff]
  constructor
  · rintro ⟨parsed, reading, rest⟩
    rcases Except.bind_eq_ok_iff.mp rest with ⟨_, valid, same⟩
    cases same
    exact ⟨reading, valid⟩
  · rintro ⟨reading, valid⟩
    exact ⟨program, reading, Except.bind_eq_ok_iff.mpr ⟨(), valid, rfl⟩⟩

/-! ## The definitions in force -/

/-- The definitions in force are among those of the text. -/
theorem entries_ofDefinitions_subset (definitions : List Definition) :
    (ofDefinitions definitions).functions.entries ⊆ definitions := by
  induction definitions using List.reverseRecOn with
  | nil => exact List.nil_subset _
  | append_singleton definitions definition ih =>
      rw [ofDefinitions_append]
      intro other member
      rcases Definition.mem_insertInto member with rfl | earlier
      · simp
      · exact List.mem_append_left _ (ih earlier)

/-- The calls in force are among those that were read, and none is there more
often. -/
theorem bodyCalls_subperm_calls (definitions : List Definition) :
    (ofDefinitions definitions).bodyCalls.Subperm (ofDefinitions definitions).calls := by
  have once : (ofDefinitions definitions).functions.entries.Nodup :=
    List.Nodup.of_map _ (ofDefinitions definitions).functions.distinct
  rcases once.subperm (entries_ofDefinitions_subset definitions) with ⟨inForce, perm, sublist⟩
  rw [bodyCalls, bodies, List.flatMap_map]
  exact ⟨_, perm.flatMap_right _, sublist.flatMap _⟩

theorem bodyCalls_subset_calls {text : String}
    (parsed : Program.parse settings text = .ok program) :
    program.bodyCalls ⊆ program.calls := by
  rcases exists_definitions parsed with ⟨definitions, rfl, _⟩
  exact (bodyCalls_subperm_calls definitions).subset

theorem mem_entries_of_find? {name : String} {definition : Definition}
    (found : program.find? name = some definition) :
    definition ∈ program.functions.entries ∧ definition.name = name := by
  constructor
  · exact List.mem_of_find?_eq_some found
  · simpa using List.find?_some found

/-- What passes validation is sound. -/
theorem sound_of_parseValid {text : String} (accepted : parseValid settings text = .ok program) :
    program.Sound := by
  rcases parseValid_eq_ok_iff.mp accepted with ⟨parsed, valid⟩
  rcases of_validate_eq_ok valid with ⟨hasEntry, allAccepted⟩
  rcases exists_definitions parsed with ⟨definitions, rfl, numbered, read⟩
  have inText := entries_ofDefinitions_subset definitions
  have bodyCalls := bodyCalls_subset_calls parsed
  constructor
  · exact fun definition inForce => (read definition (inText inForce)).body
  · exact fun call member => allAccepted call (bodyCalls member)
  · rcases Option.isSome_iff_exists.mp hasEntry with ⟨definition, found⟩
    rcases mem_entries_of_find? found with ⟨inForce, named⟩
    exact ⟨definition, found, (read definition (inText inForce)).entry named⟩
  · intro first firstIn second secondIn sameSite
    exact List.inj_on_of_nodup_map numbered.nodup (bodyCalls firstIn) (bodyCalls secondIn) sameSite
  · have distinct : (definitions.flatMap fun definition => definition.body.calls).Nodup :=
      List.Nodup.of_map _ numbered.nodup
    rcases List.nodup_flatMap.mp distinct with ⟨_, apart⟩
    intro first firstIn second secondIn call inFirst inSecond
    by_contra different
    have symmetric : Std.Symm
        (Function.onFun List.Disjoint fun definition : Definition => definition.body.calls) :=
      ⟨fun _ _ disjoint => disjoint.symm⟩
    have disjoint := apart.forall (inText firstIn) (inText secondIn) different
    exact disjoint inFirst inSecond

end Program

end Polycalc

import Polycalc.Proofs.Program.Reading
import Mathlib.Data.List.Induction

/-!
# Performing definitions

What a program is after definitions have been performed in turn: the table has
the names in the order in which they were first defined, a name means what was
defined last, and the definitions of a name that had one were noted, in their
order.
-/

namespace Polycalc

/-- Those of several definitions whose name is among the earlier ones or
belongs to a definition before them. -/
def Definition.repetitions (earlier : List String) : List Definition → List Definition
  | [] => []
  | definition :: rest =>
    (if definition.name ∈ earlier then [definition] else [])
      ++ repetitions (definition.name :: earlier) rest

namespace Definition

theorem repetitions_append (earlier : List String) (definitions others : List Definition) :
    repetitions earlier (definitions ++ others) =
      repetitions earlier definitions ++
        repetitions ((definitions.map name).reverse ++ earlier) others := by
  induction definitions generalizing earlier with
  | nil => rfl
  | cons definition rest ih =>
      rw [List.cons_append, repetitions, repetitions, ih, List.append_assoc, List.map_cons,
        List.reverse_cons, List.append_assoc, List.singleton_append]

theorem repetitions_eq_nil_iff {earlier : List String} {definitions : List Definition} :
    repetitions earlier definitions = [] ↔
      (definitions.map name).Nodup ∧ ∀ other ∈ definitions.map name, other ∉ earlier := by
  induction definitions generalizing earlier with
  | nil => simp [repetitions]
  | cons definition rest ih =>
      rw [repetitions, List.append_eq_nil_iff, ih, List.map_cons, List.nodup_cons,
        List.forall_mem_cons]
      constructor
      · rintro ⟨noted, distinct, apart⟩
        refine ⟨⟨fun again => apart _ again List.mem_cons_self, distinct⟩, ?_,
          fun other member known => apart other member (List.mem_cons_of_mem _ known)⟩
        intro known
        rw [if_pos known] at noted
        cases noted
      · rintro ⟨⟨fresh, distinct⟩, unknown, others⟩
        refine ⟨if_neg unknown, distinct, fun other member known => ?_⟩
        rcases List.mem_cons.mp known with rfl | earlierKnown
        · exact fresh member
        · exact others other member earlierKnown

/-- A definition of a new name goes to the end of the table. -/
theorem insertInto_of_fresh {definition : Definition} {entries : List Definition}
    (fresh : definition.name ∉ entries.map name) :
    definition.insertInto entries = entries ++ [definition] := by
  induction entries with
  | nil => rfl
  | cons entry rest ih =>
      rw [List.map_cons, List.mem_cons, not_or] at fresh
      rw [insertInto, if_neg (Ne.symm fresh.1), ih fresh.2, List.cons_append]

end Definition

theorem eraseDups_append_singleton (names : List String) (name : String) :
    (names ++ [name]).eraseDups =
      if name ∈ names then names.eraseDups else names.eraseDups ++ [name] := by
  rw [List.eraseDups_append]
  by_cases known : name ∈ names <;> simp [known, List.removeAll, List.eraseDups_cons]

theorem FunctionTable.contains_iff (table : FunctionTable) (name : String) :
    table.contains name = true ↔ name ∈ table.names := by
  rw [contains, find?, List.find?_isSome, names, List.mem_map]
  simp

namespace Program

theorem functions_ofDefinitions_append (definitions : List Definition)
    (definition : Definition) :
    (ofDefinitions (definitions ++ [definition])).functions =
      (ofDefinitions definitions).functions.insert definition := by
  rw [ofDefinitions_append]
  rfl

/-- The names are in the order of their first definitions. -/
theorem names_ofDefinitions (definitions : List Definition) :
    (ofDefinitions definitions).functions.names =
      (definitions.map Definition.name).eraseDups := by
  induction definitions using List.reverseRecOn with
  | nil => rfl
  | append_singleton definitions definition ih =>
      rw [functions_ofDefinitions_append, FunctionTable.names_insert, ih, List.map_append,
        List.map_singleton, eraseDups_append_singleton]
      simp only [List.mem_eraseDups]

theorem size_ofDefinitions (definitions : List Definition) :
    (ofDefinitions definitions).functions.size =
      (definitions.map Definition.name).eraseDups.length := by
  rw [← names_ofDefinitions, FunctionTable.names, List.length_map, FunctionTable.size]

theorem contains_ofDefinitions_iff (definitions : List Definition) (name : String) :
    (ofDefinitions definitions).functions.contains name = true ↔
      name ∈ definitions.map Definition.name := by
  rw [FunctionTable.contains_iff, names_ofDefinitions, List.mem_eraseDups]

/-- A name means what was defined last. -/
theorem find?_ofDefinitions (definitions : List Definition) (name : String) :
    (ofDefinitions definitions).find? name = definitions.reverse.find? (·.name = name) := by
  induction definitions using List.reverseRecOn with
  | nil => rfl
  | append_singleton definitions definition ih =>
      rw [find?, functions_ofDefinitions_append, FunctionTable.find?_insert, List.reverse_append,
        List.reverse_singleton, List.singleton_append, List.find?_cons, ← ih]
      by_cases same : definition.name = name
      · simp [same]
      · simp [same, find?]

/-- The definitions of a name that had one were noted. -/
theorem redefined_ofDefinitions (definitions : List Definition) :
    (ofDefinitions definitions).redefined = Definition.repetitions [] definitions := by
  induction definitions using List.reverseRecOn with
  | nil => rfl
  | append_singleton definitions definition ih =>
      have noted : (ofDefinitions (definitions ++ [definition])).redefined =
          if (ofDefinitions definitions).functions.contains definition.name then
            (ofDefinitions definitions).redefined ++ [definition]
          else (ofDefinitions definitions).redefined := by
        rw [ofDefinitions_append]
        rfl
      rw [noted, Definition.repetitions_append, ih]
      by_cases known : definition.name ∈ definitions.map Definition.name
      · rw [if_pos ((contains_ofDefinitions_iff _ _).mpr known)]
        simp_all [Definition.repetitions]
      · rw [if_neg (mt (contains_ofDefinitions_iff _ _).mp known)]
        simp_all [Definition.repetitions]

/-- Every definition is the first one of its name, or it was noted. -/
theorem size_add_length_redefined_ofDefinitions (definitions : List Definition) :
    (ofDefinitions definitions).functions.size + (ofDefinitions definitions).redefined.length =
      definitions.length := by
  induction definitions using List.reverseRecOn with
  | nil => rfl
  | append_singleton definitions definition ih =>
      rw [size_ofDefinitions, redefined_ofDefinitions] at ih ⊢
      rw [List.map_append, List.map_singleton, eraseDups_append_singleton,
        Definition.repetitions_append, List.length_append, List.length_append]
      simp only [Definition.repetitions, List.append_nil, List.mem_reverse]
      by_cases known : definition.name ∈ definitions.map Definition.name
      · rw [if_pos known, if_pos known]
        simp only [List.length_singleton]
        omega
      · rw [if_neg known, if_neg known, List.length_append]
        simp only [List.length_singleton, List.length_nil]
        omega

/-- Nothing was noted exactly if no name was defined twice. -/
theorem redefined_ofDefinitions_eq_nil_iff {definitions : List Definition} :
    (ofDefinitions definitions).redefined = [] ↔
      (definitions.map Definition.name).Nodup := by
  rw [redefined_ofDefinitions, Definition.repetitions_eq_nil_iff]
  simp

/-- Definitions of different names are the table that they make. -/
theorem entries_ofDefinitions {definitions : List Definition}
    (distinct : (definitions.map Definition.name).Nodup) :
    (ofDefinitions definitions).functions.entries = definitions := by
  induction definitions using List.reverseRecOn with
  | nil => rfl
  | append_singleton definitions definition ih =>
      rw [List.map_append, List.map_singleton, ← List.concat_eq_append,
        List.nodup_concat] at distinct
      rw [functions_ofDefinitions_append]
      change definition.insertInto _ = _
      rw [ih distinct.2, Definition.insertInto_of_fresh distinct.1]

end Program

end Polycalc

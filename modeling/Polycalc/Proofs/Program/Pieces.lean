import Polycalc.Program.Printer
import Polycalc.Proofs.Expr.Places
import Polycalc.Proofs.Program.Concatenation

/-!
# Texts in pieces

Texts that are accepted one by one are accepted in a row, and the program of all
of them can be told from the programs of the pieces: it has the names that they
define, in the order of the first definitions, and a name means what it means in
the last piece that defines it, up to places (`Program.exists_parse_join`).
-/

namespace Polycalc

/-! ## Places -/

/-- An expression further down differs in its places only. -/
theorem Expr.bare_moved (move : Move) : ∀ expr : Expr, (expr.moved move).bare = expr.bare
  | .number _ _ => rfl
  | .parameter _ _ => rfl
  | .call site name arguments position => by
      have each : (arguments.map (moved move)).map bare = arguments.map bare := by
        rw [List.map_map]
        exact List.map_congr_left fun argument _ => bare_moved move argument
      rw [moved_call, bare_call, bare_call, each]
  | .binary operator left right position => by
      rw [moved, bare_binary, bare_binary, bare_moved move left, bare_moved move right]
  | .foreign _ _ => rfl

namespace Definition

theorem bare_moved (move : Move) (definition : Definition) :
    (definition.moved move).bare = definition.bare := by
  simp only [bare, moved, Expr.bare_moved]

/-- The short form of a definition does not depend on its places. -/
theorem render_bare (limits : Limits) (definition : Definition) :
    definition.bare.render limits = definition.render limits := by
  rw [render, bare, Expr.render_bare]
  rfl

end Definition

/-! ## Definitions -/

/-- The definitions of accepted texts in a row are those of the texts, up to
places. -/
theorem exists_defines_join {settings : Settings} {texts : List String}
    {parts : List (List Definition)} (each : List.Forall₂ (Defines settings) texts parts) :
    ∃ definitions, Defines settings (String.join texts) definitions ∧
      definitions.map Definition.bare = parts.flatten.map Definition.bare := by
  induction each with
  | nil => exact ⟨[], ⟨_, _, .refl, rfl, rfl⟩, rfl⟩
  | @cons text part texts parts first _ ih =>
      rcases ih with ⟨others, defines, same⟩
      refine ⟨part ++ others.map (.moved (Defines.move part)), ?_, ?_⟩
      · rw [String.join_cons]
        exact (first.append defines).1
      · have unmoved : Definition.bare ∘ .moved (Defines.move part) = Definition.bare :=
          funext (Definition.bare_moved _)
        rw [List.map_append, List.map_map, unmoved, same, List.flatten_cons, List.map_append]

/-! ## Names -/

/-- What comes behind several names does not see what was repeated among them. -/
theorem eraseDups_append_congr {names names' : List String}
    (same : names.eraseDups = names'.eraseDups) (others : List String) :
    (names ++ others).eraseDups = (names' ++ others).eraseDups := by
  have seen : ∀ names : List String, others.removeAll names.eraseDups = others.removeAll names := by
    intro names
    simp [List.removeAll]
  rw [List.eraseDups_append, List.eraseDups_append, ← seen names, same, seen names']

theorem eraseDups_append_eraseDups (earlier names : List String) :
    (earlier ++ names.eraseDups).eraseDups = (earlier ++ names).eraseDups := by
  induction names using List.reverseRecOn with
  | nil => rfl
  | append_singleton names name ih =>
      rw [eraseDups_append_singleton, ← List.append_assoc, eraseDups_append_singleton, ← ih]
      by_cases known : name ∈ names
      · rw [if_pos known, if_pos (List.mem_append_right earlier known)]
      · rw [if_neg known, ← List.append_assoc, eraseDups_append_singleton]
        simp only [List.mem_append, List.mem_eraseDups]

/-- The names of several lists may be collected list by list. -/
theorem eraseDups_flatMap_eraseDups {α : Type} (parts : List α) (names : α → List String) :
    (parts.flatMap fun part => (names part).eraseDups).eraseDups =
      (parts.flatMap names).eraseDups := by
  induction parts using List.reverseRecOn with
  | nil => rfl
  | append_singleton parts part ih =>
      rw [List.flatMap_append, List.flatMap_append, List.flatMap_singleton,
        List.flatMap_singleton, eraseDups_append_eraseDups]
      exact eraseDups_append_congr ih (names part)

namespace Program

/-- The names that programs define, in the order of their first definitions. -/
def definedNames (programs : List Program) : List String :=
  (programs.flatMap fun program => program.functions.names).eraseDups

/-- What a name means in the last of several programs that defines it. -/
def lastDefinition? (programs : List Program) (name : String) : Option Definition :=
  programs.reverse.findSome? (·.find? name)

theorem definedNames_map_ofDefinitions (parts : List (List Definition)) :
    definedNames (parts.map ofDefinitions) = (parts.flatten.map Definition.name).eraseDups := by
  rw [definedNames, List.flatMap_map, List.map_flatten, ← List.flatMap_def]
  simp only [names_ofDefinitions]
  exact eraseDups_flatMap_eraseDups parts (List.map Definition.name)

theorem lastDefinition?_map_ofDefinitions (parts : List (List Definition)) (name : String) :
    lastDefinition? (parts.map ofDefinitions) name =
      parts.flatten.reverse.find? (·.name = name) := by
  rw [lastDefinition?, ← List.map_reverse, List.findSome?_map, List.reverse_flatten,
    List.find?_flatten, ← List.map_reverse, List.findSome?_map]
  congr 1
  funext part
  exact find?_ofDefinitions part name

theorem contains_iff (program : Program) (name : String) :
    program.contains name = true ↔ name ∈ program.functions.names :=
  program.functions.contains_iff name

/-- The definitions in force are found by their names. -/
theorem find?_of_mem {program : Program} {definition : Definition}
    (inForce : definition ∈ program.functions.entries) :
    program.find? definition.name = some definition := by
  have defined : (program.find? definition.name).isSome = true :=
    List.find?_isSome.mpr ⟨definition, inForce, by simp⟩
  rcases Option.isSome_iff_exists.mp defined with ⟨found, isFound⟩
  have sameName : found.name = definition.name := by simpa using List.find?_some isFound
  have same := List.inj_on_of_nodup_map program.functions.distinct
    (List.mem_of_find?_eq_some isFound) inForce sameName
  rwa [same] at isFound

/-- Texts that are accepted one by one are accepted in a row.  The names are then
those that they define, in the order of the first definitions, and a name means
what it means in the last text that defines it, up to places. -/
theorem exists_parse_join {settings : Settings} {texts : List String} {programs : List Program}
    (each : List.Forall₂ (fun text program => Program.parse settings text = .ok program)
      texts programs) :
    ∃ program, Program.parse settings (String.join texts) = .ok program ∧
      program.functions.names = definedNames programs ∧
      ∀ name, (program.find? name).map Definition.bare =
        (lastDefinition? programs name).map Definition.bare := by
  obtain ⟨parts, defines, rfl⟩ : ∃ parts, List.Forall₂ (Defines settings) texts parts ∧
      programs = parts.map ofDefinitions := by
    induction each with
    | nil => exact ⟨[], .nil, rfl⟩
    | cons first _ ih =>
        rcases exists_defines first with ⟨part, defines, rfl⟩
        rcases ih with ⟨parts, others, rfl⟩
        exact ⟨part :: parts, .cons defines others, rfl⟩
  rcases exists_defines_join defines with ⟨definitions, whole, same⟩
  refine ⟨.ofDefinitions definitions, whole.parse_eq_ok, ?_, ?_⟩
  · have blind : ∀ definitions : List Definition,
        (definitions.map Definition.bare).map Definition.name =
          definitions.map Definition.name := by
      intro definitions
      rw [List.map_map]
      rfl
    rw [names_ofDefinitions, definedNames_map_ofDefinitions, ← blind definitions, same, blind]
  · intro name
    have blind : ∀ definitions : List Definition,
        (definitions.reverse.find? (·.name = name)).map Definition.bare =
          (definitions.map Definition.bare).reverse.find? (·.name = name) := by
      intro definitions
      rw [← List.map_reverse, List.find?_map]
      rfl
    rw [find?_ofDefinitions, lastDefinition?_map_ofDefinitions, blind, blind, same]

end Program

end Polycalc

import Polycalc.Proofs.CommandLine.Agreement
import Polycalc.Proofs.Diagnostic.Underlined
import Polycalc.Proofs.Program.Numbering

/-!
# Warnings of replaced definitions

When a file is run, what is printed first are warnings: one for each definition whose
name is defined on an earlier line, in the order of the lines.  A warning has the number
of the definition in the place of a line number.  It is right to do so, since in a text
that is read every definition takes up the line with its number, and so the name and
nothing else is underlined (`CommandLine.definitions_numbered`).
-/

namespace Polycalc

open Text Grammar

/-- The definition is on the line of the text that has its number, with these characters
behind its name, and a warning that it replaces another one shows this line with the name
marked. -/
structure Definition.MarkedIn (text : String) (rest : List Char) (definition : Definition) :
    Prop where
  onLine : ∃ above : Nat, definition.line = (above + 1 : Nat) ∧
    (lines text)[above]? =
      some (String.ofList ("DEF ".toList ++ definition.name.toList ++ ' ' :: rest))
  position : (Diagnostic.redefined definition).position = some ⟨definition.line, 5⟩
  warned : ∀ (console : Console) (path : String),
    (console.registerSource path text).warn (.redefined definition) =
      ((console.registerSource path text).warningLine (.redefined definition) ++
          Console.marked console.painted true "DEF ".toList definition.name.toList (' ' :: rest) ++
          "\n",
        none)

/-- A warning marks the name of the definition. -/
theorem Defines.exists_markedIn {settings : Settings} {text : String}
    {definitions : List Definition} (defines : Defines settings text definitions)
    {definition : Definition} (member : definition ∈ definitions) :
    ∃ rest, definition.MarkedIn text rest := by
  obtain ⟨named, above, rest, number, line⟩ := defines.exists_line member
  have some : 0 < definition.name.toList.length := List.length_pos_of_ne_nil named.1.1
  have width : Diagnostic.widthOf definition.name = definition.name.toList.length := by
    rw [Diagnostic.widthOf, ← String.length_toList]
    exact Nat.max_eq_left some
  refine ⟨rest, ⟨above, number, line⟩, rfl, fun console path => ?_⟩
  have found : (console.registerSource path text).sourceLine (.redefined definition) = _ :=
    Console.sourceLine_registerSource _ rfl number console path text
  rw [line] at found
  have shown : (console.registerSource path text).excerpt (.redefined definition) true = _ :=
    Console.excerpt_eq_marked found rfl (width ▸ some) (Nat.le_of_eq width) true
  have whole := Nat.le_of_eq width.symm
  rw [List.take_of_length_le whole, List.drop_of_length_le whole, List.nil_append] at shown
  rw [Console.warn, shown, Console.printWith, ← String.append_assoc]
  rfl

namespace CommandLine

/-- The running number of a definition is that of its line.  In a text that is read the
definitions are on different lines, and the line with the number of a definition is where
the definition is: it begins with the word that begins a definition and the name, and all
tokens of the definition are on it.

So the warnings of replaced definitions are in the right place.  Whatever else is asked
for on the command line, running a file begins with one warning for each definition whose
name is defined on an earlier line, in the order of the lines, and it marks this name and
nothing else of the line. -/
theorem definitions_numbered {settings : Settings} {text : String} {program : Program}
    (parsed : Program.parse settings text = .ok program) :
    ∃ definitions groups position,
      Defines settings text definitions ∧ program = .ofDefinitions definitions ∧
      program.functions.entries ⊆ definitions ∧
      program.redefined = definitions.filter (Definition.NamedAbove definitions ·) ∧
      (definitions.Pairwise fun first second => first.line < second.line) ∧
      tokenize text = .ok (groups.flatten ++ [⟨.endOfInput, position⟩]) ∧
      List.Forall₂ Definition.ReadFrom definitions groups ∧
      (∀ definition ∈ definitions, ∃ rest, definition.MarkedIn text rest) ∧
      ∃ texts,
        program.functions.entries.mapM (Definition.render settings.limits) = .ok texts ∧
        ∀ limits painted files typed words options path,
          Options.parse limits words = .ok options → options.settings limits = settings →
          options.file = some path → load files path = .ok text →
          let console := (options.console painted).registerSource path text
          run painted files typed words limits =
            Activity.close ⟨console,
              String.join (program.redefined.map fun definition =>
                  (console.warn (.redefined definition)).1) ++
                (if options.lists then String.join (texts.map (· ++ "\n")) else "") ++
                (evaluate settings.limits console program).1,
              (evaluate settings.limits console program).2⟩ := by
  obtain ⟨definitions, defines, rfl⟩ := exists_defines parsed
  obtain ⟨groups, position, tokens, areRead⟩ := defines.exists_groups
  obtain ⟨texts, written⟩ := exists_renders parsed
  refine ⟨definitions, groups, position, defines, rfl,
    Program.entries_ofDefinitions_subset definitions, defines.redefined_eq_filter,
    defines.pairwise_line, tokens, areRead, fun _ member => defines.exists_markedIn member,
    texts, written, ?_⟩
  intro limits painted files typed words options path understood same named loaded console
  have ran : runText settings console options.lists text = _ :=
    runText_eq options.lists parsed written
  rw [run, understood]
  simp only [Options.run, named, runFile, loaded, same]
  rw [ran]

/-- A text with line ends of both kinds, in which a definition is replaced. -/
def replacingText : String :=
  "DEF F \x7b 1 \x7d ;\r\nDEF F \x7b 2 \x7d ;\nDEF MAIN \x7b F() \x7d ;\r\n"

/-- What the text is read as. -/
def replacing : Program :=
  .ofDefinitions
    [⟨"F", [], .number 1 ⟨1, 9⟩, 1⟩, ⟨"F", [], .number 2 ⟨2, 9⟩, 2⟩,
      ⟨entryName, [], .call (.parsed 0) "F" [] ⟨3, 12⟩, 3⟩]

/-- The first thing that is printed is the warning, with the name on the second line
marked. -/
theorem replacingText_numbered :
    Program.parse {} replacingText = .ok replacing ∧
      ∃ later, (run .plain (filesOf replacingText) "" ["F"]).output =
        "F:2:5: warning: 'F' is defined more than once, only the last definition is used\n" ++
          "  DEF F \x7b 2 \x7d ;\n      ^\n" ++ later := by
  have parsed : Program.parse {} replacingText = .ok replacing := by cbv
  have understood : Options.parse .standard ["F"] = .ok { file := some "F" } := rfl
  obtain ⟨_, _, _, _, _, _, _, _, _, _, _, texts, _, runs⟩ := definitions_numbered parsed
  have ran := runs .standard .plain (filesOf replacingText) "" ["F"] _ "F" understood rfl rfl rfl
  have warned : String.join (replacing.redefined.map fun definition =>
      ((Console.registerSource {} "F" replacingText).warn (.redefined definition)).1) =
        "F:2:5: warning: 'F' is defined more than once, only the last definition is used\n" ++
          "  DEF F \x7b 2 \x7d ;\n      ^\n" := by
    cbv
  refine ⟨parsed, ?_⟩
  rw [ran, ← warned]
  simp only [Activity.close, String.append_assoc]
  exact ⟨_, rfl⟩

end CommandLine

end Polycalc

import Polycalc.Proofs.CommandLine.Agreement
import Polycalc.Proofs.Expr.Places
import Polycalc.Shell

/-!
# Reactions of the shell

What becomes of a shell at each line (`Shell.shell_react`): a definition is kept
if the line can be read by itself, and otherwise only the source text that
diagnostics refer to may be another one.  Two shells that differ in that text
alone react in the same way as soon as their definitions can be read
(`Shell.AlikeButSource.react`).
-/

namespace Polycalc

/-! ## Typed lines -/

namespace Command

theorem ofWord?_ne_definition (word argument line : String) :
    ofWord? word argument ≠ some (definition line) := by
  unfold ofWord?
  split <;> simp

/-- The text of a definition is the line without the white space around it. -/
theorem eq_trim_of_ofLine_eq_definition {line text : String}
    (isDefinition : ofLine line = .definition text) :
    text = String.ofList (Text.trim line.toList) := by
  unfold ofLine at isDefinition
  split at isDefinition
  · cases isDefinition
  · cases isDefinition
  · dsimp only at isDefinition
    cases isCommand : ofWord? (String.ofList ((Text.trim line.toList).takeWhile isWordCharacter))
        (String.ofList (Text.trim ((Text.trim line.toList).dropWhile isWordCharacter))) with
    | none =>
        rw [isCommand] at isDefinition
        exact (Command.definition.inj isDefinition).symm
    | some command =>
        rw [isCommand] at isDefinition
        cases isDefinition
        exact absurd isCommand (ofWord?_ne_definition _ _ _)

end Command

namespace Text

theorem isBlank_of_isReturn {c : Char} (isReturn : isReturn c = true) : isBlank c = true := by
  simp only [Text.isReturn, Bool.or_eq_true, beq_iff_eq] at isReturn
  rcases isReturn with rfl | rfl <;> rfl

/-- What is dropped from a text is not there to be dropped again. -/
theorem dropWhile_dropWhile {wide narrow : Char → Bool}
    (within : ∀ c, narrow c = true → wide c = true) (text : List Char) :
    (text.dropWhile wide).dropWhile narrow = text.dropWhile wide := by
  induction text with
  | nil => rfl
  | cons c rest ih =>
      by_cases dropped : wide c = true
      · rw [List.dropWhile_cons_of_pos dropped, ih]
      · rw [List.dropWhile_cons_of_neg dropped,
          List.dropWhile_cons_of_neg (mt (within c) dropped)]

theorem trimEndWhile_isReturn_trim (text : List Char) :
    trimEndWhile isReturn (trim text) = trim text := by
  rw [trimEndWhile, trim, trimWhile, List.reverse_reverse,
    dropWhile_dropWhile fun _ => isBlank_of_isReturn]

end Text

namespace Shell

/-- A typed definition ends in no line end, so one is added to it. -/
theorem endLine_of_ofLine_eq_definition {line text : String}
    (isDefinition : Command.ofLine line = .definition text) : endLine text = text ++ "\n" := by
  rw [Command.eq_trim_of_ofLine_eq_definition isDefinition, endLine, String.toList_ofList,
    Text.trimEndWhile_isReturn_trim]

/-- The text that is kept of a line: the whole line, ended by a line end, if it is
a definition and can be read by itself. -/
def acceptedText? (settings : Settings) (line : String) : Option String :=
  match Command.ofLine line with
  | .definition text =>
    match Program.parse settings (text ++ "\n") with
    | .ok _ => some (text ++ "\n")
    | .error _ => none
  | _ => none

theorem acceptedText?_eq_some_iff {settings : Settings} {line text : String} :
    acceptedText? settings line = some text ↔
      ∃ typed program, Command.ofLine line = .definition typed ∧ text = typed ++ "\n" ∧
        Program.parse settings text = .ok program := by
  unfold acceptedText?
  split
  · rename_i typed isDefinition
    split
    · rename_i program parsed
      rw [Option.some.injEq]
      constructor
      · rintro rfl
        exact ⟨typed, program, isDefinition, rfl, parsed⟩
      · rintro ⟨typed', _, same, rfl, _⟩
        rw [isDefinition, Command.definition.injEq] at same
        rw [same]
    · rename_i failure refused
      simp only [reduceCtorEq, false_iff]
      rintro ⟨typed', program, same, rfl, parsed⟩
      rw [isDefinition, Command.definition.injEq] at same
      subst same
      rw [refused] at parsed
      cases parsed
  · rename_i noDefinition
    simp only [reduceCtorEq, false_iff]
    rintro ⟨typed, _, isDefinition, _⟩
    exact noDefinition typed isDefinition

/-! ## Steps -/

/-- The same shell with another source text to refer to. -/
def referringTo (shell : Shell) (text : String) : Shell :=
  { shell with console := shell.console.registerSource sourceName text }

/-- What becomes of a shell: only a definition and a reset change what is kept,
and only a definition and a run change the text that is referred to. -/
theorem shell_react (shell : Shell) (line : String) :
    (shell.react line).shell =
      match Command.ofLine line with
      | .definition text =>
        { shell.referringTo (text ++ "\n") with
          accepted := shell.accepted ++ (acceptedText? shell.settings line).toList }
      | .run => shell.referringTo shell.text
      | .reset => { shell with accepted := [] }
      | _ => shell := by
  cases command : Command.ofLine line with
  | definition text =>
      rw [react, command, perform, define, endLine_of_ofLine_eq_definition command]
      cases parsed : Program.parse shell.settings (text ++ "\n") with
      | ok program =>
          have accepted : acceptedText? shell.settings line = some (text ++ "\n") := by
            rw [acceptedText?, command]
            simp only [parsed]
          rw [accepted]
          rfl
      | error failure =>
          have refused : acceptedText? shell.settings line = none := by
            rw [acceptedText?, command]
            simp only [parsed]
          rw [refused]
          simp [guarded, referringTo]
  | run =>
      rw [react, command, perform, run]
      dsimp only
      split
      · rfl
      · split <;> rfl
      · split <;> rfl
  | list =>
      rw [react, command, perform, list]
      split <;> rfl
  | tree name =>
      rw [react, command, perform, tree]
      split
      · rfl
      · split
        · rfl
        · split <;> rfl
  | _ =>
      rw [react, command]
      rfl

/-! ## Definitions that can be read -/

variable {shell other : Shell} {program : Program}

/-- Nothing is reported. -/
theorem guarded_none (shell : Shell) (output : String) :
    shell.guarded output none = shell.continueWith output := by
  simp only [guarded, Console.close, String.append_empty, continueWith]

/-- Definitions that can be read are listed. -/
theorem exists_list (parsed : Program.parse shell.settings shell.text = .ok program) :
    ∃ texts,
      program.functions.entries.mapM (Definition.render shell.settings.limits) = .ok texts ∧
        shell.list = shell.continueWith (String.join (texts.map (· ++ "\n"))) := by
  rcases CommandLine.exists_renders parsed with ⟨texts, written⟩
  refine ⟨texts, written, ?_⟩
  simp only [list, parsed, CommandLine.listing_eq written, guarded_none]

/-- The tree of a function that is defined can be shown. -/
theorem exists_tree (parsed : Program.parse shell.settings shell.text = .ok program)
    {name : String} {definition : Definition} (found : program.find? name = some definition) :
    ∃ drawn, definition.body.shape shell.settings.limits = .ok drawn ∧
      shell.tree name = shell.continueWith (drawn ++ "\n") := by
  have inForce := (Program.mem_entries_of_find? found).1
  rcases Program.bodies_writable parsed _ (List.mem_map_of_mem inForce) with ⟨genuine, writable⟩
  rcases genuine.exists_shape writable with ⟨drawn, shown⟩
  refine ⟨drawn, shown, ?_⟩
  simp only [tree, parsed, found, shown, guarded_none]

/-- There is no tree of a name that is not defined. -/
theorem tree_of_find?_eq_none (parsed : Program.parse shell.settings shell.text = .ok program)
    (lenient : shell.console.fatal = false) {name : String}
    (missing : program.find? name = none) :
    shell.tree name = shell.continueWith (shell.console.errorLine (.notDefined name)) := by
  have nothing : shell.console.excerpt (.notDefined name) false = .ok "" := rfl
  simp only [tree, parsed, missing, guarded, Console.close, Console.throw, nothing,
    Console.printWith, Console.exitIfFatal, lenient, String.append_empty, String.empty_append]
  rfl

/-! ## Source texts that are referred to -/

/-- The two shells differ at most in the source text that diagnostics refer to. -/
def AlikeButSource (shell other : Shell) : Prop :=
  ∀ text, other.referringTo text = shell.referringTo text

/-- A definition is referred to before anything is said about it. -/
theorem define_referringTo (shell : Shell) (text line : String) :
    (shell.referringTo text).define line = shell.define line :=
  rfl

/-- What is kept is referred to before it is run. -/
theorem run_referringTo (shell : Shell) (text : String) :
    (shell.referringTo text).run = shell.run :=
  rfl

namespace AlikeButSource

theorem referringTo (shell : Shell) (text : String) :
    shell.AlikeButSource (shell.referringTo text) :=
  fun _ => rfl

theorem settings (alike : shell.AlikeButSource other) : other.settings = shell.settings := by
  have same := congrArg Shell.settings (alike "")
  exact same

theorem accepted (alike : shell.AlikeButSource other) : other.accepted = shell.accepted := by
  have same := congrArg Shell.accepted (alike "")
  exact same

theorem text (alike : shell.AlikeButSource other) : other.text = shell.text :=
  congrArg String.join alike.accepted

/-- Keeping the same in place of what was kept makes no difference. -/
theorem keeping (alike : shell.AlikeButSource other) (accepted : List String) :
    AlikeButSource { shell with accepted } { other with accepted } :=
  fun text => congrArg (fun shell : Shell => { shell with accepted }) (alike text)

/-- Shells that are alike stay alike. -/
theorem shell_react (alike : shell.AlikeButSource other) (line : String) :
    (shell.react line).shell.AlikeButSource (other.react line).shell := by
  rw [Shell.shell_react, Shell.shell_react]
  split
  · rw [alike, alike.settings, alike.accepted]
    exact fun _ => rfl
  · rw [alike.text, alike]
    exact fun _ => rfl
  · exact alike.keeping []
  · exact alike

/-- Shells that are alike and whose definitions can be read react in the same way,
unless the tree of a name is asked for that is not defined. -/
theorem react (alike : shell.AlikeButSource other)
    (parsed : Program.parse shell.settings shell.text = .ok program) {line : String}
    (defined : ∀ name, Command.ofLine line = .tree name → program.contains name = true) :
    (other.react line).output = (shell.react line).output ∧
      (other.react line).ending = (shell.react line).ending := by
  have otherParsed : Program.parse other.settings other.text = .ok program := by
    rw [alike.settings, alike.text, parsed]
  cases command : Command.ofLine line with
  | definition text =>
      have same : other.define text = shell.define text := by
        rw [← define_referringTo other "", alike, define_referringTo]
      rw [Shell.react, Shell.react, command, perform, perform, same]
      exact ⟨rfl, rfl⟩
  | run =>
      have same : other.run = shell.run := by
        rw [← run_referringTo other "", alike, run_referringTo]
      rw [Shell.react, Shell.react, command, perform, perform, same]
      exact ⟨rfl, rfl⟩
  | list =>
      rcases exists_list parsed with ⟨texts, written, listed⟩
      rcases exists_list otherParsed with ⟨texts', written', listed'⟩
      rw [alike.settings, written, Except.ok.injEq] at written'
      subst written'
      rw [Shell.react, Shell.react, command, perform, perform, listed, listed']
      exact ⟨rfl, rfl⟩
  | tree name =>
      rcases Option.isSome_iff_exists.mp (defined name command) with ⟨definition, found⟩
      rcases exists_tree parsed found with ⟨drawn, shown, printed⟩
      rcases exists_tree otherParsed found with ⟨drawn', shown', printed'⟩
      rw [alike.settings, shown, Except.ok.injEq] at shown'
      subst shown'
      rw [Shell.react, Shell.react, command, perform, perform, printed, printed']
      exact ⟨rfl, rfl⟩
  | _ =>
      rw [Shell.react, Shell.react, command]
      exact ⟨rfl, rfl⟩

end AlikeButSource

end Shell

end Polycalc

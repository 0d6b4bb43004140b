import Polycalc.Proofs.Program.Pieces
import Polycalc.Proofs.Shell.Reactions
import Mathlib.Data.List.DropRight

/-!
# Sessions

A line is checked by itself, whereas every command reads all definitions that are
kept.  Whatever has been typed, the shell keeps the texts that were accepted since
the last reset, these texts can be read in a row, and what is listed, drawn and run
is what they define together; a line that was refused leaves no trace in that
(`Shell.session_follows_accepted`).
-/

namespace Polycalc.Shell

/-! ## What is typed -/

/-- A shell after some lines were typed into it. -/
def after (shell : Shell) (typed : List String) : Shell :=
  typed.foldl (fun shell line => (shell.react line).shell) shell

/-- A shell into which nothing but these lines has been typed. -/
def session (settings : Settings) (console : Console) (typed : List String) : Shell :=
  (start settings console).after typed

/-- The lines that were typed since the last reset. -/
def sinceReset (typed : List String) : List String :=
  typed.rtakeWhile fun line => Command.ofLine line ≠ .reset

/-- The texts that were accepted since the last reset, in their order. -/
def acceptedTexts (settings : Settings) (typed : List String) : List String :=
  (sinceReset typed).filterMap (acceptedText? settings)

/-- A name was defined by a line that was accepted since the last reset. -/
def Introduced (settings : Settings) (typed : List String) (name : String) : Prop :=
  ∃ text ∈ acceptedTexts settings typed,
    ∃ program, Program.parse settings text = .ok program ∧ program.contains name = true

variable {settings : Settings} {console : Console}

theorem session_append (settings : Settings) (console : Console) (typed later : List String) :
    session settings console (typed ++ later) = (session settings console typed).after later :=
  List.foldl_append

theorem session_append_singleton (settings : Settings) (console : Console) (typed : List String)
    (line : String) :
    session settings console (typed ++ [line]) =
      ((session settings console typed).react line).shell :=
  session_append settings console typed [line]

/-- A reset forgets all texts, and another line adds the text that is accepted of
it. -/
theorem acceptedTexts_append_singleton (settings : Settings) (typed : List String)
    (line : String) :
    acceptedTexts settings (typed ++ [line]) =
      if Command.ofLine line = .reset then []
      else acceptedTexts settings typed ++ (acceptedText? settings line).toList := by
  by_cases reset : Command.ofLine line = .reset
  · rw [acceptedTexts, sinceReset, List.rtakeWhile_concat_neg, if_pos reset, List.filterMap_nil]
    simp [reset]
  · have one : [line].filterMap (acceptedText? settings) =
        (acceptedText? settings line).toList := by
      cases kept : acceptedText? settings line with
      | none => rw [List.filterMap_cons_none kept, List.filterMap_nil, Option.toList_none]
      | some text => rw [List.filterMap_cons_some kept, List.filterMap_nil, Option.toList_some]
    rw [acceptedTexts, sinceReset, List.rtakeWhile_concat_pos, if_neg reset,
      List.filterMap_append, one]
    · rfl
    · simp [reset]

/-! ## What is kept -/

/-- What is kept, and what no line changes: the settings, and that errors do not end
the shell. -/
structure Keeps (settings : Settings) (typed : List String) (shell : Shell) : Prop where
  accepted : shell.accepted = acceptedTexts settings typed
  lenient : shell.console.fatal = false
  settings : shell.settings = settings

theorem Keeps.react {typed : List String} {shell : Shell} (keeps : Keeps settings typed shell)
    (line : String) : Keeps settings (typed ++ [line]) (shell.react line).shell := by
  rcases keeps with ⟨accepted, lenient, rfl⟩
  have still := acceptedTexts_append_singleton shell.settings typed line
  rw [← accepted] at still
  have ordinary : (∀ text, Command.ofLine line ≠ .definition text) →
      acceptedText? shell.settings line = none := by
    intro noDefinition
    cases kept : acceptedText? shell.settings line with
    | none => rfl
    | some text =>
        rcases acceptedText?_eq_some_iff.mp kept with ⟨typed, _, isDefinition, _⟩
        exact absurd isDefinition (noDefinition typed)
  rw [shell_react]
  cases command : Command.ofLine line with
  | definition text =>
      rw [command, if_neg (by simp)] at still
      exact ⟨still.symm, lenient, rfl⟩
  | reset =>
      rw [command, if_pos rfl] at still
      exact ⟨still.symm, lenient, rfl⟩
  | _ =>
      rw [command, if_neg (by simp), ordinary (by simp [command]), Option.toList_none,
        List.append_nil] at still
      exact ⟨still.symm, lenient, rfl⟩

theorem session_keeps (settings : Settings) (console : Console) (typed : List String) :
    Keeps settings typed (session settings console typed) := by
  induction typed using List.reverseRecOn with
  | nil => exact ⟨rfl, rfl, rfl⟩
  | append_singleton typed line ih =>
      rw [session_append_singleton]
      exact ih.react line

/-- Every text that is kept is a program by itself. -/
theorem exists_programs (settings : Settings) (typed : List String) :
    ∃ programs, List.Forall₂ (fun text program => Program.parse settings text = .ok program)
      (acceptedTexts settings typed) programs := by
  have each : ∀ texts : List String,
      (∀ text ∈ texts, ∃ program, Program.parse settings text = .ok program) →
        ∃ programs, List.Forall₂ (fun text program => Program.parse settings text = .ok program)
          texts programs := by
    intro texts parsed
    rcases exists_mapM_eq_ok parsed with ⟨programs, mapped⟩
    exact ⟨programs, mapM_eq_ok_iff.mp mapped⟩
  apply each
  intro text member
  rcases List.mem_filterMap.mp member with ⟨line, _, accepted⟩
  rcases acceptedText?_eq_some_iff.mp accepted with ⟨_, program, _, _, parsed⟩
  exact ⟨program, parsed⟩

/-- The texts that are kept can be read in a row. -/
theorem exists_parse_session (settings : Settings) (console : Console) (typed : List String)
    {programs : List Program}
    (each : List.Forall₂ (fun text program => Program.parse settings text = .ok program)
      (acceptedTexts settings typed) programs) :
    ∃ program, Program.parse settings (session settings console typed).text = .ok program ∧
      program.functions.names = Program.definedNames programs ∧
      ∀ name, (program.find? name).map Definition.bare =
        (Program.lastDefinition? programs name).map Definition.bare := by
  rw [text, (session_keeps settings console typed).accepted]
  exact Program.exists_parse_join each

theorem introduced_iff {typed : List String} {programs : List Program}
    (each : List.Forall₂ (fun text program => Program.parse settings text = .ok program)
      (acceptedTexts settings typed) programs) (name : String) :
    Introduced settings typed name ↔ name ∈ Program.definedNames programs := by
  rw [Introduced, Program.definedNames, List.mem_eraseDups, List.mem_flatMap]
  simp only [← Program.contains_iff]
  generalize acceptedTexts settings typed = texts at each ⊢
  induction each with
  | nil => simp
  | @cons text program _ _ parsed _ ih => simp [ih, parsed]

/-! ## What is shown -/

/-- The last definitions of all names, in their short form, in the order in which
the names were first defined. -/
def Listed (limits : Limits) (programs : List Program) (texts : List String) : Prop :=
  List.Forall₂
    (fun name text => ∃ definition, Program.lastDefinition? programs name = some definition ∧
      definition.render limits = .ok text)
    (Program.definedNames programs) texts

/-- What a definition in force shows is what the last definition of its name shows. -/
theorem exists_lastDefinition? {programs : List Program} {name : String}
    {definition : Definition} {found : Option Definition} (isFound : found = some definition)
    (same : found.map Definition.bare =
      (Program.lastDefinition? programs name).map Definition.bare) :
    ∃ last, Program.lastDefinition? programs name = some last ∧ last.bare = definition.bare := by
  rw [isFound, Option.map_some, Eq.comm, Option.map_eq_some_iff] at same
  exact same

theorem listed_of_render {limits : Limits} {program : Program} {programs : List Program}
    {texts : List String}
    (names : program.functions.names = Program.definedNames programs)
    (meaning : ∀ name, (program.find? name).map Definition.bare =
      (Program.lastDefinition? programs name).map Definition.bare)
    (written : program.functions.entries.mapM (Definition.render limits) = .ok texts) :
    Listed limits programs texts := by
  rw [Listed, ← names, FunctionTable.names, List.forall₂_map_left_iff]
  have inForce := (List.forall₂_and_left program.functions.entries texts).mpr
    ⟨fun _ member => member, mapM_eq_ok_iff.mp written⟩
  apply inForce.imp
  rintro definition text ⟨member, rendered⟩
  rcases exists_lastDefinition? (Program.find?_of_mem member) (meaning _) with
    ⟨last, isLast, same⟩
  refine ⟨last, isLast, ?_⟩
  rw [← Definition.render_bare, same, Definition.render_bare, rendered]

/-! ## What is refused -/

/-- The line is a definition that cannot be read by itself. -/
def Refused (settings : Settings) (line : String) : Prop :=
  ∃ text failure, Command.ofLine line = .definition text ∧
    Program.parse settings (text ++ "\n") = .error failure

/-- A refused line may change what diagnostics refer to, and nothing else. -/
theorem Refused.alikeButSource {shell : Shell} {line : String}
    (refused : Refused shell.settings line) :
    shell.AlikeButSource (shell.react line).shell := by
  rcases refused with ⟨text, failure, isDefinition, failed⟩
  have nothing : acceptedText? shell.settings line = none := by
    rw [acceptedText?, isDefinition]
    simp only [failed]
  rw [shell_react, isDefinition]
  simp only [nothing, Option.toList_none, List.append_nil]
  exact .referringTo shell (text ++ "\n")

theorem AlikeButSource.after {shell other : Shell} (alike : shell.AlikeButSource other)
    (typed : List String) : (shell.after typed).AlikeButSource (other.after typed) := by
  induction typed generalizing shell other with
  | nil => exact alike
  | cons line rest ih => exact ih (alike.shell_react line)

/-- Whatever follows a refused line follows it as if the line had not been typed. -/
theorem Refused.session_alike {line : String} (refused : Refused settings line)
    (console : Console) (typed later : List String) :
    (session settings console (typed ++ later)).AlikeButSource
      (session settings console (typed ++ line :: later)) := by
  have keeps := session_keeps settings console typed
  rw [← keeps.settings] at refused
  rw [session_append, session_append]
  exact refused.alikeButSource.after later

/-- Whatever has been typed, the shell keeps the texts that were accepted since the
last reset, each of them ended by a line end, and they can be read in a row.  A list
shows the last definition of every name, in the order in which the names were first
defined; a tree shows the body of the last definition if the name was introduced,
and otherwise there is none.  A refused line changes nothing that is kept, and the
shell then reacts to everything as it does without that line, except that the report
of a missing tree may name the source text. -/
theorem session_follows_accepted (settings : Settings) (console : Console)
    (typed : List String) :
    let shell := session settings console typed
    shell.accepted = acceptedTexts settings typed ∧
    (∃ program, Program.parse settings shell.text = .ok program) ∧
    (∃ programs texts,
      List.Forall₂ (fun text program => Program.parse settings text = .ok program)
        (acceptedTexts settings typed) programs ∧
      Listed settings.limits programs texts ∧
      (∀ line, Command.ofLine line = .list →
        shell.react line = shell.continueWith (String.join (texts.map (· ++ "\n")))) ∧
      ∀ line name, Command.ofLine line = .tree name →
        (Introduced settings typed name ∧
          ∃ definition drawn, Program.lastDefinition? programs name = some definition ∧
            definition.body.shape settings.limits = .ok drawn ∧
            shell.react line = shell.continueWith (drawn ++ "\n")) ∨
        (¬ Introduced settings typed name ∧
          shell.react line = shell.continueWith (shell.console.errorLine (.notDefined name)))) ∧
    ∀ line, Refused settings line →
      (shell.react line).shell.accepted = shell.accepted ∧
      ∀ later last,
        (∀ name, Command.ofLine last = .tree name → Introduced settings (typed ++ later) name) →
        let without := (session settings console (typed ++ later)).react last
        let reaction := (session settings console (typed ++ line :: later)).react last
        reaction.output = without.output ∧ reaction.ending = without.ending := by
  intro shell
  have keeps : Keeps settings typed shell := session_keeps settings console typed
  rcases exists_programs settings typed with ⟨programs, each⟩
  rcases exists_parse_session settings console typed each with
    ⟨program, parsed, names, meaning⟩
  have readable : Program.parse shell.settings shell.text = .ok program := by
    rw [keeps.settings, parsed]
  refine ⟨keeps.accepted, ⟨program, parsed⟩, ?_, ?_⟩
  · rcases exists_list readable with ⟨texts, written, listed⟩
    rw [keeps.settings] at written
    refine ⟨programs, texts, each, listed_of_render names meaning written, ?_, ?_⟩
    · intro line isList
      rw [react, isList, perform, listed]
    · intro line name isTree
      have defined := Program.contains_iff program name
      rw [introduced_iff each, ← names, ← defined, react, isTree, perform]
      cases found : program.find? name with
      | none =>
          have missing : ¬ program.contains name = true := by
            intro isDefined
            rcases Option.isSome_iff_exists.mp isDefined with ⟨definition, isFound⟩
            cases found.symm.trans isFound
          exact Or.inr ⟨missing, tree_of_find?_eq_none readable keeps.lenient found⟩
      | some definition =>
          rcases exists_tree readable found with ⟨drawn, shown, printed⟩
          rcases exists_lastDefinition? found (meaning name) with ⟨last, isLast, same⟩
          have sameBody : last.body.bare = definition.body.bare := congrArg Definition.body same
          rw [keeps.settings, ← Expr.shape_bare, ← sameBody, Expr.shape_bare] at shown
          have isDefined := Option.isSome_iff_exists.mpr ⟨definition, found⟩
          exact Or.inl ⟨isDefined, last, drawn, isLast, shown, printed⟩
  · intro line refused
    constructor
    · have inForce : Refused shell.settings line := by rwa [keeps.settings]
      exact inForce.alikeButSource.accepted
    · intro later last introduced
      rcases exists_programs settings (typed ++ later) with ⟨programs, each⟩
      rcases exists_parse_session settings console (typed ++ later) each with
        ⟨program, parsed, names, _⟩
      have keeps' := session_keeps settings console (typed ++ later)
      have readable : Program.parse (session settings console (typed ++ later)).settings
          (session settings console (typed ++ later)).text = .ok program := by
        rw [keeps'.settings, parsed]
      apply (refused.session_alike console typed later).react readable
      intro name isTree
      rw [Program.contains_iff, names]
      exact (introduced_iff each name).mp (introduced name isTree)

end Polycalc.Shell

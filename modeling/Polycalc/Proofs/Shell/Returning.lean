import Polycalc.Proofs.Shell.Session

/-!
# Back at the prompt

A bad line is not to end the shell.  After every line that does not ask for the end
the shell waits for the next one, whatever has been typed, with one exception: the
limit on numerals is met as a fault, which is reported and then handed on
(`Shell.returns_unless_too_long`).  A definition meets it through a number of its own,
or through the bound on arguments where an error quotes it, and a run through a value
that it has to write.
-/

namespace Polycalc.Shell

variable {shell : Shell}

/-! ## Reports -/

/-- An error of the text that is referred to is reported, and that is all. -/
theorem throw_referringTo (lenient : shell.console.fatal = false) {text : String}
    {diagnostic : Diagnostic} (grounded : diagnostic.Grounded text) (status : Int) :
    ((shell.referringTo text).console.throw diagnostic status).2 = none := by
  have exits := shell.console.throw_of_grounded sourceName grounded status
  rw [Console.exitIfFatal, lenient] at exits
  exact exits

/-- A fault is reported and handed on. -/
theorem guarded_ofFault (lenient : shell.console.fatal = false) (fault : Fault) :
    (shell.guarded "" (some (.ofFault fault))).ending = .error (.ofFault fault) := by
  have nothing : ∀ kind message,
      shell.console.excerpt (.unknownError kind message) false = .ok "" :=
    fun _ _ => rfl
  simp only [guarded, Interruption.ofFault, Console.close, Console.throw, nothing,
    Console.printWith, Console.exitIfFatal, lenient]
  rfl

/-! ## Definitions and runs -/

/-- A definition that is neither read nor refused ends in that fault. -/
theorem define_of_fault (lenient : shell.console.fatal = false) {line : String} {fault : Fault}
    (failed : Program.parse shell.settings (endLine line) = .error (.fault fault)) :
    (shell.define line).ending = .error (.ofFault fault) := by
  have ended : (shell.define line).ending =
      ((shell.referringTo (endLine line)).guarded "" (some (.ofFault fault))).ending := by
    simp only [define, failed, referringTo, Interruption.ofFailure]
  rw [ended]
  exact guarded_ofFault lenient fault

/-- A definition that is refused is reported, and that is all. -/
theorem define_of_grounded (lenient : shell.console.fatal = false) {line : String}
    {failure : Failure} (failed : Program.parse shell.settings (endLine line) = .error failure)
    {diagnostic : Diagnostic} (reported : Interruption.ofFailure failure = .reported diagnostic)
    (grounded : diagnostic.Grounded (endLine line)) :
    (shell.define line).ending = .ok false := by
  have ended : (shell.define line).ending =
      ((shell.referringTo (endLine line)).guarded "" (some (.reported diagnostic))).ending := by
    simp only [define, failed, referringTo, reported]
  rw [ended]
  simp only [guarded, Console.close, throw_referringTo lenient grounded]

/-- Only a number that is too long can keep a definition from being accepted or refused,
or the bound on arguments where an error would quote it. -/
theorem define_ending (lenient : shell.console.fatal = false) {allowed : Int} {limits : Limits}
    (given : shell.settings = ⟨some allowed, limits⟩) (line : String) :
    (shell.define line).ending = .ok false ∨
      ∃ fault, ((∃ token ∈ (Cursor.start (endLine line)).scanAll.tokens,
            token.checkDigits limits = .error fault) ∨
          limits.write allowed = .error fault ∧
            ∃ callee found, Program.parse ⟨some allowed, limits.unlimited⟩ (endLine line) =
              .error (.parse (.tooManyArguments callee allowed found))) ∧
        (shell.define line).ending = .error (.ofFault fault) := by
  cases parsed : Program.parse shell.settings (endLine line) with
  | ok program =>
      left
      simp only [define, parsed, continueWith]
  | error failure =>
      have grounded := (Program.failsFrom_of_parse parsed).grounded
      cases failure with
      | source error => exact Or.inl (define_of_grounded lenient parsed rfl grounded)
      | evaluation error => exact Or.inl (define_of_grounded lenient parsed rfl grounded)
      | fault fault =>
          have ended := define_of_fault lenient parsed
          rw [given] at parsed
          exact Or.inr ⟨fault, Program.of_parse_eq_fault parsed, ended⟩

/-- A run ends in a fault only if the outcome is one or is a value that cannot be
written. -/
theorem run_ending (lenient : shell.console.fatal = false) :
    shell.run.ending = .ok false ∨
      ∃ fault, ((Program.outcomeOfText shell.settings shell.text).1 = .error fault ∨
          ∃ value, (Program.outcomeOfText shell.settings shell.text).1 = .ok (.evaluated value) ∧
            shell.settings.limits.write value = .error fault) ∧
        shell.run.ending = .error (.ofFault fault) := by
  have grounded := @Program.grounded_of_outcomeOfText shell.settings shell.text
  rcases ran : Program.outcomeOfText shell.settings shell.text with ⟨result, steps⟩
  rw [ran] at grounded
  -- the text that is run does not depend on the one that is referred to
  have ranJoined : Program.outcomeOfText shell.settings (String.join shell.accepted) =
      (result, steps) := ran
  cases result with
  | error fault =>
      right
      refine ⟨fault, Or.inl rfl, ?_⟩
      simp only [run, text, ranJoined]
  | ok outcome =>
      have reported : ∀ diagnostic, outcome.diagnostic? = some diagnostic →
          ((shell.referringTo shell.text).console.throw diagnostic outcome.status).2 = none :=
        fun diagnostic said => throw_referringTo lenient (grounded rfl said) outcome.status
      cases outcome with
      | evaluated value =>
          cases written : shell.settings.limits.write value with
          | ok shown =>
              left
              simp only [run, text, ranJoined, written, continueWith]
          | error fault =>
              right
              refine ⟨fault, Or.inr ⟨value, rfl, written⟩, ?_⟩
              simp only [run, text, ranJoined, written]
      | _ =>
          left
          have silent := reported _ rfl
          simp only [referringTo, text] at silent
          simp only [run, text, ranJoined, Outcome.diagnostic?, silent]

/-- A run of definitions that can be read meets the limit on numerals only if the
evaluation shows a value that is too long, or the value of the program is. -/
theorem of_run_fault {allowed : Int} {limits : Limits} {text : String} {program : Program}
    {fault : Fault} (parsed : Program.parse ⟨some allowed, limits⟩ text = .ok program)
    (failed : (Program.outcomeOfText ⟨some allowed, limits⟩ text).1 = .error fault ∨
      ∃ value, (Program.outcomeOfText ⟨some allowed, limits⟩ text).1 = .ok (.evaluated value) ∧
        limits.write value = .error fault) :
    ∃ digits, limits.digits = some digits ∧ fault = .valueTooLong digits ∧
      (ShortSteps digits (Program.outcomeOfText ⟨some allowed, limits.unlimited⟩ text).2 →
        ∃ value,
          (Program.outcomeOfText ⟨some allowed, limits.unlimited⟩ text).1 =
            .ok (.evaluated value) ∧
          10 ^ digits ≤ value.natAbs) := by
  rcases failed with failed | ⟨value, ended, failed⟩
  · rcases Program.of_outcomeOfText_eq_error parsed failed with ⟨digits, limited, named, long⟩
    exact ⟨digits, limited, named, fun short => absurd short long⟩
  · rcases Limits.of_write_eq_error failed with ⟨digits, limited, long, named⟩
    refine ⟨digits, limited, named, fun short => ⟨value, ?_, long⟩⟩
    have same := Program.outcomeOfText_unlimited limited
      (parsed.trans (Program.parse_unlimited_of_eq_ok parsed).symm) short
    rw [← same, ended]

/-! ## Sessions -/

/-- Whatever has been typed, a line that does not ask for the end leads back to the
prompt, except for the limit on numerals: the fault that names it ends the shell after
a definition with a number that has more digits, after one that is refused for an
argument too many if the number of those that a call may have has more digits, and after
a run whose evaluation shows such a value or ends with one. -/
theorem returns_unless_too_long (allowed : Int) (limits : Limits) (console : Console)
    (typed : List String) (line : String) :
    let shell := session ⟨some allowed, limits⟩ console typed
    Command.ofLine line = .exit ∨ Command.ofLine line = .endOfInput ∨
    (shell.react line).ending = .ok false ∨
    ∃ digits, limits.digits = some digits ∧
      ((∃ text token numeral, Command.ofLine line = .definition text ∧
          token ∈ (Cursor.start (text ++ "\n")).scanAll.tokens ∧
          token.lexeme = .number numeral ∧ digits < numeral.length ∧
          (shell.react line).ending =
            .error (.ofFault (.numeralTooLong digits numeral.length))) ∨
        (∃ text callee found, Command.ofLine line = .definition text ∧
          Program.parse ⟨some allowed, limits.unlimited⟩ (text ++ "\n") =
            .error (.parse (.tooManyArguments callee allowed found)) ∧
          10 ^ digits ≤ allowed.natAbs ∧
          (shell.react line).ending = .error (.ofFault (.valueTooLong digits))) ∨
        (Command.ofLine line = .run ∧
          (shell.react line).ending = .error (.ofFault (.valueTooLong digits)) ∧
          (ShortSteps digits
              (Program.outcomeOfText ⟨some allowed, limits.unlimited⟩ shell.text).2 →
            ∃ value,
              (Program.outcomeOfText ⟨some allowed, limits.unlimited⟩ shell.text).1 =
                .ok (.evaluated value) ∧
              10 ^ digits ≤ value.natAbs))) := by
  intro shell
  have keeps : Keeps ⟨some allowed, limits⟩ typed shell := session_keeps _ console typed
  rcases exists_programs ⟨some allowed, limits⟩ typed with ⟨programs, each⟩
  rcases exists_parse_session _ console typed each with ⟨program, parsed, _⟩
  have readable : Program.parse shell.settings shell.text = .ok program := by
    rw [keeps.settings, parsed]
  cases command : Command.ofLine line with
  | exit => exact Or.inl rfl
  | endOfInput => exact Or.inr (Or.inl rfl)
  | definition text =>
      have reacts : shell.react line = shell.define text := by rw [react, command, perform]
      have definition := define_ending keeps.lenient keeps.settings text
      rw [endLine_of_ofLine_eq_definition command] at definition
      rcases definition with
        returns | ⟨fault, ⟨token, member, tooLong⟩ | ⟨unwritten, callee, found, refused⟩, ended⟩
      · rw [reacts, returns]
        exact Or.inr (Or.inr (Or.inl rfl))
      · rcases Token.checkDigits_eq_error_iff.mp tooLong with
          ⟨digits, numeral, limited, isNumber, long, rfl⟩
        rw [reacts]
        exact Or.inr (Or.inr (Or.inr ⟨digits, limited,
          Or.inl ⟨text, token, numeral, rfl, member, isNumber, long, ended⟩⟩))
      · rcases Limits.of_write_eq_error unwritten with ⟨digits, limited, long, rfl⟩
        rw [reacts]
        exact Or.inr (Or.inr (Or.inr ⟨digits, limited,
          Or.inr (Or.inl ⟨text, callee, found, rfl, refused, long, ended⟩)⟩))
  | run =>
      have reacts : shell.react line = shell.run := by rw [react, command, perform]
      rcases run_ending keeps.lenient with returns | ⟨fault, failed, ended⟩
      · rw [reacts, returns]
        exact Or.inr (Or.inr (Or.inl rfl))
      · rw [keeps.settings] at failed
        rcases of_run_fault parsed failed with ⟨digits, limited, rfl, long⟩
        rw [reacts]
        exact Or.inr (Or.inr (Or.inr ⟨digits, limited, Or.inr (Or.inr ⟨rfl, ended, long⟩)⟩))
  | list =>
      rcases exists_list readable with ⟨texts, _, listed⟩
      rw [react, command, perform, listed]
      exact Or.inr (Or.inr (Or.inl rfl))
  | tree name =>
      rw [react, command, perform]
      cases found : program.find? name with
      | none =>
          rw [tree_of_find?_eq_none readable keeps.lenient found]
          exact Or.inr (Or.inr (Or.inl rfl))
      | some definition =>
          rcases exists_tree readable found with ⟨drawn, _, printed⟩
          rw [printed]
          exact Or.inr (Or.inr (Or.inl rfl))
  | _ =>
      rw [react, command]
      exact Or.inr (Or.inr (Or.inl rfl))

/-- A line that begins with the word of a definition and ends with a semicolon is a
definition. -/
theorem ofLine_define (middle : String) :
    Command.ofLine ("DEF " ++ middle ++ ";") = .definition ("DEF " ++ middle ++ ";") := by
  have characters : ("DEF " ++ middle ++ ";").toList =
      'D' :: 'E' :: 'F' :: ' ' :: (middle.toList ++ [';']) := by
    simp
  have trimmed : Text.trim ('D' :: 'E' :: 'F' :: ' ' :: (middle.toList ++ [';'])) =
      'D' :: 'E' :: 'F' :: ' ' :: (middle.toList ++ [';']) := by
    have first : Text.isBlank 'D' = false := rfl
    have last : Text.isBlank ';' = false := rfl
    rw [Text.trim, Text.trimWhile, List.dropWhile_cons_of_neg (by simp [first])]
    simp [last]
  have noCommand : ∀ argument, Command.ofWord? (String.ofList
      (List.takeWhile Command.isWordCharacter
        ('D' :: 'E' :: 'F' :: ' ' :: (middle.toList ++ [';'])))) argument = none :=
    fun _ => rfl
  unfold Command.ofLine
  rw [characters, trimmed]
  split
  · rename_i nothing
    cases nothing
  · rename_i help
    cases help
  · dsimp only
    rw [noCommand, Option.getD_none, ← characters, String.ofList_toList]

/-- A definition whose number is too long ends the shell. -/
theorem react_of_long_number {settings : Settings} {numeral : String} {limit : Nat}
    (isRun : Grammar.IsRun Char.isDigit numeral.toList)
    (limited : settings.limits.digits = some limit) (long : limit < numeral.length)
    (console : Console) (typed : List String) :
    Command.ofLine ("DEF MAIN \x7b " ++ numeral ++ " \x7d ;") =
        .definition ("DEF MAIN \x7b " ++ numeral ++ " \x7d ;") ∧
      ((session settings console typed).react ("DEF MAIN \x7b " ++ numeral ++ " \x7d ;")).ending =
        .error (.ofFault (.numeralTooLong limit numeral.length)) := by
  have keeps := session_keeps settings console typed
  have line : "DEF MAIN \x7b " ++ numeral ++ " \x7d ;" =
      "DEF " ++ ("MAIN \x7b " ++ numeral ++ " \x7d ") ++ ";" := by
    apply String.toList_inj.mp
    simp
  have ended : "DEF MAIN \x7b " ++ numeral ++ " \x7d ;" ++ "\n" =
      "DEF MAIN \x7b " ++ numeral ++ " \x7d ;\n" := by
    apply String.toList_inj.mp
    simp
  have isDefinition : Command.ofLine ("DEF MAIN \x7b " ++ numeral ++ " \x7d ;") =
      .definition ("DEF MAIN \x7b " ++ numeral ++ " \x7d ;") := by
    rw [line]
    exact ofLine_define _
  have refused := Program.parse_of_long_number isRun limited long
  rw [← ended, ← endLine_of_ofLine_eq_definition isDefinition] at refused
  refine ⟨isDefinition, ?_⟩
  rw [react, isDefinition, perform, define_of_fault keeps.lenient]
  rw [keeps.settings, refused]

/-- A definition of 4301 digits ends the shell. -/
theorem longNumber_ends_session :
    Command.ofLine ("DEF MAIN \x7b " ++ String.ofList (List.replicate 4301 '1') ++ " \x7d ;") =
        .definition ("DEF MAIN \x7b " ++ String.ofList (List.replicate 4301 '1') ++ " \x7d ;") ∧
      ((session {} {} []).react
          ("DEF MAIN \x7b " ++ String.ofList (List.replicate 4301 '1') ++ " \x7d ;")).ending =
        .error (.ofFault (.numeralTooLong 4300 4301)) := by
  have length : (String.ofList (List.replicate 4301 '1')).length = 4301 := by
    rw [String.length_ofList, List.length_replicate]
  have isRun : Grammar.IsRun Char.isDigit (String.ofList (List.replicate 4301 '1')).toList := by
    rw [String.toList_ofList]
    constructor
    · exact nofun
    · intro c member
      rw [List.eq_of_mem_replicate member]
      rfl
  have standard : Settings.limits {} = Limits.standard := rfl
  have long : 4300 < (String.ofList (List.replicate 4301 '1')).length := by
    rw [length]
    decide
  have ends := react_of_long_number isRun (congrArg Limits.digits standard) long {} []
  rwa [length] at ends

end Polycalc.Shell

import Polycalc.CommandLine.Run
import Polycalc.Proofs.CommandLine.Options
import Polycalc.Proofs.Diagnostic.Excerpt
import Polycalc.Proofs.Program.Numerals
import Polycalc.Proofs.Program.Room

/-!
# The command line and the outcome of a text

The command line reads a text, warns of replaced definitions, lists the definitions
and then validates and evaluates the program; running a text does all this at once.
They agree: the program ends with the status of the outcome, and what it prints last
is the value or the error (`CommandLine.run_agrees`).  On the way the console prints
warnings and errors, and neither can be interrupted by what it has to show.

How much room there is for nested and for live calls need not be the same for both: a
step that is printed takes room as well.  So they agree as long as neither runs out of
it.
-/

namespace Polycalc

/-! ## What the console prints -/

/-- What a console prints for an outcome: the value on a line, or the error. -/
def Outcome.report (console : Console) : Outcome → String
  | evaluated value => toString value ++ "\n"
  | parseFailed error => (console.throw error.diagnostic 1).1
  | diverged call text => (console.throw (divergenceDiagnostic call text) 2).1
  | evaluationFailed error => (console.throw error.diagnostic 3).1

namespace Console

/-- A warning of a replaced definition is printed to its end. -/
theorem warn_redefined (console : Console) (definition : Definition) :
    (console.warn (.redefined definition)).2 = none := by
  have shown : ∃ text, console.excerpt (.redefined definition) true = .ok text := by
    rw [excerpt]
    cases console.sourceLine (.redefined definition) with
    | none => exact ⟨_, rfl⟩
    | some line =>
        have small : ((4 : Nat) : Int) < Int.pow 2 63 := by decide
        have allowed := checkMargin_of_lt small line.length
        have underlined : diagnose console.painted (.redefined definition) line true = .ok _ :=
          diagnose_placed console.painted _ _ rfl _ allowed true
        simp only [underlined]
        split
        · exact ⟨_, rfl⟩
        · exact ⟨_, rfl⟩
  rcases shown with ⟨text, shown⟩
  rw [warn, shown]
  rfl

/-- An error of a text is printed to its end. -/
theorem throw_of_grounded (console : Console) (path : String) {text : String}
    {diagnostic : Diagnostic} (grounded : diagnostic.Grounded text) (status : Int) :
    ((console.registerSource path text).throw diagnostic status).2 =
      console.exitIfFatal status := by
  cases grounded with
  | unplaced category message => rfl
  | placed category message length points =>
      obtain ⟨line, _, _, above, margin, agrees, number, shown, within⟩ := points.exists_line
      have found := sourceLine_registerSource (Diagnostic.placed category message _ length) rfl
        number console path text
      rw [shown] at found
      rw [throw_placed found agrees.col within]
      rfl

/-- What is printed does not depend on whether errors are fatal or steps shown. -/
theorem report_registerSource (painted : Text.Painting) (fatal verbose : Bool)
    (path text : String) (ending : Outcome) :
    ending.report (Console.registerSource { painted, fatal, verbose } path text) =
      ending.report (Console.registerSource { painted } path text) := by
  cases ending <;> rfl

end Console

namespace CommandLine

/-! ## Before the evaluation -/

theorem warnAll_eq (console : Console) (definitions : List Definition) :
    warnAll console definitions =
      (String.join (definitions.map fun definition => (console.warn (.redefined definition)).1),
        none) := by
  induction definitions with
  | nil => rfl
  | cons definition rest ih =>
      have complete := console.warn_redefined definition
      rw [warnAll]
      rcases warned : console.warn (.redefined definition) with ⟨output, interruption⟩
      rw [warned] at complete
      cases complete
      simp only [ih, List.map_cons, warned, String.join_cons]

theorem listing_eq {limits : Limits} {definitions : List Definition} {texts : List String}
    (written : definitions.mapM (Definition.render limits) = .ok texts) :
    Shell.listing limits definitions = (String.join (texts.map (· ++ "\n")), none) := by
  rw [mapM_eq_ok_iff] at written
  induction written with
  | nil => rfl
  | cons first _ ih =>
      rw [Shell.listing, first]
      simp only [ih, List.map_cons, String.join_cons]

/-- The definitions of a program that was read can be listed. -/
theorem exists_renders {settings : Settings} {text : String} {program : Program}
    (parsed : Program.parse settings text = .ok program) :
    ∃ texts, program.functions.entries.mapM (Definition.render settings.limits) = .ok texts := by
  cases written : program.functions.entries.mapM (Definition.render settings.limits) with
  | ok texts => exact ⟨texts, rfl⟩
  | error fault =>
      rcases exists_of_mapM_eq_error written with ⟨definition, inForce, failed⟩
      rcases Program.bodies_writable parsed _ (List.mem_map_of_mem inForce) with
        ⟨genuine, writable⟩
      rcases genuine.exists_render writable with ⟨body, rendered⟩
      rw [Definition.render, rendered] at failed
      cases failed

/-! ## The evaluation -/

/-- Errors of an outcome are printed to their end. -/
def Console.Completes (console : Console) (ending : Outcome) : Prop :=
  ∀ diagnostic, ending.diagnostic? = some diagnostic → ∀ status,
    (console.throw diagnostic status).2 = some (.exit status)

/-- The program is evaluated and the outcome is reported. -/
theorem evaluate_eq {limits : Limits} {console : Console} {program : Program} {ending : Outcome}
    {steps : Array Step} (completes : Console.Completes console ending)
    (ended : program.outcome limits = (.ok ending, steps))
    (writable : ∀ value, ending = .evaluated value → limits.write value = .ok (toString value)) :
    evaluate limits console program =
      (console.trace steps ++ ending.report console,
        if ending.status = 0 then .ok 0 else .error (.exit ending.status)) := by
  unfold evaluate
  rw [ended]
  cases ending with
  | evaluated value =>
      simp only [writable value rfl, Outcome.report, String.append_assoc]
      rfl
  | parseFailed error =>
      have complete := completes _ rfl 1
      simp only [Outcome.diagnostic?, Outcome.status, complete]
      rfl
  | diverged call text =>
      have complete := completes _ rfl 2
      simp only [Outcome.diagnostic?, Outcome.status, complete]
      rfl
  | evaluationFailed error =>
      have complete := completes _ rfl 3
      simp only [Outcome.diagnostic?, Outcome.status, complete]
      rfl

/-- A step on a line of its own: an arrow and its text. -/
def stepLine (painted : Text.Painting) (step : Step) : String :=
  painted.paint .bold (some .cyan) ("  " ++ step.symbol ++ " ") ++
    painted.paint .dark none step.text ++ "\n"

/-- Steps are shown only if that is asked for, and then each is on a line of its own. -/
theorem trace_eq (console : Console) (steps : Array Step) :
    console.trace steps =
      if console.verbose then String.join (steps.toList.map (stepLine console.painted))
      else "" := by
  rcases console with ⟨painted, fatal, verbose, path, lines⟩
  cases verbose with
  | true => rfl
  | false =>
      have nothing : ∀ texts : List Step, String.join (texts.map fun _ => "") = "" := by
        intro texts
        induction texts with
        | nil => rfl
        | cons _ rest ih => rw [List.map_cons, String.join_cons, ih, String.append_empty]
      exact nothing steps.toList

/-! ## Texts and files -/

/-- What is printed between reading a program and reporting the outcome: the warnings
of replaced definitions, the definitions and the steps. -/
def preliminaries (console : Console) (lists : Bool) (program : Program) (texts : List String)
    (steps : Array Step) : String :=
  String.join (program.redefined.map fun definition => (console.warn (.redefined definition)).1) ++
    (if lists then String.join (texts.map (· ++ "\n")) else "") ++ console.trace steps

/-- Only the steps depend on whether steps are shown. -/
theorem preliminaries_registerSource (painted : Text.Painting) (verbose : Bool)
    (path text : String) (lists : Bool) (program : Program) (texts : List String)
    (steps : Array Step) :
    preliminaries (Console.registerSource { painted, verbose } path text) lists program texts
        steps =
      String.join (program.redefined.map fun definition =>
        ((Console.registerSource { painted } path text).warn (.redefined definition)).1) ++
      (if lists then String.join (texts.map (· ++ "\n")) else "") ++
      (if verbose then String.join (steps.toList.map (stepLine painted)) else "") := by
  rw [preliminaries, trace_eq]
  rfl

/-- Of a text that can be read, what replaces a definition is warned of, the definitions
are listed if that is asked for, and then the program is evaluated. -/
theorem runText_eq {settings : Settings} {console : Console} {text : String} {program : Program}
    {texts : List String} (lists : Bool) (parsed : Program.parse settings text = .ok program)
    (written : program.functions.entries.mapM (Definition.render settings.limits) = .ok texts) :
    runText settings console lists text =
      (String.join (program.redefined.map fun definition =>
          (console.warn (.redefined definition)).1) ++
        (if lists then String.join (texts.map (· ++ "\n")) else "") ++
          (evaluate settings.limits console program).1,
        (evaluate settings.limits console program).2) := by
  rw [runText, parsed]
  cases lists with
  | false => simp only [warnAll_eq, Bool.false_eq_true, if_false]
  | true => simp only [warnAll_eq, if_true, listing_eq written]

theorem runText_of_parse {settings : Settings} {console : Console} {text : String}
    {program : Program} {ending : Outcome} {steps : Array Step} {texts : List String}
    (lists : Bool) (parsed : Program.parse settings text = .ok program)
    (written : program.functions.entries.mapM (Definition.render settings.limits) = .ok texts)
    (completes : Console.Completes console ending)
    (ended : program.outcome settings.limits = (.ok ending, steps))
    (writable : ∀ value, ending = .evaluated value →
      settings.limits.write value = .ok (toString value)) :
    runText settings console lists text =
      (preliminaries console lists program texts steps ++ ending.report console,
        if ending.status = 0 then .ok 0 else .error (.exit ending.status)) := by
  rw [runText_eq lists parsed written, evaluate_eq completes ended writable, preliminaries]
  simp only [String.append_assoc]

/-- How the program ends with the status of an outcome. -/
def endingOf (status : Int) : Ending :=
  if status = 0 then .finished 0 else .exited status

/-- A status needs no report. -/
theorem close_of_status (console : Console) (output : String) (status : Int) :
    Activity.close ⟨console, output, if status = 0 then .ok 0 else .error (.exit status)⟩ =
      ⟨output, "", endingOf status⟩ := by
  by_cases zero : status = 0
  · simp only [if_pos zero, endingOf, Activity.close, Console.close, String.append_empty]
  · simp only [if_neg zero, endingOf, Activity.close, Console.close, String.append_empty]

/-- An error of a text that cannot be read is all that is printed. -/
theorem close_of_parseFailed {console : Console} {error : SourceError}
    (completes : Console.Completes console (.parseFailed error)) :
    Activity.close ⟨console, "", .error (.reported error.diagnostic)⟩ =
      ⟨Outcome.report console (.parseFailed error), "", endingOf 1⟩ := by
  have complete := completes _ rfl 1
  rw [Activity.close]
  simp only [Console.close, complete, String.empty_append]
  rfl

/-- A text that cannot be read fails for what is wrong with it. -/
theorem exists_of_parse_eq_error {settings : Settings} {text : String} {failure : Failure}
    {ending : Outcome} {steps : Array Step}
    (refused : Program.parse settings text = .error failure)
    (ended : Program.outcomeOfText settings text = (.ok ending, steps)) :
    ∃ error, failure = .source error ∧ ending = .parseFailed error := by
  rw [Program.outcomeOfText, refused] at ended
  have reported := (Prod.mk.inj ended).1
  cases failure with
  | source error => exact ⟨error, rfl, (Except.ok.inj reported).symm⟩
  | evaluation error => exact absurd rfl ((Program.failsFrom_of_parse refused).ne_evaluation error)
  | fault fault => cases reported

theorem runFile_close {settings : Settings} {console : Console} (fatal : console.fatal = true)
    {files : Files} (lists : Bool) {path text : String} {ending : Outcome} {steps : Array Step}
    (loaded : load files path = .ok text)
    (ended : Program.outcomeOfText settings text = (.ok ending, steps))
    (writable : ∀ value, ending = .evaluated value →
      settings.limits.write value = .ok (toString value)) :
    ∃ before,
      (runFile settings console files lists path).close =
        ⟨before ++ ending.report (console.registerSource path text), "",
          endingOf ending.status⟩ ∧
      (∀ failure, Program.parse settings text = .error failure → before = "") ∧
      ∀ program, Program.parse settings text = .ok program →
        ∃ texts, program.functions.entries.mapM (Definition.render settings.limits) = .ok texts ∧
          before = preliminaries (console.registerSource path text) lists program texts steps := by
  have completes : Console.Completes (console.registerSource path text) ending := by
    intro diagnostic reported status
    have grounded := Program.grounded_of_outcomeOfText (congrArg Prod.fst ended) reported
    rw [console.throw_of_grounded path grounded, Console.exitIfFatal, fatal]
    rfl
  rw [runFile, loaded]
  cases parsed : Program.parse settings text with
  | error failure =>
      rcases exists_of_parse_eq_error parsed ended with ⟨error, rfl, rfl⟩
      refine ⟨"", ?_, fun _ _ => rfl, nofun⟩
      simp only [runText, parsed, Interruption.ofFailure, close_of_parseFailed completes,
        String.empty_append]
      rfl
  | ok program =>
      rcases exists_renders parsed with ⟨texts, written⟩
      have outcome : program.outcome settings.limits = (.ok ending, steps) := by
        rw [Program.outcomeOfText, parsed] at ended
        exact ended
      have ran : runText settings (console.registerSource path text) lists text = _ :=
        runText_of_parse lists parsed written completes outcome writable
      refine ⟨preliminaries (console.registerSource path text) lists program texts steps,
        ?_, ?_, ?_⟩
      · simp only [ran, close_of_status]
      · rintro _ ⟨⟩
      · rintro _ ⟨⟩
        exact ⟨texts, written, rfl⟩

/-- The command line agrees with running a text: whatever outcome the text has with
the greatest number of arguments that is given, the program ends with its status, and
the last thing that it prints is the value, or the error as a console shows it that
refers to the text.  Before that come, if the text can be read, a warning for every
definition that replaced another one, all definitions if that is asked for, and one line
for every step of the evaluation if that is asked for; otherwise nothing does.

The program has limits of its own.  The limit on numerals is the same; the room for
calls may be another if neither the text nor the program runs out of it. -/
theorem run_agrees (painted : Text.Painting) (files : Files) (typed : String) {limits own : Limits}
    {digits : Nat} (limited : own.digits = some digits) (positive : 0 < digits)
    (alike : own.digits = limits.digits) {path text : String} {n : Int} {flags : List String}
    {ending : Outcome} {steps : Array Step}
    (named : Word.ofText path = .ok (.operand path)) (loaded : load files path = .ok text)
    (short : n.natAbs < 10 ^ digits)
    (known : ∀ flag ∈ flags, flag = "--show" ∨ flag = "--trace")
    (ended : Program.outcomeOfText ⟨some n, limits⟩ text = (.ok ending, steps))
    (writable : ∀ value, ending = .evaluated value → value.natAbs < 10 ^ digits)
    (room : own = limits ∨ ¬ ending.OutOfRoom ∧
      ∀ other, (Program.outcomeOfText ⟨some n, own⟩ text).1 = .ok other → ¬ other.OutOfRoom) :
    ∃ before,
      (∀ fatal verbose,
        run painted files typed (path :: "--max-args" :: toString n :: flags) own =
          ⟨before ++
              ending.report (Console.registerSource { painted, fatal, verbose } path text),
            "", if ending.status = 0 then .finished 0 else .exited ending.status⟩) ∧
      (∀ failure, Program.parse ⟨some n, limits⟩ text = .error failure → before = "") ∧
      ∀ program, Program.parse ⟨some n, limits⟩ text = .ok program →
        ∃ texts,
          program.functions.entries.mapM (Definition.render own) = .ok texts ∧
          before =
            String.join (program.redefined.map fun definition =>
              ((Console.registerSource { painted } path text).warn (.redefined definition)).1) ++
            (if "--show" ∈ flags then String.join (texts.map (· ++ "\n")) else "") ++
            (if "--trace" ∈ flags then
              String.join (steps.toList.map fun step =>
                painted.paint .bold (some .cyan) ("  " ++ step.symbol ++ " ") ++
                  painted.paint .dark none step.text ++ "\n")
              else "") := by
  obtain ⟨sameText, sameOutcome⟩ :
      Program.parse ⟨some n, own⟩ text = Program.parse ⟨some n, limits⟩ text ∧
        Program.outcomeOfText ⟨some n, own⟩ text = Program.outcomeOfText ⟨some n, limits⟩ text := by
    rcases room with rfl | ⟨enough, enough'⟩
    · exact ⟨rfl, rfl⟩
    · apply Program.outcomeOfText_eq_of_room alike enough'
      rintro other told
      rw [ended] at told
      cases told
      exact enough
  rw [← sameOutcome] at ended
  have written : ∀ value, ending = .evaluated value → own.write value = .ok (toString value) :=
    fun value evaluated => Limits.write_eq_ok_of_lt limited (writable value evaluated)
  have fatal : Console.fatal { painted, verbose := decide ("--trace" ∈ flags) } = true := rfl
  obtain ⟨before, closed, unread, read⟩ :=
    runFile_close fatal (decide ("--show" ∈ flags)) loaded ended written
  rw [← sameText]
  refine ⟨before, ?_, unread, ?_⟩
  · intro fatal verbose
    rw [run, Options.parse_eq limited positive named n known, if_pos short,
      Console.report_registerSource]
    rw [Console.report_registerSource] at closed
    exact closed
  · intro program parsed
    rcases read program parsed with ⟨texts, rendered, rfl⟩
    refine ⟨texts, rendered, ?_⟩
    rw [preliminaries_registerSource]
    simp only [decide_eq_true_eq]
    rfl

/-- A text of which a definition is replaced and calls itself. -/
def loopText : String :=
  "DEF F \x7b 1 \x7d ;\nDEF F \x7b F() \x7d ;\nDEF MAIN \x7b F() \x7d ;\n"

/-- The call of a function to itself. -/
def loopCall : Call :=
  ⟨.parsed 0, "F", [], ⟨2, 9⟩⟩

/-- A computer on which every file has one text. -/
def filesOf (text : String) : Files :=
  fun _ => some text.toUTF8.data.toList

/-- Two calls are live when the text is found to loop, and there is room for just as many
more in the one run and for none in the other. -/
theorem loopText_agrees :
    ∃ before steps,
      Program.outcomeOfText ⟨some (-3), ⟨some 4300, none, 4⟩⟩ loopText =
          (.ok (.diverged loopCall "F()"), steps) ∧
        run .plain (filesOf loopText) "" ["F", "--max-args", toString (-3 : Int), "--trace", "--show"]
            ⟨some 4300, some 1, 2⟩ =
          ⟨before ++ Outcome.report (Console.registerSource {} "F" loopText)
              (.diverged loopCall "F()"), "", .exited 2⟩ := by
  have limited : Limits.digits ⟨some 4300, some 1, 2⟩ = some 4300 := rfl
  have alike : Limits.digits ⟨some 4300, some 1, 2⟩ = Limits.digits ⟨some 4300, none, 4⟩ := rfl
  have named : Word.ofText "F" = .ok (.operand "F") := rfl
  have loaded : load (filesOf loopText) "F" = .ok loopText := rfl
  have short : (-3 : Int).natAbs < 10 ^ 4300 := by
    decide +kernel
  have known : ∀ flag ∈ ["--trace", "--show"], flag = "--show" ∨ flag = "--trace" := by
    decide
  have diverges : (Program.outcomeOfText ⟨some (-3), ⟨some 4300, none, 4⟩⟩ loopText).1 =
      .ok (.diverged loopCall "F()") := by
    cbv
  have diverges' : (Program.outcomeOfText ⟨some (-3), ⟨some 4300, some 1, 2⟩⟩ loopText).1 =
      .ok (.diverged loopCall "F()") := by
    cbv
  have ended : Program.outcomeOfText ⟨some (-3), ⟨some 4300, none, 4⟩⟩ loopText =
      (.ok (.diverged loopCall "F()"), _) :=
    Prod.ext diverges rfl
  have writable : ∀ value, Outcome.diverged loopCall "F()" = .evaluated value →
      value.natAbs < 10 ^ 4300 := by
    rintro _ ⟨⟩
  have enough : ¬ (Outcome.diverged loopCall "F()").OutOfRoom := by simp [Outcome.OutOfRoom]
  have enough' : ∀ other,
      (Program.outcomeOfText ⟨some (-3), ⟨some 4300, some 1, 2⟩⟩ loopText).1 = .ok other →
        ¬ other.OutOfRoom := by
    intro other told
    cases diverges'.symm.trans told
    exact enough
  obtain ⟨before, ran, _⟩ :=
    run_agrees .plain (filesOf loopText) "" limited (by decide) alike named loaded short known
      ended writable (Or.inr ⟨enough, enough'⟩)
  exact ⟨before, _, ended, ran true false⟩

/-- A greatest number of arguments that has too many digits is refused. -/
theorem run_misuses (painted : Text.Painting) (files : Files) (typed : String) {limits : Limits}
    {digits : Nat} (limited : limits.digits = some digits) (positive : 0 < digits) {path : String}
    {n : Int} {flags : List String} (named : Word.ofText path = .ok (.operand path))
    (long : 10 ^ digits ≤ n.natAbs)
    (known : ∀ flag ∈ flags, flag = "--show" ∨ flag = "--trace") :
    run painted files typed (path :: "--max-args" :: toString n :: flags) limits =
      ⟨"", complaint ("argument --max-args: invalid int value: " ++ Text.quoted (toString n)),
        .exited 2⟩ := by
  have message : Flag.maxArguments.misuse ("invalid int value: " ++ Text.quoted (toString n)) =
      .misuse ("argument --max-args: invalid int value: " ++ Text.quoted (toString n)) := by
    rw [Flag.misuse, ← String.append_assoc]
    rfl
  rw [run, Options.parse_eq limited positive named n known, if_neg (Nat.not_lt.mpr long), message]
  rfl

/-- The program that is one. -/
def oneText : String :=
  "DEF MAIN \x7b 1 \x7d ;\n"

theorem outcomeOfText_oneText (bound : Int) :
    (Program.outcomeOfText { maxArguments := some bound } oneText).1 =
      .ok (.evaluated 1) := by
  cbv

/-- A number with 4301 digits is refused on the command line, although it is a
greatest number of arguments like any other. -/
theorem longNumber_misuses :
    load (filesOf oneText) "F" = .ok oneText ∧
      (Program.outcomeOfText { maxArguments := some (10 ^ 4300) } oneText).1 =
        .ok (.evaluated 1) ∧
      (run .plain (filesOf oneText) "" ["F", "--max-args", toString (10 ^ 4300 : Int)]).output =
        "" ∧
      (run .plain (filesOf oneText) "" ["F", "--max-args", toString (10 ^ 4300 : Int)]).ending =
        .exited 2 := by
  have named : Word.ofText "F" = .ok (.operand "F") := rfl
  have long : ∀ digits, 10 ^ digits ≤ (10 ^ digits : Int).natAbs := by
    intro digits
    exact Nat.le_of_eq (Int.natAbs_pow 10 digits).symm
  have known : ∀ flag ∈ [], flag = "--show" ∨ flag = "--trace" := nofun
  have loaded : load (filesOf oneText) "F" = .ok oneText := rfl
  have limited : Limits.standard.digits = some 4300 := rfl
  rw [run_misuses .plain (filesOf oneText) "" limited (by decide) named (long 4300) known]
  exact ⟨loaded, outcomeOfText_oneText _, rfl, rfl⟩

end CommandLine

end Polycalc

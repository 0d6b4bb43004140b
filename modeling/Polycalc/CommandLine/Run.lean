import Polycalc.CommandLine.Options
import Polycalc.Shell
import Polycalc.Text.Utf8

/-!
# Carrying out a command line

A command line names a file, whose program is run, or none, and then the shell
is started.  What the program prints and how it ends is a function of the
words, the files and the text that is typed.
-/

namespace Polycalc.CommandLine

/-- How the program ends. -/
inductive Ending
  /-- normally, with a status -/
  | finished (status : Int)
  /-- early, with a status -/
  | exited (status : Int)
  /-- through a failure that nobody expected -/
  | failed (kind message : String)
  deriving DecidableEq, Repr

/-- Everything that can be seen of a run. -/
structure Run where
  output : String
  errorOutput : String
  ending : Ending
  deriving Repr

/-- The bytes of a file, by its path; there are none if it cannot be
opened. -/
abbrev Files : Type :=
  String → Option (List UInt8)

/-- What happens within an activity: its console in the end, what it prints,
and its status or what interrupts it. -/
structure Activity where
  console : Console
  output : String
  ending : Except Interruption Int

/-- Report how an activity ended. -/
def Activity.close (activity : Activity) : Run :=
  let interruption :=
    match activity.ending with
    | .ok _ => none
    | .error interruption => some interruption
  let (report, remaining) := activity.console.close interruption
  { output := activity.output ++ report
    errorOutput := ""
    ending :=
      match remaining, activity.ending with
      | some (.exit status), _ => .exited status
      | some (.internal kind message), _ => .failed kind message
      | some _, _ => .exited 1
      | none, .ok status => .finished status
      | none, .error _ => .finished 0 }

/-- The text of a file. -/
def load (files : Files) (path : String) : Except Interruption String :=
  if path.toList.contains '\x00' then .error (.ofFault .nullInPath)
  else
    match files path with
    | none => .error (.reported (.notOpened path))
    | some bytes =>
      (Text.Utf8.decode bytes).mapError fun error => .ofFault (.malformedText error)

/-- Warn about definitions that replaced another one, up to the first warning
that is interrupted. -/
def warnAll (console : Console) : List Definition → String × Option Interruption
  | [] => ("", none)
  | definition :: rest =>
    match console.warn (.redefined definition) with
    | (output, some interruption) => (output, some interruption)
    | (output, none) =>
      let (others, interruption) := warnAll console rest
      (output ++ others, interruption)

/-- Evaluate a program, and print its value or why it has none. -/
def evaluate (limits : Limits) (console : Console) (program : Program) :
    String × Except Interruption Int :=
  let (result, steps) := program.outcome limits
  let trace := console.trace steps
  match result with
  | .error fault => (trace, .error (.ofFault fault))
  | .ok (.evaluated value) =>
    match limits.write value with
    | .error fault => (trace, .error (.ofFault fault))
    | .ok text => (trace ++ text ++ "\n", .ok 0)
  | .ok outcome =>
    match outcome.diagnostic? with
    | none => (trace, .ok outcome.status)
    | some diagnostic =>
      let (report, remaining) := console.throw diagnostic outcome.status
      (trace ++ report,
        match remaining with
        | none => .ok outcome.status
        | some interruption => .error interruption)

/-- Run the text of a file. -/
def runText (settings : Settings) (console : Console) (lists : Bool) (text : String) :
    String × Except Interruption Int :=
  match Program.parse settings text with
  | .error failure => ("", .error (.ofFailure failure))
  | .ok program =>
    match warnAll console program.redefined with
    | (warned, some interruption) => (warned, .error interruption)
    | (warned, none) =>
      let (listed, interruption) :=
        if lists then Shell.listing settings.limits program.functions.entries else ("", none)
      match interruption with
      | some interruption => (warned ++ listed, .error interruption)
      | none =>
        let (output, ending) := evaluate settings.limits console program
        (warned ++ listed ++ output, ending)

/-- Run a file. -/
def runFile (settings : Settings) (console : Console) (files : Files) (lists : Bool)
    (path : String) : Activity :=
  match load files path with
  | .error interruption => ⟨console, "", .error interruption⟩
  | .ok text =>
    let console := console.registerSource path text
    let (output, ending) := runText settings console lists text
    ⟨console, output, ending⟩

/-- Start the shell and type lines into it. -/
def runShell (settings : Settings) (console : Console) (lines : List String) : Activity :=
  let (shell, output, interruption) := (Shell.start settings console).converse lines
  ⟨shell.console, Shell.intro ++ output,
    match interruption with
    | none => .ok 0
    | some interruption => .error interruption⟩

/-- The settings that options ask for, within limits. -/
def Options.settings (limits : Limits) (options : Options) : Settings :=
  { maxArguments := options.maxArguments, limits }

/-- The console that options ask for. -/
def Options.console (painted : Text.Painting) (options : Options) : Console :=
  { painted, verbose := options.traces }

/-- Carry out options. -/
def Options.run (limits : Limits) (painted : Text.Painting) (files : Files) (typed : String)
    (options : Options) : Run :=
  match options.file with
  | some path =>
    (runFile (options.settings limits) (options.console painted) files options.lists path).close
  | none =>
    (runShell (options.settings limits) (options.console painted)
      (Text.inputLines typed)).close

/-- Answer a command line that is not carried out. -/
def Refusal.run : Refusal → Run
  | .help => ⟨helpText, "", .exited 0⟩
  | .misuse message => ⟨"", complaint message, .exited 2⟩

/-- Carry out a command line within limits. -/
def run (painted : Text.Painting) (files : Files) (typed : String) (words : List String)
    (limits : Limits := .standard) : Run :=
  match Options.parse limits words with
  | .error refusal => refusal.run
  | .ok options => options.run limits painted files typed

end Polycalc.CommandLine

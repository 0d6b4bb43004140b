import Polycalc.Console
import Polycalc.Outcome
import Polycalc.Program.Printer
import Polycalc.Text.Blank

/-!
# The interactive shell

A line that is typed into the shell is a command or else a definition.
Definitions that can be read are kept; the commands run them, list them, show
their trees or forget them.

A bad line is reported and does not end the shell.  Every reaction gives the
text that it prints and says whether the shell is to stop; what interrupts it
is handed on.
-/

namespace Polycalc

/-- What a typed line asks for. -/
inductive Command
  | nothing
  | definition (line : String)
  | run
  | list
  | tree (name : String)
  | reset
  | help
  | endOfInput
  | exit
  deriving DecidableEq, Repr

namespace Command

/-- Whether a character may be in the word that a command begins with. -/
def isWordCharacter (c : Char) : Bool :=
  c.isAlphanum || c == '_'

/-- The command that a word and the text after it stand for. -/
def ofWord? (word : String) (argument : String) : Option Command :=
  match word with
  | "run" => some run
  | "list" => some list
  | "tree" => some (tree argument)
  | "reset" => some reset
  | "help" => some help
  | "EOF" => some endOfInput
  | "exit" => some exit
  | _ => none

/-- What a typed line asks for.  White space around it does not matter, a
question mark asks for help, and a line that begins with no command is a
definition. -/
def ofLine (line : String) : Command :=
  match Text.trim line.toList with
  | [] => nothing
  | '?' :: _ => help
  | characters =>
    let word := String.ofList (characters.takeWhile isWordCharacter)
    let argument := String.ofList (Text.trim (characters.dropWhile isWordCharacter))
    (ofWord? word argument).getD (definition (String.ofList characters))

end Command

/-- The state of a shell. -/
structure Shell where
  settings : Settings
  console : Console
  /-- the definitions that were accepted, each ended by a line end -/
  accepted : List String

/-- How a shell reacts to a line. -/
structure Reaction where
  shell : Shell
  /-- what is printed -/
  output : String
  /-- whether the shell stops, or what interrupts it -/
  ending : Except Interruption Bool

namespace Shell

/-- The name under which diagnostics refer to typed text. -/
def sourceName : String := "<in>"

/-- What the shell shows when it starts. -/
def intro : String :=
  "deflang interpreter :: Python backend\nType '?' or 'help' for more information.\n"

/-- What the shell shows when it waits for a line. -/
def prompt : String := "> "

/-- What the shell shows when it is asked for help. -/
def helpText : String :=
  "Welcome to the deflang interpreter!\n\n"
    ++ "Type one definition per line, e.g. 'DEF SQ x \x7b x*x \x7d ;' and then \n"
    ++ "'DEF MAIN \x7b SQ(3)+1 \x7d ;'. 'run' evaluates MAIN, 'list' shows what has \n"
    ++ "been defined, 'tree NAME' shows a function's syntax tree and 'reset' \n"
    ++ "starts over.\n"

/-- A shell in which nothing has been typed. -/
def start (settings : Settings) (console : Console) : Shell :=
  ⟨settings, { console with fatal := false }, []⟩

/-- All definitions that were accepted. -/
def text (shell : Shell) : String :=
  String.join shell.accepted

/-- Print a text and go on. -/
def continueWith (shell : Shell) (output : String) : Reaction :=
  ⟨shell, output, .ok false⟩

/-- Print a text, and report what interrupted it. -/
def guarded (shell : Shell) (output : String) (interruption : Option Interruption) :
    Reaction :=
  let (report, remaining) := shell.console.close interruption
  { shell
    output := output ++ report
    ending :=
      match remaining with
      | none => .ok false
      | some interruption => .error interruption }

/-- A line with one line end in the place of those that it ends with. -/
def endLine (line : String) : String :=
  String.ofList (Text.trimEndWhile Text.isReturn line.toList) ++ "\n"

/-- Accept a definition if it can be read by itself. -/
def define (shell : Shell) (line : String) : Reaction :=
  let line := endLine line
  let shell := { shell with console := shell.console.registerSource sourceName line }
  match Program.parse shell.settings line with
  | .error failure => shell.guarded "" (some (.ofFailure failure))
  | .ok _ => { shell with accepted := shell.accepted ++ [line] }.continueWith ""

/-- Evaluate the accepted definitions. -/
def run (shell : Shell) : Reaction :=
  let shell := { shell with console := shell.console.registerSource sourceName shell.text }
  let (result, steps) := Program.outcomeOfText shell.settings shell.text
  let trace := shell.console.trace steps
  match result with
  | .error fault => ⟨shell, trace, .error (.ofFault fault)⟩
  | .ok (.evaluated value) =>
    match shell.settings.limits.write value with
    | .error fault => ⟨shell, trace, .error (.ofFault fault)⟩
    | .ok text => shell.continueWith (trace ++ text ++ "\n")
  | .ok outcome =>
    match outcome.diagnostic? with
    | none => shell.continueWith trace
    | some diagnostic =>
      let (report, remaining) := shell.console.throw diagnostic outcome.status
      { shell
        output := trace ++ report
        ending :=
          match remaining with
          | none => .ok false
          | some interruption => .error interruption }

/-- The short forms of definitions, each on a line, up to the first that
cannot be written. -/
def listing (limits : Limits) : List Definition → String × Option Interruption
  | [] => ("", none)
  | definition :: rest =>
    match definition.render limits with
    | .error fault => ("", some (.ofFault fault))
    | .ok text =>
      let (others, interruption) := listing limits rest
      (text ++ "\n" ++ others, interruption)

/-- List the accepted definitions. -/
def list (shell : Shell) : Reaction :=
  match Program.parse shell.settings shell.text with
  | .error failure => shell.guarded "" (some (.ofFailure failure))
  | .ok program =>
    let (output, interruption) := listing shell.settings.limits program.functions.entries
    shell.guarded output interruption

/-- Show the tree of a function's body. -/
def tree (shell : Shell) (name : String) : Reaction :=
  match Program.parse shell.settings shell.text with
  | .error failure => shell.guarded "" (some (.ofFailure failure))
  | .ok program =>
    match program.find? name with
    | none => shell.guarded "" (some (.reported (.notDefined name)))
    | some definition =>
      match definition.body.shape shell.settings.limits with
      | .error fault => shell.guarded "" (some (.ofFault fault))
      | .ok text => shell.guarded (text ++ "\n") none

/-- Do what a command asks for. -/
def perform (shell : Shell) : Command → Reaction
  | .nothing => shell.continueWith ""
  | .definition line => shell.define line
  | .run => shell.run
  | .list => shell.list
  | .tree name => shell.tree name
  | .reset => { shell with accepted := [] }.continueWith ""
  | .help => shell.continueWith helpText
  | .endOfInput => ⟨shell, "\n", .ok true⟩
  | .exit => ⟨shell, "", .ok true⟩

/-- React to a typed line. -/
def react (shell : Shell) (line : String) : Reaction :=
  shell.perform (.ofLine line)

/-- Prompt for lines and react to them until the shell stops or is interrupted.
The end of the input stops it. -/
def converse (shell : Shell) : List String → Shell × String × Option Interruption
  | [] =>
    let reaction := shell.perform .endOfInput
    (reaction.shell, prompt ++ reaction.output, none)
  | line :: rest =>
    let reaction := shell.react line
    let output := prompt ++ reaction.output
    match reaction.ending with
    | .error interruption => (reaction.shell, output, some interruption)
    | .ok true => (reaction.shell, output, none)
    | .ok false =>
      let (last, others, interruption) := reaction.shell.converse rest
      (last, output ++ others, interruption)

end Shell

end Polycalc

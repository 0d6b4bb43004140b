import Polycalc.Diagnostic.Wording
import Polycalc.Evaluation
import Polycalc.Text.Lines

/-!
# The console

The console shows warnings, errors and steps.  It holds the source text that
diagnostics refer to, and shows the line that a diagnostic points into with
the offending part painted and underlined.

Nothing is printed here: every operation gives the text that it would print.
An interruption is whatever ends an activity early; the console reports it and
says what becomes of it, `none` if the activity counts as finished.
-/

namespace Polycalc

/-- What ends an activity early. -/
inductive Interruption
  | reported (diagnostic : Diagnostic)
  /-- a failure that nobody expected -/
  | internal (kind message : String)
  /-- the program is to end with a status -/
  | exit (status : Int)
  /-- the user interrupts the program -/
  | keyboard
  deriving Repr

namespace Interruption

/-- A fault as an interruption. -/
def ofFault (fault : Fault) : Interruption :=
  internal fault.kind fault.message

/-- A failure as an interruption. -/
def ofFailure : Failure → Interruption
  | .source error => reported error.diagnostic
  | .evaluation error => reported error.diagnostic
  | .fault fault => ofFault fault

end Interruption

/-- How and about what diagnostics are shown. -/
structure Console where
  /-- how text is painted -/
  painted : Text.Painting := .plain
  /-- whether an error ends the program -/
  fatal : Bool := true
  /-- whether steps are shown -/
  verbose : Bool := false
  /-- the name of the source text, empty if there is none -/
  path : String := ""
  /-- the lines of the source text -/
  lines : List String := []

namespace Console

/-- Refer to a source text from now on. -/
def registerSource (console : Console) (path text : String) : Console :=
  { console with path, lines := Text.lines text }

/-- The source line that a diagnostic points into. -/
def sourceLine (console : Console) (diagnostic : Diagnostic) : Option String := do
  let position ← diagnostic.position
  if 0 < position.line then console.lines[(position.line - 1).toNat]? else none

/-- The colour of errors or of warnings. -/
def severityColour (warning : Bool) : Text.Colour :=
  if warning then .magenta else .red

/-- How wide the margin is that stands under the text before a column. -/
def marginWidth (col : Int) : Nat :=
  (col - 1).toNat

/-- Where the underlined part of a line ends.  It goes no further than the line,
but has its first character even behind it. -/
def stopOf (col length : Int) (lineLength : Nat) : Int :=
  min (marginWidth col + length) (max lineLength (marginWidth col + 1) : Nat)

/-- How wide the bar is that follows a caret; there is none if the number is
negative. -/
def barWidth (col length : Int) (lineLength : Nat) : Int :=
  stopOf col length lineLength - marginWidth col - 1

/-- Where a part of a line ends; a negative number counts from the end. -/
def cutoff (length : Nat) (stop : Int) : Nat :=
  if stop < 0 then (length + stop).toNat else stop.toNat

/-- A line with a part painted that begins at a column, and under it a caret
and a bar. -/
def underline (painting : Text.Painting) (col length : Int) (line : String)
    (warning : Bool) : String :=
  let paint := painting.paint .bold (some (severityColour warning))
  let characters := line.toList
  let start := marginWidth col
  let cut := cutoff characters.length (stopOf col length characters.length)
  let bar := (barWidth col length characters.length).toNat
  "  " ++ String.ofList (characters.take start)
    ++ paint (String.ofList ((characters.take cut).drop start))
    ++ String.ofList (characters.drop cut) ++ "\n"
    ++ "  " ++ String.ofList (List.replicate start ' ')
    ++ paint (String.ofList ('^' :: List.replicate bar '~'))

/-- Refuse to repeat a character so many times if the number does not fit into
64 bits, be it negative or not. -/
def checkCount (count : Int) : Except Fault Unit :=
  if -Int.pow 2 63 ≤ count ∧ count < Int.pow 2 63 then .ok () else .error .countOutOfRange

/-- Refuse a margin that is too wide.  One that is no longer than its line is
not, since the line is there. -/
def checkMargin (col : Int) (lineLength : Nat) : Except Fault Unit :=
  if marginWidth col ≤ lineLength then .ok () else checkCount (marginWidth col)

/-- Refuse a bar whose width is out of all proportion.  Only a negative one can
be: a bar is no longer than its line. -/
def checkBar (width : Int) : Except Fault Unit :=
  if 0 ≤ width then .ok () else checkCount width

/-- A line with the part underlined that a diagnostic is about.  The diagnostic
needs a column, and neither its column nor its length may be out of all
proportion. -/
def diagnose (painting : Text.Painting) (diagnostic : Diagnostic) (line : String)
    (warning : Bool) : Except Fault String :=
  match diagnostic.col with
  | none => .error .noColumn
  | some col => do
    checkMargin col line.length
    checkBar (barWidth col diagnostic.length line.length)
    return underline painting col diagnostic.length line warning

/-- Where a diagnostic belongs: the name of the source text, the line and the
column, as far as they are known. -/
def location (console : Console) (diagnostic : Diagnostic) : String :=
  match diagnostic.position with
  | none => console.path
  | some position =>
    let place := toString position.line ++ ":" ++ toString position.col
    if console.path = "" then place else console.path ++ ":" ++ place

/-- The beginning of a message, which says where it belongs. -/
def header (console : Console) (diagnostic : Diagnostic) : String :=
  let location := console.location diagnostic
  if location = "" then ""
  else console.painted.paint .bold none (location ++ ": ")

/-- The source line of a diagnostic, ended by a line end, unless none is to be
shown. -/
def excerpt (console : Console) (diagnostic : Diagnostic) (warning : Bool) :
    Except Fault String :=
  match console.sourceLine diagnostic with
  | none => .ok ""
  | some line =>
    if diagnostic.diagnosed && !diagnostic.internal then do
      return (← diagnose console.painted diagnostic line warning) ++ "\n"
    else .ok ""

/-- A label in front of a message. -/
def label (console : Console) (warning : Bool) (text : String) : String :=
  console.painted.paint .bold (some (severityColour warning)) text

/-- The message of a warning, on a line. -/
def warningLine (console : Console) (diagnostic : Diagnostic) : String :=
  console.header diagnostic ++ console.label true "warning: "
    ++ diagnostic.highlighted console.painted ++ "\n"

/-- The message of an error, on a line. -/
def errorLine (console : Console) (diagnostic : Diagnostic) : String :=
  console.header diagnostic
    ++ (if diagnostic.internal then console.label false "[internal] " else "")
    ++ console.label false "error: "
    ++ diagnostic.highlighted console.painted ++ "\n"

/-- Print a message and the excerpt under it.  The message is printed first, so
it is there even if the excerpt cannot be made. -/
def printWith (message : String) : Except Fault String → String × Option Interruption
  | .ok excerpt => (message ++ excerpt, none)
  | .error fault => (message, some (.ofFault fault))

/-- Print a warning. -/
def warn (console : Console) (diagnostic : Diagnostic) : String × Option Interruption :=
  printWith (console.warningLine diagnostic) (console.excerpt diagnostic true)

/-- What is printed as a step, if steps are shown. -/
def step (console : Console) (symbol text : String) : String :=
  if console.verbose then
    console.painted.paint .bold (some .cyan) ("  " ++ symbol ++ " ")
      ++ console.painted.paint .dark none text ++ "\n"
  else ""

/-- What is printed for the steps of an evaluation. -/
def trace (console : Console) (steps : Array Step) : String :=
  String.join (steps.toList.map fun step => console.step step.symbol step.text)

/-- What remains after an error was printed: the end of the program, if errors
are fatal. -/
def exitIfFatal (console : Console) (status : Int) : Option Interruption :=
  if console.fatal then some (.exit status) else none

/-- Print an error, and end the program if errors are fatal. -/
def throw (console : Console) (diagnostic : Diagnostic) (status : Int) :
    String × Option Interruption :=
  let (output, interruption) :=
    printWith (console.errorLine diagnostic) (console.excerpt diagnostic false)
  (output, interruption <|> console.exitIfFatal status)

/-- Report what ended an activity early.  The end of the program and unexpected
failures are not held back. -/
def close (console : Console) : Option Interruption → String × Option Interruption
  | none => ("", none)
  | some .keyboard => console.throw .interrupted 1
  | some (.exit status) => ("", some (.exit status))
  | some (.reported diagnostic) => console.throw diagnostic 1
  | some (.internal kind message) =>
    let (output, exit) := console.throw (.unknownError kind message) 1
    (output, exit <|> some (.internal kind message))

end Console

end Polycalc

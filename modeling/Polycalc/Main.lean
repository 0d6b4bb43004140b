import Polycalc.CommandLine.Run

/-!
# The program

The outermost layer: it reads the file that the command line names, or the
lines that are typed, prints, and exits with a status.  What is printed is
decided by the modules that it imports.
-/

namespace Polycalc.Main

/-- Print what a run printed, and give its status. -/
def report (run : CommandLine.Run) : IO UInt32 := do
  IO.print run.output
  IO.eprint run.errorOutput
  match run.ending with
  | .finished status => return status.toNat.toUInt32
  | .exited status => return status.toNat.toUInt32
  | .failed kind message =>
    IO.eprintln (kind ++ ": " ++ message)
    return 1

/-- The bytes of a file, if it can be opened. -/
def bytesOf (path : String) : IO (Option (List UInt8)) := do
  try
    let bytes ← IO.FS.readBinFile path
    return some bytes.toList
  catch _ => return none

/-- Let a shell react to lines one after another, until it stops or is
interrupted. -/
def reactTo (shell : Shell) : List String → IO (Shell × Option (Except Interruption Unit))
  | [] => return (shell, none)
  | line :: rest => do
    let reaction := shell.react line
    IO.print reaction.output
    match reaction.ending with
    | .ok false => reactTo reaction.shell rest
    | .ok true => return (reaction.shell, some (.ok ()))
    | .error interruption => return (reaction.shell, some (.error interruption))

/-- Prompt for lines and let a shell react to them. -/
partial def converse (input output : IO.FS.Stream) (shell : Shell) :
    IO (Shell × Except Interruption Unit) := do
  output.putStr Shell.prompt
  output.flush
  let typed ← input.getLine
  if typed.isEmpty then
    let reaction := shell.perform .endOfInput
    output.putStr reaction.output
    return (reaction.shell, .ok ())
  else
    match ← reactTo shell (Text.inputLines typed) with
    | (shell, none) => converse input output shell
    | (shell, some ending) => return (shell, ending)

/-- Carry out options within limits. -/
def carryOut (limits : Limits) (painted : Text.Painting) (options : CommandLine.Options) :
    IO UInt32 := do
  match options.file with
  | some path =>
    let bytes ← bytesOf path
    report (options.run limits painted (fun _ => bytes) "")
  | none =>
    let input ← IO.getStdin
    let output ← IO.getStdout
    output.putStr Shell.intro
    let shell := Shell.start (options.settings limits) (options.console painted)
    let (shell, ending) ← converse input output shell
    report (CommandLine.Activity.close ⟨shell.console, "", ending.map fun () => 0⟩)

end Polycalc.Main

/-- Carry out the words of a command line. -/
def main (words : List String) : IO UInt32 := do
  let output ← IO.getStdout
  let painted ← output.isTty
  let limits := Polycalc.Limits.standard
  match Polycalc.CommandLine.Options.parse limits words with
  | .error refusal => Polycalc.Main.report refusal.run
  | .ok options => Polycalc.Main.carryOut limits painted options

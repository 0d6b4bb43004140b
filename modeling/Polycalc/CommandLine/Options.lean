import Polycalc.Fault
import Polycalc.Limits

/-!
# Command line options

The words of a command line are first told apart, operands from options; then
they are taken from left to right.  An option may be shortened as long as no
other option begins the same way, and its value may follow after an equals
sign or in the next word.  A word that looks like a negative number is an
operand, and so is every word after `--`.
-/

namespace Polycalc.CommandLine

/-- What a command line asks for. -/
structure Options where
  /-- the file to run; the shell is started if there is none -/
  file : Option String := none
  /-- how many arguments a call may have, unless the option was given no
  number -/
  maxArguments : Option Int := some 1
  /-- whether the definitions are printed before they are evaluated -/
  lists : Bool := false
  /-- whether the steps of the evaluation are printed -/
  traces : Bool := false
  deriving DecidableEq, Repr

/-- Why a command line is not carried out. -/
inductive Refusal
  /-- it asks for help -/
  | help
  | misuse (message : String)
  deriving DecidableEq, Repr

/-- The options that there are. -/
inductive Flag
  | help
  | maxArguments
  | lists
  | traces
  deriving DecidableEq, Repr

namespace Flag

/-- The long spelling of every option. -/
def spellings : List (String × Flag) :=
  [("--help", help), ("--max-args", maxArguments), ("--show", lists), ("--trace", traces)]

/-- How a message names an option. -/
def title : Flag → String
  | help => "-h/--help"
  | maxArguments => "--max-args"
  | lists => "--show"
  | traces => "--trace"

/-- Complain about the use of an option. -/
def misuse (flag : Flag) (complaint : String) : Refusal :=
  .misuse ("argument " ++ flag.title ++ ": " ++ complaint)

/-- Complain about a value of an option that has none. -/
def ignored (flag : Flag) (value : String) : Refusal :=
  flag.misuse ("ignored explicit argument " ++ Text.quoted value)

end Flag

/-- The separator, behind which there are only operands. -/
def separatorText : String := "--"

/-- A word of a command line. -/
inductive Word
  | operand (text : String)
  /-- the word after which there are only operands -/
  | separator
  /-- an option and the value joined to it -/
  | option (flag : Flag) (value : Option String)
  /-- a single dash, the letter that asks for help, and the text joined to it -/
  | cluster (joined : String)
  | unknown (text : String)
  deriving DecidableEq, Repr

namespace Word

/-- The text in front of the first equals sign, and the text after it if there
is one. -/
def splitValue (text : String) : String × Option String :=
  (String.ofList (text.toList.takeWhile (· ≠ '=')),
    match text.toList.dropWhile (· ≠ '=') with
    | _ :: value => some (String.ofList value)
    | [] => none)

/-- Whether characters are decimal digits, at least one. -/
def isDigits (text : List Char) : Bool :=
  !text.isEmpty && text.all fun c => (Text.Numeral.digit? c).isSome

/-- Whether a word is a negative number, with or without a fraction; a line
end may follow it. -/
def isNegativeNumber (text : String) : Bool :=
  match text.toList with
  | '-' :: rest =>
    let number := if rest.getLast? = some '\n' then rest.dropLast else rest
    let whole := number.takeWhile (· ≠ '.')
    match number.dropWhile (· ≠ '.') with
    | [] => isDigits whole
    | _ :: fraction => (whole.isEmpty || isDigits whole) && isDigits fraction
  | _ => false

/-- Tell what a word is that begins with a dash and is no known option. -/
def ofUnknown (text : String) : Word :=
  if isNegativeNumber text || text.toList.contains ' ' then operand text else unknown text

/-- Tell what a word is that begins with two dashes. -/
def ofLong (text : String) : Except Refusal Word :=
  let (name, value) := splitValue text
  match Flag.spellings.lookup name with
  | some flag => .ok (option flag value)
  | none =>
    match Flag.spellings.filter fun entry => entry.1.startsWith name with
    | [] => .ok (ofUnknown text)
    | [(_, flag)] => .ok (option flag value)
    | several =>
      .error (.misuse
        ("ambiguous option: " ++ text ++ " could match "
          ++ ", ".intercalate (several.map Prod.fst)))

/-- Tell what a word is, other than the separator. -/
def ofText (text : String) : Except Refusal Word :=
  match text.toList with
  | ['-'] => .ok (operand text)
  | ['-', 'h'] => .ok (option .help none)
  | '-' :: 'h' :: '=' :: joined => .ok (cluster (String.ofList joined))
  | '-' :: 'h' :: joined => .ok (cluster (String.ofList joined))
  | '-' :: '-' :: _ => ofLong text
  | '-' :: _ => .ok (ofUnknown text)
  | _ => .ok (operand text)

/-- Tell what the words of a command line are. -/
def ofTexts : List String → Except Refusal (List Word)
  | [] => .ok []
  | text :: rest =>
    if text = separatorText then .ok (separator :: rest.map operand)
    else do return (← ofText text) :: (← ofTexts rest)

end Word

/-- How far the words of a command line have been taken. -/
structure Taken where
  options : Options := {}
  /-- whether the operand that names a file has been taken -/
  fileTaken : Bool := false
  /-- the words that nothing can be done with -/
  extra : List String := []

namespace Taken

/-- Set the greatest number of arguments. -/
def setMaxArguments (limits : Limits) (taken : Taken) (text : String) :
    Except Refusal Taken :=
  match Text.Numeral.integer? limits.digits text with
  | some value => .ok { taken with options := { taken.options with maxArguments := some value } }
  | none => .error (Flag.maxArguments.misuse ("invalid int value: " ++ Text.quoted text))

/-- Carry out an option that has no value. -/
def setFlag (taken : Taken) : Flag → Except Refusal Taken
  | .help => .error .help
  | .maxArguments => .error (Flag.maxArguments.misuse "expected one argument")
  | .lists => .ok { taken with options := { taken.options with lists := true } }
  | .traces => .ok { taken with options := { taken.options with traces := true } }

/-- Carry out an option with the value joined to it.  The separator stands for
no value at all, where a value is wanted. -/
def setJoined (limits : Limits) (taken : Taken) (flag : Flag) (value : String) :
    Except Refusal Taken :=
  match flag with
  | .maxArguments =>
    if value = separatorText then
      .ok { taken with options := { taken.options with maxArguments := none } }
    else taken.setMaxArguments limits value
  | flag => .error (flag.ignored value)

/-- Carry out a cluster.  The letter that asks for help may be repeated; other
text that is joined to it is refused, and so is an empty one. -/
def refuseCluster (joined : String) : Refusal :=
  match joined.toList.dropWhile (· = 'h') with
  | [] => if joined = "" then Flag.help.ignored "" else .help
  | rest => Flag.help.ignored (String.ofList rest)

/-- Take an operand: the first one names the file. -/
def takeOperand (taken : Taken) (text : String) : Taken :=
  if taken.fileTaken then { taken with extra := taken.extra ++ [text] }
  else { taken with options := { taken.options with file := some text }, fileTaken := true }

/-- Take words that are all operands. -/
def takeOperands (taken : Taken) (texts : List String) : Taken :=
  texts.foldl takeOperand taken

/-- The texts of operands. -/
def operandText? : Word → Option String
  | .operand text => some text
  | _ => none

/-- Take the separator and the operands behind it.  The separator itself is
left over unless the file is still to come or stands right before it. -/
def takeSeparated (taken : Taken) (behindFile : Bool) (rest : List Word) : Taken :=
  let texts := rest.filterMap operandText?
  if taken.fileTaken && !behindFile then
    { taken with extra := taken.extra ++ separatorText :: texts }
  else { taken.takeOperands texts with fileTaken := true }

/-- Take the words of a command line. -/
def takeAll (limits : Limits) (taken : Taken) (behindFile : Bool) :
    List Word → Except Refusal Taken
  | [] => .ok taken
  | .operand text :: rest =>
    (taken.takeOperand text).takeAll limits (!taken.fileTaken) rest
  | .separator :: rest => .ok (taken.takeSeparated behindFile rest)
  | .unknown text :: rest =>
    { taken with extra := taken.extra ++ [text] }.takeAll limits false rest
  | .cluster joined :: _ => .error (refuseCluster joined)
  | .option flag (some value) :: rest => do
    (← taken.setJoined limits flag value).takeAll limits false rest
  | .option .maxArguments none :: .operand text :: rest => do
    (← taken.setMaxArguments limits text).takeAll limits false rest
  | .option flag none :: rest => do
    (← taken.setFlag flag).takeAll limits false rest

/-- The options, unless words are left over. -/
def finish (taken : Taken) : Except Refusal Options :=
  match taken.extra with
  | [] => .ok taken.options
  | extra => .error (.misuse ("unrecognized arguments: " ++ " ".intercalate extra))

end Taken

/-- Read a command line. -/
def Options.parse (limits : Limits) (texts : List String) : Except Refusal Options := do
  let words ← Word.ofTexts texts
  (← ({} : Taken).takeAll limits false words).finish

/-- How to use the command line. -/
def usage : String :=
  "usage: deflang [-h] [--max-args N] [--show] [--trace] [file]\n"

/-- What every part of the command line is for. -/
def helpText : String :=
  usage
    ++ "\npositional arguments:\n"
    ++ "  file          file to interpret and run (if empty, goes to command-line\n"
    ++ "                mode)\n"
    ++ "\noptions:\n"
    ++ "  -h, --help    show this help message and exit\n"
    ++ "  --max-args N  most arguments a single call may pass (default: 1)\n"
    ++ "  --show        print every parsed definition before evaluating\n"
    ++ "  --trace       print every call and return while evaluating\n"

/-- The complaint about a command line that is used wrongly. -/
def complaint (message : String) : String :=
  usage ++ "deflang: error: " ++ message ++ "\n"

end Polycalc.CommandLine

import Polycalc.Diagnostic
import Polycalc.Failure

/-!
# The wording of diagnostics

What a user is told about each cause of a failure.  The first snippet of a
diagnostic is the offending one; unless something else is said, as many columns
are underlined as it has characters.
-/

namespace Polycalc

open Piece (plain snippet)

/-- How a message names what the grammar asks for. -/
def Expected.describe : Expected → String
  | definition => "'DEF'"
  | space => "space"
  | functionName => "a function name"
  | openBrace => "'\x7b'"
  | closeBrace => "'\x7d'"
  | openParen => "'('"
  | closeParen => "')'"
  | operand => "a number, parameter or call"
  | endOfStatement => "';' and a newline"
  | endOfInput => "end of input"

/-- What is said about a character that begins no lexeme. -/
def LexError.diagnostic (error : LexError) : Diagnostic :=
  match error.cause with
  | .unterminatedStatement =>
    .placed .lexical [plain "'", snippet ";", plain "' must be followed by a newline"]
      error.position 1
  | .unexpectedCharacter c =>
    .placed .lexical [plain "unexpected character '", snippet (Text.escape c), plain "'"]
      error.position 1

/-- What is said about a call of a function that is not defined. -/
def unknownFunctionMessage (text : String) : List Piece :=
  [plain "call to non-existent function '", snippet text, plain "'"]

/-- What is said about a token that does not fit or a call that is bad. -/
def ParseError.diagnostic : ParseError → Diagnostic
  | unexpected expected found =>
    .placed .parse
      [plain "expected ", snippet expected.describe, plain ", got ",
        snippet found.lexeme.describe]
      found.position found.lexeme.visibleLength
  | unknownParameter name position =>
    .placed .parse [plain "unknown parameter '", snippet name, plain "'"] position
      (Diagnostic.widthOf name)
  | tooManyArguments callee allowed found =>
    .placed .parse
      [plain "too many parameters in call to '", snippet callee, plain "' (at most ",
        snippet (toString allowed), plain " allowed)"]
      found.position (max found.lexeme.length 1)
  | entryParameter found =>
    .placed .parse [plain "'", snippet entryName, plain "' takes no parameters"]
      found.position found.lexeme.length
  | nestedTooDeeply => .unplaced .parse [plain "program nested too deeply"]
  | noEntry =>
    .unplaced .parse [plain "no entry function: '", snippet entryName, plain "' is not defined"]
  | unknownFunction reference text =>
    .placed .parse (unknownFunctionMessage text) reference.position (Diagnostic.widthOf text)
  | wrongArity call text target =>
    .placed .parse
      [plain "call to non-existent function '", snippet text, plain "': '",
        snippet target.name, plain "' takes ", snippet (toString target.arity),
        plain " argument(s)"]
      call.position (Diagnostic.widthOf text)

/-- What is said about a text that is no program. -/
def SourceError.diagnostic : SourceError → Diagnostic
  | lexical error => error.diagnostic
  | parse error => error.diagnostic

/-- What is said about an evaluation that would never end.  The name of the
function is underlined. -/
def divergenceDiagnostic (call : Call) (text : String) : Diagnostic :=
  .placed .divergence
    [plain "'", snippet text,
      plain "' calls itself again before returning: the program never terminates"]
    call.position call.name.length

/-- What is said about an evaluation that fails. -/
def EvalError.diagnostic : EvalError → Diagnostic
  | unboundParameter name position =>
    .placed .evaluation [plain "unbound parameter '", snippet name, plain "'"] position
      (Diagnostic.widthOf name)
  | unknownFunction call text =>
    .placed .evaluation (unknownFunctionMessage text) call.position (Diagnostic.widthOf text)
  | wrongArgumentCount name expected found =>
    .unplaced .evaluation
      [plain "incorrect number of arguments for '", snippet name, plain "': expected ",
        snippet (toString expected), plain ", got ", snippet (toString found)]
  | tooManyLiveCalls => .unplaced .evaluation [plain "maximum recursion depth exceeded"]
  | diverges call text => divergenceDiagnostic call text

namespace Diagnostic

/-- What is said about a file that cannot be opened. -/
def notOpened (path : String) : Diagnostic :=
  .unplaced .general [plain "'", snippet path, plain "' could not be opened"]

/-- What is said about a function that is asked for and not defined. -/
def notDefined (name : String) : Diagnostic :=
  .unplaced .general [plain "'", snippet name, plain "' is not defined"]

/-- What a user is warned of at a definition that replaces an earlier one: its
name is underlined. -/
def redefined (definition : Definition) : Diagnostic :=
  .placed .general
    [plain "'", snippet definition.name,
      plain "' is defined more than once, only the last definition is used"]
    ⟨definition.line, ("DEF ".length + 1 : Nat)⟩ (widthOf definition.name)

/-- What is said when the user interrupts the program. -/
def interrupted : Diagnostic :=
  .unplaced .general [plain "keyboard interrupt"]

/-- What is said about a fault that nobody expected. -/
def unknownError (kind message : String) : Diagnostic where
  category := .general
  message :=
    [plain "unknown error: '", snippet kind, plain ": ", snippet message, plain "'"]
  snippets := [kind, message]
  length := widthOf kind
  internal := true

end Diagnostic

end Polycalc

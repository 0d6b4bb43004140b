import Polycalc.Fault
import Polycalc.Program
import Polycalc.Token.Lexer

/-!
# Failures

The causes for which a text is refused or an evaluation fails.  They hold what
is known about the failure and no wording; the wording is a function of them.
Where a message quotes the text of a call, the cause holds that text next to
the call, because writing it may itself fail.
-/

namespace Polycalc

/-- What the grammar asks for at a place. -/
inductive Expected
  | definition
  | space
  | functionName
  | openBrace
  | closeBrace
  | openParen
  | closeParen
  | operand
  | endOfStatement
  | endOfInput
  deriving DecidableEq, Repr

/-- Why a sequence of tokens is no program. -/
inductive ParseError
  /-- something else had to stand where a token stands -/
  | unexpected (expected : Expected) (found : Token)
  /-- a parameter that the definition does not declare -/
  | unknownParameter (name : String) (position : Position)
  /-- one more argument than a call may have -/
  | tooManyArguments (callee : String) (allowed : Int) (found : Token)
  /-- a parameter of the entry function, which has none -/
  | entryParameter (found : Token)
  /-- calls are nested too deeply -/
  | nestedTooDeeply
  /-- the entry function is not defined -/
  | noEntry
  /-- a call of a function that is not defined -/
  | unknownFunction (reference : Expr) (text : String)
  /-- a call with another number of arguments than its function takes -/
  | wrongArity (call : Call) (text : String) (target : Definition)
  deriving Repr

/-- Why a text is no program. -/
inductive SourceError
  | lexical (error : LexError)
  | parse (error : ParseError)
  deriving Repr

/-- Why an evaluation fails. -/
inductive EvalError
  | unboundParameter (name : String) (position : Position)
  | unknownFunction (call : Call) (text : String)
  | wrongArgumentCount (name : String) (expected found : Nat)
  /-- too many calls are live -/
  | tooManyLiveCalls
  /-- a call is entered again while it is live: the program never ends -/
  | diverges (call : Call) (text : String)
  deriving Repr

/-- Why an operation on a program fails. -/
inductive Failure
  | source (error : SourceError)
  | evaluation (error : EvalError)
  | fault (fault : Fault)
  deriving Repr

namespace Failure

/-- Pass a fault on as a failure. -/
def ofFault {α : Type} (result : Except Fault α) : Except Failure α :=
  result.mapError fault

/-- A failure through a token that does not fit. -/
def parse (error : ParseError) : Failure :=
  source (.parse error)

/-- A failure through a character that does not fit. -/
def lexical (error : LexError) : Failure :=
  source (.lexical error)

end Failure

end Polycalc

import Polycalc.Failure
import Polycalc.Limits

/-!
# Reading expressions

Expressions are read token by token.  Between two tokens the reader knows the
calls that are open, the sum and the product that are waiting for their next
operand, and what may come next.  A product binds more tightly than a sum, and
both lean to the left.

The calls are numbered in the order in which they are completed, and that
number is the site of a call.
-/

namespace Polycalc

/-- The bounds of one reading. -/
structure Settings where
  /-- how many arguments a call may have; without a number, a call that has
  arguments can be neither accepted nor refused -/
  maxArguments : Option Int := some 1
  /-- the limits in force -/
  limits : Limits := .standard
  deriving Repr

/-- The sum and the product that wait for their next operand. -/
structure Pending where
  sum : Option Expr
  product : Option Expr
  deriving Repr

namespace Pending

/-- Nothing is waiting. -/
def nothing : Pending := ⟨none, none⟩

/-- The product that ends with an operand. -/
def closeProduct (pending : Pending) (operand : Expr) : Expr :=
  match pending.product with
  | none => operand
  | some left => Expr.join .product left operand

/-- The sum that ends with an operand. -/
def closeSum (pending : Pending) (operand : Expr) : Expr :=
  match pending.sum with
  | none => pending.closeProduct operand
  | some left => Expr.join .sum left (pending.closeProduct operand)

/-- What waits after an operand and a plus sign. -/
def plus (pending : Pending) (operand : Expr) : Pending :=
  ⟨some (pending.closeSum operand), none⟩

/-- What waits after an operand and a multiplication sign. -/
def times (pending : Pending) (operand : Expr) : Pending :=
  ⟨pending.sum, some (pending.closeProduct operand)⟩

end Pending

/-- A call whose closing parenthesis has not been read. -/
structure OpenCall where
  name : String
  position : Position
  /-- the arguments that are complete -/
  arguments : List Expr
  /-- what waits for the call's value -/
  outer : Pending
  deriving Repr

/-- Why a call may not have one more argument, which begins with a token.  The
message quotes how many it may have, and that number has to be written. -/
def OpenCall.overfull (limits : Limits) (call : OpenCall) (allowed : Int) (found : Token) :
    Failure :=
  match limits.write allowed with
  | .ok _ => .parse (.tooManyArguments call.name allowed found)
  | .error fault => .fault fault

/-- Make sure that a call may have one more argument, which begins with a
token. -/
def OpenCall.checkRoom (settings : Settings) (call : OpenCall) (found : Token) :
    Except Failure Unit :=
  match settings.maxArguments with
  | none => .error (.fault .noArgumentBound)
  | some allowed =>
    if allowed ≤ call.arguments.length then
      .error (call.overfull settings.limits allowed found)
    else .ok ()

/-- What the last token leads one to expect. -/
inductive Awaiting
  /-- an operand -/
  | operand
  /-- the opening parenthesis of a call -/
  | parenthesis (name : String) (position : Position)
  /-- the first argument of a call or its closing parenthesis -/
  | firstArgument
  /-- another argument of a call -/
  | nextArgument
  /-- anything that may follow an operand -/
  | continuation (operand : Expr)
  deriving Repr

/-- How far an expression has been read. -/
structure ExprReader where
  /-- the open calls, innermost first -/
  stack : List OpenCall
  pending : Pending
  awaiting : Awaiting
  /-- the calls that were completed so far, of earlier expressions too -/
  calls : List Call
  deriving Repr

namespace ExprReader

/-- The reader before the first token of an expression. -/
def start (calls : List Call) : ExprReader :=
  ⟨[], .nothing, .operand, calls⟩

/-- The expression that has been read, if the next lexeme does not belong to
it. -/
def finished? (reader : ExprReader) (next : Lexeme) : Option Expr :=
  match reader.stack, reader.awaiting with
  | [], .continuation operand =>
    if next = .plus ∨ next = .times then none else some (reader.pending.closeSum operand)
  | _, _ => none

/-- Read the token that begins an operand. -/
def readOperand (scope : List String) (reader : ExprReader) (token : Token) :
    Except Failure ExprReader :=
  match token.lexeme with
  | .number digits =>
    .ok { reader with
      awaiting := .continuation (.number (Text.Numeral.value digits) token.position) }
  | .parameter name =>
    if name ∈ scope then
      .ok { reader with awaiting := .continuation (.parameter name token.position) }
    else .error (.parse (.unknownParameter name token.position))
  | .function name => .ok { reader with awaiting := .parenthesis name token.position }
  | .entry => .ok { reader with awaiting := .parenthesis entryName token.position }
  | _ => .error (.parse (.unexpected .operand token))

/-- Read the first token of an argument, after making sure that the innermost
open call may have one more. -/
def readArgument (settings : Settings) (scope : List String) (reader : ExprReader)
    (token : Token) : Except Failure ExprReader :=
  match reader.stack with
  | [] => reader.readOperand scope token
  | innermost :: _ => do
    innermost.checkRoom settings token
    reader.readOperand scope token

/-- Open a call. -/
def openCall (settings : Settings) (reader : ExprReader) (name : String)
    (position : Position) : Except Failure ExprReader :=
  if settings.limits.allowsNesting (reader.stack.length + 1) then
    .ok { reader with
      stack := ⟨name, position, [], reader.pending⟩ :: reader.stack
      pending := .nothing
      awaiting := .firstArgument }
  else .error (.parse .nestedTooDeeply)

/-- Complete the innermost open call. -/
def closeCall (reader : ExprReader) (innermost : OpenCall) (outer : List OpenCall)
    (arguments : List Expr) : ExprReader :=
  let call : Call :=
    ⟨.parsed reader.calls.length, innermost.name, arguments, innermost.position⟩
  { stack := outer
    pending := innermost.outer
    awaiting := .continuation call.toExpr
    calls := reader.calls ++ [call] }

/-- Read a token after an operand, which ends an argument of the innermost open
call or continues its sum. -/
def readContinuation (reader : ExprReader) (operand : Expr) (token : Token) :
    Except Failure ExprReader :=
  match token.lexeme, reader.stack with
  | .plus, _ =>
    .ok { reader with pending := reader.pending.plus operand, awaiting := .operand }
  | .times, _ =>
    .ok { reader with pending := reader.pending.times operand, awaiting := .operand }
  | .space, innermost :: outer =>
    let argument := reader.pending.closeSum operand
    .ok { reader with
      stack := { innermost with arguments := innermost.arguments ++ [argument] } :: outer
      pending := .nothing
      awaiting := .nextArgument }
  | .closeParen, innermost :: outer =>
    let argument := reader.pending.closeSum operand
    .ok (reader.closeCall innermost outer (innermost.arguments ++ [argument]))
  | _, _ => .error (.parse (.unexpected .closeParen token))

/-- Read a token right after the opening parenthesis of a call. -/
def readFirstArgument (settings : Settings) (scope : List String) (reader : ExprReader)
    (token : Token) : Except Failure ExprReader :=
  match token.lexeme, reader.stack with
  | .closeParen, innermost :: outer => .ok (reader.closeCall innermost outer [])
  | _, _ => reader.readArgument settings scope token

/-- Read one token of an expression that is not finished. -/
def step (settings : Settings) (scope : List String) (reader : ExprReader) (token : Token) :
    Except Failure ExprReader :=
  match reader.awaiting with
  | .operand => reader.readOperand scope token
  | .parenthesis name position =>
    if token.lexeme = .openParen then reader.openCall settings name position
    else .error (.parse (.unexpected .openParen token))
  | .firstArgument => reader.readFirstArgument settings scope token
  | .nextArgument => reader.readArgument settings scope token
  | .continuation operand => reader.readContinuation operand token

end ExprReader

/-- Refuse a number with too many digits. -/
def Token.checkDigits (limits : Limits) (token : Token) : Except Fault Unit :=
  match token.lexeme with
  | .number digits => limits.checkDigits digits
  | _ => .ok ()

/-- The token that comes next: the first of those that remain, or else what
the text ends with. -/
def Token.following (remaining : List Token) (ending : Except LexError Token) :
    Except LexError Token :=
  match remaining with
  | next :: _ => .ok next
  | [] => ending

/-- An expression that was read, and what was met on the way. -/
structure ParsedExpr where
  expr : Expr
  calls : List Call
  /-- the token after the expression -/
  next : Token

/-- A reading that failed, and how far it came. -/
structure StuckExpr where
  failure : Failure
  calls : List Call
  /-- the token that was looked at, if there was any -/
  token : Option Token

namespace ExprReader

/-- Read an expression up to the first token that does not belong to it.  A
token is left only after the one behind it has been read, and a number that is
too long is noticed only then. -/
def run (settings : Settings) (scope : List String) (ending : Except LexError Token)
    (reader : ExprReader) : List Token → Except StuckExpr ParsedExpr
  | [] =>
    match ending with
    | .error error => .error ⟨.lexical error, reader.calls, none⟩
    | .ok last =>
      match reader.finished? last.lexeme, reader.step settings scope last with
      | some expr, _ => .ok ⟨expr, reader.calls, last⟩
      | none, .error failure => .error ⟨failure, reader.calls, some last⟩
      | none, .ok _ => .error ⟨.parse (.unexpected .operand last), reader.calls, some last⟩
  | token :: remaining =>
    match reader.finished? token.lexeme with
    | some expr => .ok ⟨expr, reader.calls, token⟩
    | none =>
      match reader.step settings scope token with
      | .error failure => .error ⟨failure, reader.calls, some token⟩
      | .ok reader' =>
        match Token.following remaining ending with
        | .error error => .error ⟨.lexical error, reader.calls, some token⟩
        | .ok next =>
          match token.checkDigits settings.limits with
          | .error fault => .error ⟨.fault fault, reader.calls, some next⟩
          | .ok () => reader'.run settings scope ending remaining

end ExprReader

/-- Read the expression that a text begins with.  The scope holds the
parameters that it may use. -/
def Expr.parse (settings : Settings) (scope : List String) (text : String) :
    Except StuckExpr ParsedExpr :=
  let scan := (Cursor.start text).scanAll
  (ExprReader.start []).run settings scope scan.ending scan.tokens

/-- Make sure that nothing follows an expression. -/
def ParsedExpr.checkEnd (parsed : ParsedExpr) : Except ParseError Unit :=
  if parsed.next.lexeme = .endOfInput then .ok ()
  else .error (.unexpected .endOfInput parsed.next)

end Polycalc

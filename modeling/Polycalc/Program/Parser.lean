import Polycalc.Expr.Parser

/-!
# Reading programs

A program is read token by token, like the expressions in it.  The grammar of
a definition leaves one choice only, that of another parameter or the opening
brace, so between two tokens it is enough to know the part of the definition
that has been read.
-/

namespace Polycalc

/-- The name and the parameters of a definition, as far as they were read. -/
structure Heading where
  name : String
  parameters : List String
  deriving Repr

/-- How far a definition has been read. -/
inductive Phase
  /-- nothing of it -/
  | start
  /-- the word that begins it -/
  | define
  /-- the word that begins it and a space -/
  | name
  /-- its name or a parameter, which a space must follow -/
  | word (heading : Heading)
  /-- its name or a parameter and a space -/
  | parameters (heading : Heading)
  /-- everything up to the opening brace, which a space must follow -/
  | brace (heading : Heading)
  /-- a part of its body -/
  | body (heading : Heading) (reader : ExprReader)
  /-- everything up to the space after its body -/
  | bodyEnd (heading : Heading) (body : Expr)
  /-- everything up to the closing brace, which a space must follow -/
  | closed (heading : Heading) (body : Expr)
  /-- everything but the end of the statement -/
  | statementEnd (heading : Heading) (body : Expr)
  deriving Repr

/-- How far a program has been read. -/
structure ProgramReader where
  program : Program
  /-- how many definitions are complete -/
  count : Nat
  phase : Phase

namespace ProgramReader

/-- The reader before the first token of a text. -/
def start : ProgramReader :=
  ⟨.empty, 0, .start⟩

/-- The same reader in another phase. -/
def enter (reader : ProgramReader) (phase : Phase) : ProgramReader :=
  { reader with phase }

/-- Begin the body of a definition. -/
def beginBody (reader : ProgramReader) (heading : Heading) : ProgramReader :=
  reader.enter (.body heading (.start reader.program.calls))

/-- Keep the calls that were met in a body, and go on after the space that
follows it. -/
def endBody (reader : ProgramReader) (heading : Heading) (calls : List Call) (body : Expr) :
    ProgramReader :=
  { reader with
    program := { reader.program with calls }
    phase := .bodyEnd heading body }

/-- Complete a definition; its line is its running number. -/
def endDefinition (reader : ProgramReader) (heading : Heading) (body : Expr) :
    ProgramReader where
  program :=
    reader.program.define
      ⟨heading.name, heading.parameters, body, (reader.count + 1 : Nat)⟩
  count := reader.count + 1
  phase := .start

/-- Read a token that may be one lexeme only. -/
def require (reader : ProgramReader) (lexeme : Lexeme) (expected : Expected) (token : Token)
    (phase : Phase) : Except Failure ProgramReader :=
  if token.lexeme = lexeme then .ok (reader.enter phase)
  else .error (.parse (.unexpected expected token))

/-- Read the name of a function. -/
def readName (reader : ProgramReader) (token : Token) : Except Failure ProgramReader :=
  match token.lexeme with
  | .entry => .ok (reader.enter (.word ⟨entryName, []⟩))
  | .function name => .ok (reader.enter (.word ⟨name, []⟩))
  | _ => .error (.parse (.unexpected .functionName token))

/-- Read another parameter, which the entry function must not have, or the
opening brace. -/
def readParameter (reader : ProgramReader) (heading : Heading) (token : Token) :
    Except Failure ProgramReader :=
  match token.lexeme with
  | .parameter name =>
    if heading.name = entryName then .error (.parse (.entryParameter token))
    else
      .ok (reader.enter (.word { heading with parameters := heading.parameters ++ [name] }))
  | .openBrace => .ok (reader.enter (.brace heading))
  | _ => .error (.parse (.unexpected .openBrace token))

/-- Read a token of a body, or the space after it. -/
def readBody (settings : Settings) (reader : ProgramReader) (heading : Heading)
    (body : ExprReader) (token : Token) : Except Failure ProgramReader :=
  match body.finished? token.lexeme with
  | some expr =>
    if token.lexeme = .space then .ok (reader.endBody heading body.calls expr)
    else .error (.parse (.unexpected .space token))
  | none => do
    let body ← body.step settings heading.parameters token
    return reader.enter (.body heading body)

/-- Read one token of a program. -/
def step (settings : Settings) (reader : ProgramReader) (token : Token) :
    Except Failure ProgramReader :=
  match reader.phase with
  | .start => reader.require .define .definition token .define
  | .define => reader.require .space .space token .name
  | .name => reader.readName token
  | .word heading => reader.require .space .space token (.parameters heading)
  | .parameters heading => reader.readParameter heading token
  | .brace heading =>
    if token.lexeme = .space then .ok (reader.beginBody heading)
    else .error (.parse (.unexpected .space token))
  | .body heading body => reader.readBody settings heading body token
  | .bodyEnd heading body => reader.require .closeBrace .closeBrace token (.closed heading body)
  | .closed heading body => reader.require .space .space token (.statementEnd heading body)
  | .statementEnd heading body =>
    match token.lexeme with
    | .endOfStatement _ => .ok (reader.endDefinition heading body)
    | _ => .error (.parse (.unexpected .endOfStatement token))

/-- The program that was read, if the text ends here.  The end of the input is
never a part of a definition. -/
def finish (settings : Settings) (reader : ProgramReader) (last : Token) :
    Except Failure Program :=
  match reader.phase with
  | .start => .ok reader.program
  | _ =>
    match reader.step settings last with
    | .error failure => .error failure
    | .ok _ => .error (.parse (.unexpected .definition last))

/-- Read definitions up to the end of the input.  A token is left only after
the one behind it has been read, and a number that is too long is noticed only
then. -/
def run (settings : Settings) (ending : Except LexError Token) (reader : ProgramReader) :
    List Token → Except Failure Program
  | [] =>
    match ending with
    | .error error => .error (.lexical error)
    | .ok last => reader.finish settings last
  | token :: remaining => do
    let reader ← reader.step settings token
    let _ ← (Token.following remaining ending).mapError .lexical
    Failure.ofFault (token.checkDigits settings.limits)
    reader.run settings ending remaining

end ProgramReader

/-- Read a text as a program, without comparing the calls with the
definitions. -/
def Program.parse (settings : Settings) (text : String) : Except Failure Program :=
  let scan := (Cursor.start text).scanAll
  ProgramReader.start.run settings scan.ending scan.tokens

end Polycalc

import Polycalc.Expr.Printer
import Polycalc.Program.Parser

/-!
# Validating programs

A call may name a function that is defined further down, so the calls are
compared with the table of functions when all of a program has been read.  The
first bad call is reported, in the order in which the calls were noted.

What was registered by hand is checked like the calls that were read.  A
parameter has a name that a function may lack; nothing else but a call gets any
further.
-/

namespace Polycalc

namespace Program

/-- The text of a bad call, unless it is nested too deeply to be written. -/
def badCallText (limits : Limits) (reference : Expr) : Except Failure String :=
  if limits.allowsNesting reference.nesting then Failure.ofFault (reference.render limits)
  else .error (.parse .nestedTooDeeply)

/-- Refuse something that names a function which is not defined. -/
def refuseUnknown (limits : Limits) (reference : Expr) : Except Failure Unit := do
  let text ← badCallText limits reference
  throw (.parse (.unknownFunction reference text))

/-- Refuse a call of a function that is not defined or that takes another
number of arguments. -/
def checkCall (limits : Limits) (program : Program) (call : Call) : Except Failure Unit :=
  match program.find? call.name with
  | none => refuseUnknown limits call.toExpr
  | some target =>
    if call.arguments.length = target.arity then return
    else do
      let text ← badCallText limits call.toExpr
      throw (.parse (.wrongArity call text target))

/-- Refuse what was registered, unless it is a call that could have been
read. -/
def checkRegistered (limits : Limits) (program : Program) : Expr → Except Failure Unit
  | .call site name arguments position =>
    program.checkCall limits ⟨site, name, arguments, position⟩
  | other =>
    match other.name? with
    | none => throw (.fault (.notACall other.kind "name"))
    | some name =>
      if program.contains name then throw (.fault (.notACall other.kind "arguments"))
      else refuseUnknown limits other

/-- Refuse a program that has no entry function or that has a bad call. -/
def validate (limits : Limits) (program : Program) : Except Failure Unit :=
  if program.contains entryName then do
    program.calls.forM (program.checkCall limits)
    program.registered.forM (program.checkRegistered limits)
  else .error (.parse .noEntry)

/-- Read a text as a program all of whose calls are good. -/
def parseValid (settings : Settings) (text : String) : Except Failure Program := do
  let program ← Program.parse settings text
  program.validate settings.limits
  return program

end Program

end Polycalc

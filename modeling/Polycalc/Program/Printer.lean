import Polycalc.Expr.Printer
import Polycalc.Program

/-!
# Printing programs

A definition has a short form for listings, `F(a b):=body`, and its source
form, `DEF F a b { body } ;`.  The source form of a program is a text that can
be read again.
-/

namespace Polycalc

namespace Definition

/-- The short form of a definition. -/
def render (limits : Limits) (definition : Definition) : Except Fault String := do
  let body ← definition.body.render limits
  return definition.name ++ "(" ++ " ".intercalate definition.parameters ++ "):=" ++ body

/-- The source form of a definition, without a line end. -/
def source (limits : Limits) (definition : Definition) : Except Fault String := do
  let body ← definition.body.render limits
  let header := " ".intercalate (definition.name :: definition.parameters)
  return "DEF " ++ header ++ " \x7b " ++ body ++ " \x7d ;"

end Definition

namespace Program

/-- The short forms of all definitions, one on a line. -/
def render (limits : Limits) (program : Program) : Except Fault String := do
  let texts ← program.functions.entries.mapM (Definition.render limits)
  return "\n".intercalate texts

/-- The source forms of all definitions, each ended by a line end. -/
def source (limits : Limits) (program : Program) : Except Fault String := do
  let texts ← program.functions.entries.mapM (Definition.source limits)
  return String.join (texts.map (· ++ "\n"))

end Program

end Polycalc

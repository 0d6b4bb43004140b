import Polycalc.Expr
import Polycalc.Token

/-!
# Programs

A program is a table of function definitions, together with the calls that
were met while it was read and the definitions that replaced an earlier one.
Calls may also be registered by hand, and what is registered need not be one.
The table lists the functions in the order in which their names were first
defined, and it has one definition per name: a later definition of the same
name takes the place of the earlier one.
-/

namespace Polycalc

/-- The definition of one function. -/
structure Definition where
  name : String
  parameters : List String
  body : Expr
  /-- the running number of the definition in its text -/
  line : Int
  deriving Repr, Inhabited

/-- How many arguments a function takes. -/
def Definition.arity (definition : Definition) : Nat :=
  definition.parameters.length

/-- Put a definition in the place of the one with its name, or at the end. -/
def Definition.insertInto (definition : Definition) : List Definition → List Definition
  | [] => [definition]
  | entry :: rest =>
    if entry.name = definition.name then definition :: rest
    else entry :: definition.insertInto rest

theorem Definition.map_name_insertInto (definition : Definition) (entries : List Definition) :
    (definition.insertInto entries).map Definition.name =
      if definition.name ∈ entries.map Definition.name then entries.map Definition.name
      else entries.map Definition.name ++ [definition.name] := by
  induction entries with
  | nil => rfl
  | cons entry rest ih =>
      by_cases same : entry.name = definition.name
      · simp [insertInto, same]
      · have different : definition.name ≠ entry.name := Ne.symm same
        simp only [insertInto, same, if_false, List.map_cons, ih, List.mem_cons, different,
          false_or]
        split <;> rfl

/-- Function definitions with distinct names. -/
structure FunctionTable where
  entries : List Definition
  distinct : (entries.map Definition.name).Nodup

namespace FunctionTable

/-- The table without functions. -/
def empty : FunctionTable := ⟨[], List.nodup_nil⟩

instance : Inhabited FunctionTable := ⟨empty⟩

/-- The names of the functions, in the order of their first definitions. -/
def names (table : FunctionTable) : List String :=
  table.entries.map Definition.name

/-- Define a function anew or for the first time. -/
def insert (table : FunctionTable) (definition : Definition) : FunctionTable where
  entries := definition.insertInto table.entries
  distinct := by
    rw [Definition.map_name_insertInto]
    split
    · exact table.distinct
    · rename_i fresh
      rw [List.nodup_append]
      refine ⟨table.distinct, by simp, ?_⟩
      intro name member other otherMember equal
      rw [List.mem_singleton] at otherMember
      subst otherMember
      subst equal
      exact fresh member

/-- The definition of a name. -/
def find? (table : FunctionTable) (name : String) : Option Definition :=
  table.entries.find? (·.name = name)

/-- Whether a name is defined. -/
def contains (table : FunctionTable) (name : String) : Bool :=
  (table.find? name).isSome

/-- How many functions are defined. -/
def size (table : FunctionTable) : Nat :=
  table.entries.length

theorem names_insert (table : FunctionTable) (definition : Definition) :
    (table.insert definition).names =
      if definition.name ∈ table.names then table.names
      else table.names ++ [definition.name] :=
  definition.map_name_insertInto table.entries

theorem find?_insert (table : FunctionTable) (definition : Definition) (name : String) :
    (table.insert definition).find? name =
      if definition.name = name then some definition else table.find? name := by
  suffices key : ∀ entries : List Definition,
      (definition.insertInto entries).find? (·.name = name) =
        if definition.name = name then some definition
        else entries.find? (·.name = name) from key table.entries
  intro entries
  induction entries with
  | nil => by_cases same : definition.name = name <;> simp [Definition.insertInto, same]
  | cons entry rest ih =>
      by_cases replaced : entry.name = definition.name
      · by_cases same : definition.name = name
        · simp [Definition.insertInto, replaced, same]
        · simp [Definition.insertInto, replaced, same]
      · by_cases first : entry.name = name
        · have different : definition.name ≠ name := fun equal =>
            replaced (first.trans equal.symm)
          simp [Definition.insertInto, first, different, Ne.symm different]
        · simp only [Definition.insertInto, replaced, if_false, List.find?_cons, first,
            decide_false, ih]

end FunctionTable

/-- A table of functions and what was noted while it was read. -/
structure Program where
  functions : FunctionTable := .empty
  /-- every call, in the order in which the calls were completed -/
  calls : List Call := []
  /-- what was registered as a call by hand, after the calls that were read -/
  registered : List Expr := []
  /-- the definitions that replaced an earlier one of their name -/
  redefined : List Definition := []
  deriving Inhabited

namespace Program

/-- The program without definitions. -/
def empty : Program := {}

/-- Define a function, and note whether that replaced a definition. -/
def define (program : Program) (definition : Definition) : Program :=
  { program with
    functions := program.functions.insert definition
    redefined :=
      if program.functions.contains definition.name then program.redefined ++ [definition]
      else program.redefined }

/-- Register something as a call. -/
def register (program : Program) (expr : Expr) : Program :=
  { program with registered := program.registered ++ [expr] }

/-- The calls that were read, and what was registered after them. -/
def registry (program : Program) : List Expr :=
  program.calls.map Call.toExpr ++ program.registered

/-- The definition of a name. -/
def find? (program : Program) (name : String) : Option Definition :=
  program.functions.find? name

/-- Whether a name is defined. -/
def contains (program : Program) (name : String) : Bool :=
  program.functions.contains name

end Program

end Polycalc

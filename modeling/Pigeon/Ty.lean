/-!
# Types

The types of Pigeon values and parameters. `any` is a type of native parameters only and has no
spelling in source text.
-/

namespace Pigeon

/-- A type of values or of native parameters. -/
inductive Ty where
  | int
  | float
  | bool
  | string
  | void
  | any
  deriving DecidableEq, Repr

namespace Ty

/-- The name of a type. -/
def name : Ty → String
  | int => "int"
  | float => "float"
  | bool => "bool"
  | string => "string"
  | void => "void"
  | any => "any"

/-- The types that can be spelled in source text. -/
def spellable : List Ty :=
  [int, float, bool, string, void]

/-- The type that a name in source text stands for. -/
def ofName? (s : String) : Option Ty :=
  spellable.find? (·.name = s)

/-- A type of numbers. -/
def isNumeric : Ty → Bool
  | int | float => true
  | _ => false

/-- An argument of type `arg` can be passed where `param` is expected. -/
def accepts (param arg : Ty) : Bool :=
  arg ≠ void && (param = any || param = arg)

/-- The name of a type that may be unknown. -/
def nameOrNone : Option Ty → String
  | some t => t.name
  | none => "<none>"

end Ty

end Pigeon

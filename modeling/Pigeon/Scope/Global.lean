import Pigeon.Scope.Arena

/-!
# Global scopes

A global scope has no scope around it. It holds the natives of the host and the functions of a
program.
-/

namespace Pigeon.Arena

/-- The symbols of a global scope, in the order of their declaration. -/
def globals (a : Arena) (g : Handle) : Except Failure (List Symbol) := do
  return (← a.get g).symbols.map (·.2)

/-- The name is declared in a global scope. -/
def containsGlobal (a : Arena) (g : Handle) (name : String) : Except Failure Bool := do
  return (← a.get g).symbols.contains name

/-- The symbol of a name in a global scope. -/
def global? (a : Arena) (g : Handle) (name : String) : Except Failure (Option Symbol) := do
  return (← a.get g).symbols.find? name

/-- The function of a name in a global scope. -/
def globalFunction? (a : Arena) (g : Handle) (name : String) :
    Except Failure (Option Function) := do
  match ← a.global? g name with
  | some (.func f) => return some f
  | _ => return none

/-- Declares a symbol in a global scope. -/
def declareGlobal (a : Arena) (g : Handle) (symbol : Symbol) : Except Failure Arena := do
  if ← a.containsGlobal g symbol.name then throw (.scope (.duplicateGlobal symbol.name))
  else a.put g symbol.name symbol

end Pigeon.Arena

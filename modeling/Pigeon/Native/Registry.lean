import Pigeon.Scope.Frame

/-!
# The registry of natives

A host collects native variables and functions under distinct names. They are installed into a
global scope, and the variables can be given their first values again between two runs.
-/

namespace Pigeon

/-- A variable of the host and the data that it begins with. -/
structure NativeVariable where
  ty : Ty
  name : String
  readOnly : Bool
  initial : Payload

/-- A function of the host. -/
structure NativeFunction where
  returns : Ty
  name : String
  callback : Callback
  params : List Ty

/-- The natives of a host, in the order of their registration, and the names that are taken. -/
structure Natives where
  vars : List NativeVariable := []
  funcs : List NativeFunction := []
  claimed : List String := []

/-- The first value of a native variable. -/
def NativeVariable.first (v : NativeVariable) : Except Failure Value :=
  (v.initial.toValue v.ty).mapError .conversion

/-- The symbol of a native variable with its first value, if it has one. -/
def NativeVariable.symbol (v : NativeVariable) : Symbol :=
  .var { name := v.name, ty := some v.ty, readOnly := v.readOnly, value := v.first.toOption }

/-- The parameters of a native function, which are named by their places. -/
def NativeFunction.parameters (f : NativeFunction) : List Parameter :=
  f.params.zipIdx.map fun (ty, i) => ⟨s!"arg{i}", ty⟩

/-- The symbol of a native function. -/
def NativeFunction.symbol (f : NativeFunction) : Symbol :=
  .func { name := f.name, returns := f.returns, params := f.parameters, body := .native f.callback }

/-- A step of a registration, which keeps what was done before a failure. -/
abbrev Registration := ExceptT Failure (StateM Natives)

namespace Registration

/-- Takes a name, which must not be taken yet. -/
def claim (name : String) : Registration Unit := do
  if (← get).claimed.contains name then throw (.argument (.alreadyRegistered name))
  else modify fun n => { n with claimed := n.claimed ++ [name] }

/-- Adds a variable. The data that it begins with has to fit its type. -/
def addVariable (v : NativeVariable) : Registration Unit := do
  if v.ty = .void || v.ty = .any then throw (.argument (.variableOfType v.name v.ty))
  else
    match v.first with
    | .error e => throw e
    | .ok _ =>
      claim v.name
      modify fun n => { n with vars := n.vars ++ [v] }

/-- Adds a function. -/
def addFunction (f : NativeFunction) : Registration Unit := do
  if f.returns = .any then throw (.argument (.returnsAny f.name))
  else if f.params.contains .void then throw (.argument (.takesVoid f.name))
  else
    claim f.name
    modify fun n => { n with funcs := n.funcs ++ [f] }

end Registration

namespace Natives

/-- The registered names: variables first, then functions. -/
def names (n : Natives) : List String :=
  n.vars.map (·.name) ++ n.funcs.map (·.name)

/-- The symbols of all natives: variables first, then functions. -/
def symbols (n : Natives) : List Symbol :=
  n.vars.map (·.symbol) ++ n.funcs.map (·.symbol)

/-- The natives after a registration that must not fail. -/
def after (n : Natives) (registration : Registration Unit) : Except Failure Natives :=
  match registration n with
  | (.ok (), n) => .ok n
  | (.error e, _) => .error e

/-- Registers a variable. -/
def registerVariable (n : Natives) (ty : Ty) (name : String) (readOnly : Bool)
    (initial : Payload) : Except Failure Natives :=
  n.after (.addVariable ⟨ty, name, readOnly, initial⟩)

/-- Registers a function. -/
def registerFunction (n : Natives) (returns : Ty) (name : String) (callback : Callback)
    (params : List Ty) : Except Failure Natives :=
  n.after (.addFunction ⟨returns, name, callback, params⟩)

/-- Makes a change for each member of a list, up to the first one that fails. -/
def changeAll {α : Type} (change : α → Arena → Except Failure Arena) :
    List α → Arena → Except Failure Unit × Arena
  | [], a => (.ok (), a)
  | x :: rest, a =>
    match change x a with
    | .ok a => changeAll change rest a
    | .error e => (.error e, a)

/-- Declares symbols in a global scope up to the first one that fails. -/
def declareAll (g : Handle) (symbols : List Symbol) (a : Arena) : Except Failure Unit × Arena :=
  changeAll (fun s a => a.declareGlobal g s) symbols a

/-- Declares a native variable with its first value in a global scope. -/
def declareVariable (g : Handle) (v : NativeVariable) (a : Arena) : Except Failure Arena := do
  let _ ← v.first
  a.declareGlobal g v.symbol

/-- Installs all natives into a global scope: variables first, then functions. -/
def install (n : Natives) (g : Handle) (a : Arena) : Except Failure Unit × Arena :=
  match changeAll (declareVariable g) n.vars a with
  | (.ok (), a) => declareAll g (n.funcs.map (·.symbol)) a
  | (.error e, a) => (.error e, a)

/-- Gives one native variable its first value again. A function of that name is left alone. -/
def resetVariable (g : Handle) (v : NativeVariable) (a : Arena) : Except Failure Arena := do
  let first ← v.first
  match ← a.global? g v.name with
  | none => throw (.missing v.name)
  | some (.func _) => return a
  | some (.var w) => a.put g v.name (.var { w with value := some first })

/-- Resets native variables up to the first one that fails. -/
def resetAll (g : Handle) (vars : List NativeVariable) (a : Arena) : Except Failure Unit × Arena :=
  changeAll (resetVariable g) vars a

/-- Gives all native variables in a global scope their first values again. -/
def reset (n : Natives) (g : Handle) (a : Arena) : Except Failure Unit × Arena :=
  resetAll g n.vars a

end Natives

end Pigeon

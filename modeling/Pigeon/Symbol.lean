import Pigeon.Host

/-!
# Symbols

What a name stands for: a variable, or a function of the program or of the host.
-/

namespace Pigeon

/-- A variable. While a program is checked it has no value, and its type is unknown if its
declaration is ill-typed. -/
structure Variable where
  name : String
  ty : Option Ty
  readOnly : Bool := false
  value : Option Value := none

/-- A parameter of a function. -/
structure Parameter where
  name : String
  ty : Ty
  deriving DecidableEq, Repr

/-- What a function does when it is called. -/
inductive FunctionBody where
  | native (callback : Callback)
  | declared (block : Block)

/-- A function. -/
structure Function where
  name : String
  returns : Ty
  params : List Parameter
  body : FunctionBody

/-- The function belongs to the host. -/
def Function.isNative (f : Function) : Bool :=
  match f.body with
  | .native _ => true
  | .declared _ => false

/-- What a name stands for. -/
inductive Symbol where
  | var (v : Variable)
  | func (f : Function)

/-- The name of a symbol. -/
def Symbol.name : Symbol → String
  | var v => v.name
  | func f => f.name

/-- The symbols of a scope by name, in the order of their declaration. -/
abbrev Symbols := List (String × Symbol)

namespace Symbols

/-- The symbol of a name. -/
def find? (symbols : Symbols) (name : String) : Option Symbol :=
  symbols.lookup name

/-- The name is declared. -/
def contains (symbols : Symbols) (name : String) : Bool :=
  symbols.any (·.1 = name)

/-- Stores a symbol under a name. A name that is declared already keeps its place. -/
def insert (symbols : Symbols) (name : String) (symbol : Symbol) : Symbols :=
  match symbols with
  | [] => [(name, symbol)]
  | (n, s) :: rest => if n = name then (n, symbol) :: rest else (n, s) :: insert rest name symbol

end Symbols

end Pigeon

import Pigeon.Ty

/-!
# Operators

Unary and binary operators with their typing rules. The rules are shared by the checker, which
applies them to the types of expressions, and by the machine, which applies them to the tags of
values. A tree that was built by hand can hold an operator that the language does not have; such
an operator keeps its symbol and has no typing rule.
-/

namespace Pigeon

/-- A binary operator. -/
inductive BinOp where
  | add | sub | mul | div | mod
  | lt | gt | le | ge
  | eq | ne
  | and | or
  | other (symbol : String)
  deriving DecidableEq, Repr

/-- A unary operator. -/
inductive UnOp where
  | pos | neg | not
  | other (symbol : String)
  deriving DecidableEq, Repr

/-- The operator of an assignment. -/
inductive AssignOp where
  /-- Plain assignment. -/
  | set
  /-- Assignment of the result of a binary operator. -/
  | update (op : BinOp)
  | other (symbol : String)
  deriving DecidableEq, Repr

/-- The direction of a counted loop; any word but `to` counts downwards. -/
inductive Direction where
  | up
  | down
  | other (word : String)
  deriving DecidableEq, Repr

/-- An operator that the language does not have. -/
inductive UnknownOperator where
  | binary (symbol : String)
  | unary (symbol : String)
  deriving DecidableEq, Repr

/-- The text of the error. -/
def UnknownOperator.message : UnknownOperator → String
  | .binary symbol => s!"unknown binary operator '{symbol}'"
  | .unary symbol => s!"unknown unary operator '{symbol}'"

namespace BinOp

/-- The symbol of an operator. -/
def symbol : BinOp → String
  | add => "+" | sub => "-" | mul => "*" | div => "/" | mod => "%"
  | lt => "<" | gt => ">" | le => "<=" | ge => ">="
  | eq => "==" | ne => "!="
  | and => "&&" | or => "||"
  | other s => s

/-- The operators of the language. -/
def all : List BinOp :=
  [add, sub, mul, div, mod, lt, gt, le, ge, eq, ne, and, or]

/-- The operator with a given symbol. -/
def ofSymbol (s : String) : BinOp :=
  (all.find? (·.symbol = s)).getD (other s)

/-- Sum, difference, product or quotient. -/
def isArithmetic : BinOp → Bool
  | add | sub | mul | div => true
  | _ => false

/-- A comparison by order. -/
def isRelational : BinOp → Bool
  | lt | gt | le | ge => true
  | _ => false

/-- A comparison by equality. -/
def isEquality : BinOp → Bool
  | eq | ne => true
  | _ => false

/-- Conjunction or disjunction. -/
def isLogical : BinOp → Bool
  | and | or => true
  | _ => false

/-- An operator whose result is a `bool` whatever its operands are. -/
def yieldsBool (op : BinOp) : Bool :=
  op.isRelational || op.isEquality || op.isLogical

/-- The type of the result of `+`, `-`, `*` or `/`, if the operands are acceptable: two ints give
an int, other numbers a float, and a sum with an operand that is no number is a concatenation. -/
def arithmeticResult (op : BinOp) (l r : Ty) : Option Ty :=
  if l = .void || r = .void then none
  else if l = .int && r = .int then some .int
  else if l.isNumeric && r.isNumeric then some .float
  else if op = add then some .string
  else none

/-- The type of the result, if the operands are acceptable. -/
def result (op : BinOp) (l r : Ty) : Except UnknownOperator (Option Ty) :=
  match op with
  | add | sub | mul | div => .ok (op.arithmeticResult l r)
  | mod => .ok (if l = .int && r = .int then some .int else none)
  | lt | gt | le | ge => .ok (if l.isNumeric && r.isNumeric then some .bool else none)
  | eq | ne => .ok (if l = r && l ≠ .void then some .bool else none)
  | and | or => .ok (if l = .bool && r = .bool then some .bool else none)
  | other s => .error (.binary s)

end BinOp

namespace UnOp

/-- The symbol of an operator. -/
def symbol : UnOp → String
  | pos => "+" | neg => "-" | not => "!"
  | other s => s

/-- The operators of the language. -/
def all : List UnOp :=
  [pos, neg, not]

/-- The operator with a given symbol. -/
def ofSymbol (s : String) : UnOp :=
  (all.find? (·.symbol = s)).getD (other s)

/-- The type of the result, if the operand is acceptable. -/
def result (op : UnOp) (t : Ty) : Except UnknownOperator (Option Ty) :=
  match op with
  | pos | neg => .ok (if t.isNumeric then some t else none)
  | not => .ok (if t = .bool then some .bool else none)
  | other s => .error (.unary s)

end UnOp

namespace AssignOp

/-- The symbol of an operator. -/
def symbol : AssignOp → String
  | set => "="
  | update op => op.symbol ++ "="
  | other s => s

/-- The operators of the language. -/
def all : List AssignOp :=
  [set, update .add, update .sub, update .mul, update .div, update .mod]

/-- The operator with a given symbol. -/
def ofSymbol (s : String) : AssignOp :=
  (all.find? (·.symbol = s)).getD (other s)

/-- The binary operator that an assignment applies before it stores, which a foreign symbol names
by all but its last character. -/
def binary? : AssignOp → Option BinOp
  | set => none
  | update op => some op
  | other s => some (.ofSymbol (String.ofList s.toList.dropLast))

end AssignOp

namespace Direction

/-- The word of a direction. -/
def word : Direction → String
  | up => "to"
  | down => "downto"
  | other w => w

/-- The direction with a given word. -/
def ofWord (w : String) : Direction :=
  if w = "to" then up else if w = "downto" then down else other w

/-- The step of the counter. -/
def step : Direction → Int64
  | up => 1
  | _ => -1

/-- A counter has passed the bound. -/
def passed (d : Direction) (counter bound : Int64) : Bool :=
  match d with
  | up => bound < counter
  | _ => counter < bound

end Direction

end Pigeon

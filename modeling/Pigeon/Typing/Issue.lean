import Pigeon.Failure

/-!
# Issues

What the checker can find wrong with a program that has a tree.
-/

namespace Pigeon

/-- Where a condition stands. -/
inductive ConditionPlace where
  | ifCondition
  | whileCondition
  | doWhileCondition
  | ternaryCondition
  deriving DecidableEq, Repr

/-- The condition with the code of the message. -/
def ConditionPlace.text : ConditionPlace → String
  | ifCondition => "[TYP-0070] if condition"
  | whileCondition => "[TYP-0080] while condition"
  | doWhileCondition => "[TYP-0081] do-while condition"
  | ternaryCondition => "[TYP-0180] ternary condition"

/-- What is wrong with a part of a program. -/
inductive Issue where
  | functionClash (name : String) (withFunction : Bool)
  | duplicateParam (param function : String)
  | voidParam (param function : String)
  | missingReturn (function : String) (returns : Ty)
  | duplicateVariable (name : String)
  | voidInitializer (name : String)
  | unresolved (e : ScopeError)
  | unassignable (e : ScopeError)
  | assignedType (name : String) (actual target : Ty)
  | updateOperands (op : AssignOp) (target value : Ty)
  | updateResult (name : String) (op : AssignOp) (result target : Ty)
  | condition (place : ConditionPlace) (actual : Ty)
  | forStart (actual : Ty)
  | forBound (actual : Ty)
  | breakOutsideLoop
  | continueOutsideLoop
  | notOperand (actual : Ty)
  | signOperand (op : UnOp) (actual : Ty)
  | operands (op : BinOp) (left right : Ty)
  | voidOperand (op : BinOp)
  | notCallable (name : String)
  | argumentCount (function : String) (expected actual : Nat)
  | argumentType (function : String) (index : Nat) (actual expected : Ty)
  | voidArgument (function : String) (index : Nat)
  | unknownFunction (name : String)
  | returnOutsideFunction
  | returnWithoutValue (function : String) (expected : Ty)
  | returnFromVoid (function : String)
  | returnType (actual expected : Ty)
  deriving DecidableEq, Repr

namespace Issue

/-- The kind of the diagnostic. -/
def kind : Issue → DiagnosticKind
  | functionClash .. | duplicateParam .. | duplicateVariable .. => .duplicateDeclaration
  | missingReturn .. | breakOutsideLoop | continueOutsideLoop | returnOutsideFunction => .structural
  | unresolved e | unassignable e => e.kind
  | argumentCount .. | argumentType .. => .argumentMismatch
  | unknownFunction .. => .unknownIdentifier
  | voidParam .. | voidInitializer .. | assignedType .. | updateOperands .. | updateResult ..
  | condition .. | forStart .. | forBound .. | notOperand .. | signOperand .. | operands ..
  | voidOperand .. | notCallable .. | voidArgument .. | returnWithoutValue ..
  | returnFromVoid .. | returnType .. => .typeMismatch

/-- The rule about the operands of a binary operator, with the code of the message. -/
def operandRule (op : BinOp) : String :=
  if op.isArithmetic then s!"[TYP-0170] operator '{op.symbol}' expects numeric operands"
  else if op = .mod then "[TYP-0173] operator '%' expects operands of type 'int'"
  else if op.isRelational then s!"[TYP-0174] operator '{op.symbol}' expects numeric operands"
  else if op.isEquality then
    s!"[TYP-0172] equality operator '{op.symbol}' requires both operands to have the same type"
  else s!"[TYP-0171] operator '{op.symbol}' expects operands of type 'bool'"

/-- The code for a name that cannot be used. -/
def unresolvedCode : ScopeError → String
  | .notAVariable _ => "TYP-0061"
  | .readOnly _ => "TYP-0062"
  | _ => "TYP-0060"

/-- The code for a name that cannot be assigned to. -/
def unassignableCode : ScopeError → String
  | .notAVariable _ => "TYP-0063"
  | .readOnly _ => "TYP-0062"
  | _ => "TYP-0060"

/-- The text of the issue. -/
def message : Issue → String
  | functionClash name withFunction =>
    let what := if withFunction then "function" else "native"
    s!"[SIG-0010] function '{name}' conflicts with an existing {what} of the same name"
  | duplicateParam param function =>
    s!"[SIG-0020] duplicate parameter '{param}' in function '{function}'"
  | voidParam param function =>
    s!"[SIG-0030] parameter '{param}' of function '{function}' cannot have type 'void'"
  | missingReturn function returns =>
    s!"[TYP-0010] not all paths in function '{function}' return a value of type '{returns.name}'"
  | duplicateVariable name =>
    s!"[TYP-0020] variable '{name}' is already declared in this scope"
  | voidInitializer name =>
    s!"[TYP-0050] initializer for '{name}' is 'void', cannot assign to variable"
  | unresolved e => s!"[{unresolvedCode e}] {e.message}"
  | unassignable e => s!"[{unassignableCode e}] {e.message}"
  | assignedType name actual target =>
    s!"[TYP-0064] cannot assign a value of type '{actual.name}' " ++
      s!"to variable '{name}' of type '{target.name}'"
  | updateOperands op target value =>
    s!"[TYP-0065] operator '{op.symbol}' cannot combine '{target.name}' and '{value.name}'"
  | updateResult name op result target =>
    s!"[TYP-0064] '{name} {op.symbol} ...' produces '{result.name}', " ++
      s!"but '{name}' has type '{target.name}'"
  | condition place actual => s!"{place.text} must have type 'bool', got '{actual.name}'"
  | forStart actual => s!"[TYP-0090] for-loop start must have type 'int', got '{actual.name}'"
  | forBound actual => s!"[TYP-0090] for-loop bound must have type 'int', got '{actual.name}'"
  | breakOutsideLoop => "[TYP-0110] 'break' outside of a loop"
  | continueOutsideLoop => "[TYP-0120] 'continue' outside of a loop"
  | notOperand actual =>
    s!"[TYP-0161] unary '!' expects operand of type 'bool', got '{actual.name}'"
  | signOperand op actual =>
    s!"[TYP-0160] unary '{op.symbol}' expects a numeric operand, got '{actual.name}'"
  | operands op left right => s!"{operandRule op}, got '{left.name}' and '{right.name}'"
  | voidOperand op => s!"[TYP-0175] operator '{op.symbol}' cannot take a 'void' operand"
  | notCallable name => s!"[TYP-0181] symbol '{name}' is not callable"
  | argumentCount function expected actual =>
    s!"[TYP-0183] function '{function}' expects {expected} argument(s), got {actual}"
  | argumentType function index actual expected =>
    s!"[TYP-0184] argument {index + 1} to function '{function}' has type '{actual.name}', " ++
      s!"expected '{expected.name}'"
  | voidArgument function index =>
    s!"[TYP-0185] argument {index + 1} to function '{function}' is 'void'"
  | unknownFunction name => s!"[TYP-0189] unknown function '{name}'"
  | returnOutsideFunction => "[TYP-0260] return statement outside of function"
  | returnWithoutValue function expected =>
    s!"[TYP-0261] function '{function}' must return a value of type '{expected.name}'"
  | returnFromVoid function =>
    s!"[TYP-0262] void function '{function}' cannot return a value"
  | returnType actual expected =>
    s!"[TYP-0263] return value has type '{actual.name}', expected '{expected.name}'"

/-- The diagnostic about a part of a file. -/
def diagnostic (i : Issue) (filename : Option String) (span : Option Span) : Diagnostic :=
  .atSpan i.kind i.message filename span

end Issue

end Pigeon

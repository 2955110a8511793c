import Pigeon.Execution.Arithmetic
import Pigeon.Execution.Machine

/-!
# Evaluating expressions

All operands are evaluated from left to right, also both branches of a conditional expression. How
a declared function is called is a parameter, so that evaluation follows the tree alone.
-/

namespace Pigeon

/-- What the machine needs to know about the program around the current place. -/
structure RunSite where
  filename : Option String
  /-- The largest number of rounds of a loop. -/
  rounds : Nat
  /-- Calls a function that is declared with the given body. -/
  call : Function → Block → List Value → Option Span → Run Value

namespace Run

/-- The truth value of a result. -/
def expectBool (v : Value) (span : Option Span) : Run Bool :=
  match v with
  | .bool b => return b
  | v => throw (.runtime (.unexpectedType .bool v.ty) span)

/-- The integer of a result. -/
def expectInt (v : Value) (span : Option Span) : Run Int64 :=
  match v with
  | .int n => return n
  | v => throw (.runtime (.unexpectedType .int v.ty) span)

/-- The function of a name in the global scope. -/
def function (site : RunSite) (name : String) (span : Option Span) : Run Function := do
  let m ← get
  match ← ofExcept (m.arena.globalFunction? m.globals name) with
  | some f => return f
  | none => throw (.defect (.undeclaredFunction name) (some ⟨site.filename, span⟩))

/-- Checks the arguments of a native function against its parameters, as far as both go. -/
def checkNativeArguments (name : String) :
    List Parameter → List Value → List (Option Span) → Run Unit
  | p :: ps, v :: vs, span :: spans => do
    if p.ty.accepts v.ty then checkNativeArguments name ps vs spans
    else throw (.runtime (.nativeArgument name p.ty v.ty) span)
  | _, _, _ => return

/-- Fits what a native function has given to its result type. An integer that is too large for a
float, or too large to be shown, is a failure of its own; any other misfit is blamed on the
function. -/
def nativeResult (f : Function) (p : Payload) : Run Value :=
  match p.toValue f.returns with
  | .ok v => return v
  | .error .overflow => throw (.conversion .overflow)
  | .error .tooManyDigits => throw (.conversion .tooManyDigits)
  | .error e => throw (.usage (.badResult f.name e))

/-- Calls a native function. -/
def callNative (f : Function) (c : Callback) (args : List Value) (spans : List (Option Span)) :
    Run Value := do
  checkNativeArguments f.name f.params args spans
  nativeResult f (← callback c args)

/-- Calls a function with evaluated arguments. -/
def callFunction (site : RunSite) (f : Function) (args : List Value) (spans : List (Option Span))
    (span : Option Span) : Run Value :=
  match f.body with
  | .native c => callNative f c args spans
  | .declared body => site.call f body args span

mutual

/-- The value of an expression. -/
def eval (site : RunSite) : Expr → Run Value
  | .int n _ => return .ofInt n
  | .float x _ => return .float x
  | .string s _ => return .string s
  | .bool b _ => return .bool b
  | .var name _ => lookup name
  | .paren inner _ => eval site inner
  | .unary op operand span => do
    let v ← eval site operand
    ofExcept (op.apply v span)
  | .binary op left right span => do
    let l ← eval site left
    let r ← eval site right
    ofExcept (op.apply l r span)
  | .ternary cond yes no _ => do
    let c ← expectBool (← eval site cond) cond.span
    let y ← eval site yes
    let n ← eval site no
    return if c then y else n
  | .call name args span => do
    let f ← function site name span
    let values ← evalAll site args
    callFunction site f values (args.map Expr.span) span
  | .other kind _ span =>
    throw (.defect (.unexpectedExpression kind) (some ⟨site.filename, span⟩))

/-- The values of a list of expressions. -/
def evalAll (site : RunSite) : List Expr → Run (List Value)
  | [] => return []
  | e :: es => do
    let v ← eval site e
    return v :: (← evalAll site es)

end

/-- The truth value of an expression. -/
def evalBool (site : RunSite) (e : Expr) : Run Bool := do
  expectBool (← eval site e) e.span

/-- The integer of an expression. -/
def evalInt (site : RunSite) (e : Expr) : Run Int64 := do
  expectInt (← eval site e) e.span

end Run

end Pigeon

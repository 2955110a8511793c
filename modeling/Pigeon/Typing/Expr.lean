import Pigeon.Typing.Checker

/-!
# Types of expressions

The checker finds the type of an expression from the types of its parts. A part whose type is
unknown has been reported already; the rules go on with what is known and report nothing twice.
-/

namespace Pigeon.Check

/-- The type of a variable. -/
def variableType (site : CheckSite) (name : String) (span : Option Span) : Check (Option Ty) := do
  let s ← get
  let found ← orReport site span .unresolved (s.frame.resolveVariable s.arena name)
  return found.bind (·.ty)

/-- The type of a unary operation. -/
def unaryType (site : CheckSite) (op : UnOp) (operand : Option Ty) (span : Option Span) :
    Check (Option Ty) := do
  let fallback := if op = .not then some .bool else operand
  match operand with
  | none => return fallback
  | some t =>
    match ← ofOperator (op.result t) with
    | some r => return some r
    | none =>
      report site span (if op = .not then .notOperand t else .signOperand op t)
      return fallback

/-- The type of a binary operation. -/
def binaryType (site : CheckSite) (op : BinOp) (left right : Option Ty) (span : Option Span) :
    Check (Option Ty) := do
  let unknown := if op.yieldsBool then some .bool else none
  match left, right with
  | some l, some r =>
    if l = .void || r = .void then
      report site span (.voidOperand op)
      return unknown
    else
      match ← ofOperator (op.result l r) with
      | some t => return some t
      | none =>
        report site span (.operands op l r)
        return if op.yieldsBool then some .bool else some l
  | _, _ => return unknown

/-- Reports a condition of another type than `bool`. -/
def checkCondition (site : CheckSite) (place : ConditionPlace) (found : Option Ty)
    (span : Option Span) : Check Unit := do
  match found with
  | none | some .bool => return
  | some t => report site span (.condition place t)

/-- Reports about the arguments of a call, from the one at `index` on. -/
def checkArguments (site : CheckSite) (function : String) :
    (index : Nat) → List Parameter → List (Option Span × Option Ty) → Check Unit
  | _, _, [] => return
  | index, params, (span, found) :: args => do
    match found, params with
    | some .void, _ => report site span (.voidArgument function index)
    | some t, p :: _ =>
      if !p.ty.accepts t then report site span (.argumentType function index t p.ty)
    | _, _ => pure ()
    checkArguments site function (index + 1) params.tail args

/-- The type of a call. -/
def callType (site : CheckSite) (name : String) (args : List (Option Span × Option Ty))
    (span : Option Span) : Check (Option Ty) := do
  match (← get).arena.global? site.globals name with
  | .error e => throw e
  | .ok none =>
    report site span (.unknownFunction name)
    return none
  | .ok (some (.var _)) =>
    report site span (.notCallable name)
    return none
  | .ok (some (.func f)) =>
    if f.params.length ≠ args.length then
      report site span (.argumentCount name f.params.length args.length)
    checkArguments site name 0 f.params args
    return some f.returns

mutual

/-- The type of an expression, which becomes its entry among the types. -/
def infer (site : CheckSite) : Expr → Check (Option Ty)
  | .int _ _ => annotated (return some .int)
  | .float _ _ => annotated (return some .float)
  | .string _ _ => annotated (return some .string)
  | .bool _ _ => annotated (return some .bool)
  | .var name span => annotated (variableType site name span)
  | .paren inner _ => annotated (infer site inner)
  | .unary op operand span => annotated do
    let t ← infer site operand
    unaryType site op t span
  | .binary op left right span => annotated do
    let l ← infer site left
    let r ← infer site right
    binaryType site op l r span
  | .ternary cond yes no _ => annotated do
    let c ← infer site cond
    checkCondition site .ternaryCondition c cond.span
    let y ← infer site yes
    let n ← infer site no
    return y.or n
  | .call name args span => annotated do
    let types ← inferAll site args
    callType site name types span
  | .other kind _ span =>
    throw (.defect (.unexpectedExpression kind) (some ⟨site.filename, span⟩))

/-- The spans and the types of a list of expressions. -/
def inferAll (site : CheckSite) : List Expr → Check (List (Option Span × Option Ty))
  | [] => return []
  | e :: es => do
    let t ← infer site e
    return (e.span, t) :: (← inferAll site es)

end

end Pigeon.Check

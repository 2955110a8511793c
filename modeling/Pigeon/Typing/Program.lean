import Pigeon.Typing.Expr

/-!
# Checking statements and programs

The check of a statement says whether every path through it returns. The scopes that it opens and
closes are those of a run: one block for the body of a statement or a function, and one block for
a counted loop, which holds the counter together with what the body declares.
-/

namespace Pigeon

namespace Check

/-- Checks a declaration whose initializer has the given type. -/
def checkDeclaration (site : CheckSite) (name : String) (value : Expr) (isConst : Bool)
    (span : Option Span) : Check Unit := do
  let found ← infer site value
  if found = some .void then report site value.span (.voidInitializer name)
  let ty := if found = some .void then none else found
  if !(← declare { name := name, ty := ty, readOnly := isConst }) then
    report site span (.duplicateVariable name)

/-- Checks the types of an assignment. -/
def checkAssignedType (site : CheckSite) (name : String) (op : AssignOp) (target value : Ty)
    (span : Option Span) : Check Unit := do
  match op.binary? with
  | none => if value ≠ target then report site span (.assignedType name value target)
  | some binary =>
    match ← ofOperator (binary.result target value) with
    | none => report site span (.updateOperands op target value)
    | some result =>
      if result ≠ target then report site span (.updateResult name op result target)

/-- Checks an assignment. -/
def checkAssignment (site : CheckSite) (name : String) (op : AssignOp) (value : Expr)
    (span : Option Span) : Check Unit := do
  let s ← get
  let target ← orReport site span .unassignable (s.frame.checkAssignable s.arena name)
  let found ← infer site value
  match target.bind (·.ty), found with
  | some t, some v => checkAssignedType site name op t v span
  | _, _ => return

/-- Checks a return with the type of its value, if it has one. -/
def checkReturn (site : CheckSite) (value : Option (Option Span × Option Ty))
    (span : Option Span) : Check Unit := do
  match site.function, value with
  | none, _ => report site span .returnOutsideFunction
  | some (name, expected), none =>
    if expected ≠ .void then report site span (.returnWithoutValue name expected)
  | some (name, expected), some (valueSpan, found) =>
    if expected = .void then report site span (.returnFromVoid name)
    else
      match found with
      | none => return
      | some t => if t ≠ expected then report site valueSpan (.returnType t expected)

/-- Reports a bound of a counted loop of another type than `int`. -/
def checkCounter (site : CheckSite) (issue : Ty → Issue) (found : Option Ty)
    (span : Option Span) : Check Unit := do
  match found with
  | none | some .int => return
  | some t => report site span (issue t)

mutual

/-- Checks a statement; true if every path through it returns. -/
def checkStmt (site : CheckSite) : Stmt → Check Bool
  | .block body => inBlock (checkBody site body)
  | .declare name value isConst span => do
    checkDeclaration site name value isConst span
    return false
  | .assign name op value span => do
    checkAssignment site name op value span
    return false
  | .call call _ => do
    let _ ← infer site call
    return false
  | .ifThen cond yes _ => do
    checkCondition site .ifCondition (← infer site cond) cond.span
    let _ ← inBlock (checkBody site yes)
    return false
  | .ifThenElse cond yes no _ => do
    checkCondition site .ifCondition (← infer site cond) cond.span
    let yesReturns ← inBlock (checkBody site yes)
    let noReturns ← inBlock (checkBody site no)
    return yesReturns && noReturns
  | .whileDo cond body _ => do
    checkCondition site .whileCondition (← infer site cond) cond.span
    let _ ← inBlock (checkBody { site with inLoop := true } body)
    return false
  | .doWhile body cond _ => do
    let _ ← inBlock (checkBody { site with inLoop := true } body)
    checkCondition site .doWhileCondition (← infer site cond) cond.span
    return false
  | .forCount counter start bound _ body _ => do
    checkCounter site .forStart (← infer site start) start.span
    inBlock do
      declareCounter counter
      checkCounter site .forBound (← infer site bound) bound.span
      let _ ← checkBody { site with inLoop := true } body
      return false
  | .ret none span => do
    checkReturn site none span
    return true
  | .ret (some value) span => do
    let found ← infer site value
    checkReturn site (some (value.span, found)) span
    return true
  | .brk span => do
    if !site.inLoop then report site span .breakOutsideLoop
    return false
  | .cont span => do
    if !site.inLoop then report site span .continueOutsideLoop
    return false
  | .other kind _ span =>
    throw (.defect (.unexpectedStatement kind) (some ⟨site.filename, span⟩))

/-- Checks the statements of a block in the scope that is open; true if one of them returns on
every path. -/
def checkBody (site : CheckSite) : Block → Check Bool
  | .mk stmts _ _ => checkStmts site stmts

/-- Checks a list of statements; true if one of them returns on every path. -/
def checkStmts (site : CheckSite) : List Stmt → Check Bool
  | [] => return false
  | s :: ss => do
    let returns ← checkStmt site s
    let moreReturn ← checkStmts site ss
    return returns || moreReturn

end

/-- Declares parameters; a name that is taken already was reported with the signature. -/
def declareParams : List Parameter → Check Unit
  | [] => return
  | p :: ps => do
    let _ ← declare { name := p.name, ty := some p.ty }
    declareParams ps

/-- Checks the body of a function in a frame of its own. -/
def checkFunction (site : CheckSite) (d : FuncDecl) : Check Unit := do
  match d.toFunction with
  | .error e => throw e
  | .ok f =>
    let site := { site with function := some (d.name, f.returns), inLoop := false }
    inFrame site.globals do
      declareParams f.params
      let returns ← inBlock (checkBody site d.body)
      if f.returns ≠ .void && !returns then
        report site d.span (.missingReturn d.name f.returns)

/-- Checks the items of a program in source order. -/
def checkItems (site : CheckSite) : List Item → Check Unit
  | [] => return
  | .func d :: rest => do
    checkFunction site d
    checkItems site rest
  | .stmt s :: rest => do
    let _ ← checkStmt site s
    checkItems site rest

end Check

/-- What a check of a program has found: the failure that ended it, if there was one, and what it
found before. -/
structure Checked where
  result : Except Failure Unit
  diagnostics : List Diagnostic
  types : Array (Option Ty)
  arena : Arena

/-- Checks a program against a global scope. -/
def Program.check (p : Program) (g : Handle) (a : Arena) : Checked :=
  let (frame, arena) := Frame.openIn a g
  let site : CheckSite := { filename := p.filename, globals := g }
  let (result, s) :=
    (Check.andFinally (Check.checkItems site p.items) Check.close).run
      { arena := arena, frame := frame, diagnostics := [], types := #[] }
  ⟨result, s.diagnostics, s.types, s.arena⟩

end Pigeon

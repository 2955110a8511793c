import Pigeon.Proofs.Step
import Pigeon.Proofs.Typing.Site
import Pigeon.Typing.Program

/-!
# The walk of the checker

The checker with a log of the nodes that it meets, each with the scopes that it sees there. Without
its log the walk is the check (`Walk.checkItems_erases`).
-/

namespace Pigeon

/-- A clean-up makes no entry in the log, so without the log it is the same step. -/
theorem Check.andFinally_erases {ε α : Type} {x : Logged ε Checker α} {y : Check α}
    (h : Logged.Erases x y) (cleanUp : Check Unit) :
    Logged.Erases (Logged.andFinally x cleanUp) (Check.andFinally y cleanUp) := by
  intro c log
  unfold Logged.andFinally Check.andFinally
  rw [← h c log]
  rcases x (c, log) with ⟨r, c', log'⟩
  simp only [Logged.lift_apply]
  rcases cleanUp c' with ⟨r', c''⟩
  cases r' <;> rfl

/-- What the checker sees when it meets a node. -/
structure Visit where
  node : Node
  arena : Arena
  frame : Frame

/-- A step of the checker that logs the nodes that it meets. -/
abbrev Walk (α : Type) := Logged Visit Checker α

namespace Walk

open Logged

/-- Meets a node. -/
def visit (n : Node) : Walk Unit := note fun c => ⟨n, c.arena, c.frame⟩

/-- Runs a step inside a new block. -/
def inBlock {α : Type} (body : Walk α) : Walk α := do
  lift Check.enter
  andFinally body Check.exit

/-- Runs a step inside a new frame, and then goes back to the frame before. -/
def inFrame {α : Type} (g : Handle) (body : Walk α) : Walk α := do
  let outer ← lift (Check.openFrame g)
  andFinally body do
    Check.close
    modify fun s => { s with frame := outer }

/-- Meets an expression and fills its entry with the type that is found. -/
def annotated (e : Expr) (body : Walk (Option Ty)) : Walk (Option Ty) := do
  visit (.expr e)
  let slot ← lift Check.reserve
  let found ← body
  lift (modify fun s => { s with types := s.types.setIfInBounds slot found })
  return found

mutual

/-- The type of an expression. -/
def infer (site : CheckSite) : Expr → Walk (Option Ty)
  | .int n sp => annotated (.int n sp) (return some .int)
  | .float x sp => annotated (.float x sp) (return some .float)
  | .string s sp => annotated (.string s sp) (return some .string)
  | .bool b sp => annotated (.bool b sp) (return some .bool)
  | .var name sp => annotated (.var name sp) (lift (Check.variableType site name sp))
  | .paren inner sp => annotated (.paren inner sp) (infer site inner)
  | .unary op operand sp => annotated (.unary op operand sp) do
    let t ← infer site operand
    lift (Check.unaryType site op t sp)
  | .binary op left right sp => annotated (.binary op left right sp) do
    let l ← infer site left
    let r ← infer site right
    lift (Check.binaryType site op l r sp)
  | .ternary cond yes no sp => annotated (.ternary cond yes no sp) do
    let c ← infer site cond
    lift (Check.checkCondition site .ternaryCondition c cond.span)
    let y ← infer site yes
    let n ← infer site no
    return y.or n
  | .call name args sp => annotated (.call name args sp) do
    let types ← inferAll site args
    lift (Check.callType site name types sp)
  | .other kind fields sp => do
    visit (.expr (.other kind fields sp))
    throw (.defect (.unexpectedExpression kind) (some ⟨site.filename, sp⟩))

/-- The spans and the types of a list of expressions. -/
def inferAll (site : CheckSite) : List Expr → Walk (List (Option Span × Option Ty))
  | [] => return []
  | e :: es => do
    let t ← infer site e
    return (e.span, t) :: (← inferAll site es)

end

/-- Checks a declaration. -/
def checkDeclaration (site : CheckSite) (name : String) (value : Expr) (isConst : Bool)
    (sp : Option Span) : Walk Unit := do
  let found ← infer site value
  lift do
    if found = some .void then Check.report site value.span (.voidInitializer name)
    let ty := if found = some .void then none else found
    if !(← Check.declare { name := name, ty := ty, readOnly := isConst }) then
      Check.report site sp (.duplicateVariable name)

/-- Checks an assignment. -/
def checkAssignment (site : CheckSite) (name : String) (op : AssignOp) (value : Expr)
    (sp : Option Span) : Walk Unit := do
  let s ← lift get
  let target ← lift (Check.orReport site sp .unassignable (s.frame.checkAssignable s.arena name))
  let found ← infer site value
  lift (match target.bind (·.ty), found with
    | some t, some v => Check.checkAssignedType site name op t v sp
    | _, _ => return)

mutual

/-- Checks a statement; true if every path through it returns. -/
def checkStmt (site : CheckSite) : Stmt → Walk Bool
  | .block body => do
    visit (.stmt (.block body))
    visit (.block body)
    inBlock (checkBody site body)
  | .declare name value isConst sp => do
    visit (.stmt (.declare name value isConst sp))
    checkDeclaration site name value isConst sp
    return false
  | .assign name op value sp => do
    visit (.stmt (.assign name op value sp))
    checkAssignment site name op value sp
    return false
  | .call call sp => do
    visit (.stmt (.call call sp))
    let _ ← infer site call
    return false
  | .ifThen cond yes sp => do
    visit (.stmt (.ifThen cond yes sp))
    let c ← infer site cond
    lift (Check.checkCondition site .ifCondition c cond.span)
    visit (.block yes)
    let _ ← inBlock (checkBody site yes)
    return false
  | .ifThenElse cond yes no sp => do
    visit (.stmt (.ifThenElse cond yes no sp))
    let c ← infer site cond
    lift (Check.checkCondition site .ifCondition c cond.span)
    visit (.block yes)
    let yesReturns ← inBlock (checkBody site yes)
    visit (.block no)
    let noReturns ← inBlock (checkBody site no)
    return yesReturns && noReturns
  | .whileDo cond body sp => do
    visit (.stmt (.whileDo cond body sp))
    let c ← infer site cond
    lift (Check.checkCondition site .whileCondition c cond.span)
    visit (.block body)
    let _ ← inBlock (checkBody { site with inLoop := true } body)
    return false
  | .doWhile body cond sp => do
    visit (.stmt (.doWhile body cond sp))
    visit (.block body)
    let _ ← inBlock (checkBody { site with inLoop := true } body)
    let c ← infer site cond
    lift (Check.checkCondition site .doWhileCondition c cond.span)
    return false
  | .forCount counter start bound direction body sp => do
    visit (.stmt (.forCount counter start bound direction body sp))
    let first ← infer site start
    lift (Check.checkCounter site .forStart first start.span)
    inBlock do
      lift (Check.declareCounter counter)
      let last ← infer site bound
      lift (Check.checkCounter site .forBound last bound.span)
      visit (.block body)
      let _ ← checkBody { site with inLoop := true } body
      return false
  | .ret none sp => do
    visit (.stmt (.ret none sp))
    lift (Check.checkReturn site none sp)
    return true
  | .ret (some value) sp => do
    visit (.stmt (.ret (some value) sp))
    let found ← infer site value
    lift (Check.checkReturn site (some (value.span, found)) sp)
    return true
  | .brk sp => do
    visit (.stmt (.brk sp))
    lift (Check.checkStmt site (.brk sp))
  | .cont sp => do
    visit (.stmt (.cont sp))
    lift (Check.checkStmt site (.cont sp))
  | .other kind fields sp => do
    visit (.stmt (.other kind fields sp))
    throw (.defect (.unexpectedStatement kind) (some ⟨site.filename, sp⟩))

/-- Checks the statements of a block in the scope that is open. -/
def checkBody (site : CheckSite) : Block → Walk Bool
  | .mk stmts _ _ => checkStmts site stmts

/-- Checks a list of statements. -/
def checkStmts (site : CheckSite) : List Stmt → Walk Bool
  | [] => return false
  | s :: ss => do
    let returns ← checkStmt site s
    let moreReturn ← checkStmts site ss
    return returns || moreReturn

end

/-- Checks the body of a function in a frame of its own. -/
def checkFunction (site : CheckSite) (d : FuncDecl) : Walk Unit := do
  match d.toFunction with
  | .error e => throw e
  | .ok f =>
    let site := { site with function := some (d.name, f.returns), inLoop := false }
    inFrame site.globals do
      lift (Check.declareParams f.params)
      visit (.block d.body)
      let returns ← inBlock (checkBody site d.body)
      lift do
        if f.returns ≠ .void && !returns then
          Check.report site d.span (.missingReturn d.name f.returns)

/-- Checks the items of a program in source order. -/
def checkItems (site : CheckSite) : List Item → Walk Unit
  | [] => return
  | .func d :: rest => do
    checkFunction site d
    checkItems site rest
  | .stmt s :: rest => do
    let _ ← checkStmt site s
    checkItems site rest

/-! ## Without its log, the walk is the check -/

/-- A block of a walk is a block of the check without its log. -/
theorem inBlock_erases {α : Type} {x : Walk α} {y : Check α} (h : Erases x y) :
    Erases (inBlock x) (Check.inBlock y) :=
  .bind (.lift _) fun _ => Check.andFinally_erases h _

theorem inFrame_erases {α : Type} {x : Walk α} {y : Check α} (g : Handle) (h : Erases x y) :
    Erases (inFrame g x) (Check.inFrame g y) :=
  .bind (.lift _) fun _ => Check.andFinally_erases h _

/-- The visit of an expression is all that a walk adds to it. -/
theorem annotated_erases {e : Expr} {x : Walk (Option Ty)} {y : Check (Option Ty)}
    (h : Erases x y) : Erases (annotated e x) (Check.annotated y) :=
  .note (.bind (.lift _) fun _ => .bind h fun _ => .bind (.lift _) fun _ => .pure _)

mutual

/-- A walk changes nothing about the type of an expression and the reports, by induction on the
expression. -/
theorem infer_erases (site : CheckSite) : ∀ e : Expr, Erases (infer site e) (Check.infer site e)
  | .int _ _ => annotated_erases (.pure _)
  | .float _ _ => annotated_erases (.pure _)
  | .string _ _ => annotated_erases (.pure _)
  | .bool _ _ => annotated_erases (.pure _)
  | .var _ _ => annotated_erases (.lift _)
  | .paren inner _ => annotated_erases (infer_erases site inner)
  | .unary _ operand _ => annotated_erases (.bind (infer_erases site operand) fun _ => .lift _)
  | .binary _ left right _ =>
    annotated_erases (.bind (infer_erases site left) fun _ =>
      .bind (infer_erases site right) fun _ => .lift _)
  | .ternary cond yes no _ =>
    annotated_erases (.bind (infer_erases site cond) fun _ => .bind (.lift _) fun _ =>
      .bind (infer_erases site yes) fun _ => .bind (infer_erases site no) fun _ => .pure _)
  | .call _ args _ => annotated_erases (.bind (inferAll_erases site args) fun _ => .lift _)
  | .other _ _ _ => .note (.throw _)

/-- The same of expressions in a row. -/
theorem inferAll_erases (site : CheckSite) :
    ∀ es : List Expr, Erases (inferAll site es) (Check.inferAll site es)
  | [] => .pure _
  | e :: es => .bind (infer_erases site e) fun _ => .bind (inferAll_erases site es) fun _ => .pure _

end

/-- A walk changes nothing about the check of a declaration. -/
theorem checkDeclaration_erases (site : CheckSite) (name : String) (value : Expr) (isConst : Bool)
    (sp : Option Span) :
    Erases (checkDeclaration site name value isConst sp)
      (Check.checkDeclaration site name value isConst sp) :=
  .bind (infer_erases site value) fun _ => .lift _

/-- A walk changes nothing about the check of an assignment. -/
theorem checkAssignment_erases (site : CheckSite) (name : String) (op : AssignOp) (value : Expr)
    (sp : Option Span) :
    Erases (checkAssignment site name op value sp)
      (Check.checkAssignment site name op value sp) :=
  .bind (.lift _) fun _ => .bind (.lift _) fun _ => .bind (infer_erases site value) fun _ => .lift _

mutual

/-- A walk changes nothing about the check of a statement, by induction on the statement. -/
theorem checkStmt_erases (site : CheckSite) :
    ∀ s : Stmt, Erases (checkStmt site s) (Check.checkStmt site s)
  | .block body => .note (.note (inBlock_erases (checkBody_erases site body)))
  | .declare name value isConst sp =>
    .note (.bind (checkDeclaration_erases site name value isConst sp) fun _ => .pure _)
  | .assign name op value sp =>
    .note (.bind (checkAssignment_erases site name op value sp) fun _ => .pure _)
  | .call call _ => .note (.bind (infer_erases site call) fun _ => .pure _)
  | .ifThen cond yes _ =>
    .note (.bind (infer_erases site cond) fun _ => .bind (.lift _) fun _ => .note
      (.bind (inBlock_erases (checkBody_erases site yes)) fun _ => .pure _))
  | .ifThenElse cond yes no _ =>
    .note (.bind (infer_erases site cond) fun _ => .bind (.lift _) fun _ => .note
      (.bind (inBlock_erases (checkBody_erases site yes)) fun _ => .note
        (.bind (inBlock_erases (checkBody_erases site no)) fun _ => .pure _)))
  | .whileDo cond body _ =>
    .note (.bind (infer_erases site cond) fun _ => .bind (.lift _) fun _ => .note
      (.bind (inBlock_erases (checkBody_erases _ body)) fun _ => .pure _))
  | .doWhile body cond _ =>
    .note (.note (.bind (inBlock_erases (checkBody_erases _ body)) fun _ =>
      .bind (infer_erases site cond) fun _ => .bind (.lift _) fun _ => .pure _))
  | .forCount _ start bound _ body _ =>
    .note (.bind (infer_erases site start) fun _ => .bind (.lift _) fun _ => inBlock_erases
      (.bind (.lift _) fun _ => .bind (infer_erases site bound) fun _ => .bind (.lift _) fun _ =>
        .note (.bind (checkBody_erases _ body) fun _ => .pure _)))
  | .ret none _ => .note (.bind (.lift _) fun _ => .pure _)
  | .ret (some value) _ =>
    .note (.bind (infer_erases site value) fun _ => .bind (.lift _) fun _ => .pure _)
  | .brk _ => .note (.lift _)
  | .cont _ => .note (.lift _)
  | .other _ _ _ => .note (.throw _)

/-- The same of the statements of a block. -/
theorem checkBody_erases (site : CheckSite) :
    ∀ b : Block, Erases (checkBody site b) (Check.checkBody site b)
  | .mk stmts _ _ => checkStmts_erases site stmts

/-- The same of statements in a row. -/
theorem checkStmts_erases (site : CheckSite) :
    ∀ ss : List Stmt, Erases (checkStmts site ss) (Check.checkStmts site ss)
  | [] => .pure _
  | s :: ss =>
    .bind (checkStmt_erases site s) fun _ => .bind (checkStmts_erases site ss) fun _ => .pure _

end

/-- A walk changes nothing about the check of a function. -/
theorem checkFunction_erases (site : CheckSite) (d : FuncDecl) :
    Erases (checkFunction site d) (Check.checkFunction site d) := by
  unfold checkFunction Check.checkFunction
  cases d.toFunction with
  | error e => exact .throw e
  | ok f =>
      exact inFrame_erases _ (.bind (.lift _) fun _ => .note
        (.bind (inBlock_erases (checkBody_erases _ d.body)) fun _ => .lift _))

/-- Without its log, the walk through the items of a program is their check. -/
theorem checkItems_erases (site : CheckSite) :
    ∀ items : List Item, Erases (checkItems site items) (Check.checkItems site items)
  | [] => .pure _
  | .func d :: rest => .bind (checkFunction_erases site d) fun _ => checkItems_erases site rest
  | .stmt s :: rest => .bind (checkStmt_erases site s) fun _ => checkItems_erases site rest

end Walk

/-- The nodes that the check of a program meets, in order. -/
def Program.visits (p : Program) (g : Handle) (a : Arena) : List Visit :=
  let (frame, arena) := Frame.openIn a g
  let site : CheckSite := { filename := p.filename, globals := g }
  (Walk.checkItems site p.items
    ({ arena := arena, frame := frame, diagnostics := [], types := #[] }, [])).2.2

end Pigeon

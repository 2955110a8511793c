import Pigeon.Execution.Program
import Pigeon.Proofs.Step
import Pigeon.Proofs.Typing.Site

/-!
# The trace of a run

The machine with a log of what it does at the nodes of the program. An event names the number of the
node, says what happens there, and keeps the state of the machine at that moment. The nodes are
numbered as in `Program.nodes`, so the body of a function has the same numbers in all its calls.

Without its log the traced run is the run (`Program.run_eq_traced`).
-/

namespace Pigeon

/-- What the machine does at a node. -/
inductive Moment where
  /-- It begins with the node. -/
  | enter (n : Node)
  /-- It is about to look up the variable of the node, or the target of the assignment. -/
  | resolve (name : String)
  /-- It is about to call a native function with the values of the arguments. -/
  | native (name : String) (args : List Value)
  /-- It has evaluated the expression. -/
  | value (e : Expr) (v : Value)
  /-- It has executed the statement. -/
  | finish (s : Stmt) (c : Completion)

/-- A moment of a run: the number of the node and the state of the machine. -/
structure Event where
  index : Nat
  moment : Moment
  machine : Machine

/-- A step of a run that logs what it does. -/
abbrev Trace (α : Type) := Logged Event Machine α

/-- How a declared function is called. -/
abbrev Caller := Function → Block → List Value → Option Span → Trace Value

namespace Trace

open Logged

/-! ## The traced machine -/

/-- Logs a moment at the node with the number `k`. -/
def observe (k : Nat) (moment : Moment) : Trace Unit := note fun m => ⟨k, moment, m⟩

/-- Runs a step inside a new block. -/
def inBlock {α : Type} (body : Trace α) : Trace α := do
  lift Run.enter
  andFinally body Run.exit

/-- Runs a step inside a frame. -/
def inFrame {α : Type} (f : Frame) (body : Trace α) : Trace α := do
  lift (modify fun m => { m with frames := f :: m.frames })
  andFinally body Run.close

/-- Evaluates an expression, from its first moment to its value. -/
def evaluated (k : Nat) (e : Expr) (body : Trace Value) : Trace Value := do
  observe k (.enter (.expr e))
  let v ← body
  observe k (.value e v)
  return v

/-- Executes a statement, from its first moment to its end. -/
def executed (k : Nat) (s : Stmt) (body : Trace Completion) : Trace Completion := do
  observe k (.enter (.stmt s))
  let c ← body
  observe k (.finish s c)
  return c

/-- Calls a function with evaluated arguments, for the call with the number `k`. -/
def callFunction (call : Caller) (k : Nat) (f : Function) (args : List Value)
    (spans : List (Option Span)) (span : Option Span) : Trace Value :=
  match f.body with
  | .native c => do
    observe k (.native f.name args)
    lift (Run.callNative f c args spans)
  | .declared body => call f body args span

mutual

/-- The value of the expression with the number `k`. -/
def eval (site : RunSite) (call : Caller) (k : Nat) : Expr → Trace Value
  | .int n sp => evaluated k (.int n sp) (return .ofInt n)
  | .float x sp => evaluated k (.float x sp) (return .float x)
  | .string s sp => evaluated k (.string s sp) (return .string s)
  | .bool b sp => evaluated k (.bool b sp) (return .bool b)
  | .var name sp => evaluated k (.var name sp) do
    observe k (.resolve name)
    lift (Run.lookup name)
  | .paren inner sp => evaluated k (.paren inner sp) (eval site call (k + 1) inner)
  | .unary op operand sp => evaluated k (.unary op operand sp) do
    let v ← eval site call (k + 1) operand
    lift (Run.ofExcept (op.apply v sp))
  | .binary op left right sp => evaluated k (.binary op left right sp) do
    let l ← eval site call (k + 1) left
    let r ← eval site call (k + 1 + left.nodes.length) right
    lift (Run.ofExcept (op.apply l r sp))
  | .ternary cond yes no sp => evaluated k (.ternary cond yes no sp) do
    let v ← eval site call (k + 1) cond
    let c ← lift (Run.expectBool v cond.span)
    let y ← eval site call (k + 1 + cond.nodes.length) yes
    let n ← eval site call (k + 1 + cond.nodes.length + yes.nodes.length) no
    return if c then y else n
  | .call name args sp => evaluated k (.call name args sp) do
    let f ← lift (Run.function site name sp)
    let values ← evalAll site call (k + 1) args
    callFunction call k f values (args.map Expr.span) sp
  | .other kind fields sp => do
    observe k (.enter (.expr (.other kind fields sp)))
    throw (.defect (.unexpectedExpression kind) (some ⟨site.filename, sp⟩))

/-- The values of a list of expressions, the first of which has the number `k`. -/
def evalAll (site : RunSite) (call : Caller) (k : Nat) : List Expr → Trace (List Value)
  | [] => return []
  | e :: es => do
    let v ← eval site call k e
    return v :: (← evalAll site call (k + e.nodes.length) es)

end

/-- The truth value of an expression. -/
def evalBool (site : RunSite) (call : Caller) (k : Nat) (e : Expr) : Trace Bool := do
  let v ← eval site call k e
  lift (Run.expectBool v e.span)

/-- The integer of an expression. -/
def evalInt (site : RunSite) (call : Caller) (k : Nat) (e : Expr) : Trace Int64 := do
  let v ← eval site call k e
  lift (Run.expectInt v e.span)

/-- Repeats a step for at most the given number of rounds. -/
def iterate {σ : Type} (step : σ → Trace (Completion ⊕ σ)) :
    (rounds : Nat) → σ → Trace Completion
  | 0, _ => throw .unfinished
  | rounds + 1, s => do
    match ← step s with
    | .inl c => return c
    | .inr s => iterate step rounds s

/-- One round of a loop with the test before the body. -/
def whileRound (test : Trace Bool) (body : Trace Completion) : Unit → Trace (Completion ⊕ Unit) :=
  fun () => do
    if ← test then return Run.afterRound () (← body) else return .inl .normal

/-- One round of a loop with the test after the body. -/
def doRound (body : Trace Completion) (test : Trace Bool) : Unit → Trace (Completion ⊕ Unit) :=
  fun () => do
    match Run.afterRound () (← body) with
    | .inl c => return .inl c
    | .inr () => if ← test then return .inr () else return .inl .normal

/-- One round of a counted loop with the counter at `n`. -/
def countRound (counter : String) (direction : Direction) (bound : Trace Int64)
    (body : Trace Completion) (n : Int64) : Trace (Completion ⊕ Int64) := do
  lift (Run.declare { name := counter, ty := some .int, value := some (.int n) })
  if direction.passed n (← bound) then return .inl .normal
  else
    match Run.afterRound (n + direction.step) (← body) with
    | .inl c => return .inl c
    | .inr next =>
      lift Run.exit
      lift Run.enter
      return .inr next

/-- Assigns the value of an expression to the target of the statement with the number `k`. -/
def execAssign (site : RunSite) (call : Caller) (k : Nat) (name : String) (op : AssignOp)
    (value : Expr) (span : Option Span) : Trace Unit := do
  let v ← eval site call (k + 1) value
  observe k (.resolve name)
  match op.binary? with
  | none => lift (Run.assign name v)
  | some binary =>
    let old ← lift (Run.lookup name)
    let new ← lift (Run.ofExcept (binary.apply old v span))
    lift (Run.assign name new)

mutual

/-- Executes the statement with the number `k`. -/
def exec (site : RunSite) (call : Caller) (k : Nat) : Stmt → Trace Completion
  | .block body => executed k (.block body) (execBlock site call (k + 1) body)
  | .declare name value isConst sp => executed k (.declare name value isConst sp) do
    let v ← eval site call (k + 1) value
    lift (Run.declare { name := name, ty := some v.ty, readOnly := isConst, value := some v })
    return .normal
  | .assign name op value sp => executed k (.assign name op value sp) do
    execAssign site call k name op value sp
    return .normal
  | .call e sp => executed k (.call e sp) do
    let _ ← eval site call (k + 1) e
    return .normal
  | .ifThen cond yes sp => executed k (.ifThen cond yes sp) do
    if ← evalBool site call (k + 1) cond then
      execBlock site call (k + 1 + cond.nodes.length) yes
    else return .normal
  | .ifThenElse cond yes no sp => executed k (.ifThenElse cond yes no sp) do
    if ← evalBool site call (k + 1) cond then
      execBlock site call (k + 1 + cond.nodes.length) yes
    else execBlock site call (k + 1 + cond.nodes.length + yes.nodes.length) no
  | .whileDo cond body sp => executed k (.whileDo cond body sp) <|
    iterate (whileRound (evalBool site call (k + 1) cond)
      (execBlock site call (k + 1 + cond.nodes.length) body)) site.rounds ()
  | .doWhile body cond sp => executed k (.doWhile body cond sp) <|
    iterate (doRound (execBlock site call (k + 1) body)
      (evalBool site call (k + 1 + body.nodes.length) cond)) site.rounds ()
  | .forCount counter start bound direction body sp =>
    executed k (.forCount counter start bound direction body sp) do
      let first ← evalInt site call (k + 1) start
      inBlock (iterate (countRound counter direction
        (evalInt site call (k + 1 + start.nodes.length) bound)
        (execBody site call (k + 1 + start.nodes.length + bound.nodes.length) body))
        site.rounds first)
  | .ret none sp => executed k (.ret none sp) (return .ret .void)
  | .ret (some value) sp => executed k (.ret (some value) sp) do
    return .ret (← eval site call (k + 1) value)
  | .brk sp => executed k (.brk sp) (return .brk)
  | .cont sp => executed k (.cont sp) (return .cont)
  | .other kind fields sp => do
    observe k (.enter (.stmt (.other kind fields sp)))
    throw (.defect (.unexpectedStatement kind) (some ⟨site.filename, sp⟩))

/-- Executes the block with the number `k` in a scope of its own. -/
def execBlock (site : RunSite) (call : Caller) (k : Nat) : Block → Trace Completion
  | .mk stmts braced sp => do
    observe k (.enter (.block (.mk stmts braced sp)))
    inBlock (execStmts site call (k + 1) stmts)

/-- Executes the block with the number `k` in the scope that is open. -/
def execBody (site : RunSite) (call : Caller) (k : Nat) : Block → Trace Completion
  | .mk stmts braced sp => do
    observe k (.enter (.block (.mk stmts braced sp)))
    execStmts site call (k + 1) stmts

/-- Executes statements, the first of which has the number `k`. -/
def execStmts (site : RunSite) (call : Caller) (k : Nat) : List Stmt → Trace Completion
  | [] => return .normal
  | s :: ss => do
    match ← exec site call k s with
    | .normal => execStmts site call (k + s.nodes.length) ss
    | c => return c

end

/-- Calls a declared function with at most `depth` calls inside each other. The number of the body
of a function is given by `index`. -/
def callDeclared (filename : Option String) (rounds : Nat) (index : String → Nat) :
    (depth : Nat) → Caller
  | 0, _, _, _, _ => throw (.runtime .stackExhausted none)
  | depth + 1, f, body, args, span => do
    let site : RunSite :=
      { filename := filename, rounds := rounds, call := Run.callDeclared filename rounds depth }
    let frame ← lift Run.openFrame
    lift (Run.bindParams frame f.params args)
    let c ← inFrame frame
      (execBlock site (callDeclared filename rounds index depth) (index f.name) body)
    lift (Run.callResult filename f span c)

/-- Executes the statements among items, the first of which has the number `k`. -/
def execItems (site : RunSite) (call : Caller) (k : Nat) : List Item → Trace Unit
  | [] => return
  | .func d :: rest => execItems site call (k + d.body.nodes.length) rest
  | .stmt s :: rest => do
    let _ ← exec site call k s
    execItems site call (k + s.nodes.length) rest

end Trace

/-- The number of the body of the first function of a name among items, the first of which has the
number `k`. -/
def Item.bodyIndex (name : String) (k : Nat) : List Item → Nat
  | [] => k
  | .func d :: rest => if d.name = name then k else bodyIndex name (k + d.body.nodes.length) rest
  | .stmt s :: rest => bodyIndex name (k + s.nodes.length) rest

/-- The site of the statements of a program at top level. -/
def Program.runSite (p : Program) (limits : Limits) : RunSite :=
  { filename := p.filename, rounds := limits.rounds
    call := Run.callDeclared p.filename limits.rounds limits.calls }

/-- The statements of a program at top level, traced. -/
def Program.traced (p : Program) (limits : Limits) : Trace Unit := do
  let frame ← Logged.lift Run.openFrame
  Trace.inFrame frame (Trace.execItems (p.runSite limits)
    (Trace.callDeclared p.filename limits.rounds (Item.bodyIndex · 0 p.items) limits.calls)
    0 p.items)

/-- What happens while a program runs against a global scope, in order. -/
def Program.trace (p : Program) (limits : Limits) (g : Handle) (a : Arena) (host : Host) :
    List Event :=
  (p.traced limits ({ arena := a, globals := g, frames := [], host := host }, [])).2.2

/-! ## Without its log, the traced run is the run -/

namespace Trace

open Logged

/-- A clean-up writes no event, so without the log it is the same step. -/
theorem andFinally_erases {ε α : Type} {x : Logged ε Machine α} {y : Run α} (h : Erases x y)
    (cleanUp : Run Unit) : Erases (andFinally x cleanUp) (Run.andFinally y cleanUp) := by
  intro m log
  unfold Logged.andFinally Run.andFinally
  rw [← h m log]
  rcases x (m, log) with ⟨r, m', log'⟩
  simp only [lift_apply]
  rcases cleanUp m' with ⟨r', m''⟩
  cases r' <;> rfl

/-- A traced block is a block without its log. -/
theorem inBlock_erases {α : Type} {x : Trace α} {y : Run α} (h : Erases x y) :
    Erases (inBlock x) (Run.inBlock y) :=
  .bind (.lift _) fun _ => andFinally_erases h _

/-- A traced frame is a frame without its log. -/
theorem inFrame_erases {α : Type} {x : Trace α} {y : Run α} (f : Frame) (h : Erases x y) :
    Erases (inFrame f x) (Run.inFrame f y) :=
  .bind (.lift _) fun _ => andFinally_erases h _

/-- An entry at the end leaves no trace in the erasure. -/
theorem noted_erases {α : Type} {x : Trace α} {y : Run α} {entry : α → Machine → Event}
    (h : Erases x y) : Erases (x >>= fun a => note (entry a) >>= fun _ => pure a) y := by
  intro m log
  have hx := h m log
  rw [Step.bind_apply, ← hx]
  rcases x (m, log) with ⟨r, m', log'⟩
  cases r with
  | ok a => rfl
  | error e => rfl

/-- The events around an expression are all that tracing adds to it. -/
theorem evaluated_erases {k : Nat} {e : Expr} {x : Trace Value} {y : Run Value} (h : Erases x y) :
    Erases (evaluated k e x) y :=
  .note (noted_erases h)

/-- The events around a statement are all that tracing adds to it. -/
theorem executed_erases {k : Nat} {s : Stmt} {x : Trace Completion} {y : Run Completion}
    (h : Erases x y) : Erases (executed k s x) y :=
  .note (noted_erases h)

variable {site : RunSite} {call : Caller}

/-- A traced call is a call without its log, if this holds of the declared functions that it runs.
-/
theorem callFunction_erases
    (hcall : ∀ f b args sp, Erases (call f b args sp) (site.call f b args sp))
    (k : Nat) (f : Function) (args : List Value) (spans : List (Option Span)) (sp : Option Span) :
    Erases (callFunction call k f args spans sp) (Run.callFunction site f args spans sp) := by
  unfold callFunction Run.callFunction
  cases f.body with
  | native c => exact .note (.lift _)
  | declared b => exact hcall f b args sp

mutual

/-- Tracing changes nothing about the value of an expression and the machine after it, by induction
on the expression. -/
theorem eval_erases (hcall : ∀ f b args sp, Erases (call f b args sp) (site.call f b args sp)) :
    ∀ (e : Expr) (k : Nat), Erases (eval site call k e) (Run.eval site e)
  | .int _ _, _ => evaluated_erases (.pure _)
  | .float _ _, _ => evaluated_erases (.pure _)
  | .string _ _, _ => evaluated_erases (.pure _)
  | .bool _ _, _ => evaluated_erases (.pure _)
  | .var _ _, _ => evaluated_erases (.note (.lift _))
  | .paren inner _, _ => evaluated_erases (eval_erases hcall inner _)
  | .unary _ operand _, _ =>
    evaluated_erases (.bind (eval_erases hcall operand _) fun _ => .lift _)
  | .binary _ left right _, _ =>
    evaluated_erases (.bind (eval_erases hcall left _) fun _ =>
      .bind (eval_erases hcall right _) fun _ => .lift _)
  | .ternary cond yes no _, _ =>
    evaluated_erases (.bind (eval_erases hcall cond _) fun _ => .bind (.lift _) fun _ =>
      .bind (eval_erases hcall yes _) fun _ => .bind (eval_erases hcall no _) fun _ => .pure _)
  | .call _ args _, _ =>
    evaluated_erases (.bind (.lift _) fun _ => .bind (evalAll_erases hcall args _) fun _ =>
      callFunction_erases hcall _ _ _ _ _)
  | .other _ _ _, _ => .note (.throw _)

/-- The same of expressions in a row. -/
theorem evalAll_erases (hcall : ∀ f b args sp, Erases (call f b args sp) (site.call f b args sp)) :
    ∀ (es : List Expr) (k : Nat), Erases (evalAll site call k es) (Run.evalAll site es)
  | [], _ => .pure _
  | e :: es, _ =>
    .bind (eval_erases hcall e _) fun _ => .bind (evalAll_erases hcall es _) fun _ => .pure _

end

/-- The same of conditions. -/
theorem evalBool_erases (hcall : ∀ f b args sp, Erases (call f b args sp) (site.call f b args sp))
    (e : Expr) (k : Nat) : Erases (evalBool site call k e) (Run.evalBool site e) :=
  .bind (eval_erases hcall e k) fun _ => .lift _

/-- The same of the bounds of counting loops. -/
theorem evalInt_erases (hcall : ∀ f b args sp, Erases (call f b args sp) (site.call f b args sp))
    (e : Expr) (k : Nat) : Erases (evalInt site call k e) (Run.evalInt site e) :=
  .bind (eval_erases hcall e k) fun _ => .lift _

/-- Traced rounds are rounds without their log, by induction on how many there may be. -/
theorem iterate_erases {σ : Type} {x : σ → Trace (Completion ⊕ σ)} {y : σ → Run (Completion ⊕ σ)}
    (h : ∀ s, Erases (x s) (y s)) :
    ∀ (rounds : Nat) (s : σ), Erases (iterate x rounds s) (Run.iterate y rounds s)
  | 0, _ => .throw _
  | rounds + 1, s => by
      refine .bind (h s) fun r => ?_
      cases r with
      | inl c => exact .pure c
      | inr s' => exact iterate_erases h rounds s'

/-- A traced round of a loop is its test, and its body if the test holds. -/
theorem whileRound_erases {test : Trace Bool} {test' : Run Bool} {body : Trace Completion}
    {body' : Run Completion} (htest : Erases test test') (hbody : Erases body body') (u : Unit) :
    Erases (whileRound test body u)
      (do if ← test' then return Run.afterRound () (← body') else return .inl .normal) := by
  refine .bind htest fun b => ?_
  cases b with
  | true => exact .bind hbody fun c => .pure _
  | false => exact .pure _

/-- A traced round of a loop that tests after its body is its body and then its test. -/
theorem doRound_erases {test : Trace Bool} {test' : Run Bool} {body : Trace Completion}
    {body' : Run Completion} (hbody : Erases body body') (htest : Erases test test') (u : Unit) :
    Erases (doRound body test u)
      (do
        match Run.afterRound () (← body') with
        | .inl c => return .inl c
        | .inr () => if ← test' then return .inr () else return .inl .normal) := by
  refine .bind hbody fun c => ?_
  cases Run.afterRound () c with
  | inl c => exact .pure _
  | inr u =>
      refine .bind htest fun b => ?_
      cases b with
      | true => exact .pure _
      | false => exact .pure _

/-- A traced round of a counting loop is a round without its log. -/
theorem countRound_erases {counter : String} {direction : Direction} {bound : Trace Int64}
    {bound' : Run Int64} {body : Trace Completion} {body' : Run Completion}
    (hbound : Erases bound bound') (hbody : Erases body body') (n : Int64) :
    Erases (countRound counter direction bound body n)
      (Run.countRound counter direction bound' body' n) := by
  refine .bind (.lift _) fun _ => .bind hbound fun last => ?_
  by_cases hpassed : direction.passed n last = true
  · rw [if_pos hpassed, if_pos hpassed]
    exact .pure _
  · rw [if_neg hpassed, if_neg hpassed]
    refine .bind hbody fun c => ?_
    cases Run.afterRound (n + direction.step) c with
    | inl c => exact .pure _
    | inr next => exact .bind (.lift _) fun _ => .bind (.lift _) fun _ => .pure _

/-- Tracing changes nothing about an assignment. -/
theorem execAssign_erases
    (hcall : ∀ f b args sp, Erases (call f b args sp) (site.call f b args sp)) (k : Nat)
    (name : String) (op : AssignOp) (value : Expr) (sp : Option Span) :
    Erases (execAssign site call k name op value sp) (Run.execAssign site name op value sp) := by
  refine .bind (eval_erases hcall value _) fun v => .note ?_
  cases op.binary? with
  | none => exact .lift _
  | some binary => exact .bind (.lift _) fun _ => .bind (.lift _) fun _ => .lift _

mutual

/-- Tracing changes nothing about what a statement does, by induction on the statement. -/
theorem exec_erases (hcall : ∀ f b args sp, Erases (call f b args sp) (site.call f b args sp)) :
    ∀ (s : Stmt) (k : Nat), Erases (exec site call k s) (Run.exec site s)
  | .block body, _ => executed_erases (execBlock_erases hcall body _)
  | .declare _ value _ _, _ =>
    executed_erases (.bind (eval_erases hcall value _) fun _ => .bind (.lift _) fun _ => .pure _)
  | .assign name op value sp, k =>
    executed_erases (.bind (execAssign_erases hcall k name op value sp) fun _ => .pure _)
  | .call e _, _ => executed_erases (.bind (eval_erases hcall e _) fun _ => .pure _)
  | .ifThen cond yes _, _ => executed_erases <| .bind (evalBool_erases hcall cond _) fun b => by
      cases b with
      | true => exact execBlock_erases hcall yes _
      | false => exact .pure _
  | .ifThenElse cond yes no _, _ =>
    executed_erases <| .bind (evalBool_erases hcall cond _) fun b => by
      cases b with
      | true => exact execBlock_erases hcall yes _
      | false => exact execBlock_erases hcall no _
  | .whileDo cond body _, _ =>
    executed_erases (iterate_erases (whileRound_erases (evalBool_erases hcall cond _)
      (execBlock_erases hcall body _)) _ _)
  | .doWhile body cond _, _ =>
    executed_erases (iterate_erases (doRound_erases (execBlock_erases hcall body _)
      (evalBool_erases hcall cond _)) _ _)
  | .forCount _ start bound _ body _, _ =>
    executed_erases (.bind (evalInt_erases hcall start _) fun _ => inBlock_erases
      (iterate_erases (countRound_erases (evalInt_erases hcall bound _)
        (execBody_erases hcall body _)) _ _))
  | .ret none _, _ => executed_erases (.pure _)
  | .ret (some value) _, _ => executed_erases (.bind (eval_erases hcall value _) fun _ => .pure _)
  | .brk _, _ => executed_erases (.pure _)
  | .cont _, _ => executed_erases (.pure _)
  | .other _ _ _, _ => .note (.throw _)

/-- The same of blocks with a scope of their own. -/
theorem execBlock_erases
    (hcall : ∀ f b args sp, Erases (call f b args sp) (site.call f b args sp)) :
    ∀ (b : Block) (k : Nat),
      Erases (execBlock site call k b) (Run.inBlock (Run.execBody site b))
  | .mk stmts _ _, _ => .note (inBlock_erases (execStmts_erases hcall stmts _))

/-- The same of blocks that are run in the scope of a call. -/
theorem execBody_erases
    (hcall : ∀ f b args sp, Erases (call f b args sp) (site.call f b args sp)) :
    ∀ (b : Block) (k : Nat), Erases (execBody site call k b) (Run.execBody site b)
  | .mk stmts _ _, _ => .note (execStmts_erases hcall stmts _)

/-- The same of statements in a row. -/
theorem execStmts_erases
    (hcall : ∀ f b args sp, Erases (call f b args sp) (site.call f b args sp)) :
    ∀ (ss : List Stmt) (k : Nat), Erases (execStmts site call k ss) (Run.execStmts site ss)
  | [], _ => .pure _
  | s :: ss, _ => .bind (exec_erases hcall s _) fun c => by
      cases c with
      | normal => exact execStmts_erases hcall ss _
      | brk => exact .pure _
      | cont => exact .pure _
      | ret v => exact .pure _

end

/-- Without its log, a traced call is a call. -/
theorem callDeclared_erases (filename : Option String) (rounds : Nat) (index : String → Nat) :
    ∀ (depth : Nat) (f : Function) (b : Block) (args : List Value) (sp : Option Span),
      Erases (callDeclared filename rounds index depth f b args sp)
        (Run.callDeclared filename rounds depth f b args sp)
  | 0, _, _, _, _ => .throw _
  | depth + 1, _, b, _, _ =>
    .bind (.lift _) fun _ => .bind (.lift _) fun _ =>
      .bind (inFrame_erases _ (execBlock_erases
        (callDeclared_erases filename rounds index depth) b _)) fun _ => .lift _

/-- The items of a program are run without the functions among them. -/
theorem execItems_erases
    (hcall : ∀ f b args sp, Erases (call f b args sp) (site.call f b args sp)) :
    ∀ (items : List Item) (k : Nat), Erases (execItems site call k items)
      (Run.execTop site (items.filterMap fun | .func _ => none | .stmt s => some s))
  | [], _ => .pure _
  | .func _ :: rest, _ => execItems_erases hcall rest _
  | .stmt s :: rest, _ => .bind (exec_erases hcall s _) fun _ => execItems_erases hcall rest _

end Trace

/-- Without its log, a traced run is a run. -/
theorem Program.traced_erases (p : Program) (limits : Limits) :
    Logged.Erases (p.traced limits) (do
      let frame ← Run.openFrame
      Run.inFrame frame (Run.execTop (p.runSite limits) p.statements)) := by
  have hcall := Trace.callDeclared_erases p.filename limits.rounds (Item.bodyIndex · 0 p.items)
    limits.calls
  have hitems : Logged.Erases (Trace.execItems (p.runSite limits) _ 0 p.items)
      (Run.execTop (p.runSite limits) p.statements) := Trace.execItems_erases hcall p.items 0
  exact .bind (.lift _) fun _ => Trace.inFrame_erases _ hitems

/-- A run ends as its traced run ends. -/
theorem Program.run_eq_traced (p : Program) (limits : Limits) (g : Handle) (a : Arena)
    (host : Host) :
    p.run limits g a host =
      let r := p.traced limits ({ arena := a, globals := g, frames := [], host := host }, [])
      (r.1, r.2.1.arena, r.2.1.host) := by
  have herase := p.traced_erases limits
    { arena := a, globals := g, frames := [], host := host } []
  exact congrArg (fun r : Except Failure Unit × Machine => (r.1, r.2.arena, r.2.host)) herase.symm

end Pigeon

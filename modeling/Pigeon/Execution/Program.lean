import Pigeon.Execution.Expr

/-!
# Running statements and programs

A statement says how it has finished. A `break` or `continue` is used up by the loop around it and
a `return` by the call around it; at top level none of them has an effect on the next statement.

The depth of calls is limited. The limit cuts a recursion off with a failure of its own.
-/

namespace Pigeon

/-- The limits of a run. -/
structure Limits where
  /-- The largest depth of calls of declared functions. -/
  calls : Nat := 1000
  /-- The largest number of rounds of a loop. -/
  rounds : Nat := 0x4000000000000000

namespace Run

/-- What follows a round of a loop: its end, or the next round from `next`. -/
def afterRound {σ : Type} (next : σ) : Completion → Completion ⊕ σ
  | .brk => .inl .normal
  | .ret v => .inl (.ret v)
  | .normal | .cont => .inr next

/-- Repeats a body as long as a test before it holds. -/
def whileLoop (rounds : Nat) (test : Run Bool) (body : Run Completion) : Run Completion :=
  iterate (fun () => do
    if ← test then return afterRound () (← body) else return .inl .normal) rounds ()

/-- Repeats a body as long as a test after it holds. -/
def doLoop (rounds : Nat) (body : Run Completion) (test : Run Bool) : Run Completion :=
  iterate (fun () => do
    match afterRound () (← body) with
    | .inl c => return .inl c
    | .inr () => if ← test then return .inr () else return .inl .normal) rounds ()

/-- One round of a counted loop with the counter at `n`. The block that is open holds the counter
and what the body declares, and the bound is evaluated inside it. A new block is opened for the
next round. -/
def countRound (counter : String) (direction : Direction) (bound : Run Int64)
    (body : Run Completion) (n : Int64) : Run (Completion ⊕ Int64) := do
  declare { name := counter, ty := some .int, value := some (.int n) }
  if direction.passed n (← bound) then return .inl .normal
  else
    match afterRound (n + direction.step) (← body) with
    | .inl c => return .inl c
    | .inr next =>
      exit
      enter
      return .inr next

/-- Repeats a body with a counter from `first` on until the counter has passed a bound. -/
def countLoop (rounds : Nat) (counter : String) (direction : Direction) (bound : Run Int64)
    (body : Run Completion) (first : Int64) : Run Completion :=
  inBlock (iterate (countRound counter direction bound body) rounds first)

/-- Assigns the value of an expression, or the result of an operator that is applied to the
variable and that value. The variable is read after the expression. -/
def execAssign (site : RunSite) (name : String) (op : AssignOp) (value : Expr)
    (span : Option Span) : Run Unit := do
  let v ← eval site value
  match op.binary? with
  | none => assign name v
  | some binary =>
    let old ← lookup name
    assign name (← ofExcept (binary.apply old v span))

mutual

/-- Executes a statement. -/
def exec (site : RunSite) : Stmt → Run Completion
  | .block body => inBlock (execBody site body)
  | .declare name value isConst _ => do
    let v ← eval site value
    declare { name := name, ty := some v.ty, readOnly := isConst, value := some v }
    return .normal
  | .assign name op value span => do
    execAssign site name op value span
    return .normal
  | .call call _ => do
    let _ ← eval site call
    return .normal
  | .ifThen cond yes _ => do
    if ← evalBool site cond then inBlock (execBody site yes)
    else return .normal
  | .ifThenElse cond yes no _ => do
    if ← evalBool site cond then inBlock (execBody site yes)
    else inBlock (execBody site no)
  | .whileDo cond body _ =>
    whileLoop site.rounds (evalBool site cond) (inBlock (execBody site body))
  | .doWhile body cond _ =>
    doLoop site.rounds (inBlock (execBody site body)) (evalBool site cond)
  | .forCount counter start bound direction body _ => do
    let first ← evalInt site start
    countLoop site.rounds counter direction (evalInt site bound) (execBody site body) first
  | .ret none _ => return .ret .void
  | .ret (some value) _ => return .ret (← eval site value)
  | .brk _ => return .brk
  | .cont _ => return .cont
  | .other kind _ span =>
    throw (.defect (.unexpectedStatement kind) (some ⟨site.filename, span⟩))

/-- Executes the statements of a block in the scope that is open. -/
def execBody (site : RunSite) : Block → Run Completion
  | .mk stmts _ _ => execStmts site stmts

/-- Executes statements up to the first one that does not finish normally. -/
def execStmts (site : RunSite) : List Stmt → Run Completion
  | [] => return .normal
  | s :: ss => do
    match ← exec site s with
    | .normal => execStmts site ss
    | c => return c

end

/-- Binds arguments to parameters, as far as both go. -/
def bindParams (f : Frame) : List Parameter → List Value → Run Unit
  | p :: ps, v :: vs => do
    declareIn f { name := p.name, ty := some p.ty, value := some v }
    bindParams f ps vs
  | _, _ => return

/-- The value of a call whose body has finished. -/
def callResult (filename : Option String) (f : Function) (span : Option Span) :
    Completion → Run Value
  | .ret v => return v
  | .normal =>
    if f.returns = .void then return .void
    else throw (.defect (.badCompletion f.name Completion.normal.name) (some ⟨filename, span⟩))
  | c => throw (.defect (.badCompletion f.name c.name) (some ⟨filename, span⟩))

/-- Calls a declared function with at most `depth` calls inside each other. -/
def callDeclared (filename : Option String) (rounds : Nat) :
    (depth : Nat) → Function → Block → List Value → Option Span → Run Value
  | 0, _, _, _, _ => throw (.runtime .stackExhausted none)
  | depth + 1, f, body, args, span => do
    let site : RunSite :=
      { filename := filename, rounds := rounds, call := callDeclared filename rounds depth }
    let frame ← openFrame
    bindParams frame f.params args
    let c ← inFrame frame (inBlock (execBody site body))
    callResult filename f span c

/-- Executes the statements at top level, each of them whatever the one before finished with. -/
def execTop (site : RunSite) : List Stmt → Run Unit
  | [] => return
  | s :: ss => do
    let _ ← exec site s
    execTop site ss

end Run

/-- Runs a program against a global scope. -/
def Program.run (p : Program) (limits : Limits) (g : Handle) (a : Arena) (host : Host) :
    Except Failure Unit × Arena × Host :=
  let site : RunSite :=
    { filename := p.filename, rounds := limits.rounds
      call := Run.callDeclared p.filename limits.rounds limits.calls }
  let body : Run Unit := do
    let frame ← Run.openFrame
    Run.inFrame frame (Run.execTop site p.statements)
  let (result, m) := body.run { arena := a, globals := g, frames := [], host := host }
  (result, m.arena, m.host)

end Pigeon

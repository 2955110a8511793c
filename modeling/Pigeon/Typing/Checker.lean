import Pigeon.Typing.Signature

/-!
# The state of a check

The checker walks through a program once. It keeps the scopes and the current frame, the
diagnostics so far, and the types of the expressions that it has met: one entry for each, in the
order in which they are met, which is that of `Program.exprs`. A node that has no meaning in its
place ends the walk and has no entry.
-/

namespace Pigeon

/-- What the checker keeps while it walks. -/
structure Checker where
  arena : Arena
  frame : Frame
  diagnostics : List Diagnostic
  /-- The types of the expressions that were met, where an unknown type has no entry. -/
  types : Array (Option Ty)

/-- Where in a program the checker stands. -/
structure CheckSite where
  filename : Option String
  globals : Handle
  /-- The name and the result type of the function around this place. -/
  function : Option (String × Ty) := none
  inLoop : Bool := false

/-- A step of the checker, which keeps what was found before a failure. -/
abbrev Check := ExceptT Failure (StateM Checker)

namespace Check

/-- Runs a clean-up after a step, whether it has failed or not. A failure of the clean-up wins. -/
def andFinally {α : Type} (body : Check α) (cleanUp : Check Unit) : Check α := fun s =>
  match body s with
  | (result, s) =>
    match cleanUp s with
    | (.ok (), s) => (result, s)
    | (.error e, s) => (.error e, s)

/-- Reports an issue with the text of a span. -/
def report (site : CheckSite) (span : Option Span) (issue : Issue) : Check Unit :=
  modify fun s => { s with diagnostics := s.diagnostics ++ [issue.diagnostic site.filename span] }

/-- Adds an empty entry for an expression and returns its place. -/
@[noinline]
def reserve : Check Nat :=
  modifyGet fun s => (s.types.size, { s with types := s.types.push none })

/-- Adds an entry for an expression and fills it with the type that is found, if one is. -/
def annotated (body : Check (Option Ty)) : Check (Option Ty) := do
  let slot ← reserve
  let found ← body
  modify fun s => { s with types := s.types.setIfInBounds slot found }
  return found

/-- Opens a block. -/
def enter : Check Unit := do
  let s ← get
  match s.frame.enter s.arena with
  | .ok (frame, arena) => set { s with frame := frame, arena := arena }
  | .error e => throw e

/-- Closes the innermost block. -/
def exit : Check Unit := do
  let s ← get
  let (result, frame, arena) := s.frame.exit s.arena
  set { s with frame := frame, arena := arena }
  match result with
  | .ok () => return
  | .error e => throw e

/-- Closes the frame. -/
def close : Check Unit := do
  let s ← get
  let (result, frame, arena) := s.frame.close s.arena
  set { s with frame := frame, arena := arena }
  match result with
  | .ok () => return
  | .error e => throw e

/-- Runs a step inside a new block. -/
def inBlock {α : Type} (body : Check α) : Check α := do
  enter
  andFinally body exit

/-- Puts a new frame in place of the current one, which is returned. -/
@[noinline]
def openFrame (g : Handle) : Check Frame :=
  modifyGet fun s =>
    let (frame, arena) := Frame.openIn s.arena g
    (s.frame, { s with frame := frame, arena := arena })

/-- Runs a step inside a new frame, and then goes back to the frame before. -/
def inFrame {α : Type} (g : Handle) (body : Check α) : Check α := do
  let outer ← openFrame g
  andFinally body do
    close
    modify fun s => { s with frame := outer }

/-- Declares a variable in the innermost block; says whether the name was new there. -/
def declare (v : Variable) : Check Bool := do
  let s ← get
  match s.frame.declare s.arena v with
  | .ok arena => set { s with arena := arena }; return true
  | .error (.scope (.duplicate _)) => return false
  | .error e => throw e

/-- Declares the counter of a loop in the block of the loop. The block is new, so it is a failure of
the check if the name is taken there. -/
def declareCounter (name : String) : Check Unit := do
  let s ← get
  match s.frame.declare s.arena { name := name, ty := some .int } with
  | .ok arena => set { s with arena := arena }
  | .error e => throw e

/-- The variable that was looked up, or nothing after a report of the reason. -/
def orReport (site : CheckSite) (span : Option Span) (issue : ScopeError → Issue)
    (found : Except Failure Variable) : Check (Option Variable) := do
  match found with
  | .ok v => return some v
  | .error (.scope e) =>
    match e.kind with
    | .duplicateDeclaration =>
      throw (.defect (.unexpectedScopeFailure e.message) (some ⟨site.filename, span⟩))
    | _ => report site span (issue e); return none
  | .error e => throw e

/-- The result of an operation on types. -/
def ofOperator {α : Type} (x : Except UnknownOperator α) : Check α :=
  match x with
  | .ok t => return t
  | .error e => throw (.argument (.unknownOperator e))

end Check

end Pigeon

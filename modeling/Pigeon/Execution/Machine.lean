import Pigeon.Scope.Frame

/-!
# The machine

The state of a run: the scopes, the frames of the calls that are open, and the host. A step keeps
what it has done before a failure, so the output before a failure stays, and blocks and frames are
closed on every way out of them.
-/

namespace Pigeon

/-- The state of a run. -/
structure Machine where
  arena : Arena
  globals : Handle
  /-- The frames of the open calls, the current one first. -/
  frames : List Frame
  host : Host

/-- A step of a run. -/
abbrev Run := ExceptT Failure (StateM Machine)

/-- How a statement has finished. -/
inductive Completion where
  | normal
  | brk
  | cont
  | ret (value : Value)

/-- The name of a way to finish. -/
def Completion.name : Completion → String
  | normal => "normal"
  | brk => "break"
  | cont => "continue"
  | ret _ => "return"

namespace Run

/-- Runs a clean-up after a step, whether it has failed or not. A failure of the clean-up wins. -/
def andFinally {α : Type} (body : Run α) (cleanUp : Run Unit) : Run α := fun m =>
  match body m with
  | (result, m) =>
    match cleanUp m with
    | (.ok (), m) => (result, m)
    | (.error e, m) => (.error e, m)

/-- The result of an operation that does not change the state. -/
def ofExcept {α : Type} (x : Except Failure α) : Run α :=
  match x with
  | .ok a => return a
  | .error e => throw e

/-- The current frame. -/
def frame : Run Frame := do
  match (← get).frames with
  | f :: _ => return f
  | [] => throw .outOfRange

/-- Changes the arena. -/
def updateArena (f : Arena → Arena) : Run Unit :=
  modify fun m => { m with arena := f m.arena }

/-- Changes the current frame. -/
def setFrame (f : Frame) : Run Unit :=
  modify fun m => { m with frames := f :: m.frames.tail }

/-- A new scope. -/
def newScope (parent : Handle) : Run Handle :=
  modifyGet fun m =>
    let (h, arena) := m.arena.newScope (some parent)
    (h, { m with arena := arena })

/-- Opens a block. -/
def enter : Run Unit := do
  let f ← frame
  let h ← newScope (← ofExcept f.innermost)
  setFrame { f with blocks := h :: f.blocks }

/-- Closes the innermost block. -/
def exit : Run Unit := do
  let f ← frame
  ofExcept (← modifyGet fun m =>
    let (result, f, arena) := f.exit m.arena
    (result, { m with arena := arena, frames := f :: m.frames.tail }))

/-- Closes the current frame, which is then no longer among the frames. -/
def close : Run Unit := do
  let f ← frame
  ofExcept (← modifyGet fun m =>
    let (result, _, arena) := f.close m.arena
    (result, { m with arena := arena, frames := m.frames.tail }))

/-- Runs a step inside a new block. -/
def inBlock {α : Type} (body : Run α) : Run α := do
  enter
  andFinally body exit

/-- A new frame, which is not among the frames yet. -/
def openFrame : Run Frame := do
  let g := (← get).globals
  return ⟨g, [← newScope g]⟩

/-- Runs a step inside a frame. -/
def inFrame {α : Type} (f : Frame) (body : Run α) : Run α := do
  modify fun m => { m with frames := f :: m.frames }
  andFinally body close

/-- Declares a variable in a frame. -/
def declareIn (f : Frame) (v : Variable) : Run Unit := do
  let h ← ofExcept (f.checkDeclarable (← get).arena v.name)
  updateArena (·.store h v.name (.var v))

/-- Declares a variable in the innermost block. -/
def declare (v : Variable) : Run Unit := do
  declareIn (← frame) v

/-- The value of a variable. -/
def lookup (name : String) : Run Value := do
  let f ← frame
  ofExcept (f.lookup (← get).arena name)

/-- Gives a variable a new value. -/
def assign (name : String) (value : Value) : Run Unit := do
  let f ← frame
  let (h, v) ← ofExcept (f.locateAssignable (← get).arena name)
  updateArena (·.store h name (.var { v with value := some value }))

/-- Lets a native function do its work. -/
def callback (c : Callback) (args : List Value) : Run Payload := fun m =>
  let host := m.host
  let m := { m with host := {} }
  let (result, host) := c args host
  (result, { m with host := host })

/-- Repeats a step, which either finishes with a completion or goes on with a new state, for at
most the given number of rounds. -/
def iterate {σ : Type} (step : σ → Run (Completion ⊕ σ)) :
    (rounds : Nat) → σ → Run Completion
  | 0, _ => throw .unfinished
  | rounds + 1, s => do
    match ← step s with
    | .inl c => return c
    | .inr s => iterate step rounds s

end Run

end Pigeon

import Pigeon.Scope.Global

/-!
# Frames

A frame is a stack of blocks, each of which is a scope of the arena. The outermost block lies
directly in the global scope, so a name is looked up in the blocks of one frame and then in the
global scope, and never in another frame.
-/

namespace Pigeon

/-- The open blocks of a call, or of the statements at top level. -/
structure Frame where
  /-- The global scope around the frame. -/
  globals : Handle
  /-- The scopes of the blocks, the innermost first. A closed frame has none. -/
  blocks : List Handle

namespace Frame

/-- A new frame with one block. -/
def openIn (a : Arena) (g : Handle) : Frame × Arena :=
  let (h, a) := a.newScope (some g)
  (⟨g, [h]⟩, a)

/-- The innermost block. -/
def innermost (f : Frame) : Except Failure Handle :=
  match f.blocks with
  | h :: _ => .ok h
  | [] => .error .outOfRange

/-- Opens a block inside the innermost one. -/
def enter (f : Frame) (a : Arena) : Except Failure (Frame × Arena) := do
  let parent ← f.innermost
  let (h, a) := a.newScope (some parent)
  return ({ f with blocks := h :: f.blocks }, a)

/-- Closes the innermost block, which must not be the last one. The block leaves the frame before
its scope is released. -/
def exit (f : Frame) (a : Arena) : Except Failure Unit × Frame × Arena :=
  match f.blocks with
  | h :: h' :: rest =>
    let f := { f with blocks := h' :: rest }
    match a.checkReleasable h with
    | .ok () => (.ok (), f, a.vacate h)
    | .error e => (.error e, f, a)
  | _ => (.error (.defect .exitOfRootBlock none), f, a)

/-- Releases blocks, the innermost first, as long as that succeeds. Returns those that are left. -/
def releaseAll : List Handle → Arena → Except Failure Unit × List Handle × Arena
  | [], a => (.ok (), [], a)
  | h :: rest, a =>
    match a.checkReleasable h with
    | .ok () => releaseAll rest (a.vacate h)
    | .error e => (.error e, rest, a)

/-- Closes all blocks. -/
def close (f : Frame) (a : Arena) : Except Failure Unit × Frame × Arena :=
  let (result, blocks, a) := releaseAll f.blocks a
  (result, { f with blocks := blocks }, a)

/-- The innermost block, in which a name must be new. -/
def checkDeclarable (f : Frame) (a : Arena) (name : String) : Except Failure Handle := do
  let h ← f.innermost
  if (← a.get h).symbols.contains name then throw (.scope (.duplicate name)) else return h

/-- Declares a variable in the innermost block. -/
def declare (f : Frame) (a : Arena) (v : Variable) : Except Failure Arena := do
  let h ← f.checkDeclarable a v.name
  return a.store h v.name (.var v)

/-- The scope and the symbol of a name. -/
def locate (f : Frame) (a : Arena) (name : String) : Except Failure (Handle × Symbol) := do
  match ← a.locate (some (← f.innermost)) name with
  | some found => return found
  | none => throw (.scope (.unknown name))

/-- The symbol of a name. -/
def resolve (f : Frame) (a : Arena) (name : String) : Except Failure Symbol := do
  return (← f.locate a name).2

/-- The scope and the variable of a name. -/
def locateVariable (f : Frame) (a : Arena) (name : String) :
    Except Failure (Handle × Variable) := do
  match ← f.locate a name with
  | (h, .var v) => return (h, v)
  | (_, .func _) => throw (.scope (.notAVariable name))

/-- The variable of a name. -/
def resolveVariable (f : Frame) (a : Arena) (name : String) : Except Failure Variable := do
  return (← f.locateVariable a name).2

/-- The scope and the variable of a name, which must not be read-only. -/
def locateAssignable (f : Frame) (a : Arena) (name : String) :
    Except Failure (Handle × Variable) := do
  let (h, v) ← f.locateVariable a name
  if v.readOnly then throw (.scope (.readOnly name)) else return (h, v)

/-- The variable of a name, which must not be read-only. -/
def checkAssignable (f : Frame) (a : Arena) (name : String) : Except Failure Variable := do
  return (← f.locateAssignable a name).2

/-- Gives a variable a new value, or takes its value away. -/
def assign (f : Frame) (a : Arena) (name : String) (value : Option Value) :
    Except Failure Arena := do
  let (h, v) ← f.locateAssignable a name
  return a.store h name (.var { v with value := value })

/-- The value of a variable. -/
def lookup (f : Frame) (a : Arena) (name : String) : Except Failure Value := do
  match (← f.resolveVariable a name).value with
  | some value => return value
  | none => throw (.defect (.noValue name) none)

end Frame

end Pigeon

import Pigeon.Symbol

/-!
# The arena of scopes

All scopes of one program live in an arena and are addressed by handles. A scope holds the handle
of the scope around it. A released slot is used again by the next new scope, the last released one
first, so the arena is never larger than the largest number of scopes that were alive at once.
-/

namespace Pigeon

/-- The address of a scope. -/
abbrev Handle := Nat

/-- A scope: its symbols and the scope around it. -/
structure Scope where
  parent : Option Handle
  symbols : Symbols := []

/-- The scopes of a program. -/
structure Arena where
  /-- The slots; an empty one was released. -/
  slots : Array (Option Scope) := #[]
  /-- The empty slots, the last released one first. -/
  free : List Handle := []

namespace Arena

/-- A new scope without symbols, and its handle. -/
def newScope (a : Arena) (parent : Option Handle) : Handle × Arena :=
  match a.free with
  | h :: free => (h, { slots := a.slots.setIfInBounds h (some ⟨parent, []⟩), free := free })
  | [] => (a.slots.size, { a with slots := a.slots.push (some ⟨parent, []⟩) })

/-- Fails unless the handle is that of a scope that can be released. -/
def checkReleasable (a : Arena) (h : Handle) : Except Failure Unit :=
  match a.slots[h]? with
  | none => .error .outOfRange
  | some none => .error (.defect (.releasedTwice h) none)
  | some (some _) => .ok ()

/-- Empties a slot. -/
def vacate (a : Arena) (h : Handle) : Arena :=
  { slots := a.slots.setIfInBounds h none, free := h :: a.free }

/-- Gives up a scope. -/
def release (a : Arena) (h : Handle) : Except Failure Arena := do
  a.checkReleasable h
  return a.vacate h

/-- The scope of a handle. -/
def get (a : Arena) (h : Handle) : Except Failure Scope :=
  match a.slots[h]? with
  | none => .error .outOfRange
  | some none => .error (.defect (.releasedScope h) none)
  | some (some s) => .ok s

/-- Stores a symbol in a scope; an empty slot stays empty. -/
def store (a : Arena) (h : Handle) (name : String) (symbol : Symbol) : Arena :=
  let insert (s : Scope) : Scope := { s with symbols := s.symbols.insert name symbol }
  { a with slots := a.slots.modify h (·.map insert) }

/-- Stores a symbol in the scope of a handle. -/
def put (a : Arena) (h : Handle) (name : String) (symbol : Symbol) : Except Failure Arena := do
  let _ ← a.get h
  return a.store h name symbol

/-- Looks a name up in a scope and then in the scopes around it, at most `fuel` of them. -/
def locateFrom (a : Arena) (name : String) :
    (fuel : Nat) → Option Handle → Except Failure (Option (Handle × Symbol))
  | _, none => .ok none
  | 0, some _ => .ok none
  | fuel + 1, some h => do
    let s ← a.get h
    match s.symbols.find? name with
    | some symbol => return some (h, symbol)
    | none => a.locateFrom name fuel s.parent

/-- The symbol of a name, seen from a scope, and the scope that holds it. A chain of scopes that
does not come back to itself is shorter than the arena. -/
def locate (a : Arena) (h : Option Handle) (name : String) :
    Except Failure (Option (Handle × Symbol)) :=
  a.locateFrom name (a.slots.size + 1) h

/-- The symbol of a name, seen from a scope. -/
def find (a : Arena) (h : Option Handle) (name : String) : Except Failure (Option Symbol) := do
  return (← a.locate h name).map (·.2)

/-- The number of scopes that are alive. -/
def liveCount (a : Arena) : Nat :=
  a.slots.countP (·.isSome)

end Arena

end Pigeon

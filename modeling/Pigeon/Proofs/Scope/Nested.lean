import Mathlib.Data.List.Basic
import Mathlib.Logic.Function.Basic
import Pigeon.Proofs.Step
import Pigeon.Symbol

/-!
# Nested environments

Scopes without handles. An environment maps names to symbols, a frame is a list of environments, and
all frames lie in one global environment. `Nest.step` says what each operation on frames does to
such environments and what it answers.

An operation changes a symbol only if it declares or assigns it (`Nest.step_changes`).
-/

namespace Pigeon

/-- The symbols of one scope. -/
abbrev Environment := String → Option Symbol

/-- The environment without symbols. -/
def Environment.empty : Environment := fun _ => none

/-- A global environment and frames in it, each a list of environments, the innermost first. A
closed frame has none. -/
structure Nest where
  globals : Environment
  frames : List (List Environment)

/-! ## Operations -/

/-- An operation on one frame. -/
inductive FrameOp where
  | enter
  | exit
  | close
  | declare (v : Variable)
  | assign (name : String) (value : Option Value)
  | lookup (name : String)
  | resolve (name : String)
  | resolveVariable (name : String)
  | checkAssignable (name : String)

/-- An operation on the frames of one global scope, which are numbered as they are opened. -/
inductive ScopeOp where
  | openFrame
  | onFrame (i : Nat) (op : FrameOp)

/-- The answer of an operation that does not fail. -/
inductive ScopeAnswer where
  | done
  | value (v : Value)
  | symbol (s : Symbol)
  | variable (v : Variable)

namespace Nest

/-- The innermost symbol of a name, in the environments of a frame and then in the global one. -/
def find? (globals : Environment) (name : String) : List Environment → Option Symbol
  | [] => globals name
  | b :: rest =>
    match b name with
    | some s => some s
    | none => find? globals name rest

/-- Gives the innermost binding of a name a new symbol. -/
def rebind (globals : Environment) (name : String) (s : Symbol) :
    List Environment → Environment × List Environment
  | [] => (Function.update globals name (some s), [])
  | b :: rest =>
    match b name with
    | some _ => (globals, Function.update b name (some s) :: rest)
    | none => ((rebind globals name s rest).1, b :: (rebind globals name s rest).2)

/-- The symbol of a name, seen from an open frame. -/
def resolve (globals : Environment) (blocks : List Environment) (name : String) :
    Except Failure Symbol :=
  match blocks, find? globals name blocks with
  | [], _ => .error .outOfRange
  | _ :: _, some s => .ok s
  | _ :: _, none => .error (.scope (.unknown name))

/-- The variable of a name. -/
def resolveVariable (globals : Environment) (blocks : List Environment) (name : String) :
    Except Failure Variable := do
  match ← resolve globals blocks name with
  | .var v => return v
  | .func _ => throw (.scope (.notAVariable name))

/-- The variable of a name, which must not be read-only. -/
def checkAssignable (globals : Environment) (blocks : List Environment) (name : String) :
    Except Failure Variable := do
  let v ← resolveVariable globals blocks name
  if v.readOnly then throw (.scope (.readOnly name)) else return v

/-- What an operation on a frame does to the global environment and to those of the frame. -/
def onFrame (globals : Environment) (blocks : List Environment) :
    FrameOp → Except Failure (ScopeAnswer × Environment × List Environment)
  | .enter =>
    match blocks with
    | [] => .error .outOfRange
    | _ :: _ => .ok (.done, globals, .empty :: blocks)
  | .exit =>
    match blocks with
    | _ :: b :: rest => .ok (.done, globals, b :: rest)
    | _ => .error (.defect .exitOfRootBlock none)
  | .close => .ok (.done, globals, [])
  | .declare v =>
    match blocks with
    | [] => .error .outOfRange
    | b :: rest =>
      match b v.name with
      | some _ => .error (.scope (.duplicate v.name))
      | none => .ok (.variable v, globals, Function.update b v.name (some (.var v)) :: rest)
  | .assign name value => do
    let v ← checkAssignable globals blocks name
    let (globals, blocks) := rebind globals name (.var { v with value := value }) blocks
    return (.done, globals, blocks)
  | .lookup name => do
    match (← resolveVariable globals blocks name).value with
    | some value => return (.value value, globals, blocks)
    | none => throw (.defect (.noValue name) none)
  | .resolve name => do return (.symbol (← resolve globals blocks name), globals, blocks)
  | .resolveVariable name => do
    return (.variable (← resolveVariable globals blocks name), globals, blocks)
  | .checkAssignable name => do
    return (.variable (← checkAssignable globals blocks name), globals, blocks)

/-- What an operation answers, and the environments after it. An operation that fails changes
nothing, and so does one on a frame that was never opened. -/
def step (n : Nest) : ScopeOp → Except Failure ScopeAnswer × Nest
  | .openFrame => (.ok .done, { n with frames := n.frames ++ [[.empty]] })
  | .onFrame i op =>
    match n.frames[i]? with
    | none => (.error .outOfRange, n)
    | some blocks =>
      match onFrame n.globals blocks op with
      | .ok (answer, globals, blocks) => (.ok answer, ⟨globals, n.frames.set i blocks⟩)
      | .error e => (.error e, n)

/-- The answers of several operations, and the environments after them. -/
def run (n : Nest) : List ScopeOp → List (Except Failure ScopeAnswer) × Nest
  | [] => ([], n)
  | op :: ops =>
    let (answer, n) := n.step op
    let (answers, n) := n.run ops
    (answer :: answers, n)

/-! ## What can change -/

/-- The place of an environment: that of a block is counted from the outermost block of its frame,
so it stays the same as long as the block is open. -/
inductive Place where
  | globals
  | block (frame height : Nat)

/-- The environment at a place. -/
def at? (n : Nest) : Place → Option Environment
  | .globals => some n.globals
  | .block i j => n.frames[i]?.bind (·.reverse[j]?)

/-- The block is the innermost one of its frame. -/
def Innermost (n : Nest) (i j : Nat) : Prop :=
  (n.at? (.block i j)).isSome ∧ n.at? (.block i (j + 1)) = none

/-- Seen from the frame, no environment inside the one at the place has the name. -/
def Unhidden (n : Nest) (i : Nat) (name : String) : Place → Prop
  | .globals => ∀ j b, n.at? (.block i j) = some b → b name = none
  | .block i' j => i' = i ∧ ∀ k b, j < k → n.at? (.block i k) = some b → b name = none

/-- What an operation can do to the symbol of a name in the environment at a place. -/
inductive Change (n : Nest) (place : Place) (name : String) :
    ScopeOp → Option Symbol → Option Symbol → Prop
  | kept {op s} : Change n place name op s s
  | declared {i j v} : place = .block i j → n.Innermost i j → v.name = name →
      Change n place name (.onFrame i (.declare v)) none (some (.var v))
  | assigned {i v value} : n.Unhidden i name place → v.readOnly = false →
      Change n place name (.onFrame i (.assign name value)) (some (.var v))
        (some (.var { v with value := value }))

/-- A read-only variable does not change. -/
theorem Change.eq_of_readOnly {n : Nest} {place : Place} {name : String} {op : ScopeOp}
    {v : Variable} {s : Option Symbol} (h : n.Change place name op (some (.var v)) s)
    (hro : v.readOnly = true) : s = some (.var v) := by
  cases h with
  | kept => rfl
  | assigned _ hwrite =>
      rw [hwrite] at hro
      cases hro

/-- The operation closes the block at a place. -/
inductive Closes (n : Nest) : Place → ScopeOp → Prop
  | exit {i j} : n.Innermost i j → Closes n (.block i j) (.onFrame i .exit)
  | close {i j} : Closes n (.block i j) (.onFrame i .close)

variable {n : Nest} {globals : Environment} {blocks : List Environment} {name : String}

/-- The innermost binding of a name is the global one, or one of a block of the frame. -/
theorem rebind_cases {s₀ : Symbol} (h : find? globals name blocks = some s₀) (s : Symbol) :
    ((∀ b ∈ blocks, b name = none) ∧ globals name = some s₀ ∧
      rebind globals name s blocks = (Function.update globals name (some s), blocks)) ∨
    ∃ inner b outer, blocks = inner ++ b :: outer ∧ (∀ c ∈ inner, c name = none) ∧
      b name = some s₀ ∧ rebind globals name s blocks =
        (globals, inner ++ Function.update b name (some s) :: outer) := by
  induction blocks with
  | nil => exact Or.inl ⟨by simp, h, rfl⟩
  | cons c rest ih =>
      rw [find?] at h
      rw [rebind]
      cases hc : c name with
      | some s₁ =>
          rw [hc] at h
          exact Or.inr ⟨[], c, rest, rfl, by simp, hc.trans h, rfl⟩
      | none =>
          rw [hc] at h
          rcases ih h with ⟨hnone, hglobal, heq⟩ | ⟨inner, b, outer, rfl, hnone, hb, heq⟩
          · exact Or.inl ⟨by simpa [hc] using hnone, hglobal, by rw [heq]⟩
          · refine Or.inr ⟨c :: inner, b, outer, rfl, by simpa [hc] using hnone, hb, ?_⟩
            rw [heq]
            rfl

/-- A name is resolved in an open frame, as the innermost symbol that it has. -/
theorem find?_of_resolve {s : Symbol} (h : resolve globals blocks name = .ok s) :
    find? globals name blocks = some s := by
  unfold resolve at h
  split at h
  · cases h
  · next heq =>
      cases h
      exact heq
  · cases h

/-- A name that can be assigned is that of a variable that is not read-only. -/
theorem find?_of_checkAssignable {v : Variable}
    (h : checkAssignable globals blocks name = .ok v) :
    find? globals name blocks = some (.var v) ∧ v.readOnly = false := by
  obtain ⟨u, hu, hwrite⟩ := exists_of_bind_eq_ok h
  obtain ⟨s, hs, hvar⟩ := exists_of_bind_eq_ok hu
  cases s with
  | func f => cases hvar
  | var w =>
      cases hvar
      cases hro : u.readOnly with
      | true =>
          rw [hro] at hwrite
          cases hwrite
      | false =>
          rw [hro] at hwrite
          cases hwrite
          exact ⟨find?_of_resolve hs, hro⟩

/-- What an operation that does not fail does to the environments of its frame. -/
inductive Effect (globals : Environment) (blocks : List Environment) :
    FrameOp → Environment → List Environment → Prop
  | kept {op} : Effect globals blocks op globals blocks
  | entered {op} : Effect globals blocks op globals (.empty :: blocks)
  | exited {b rest} : blocks = b :: rest → Effect globals blocks .exit globals rest
  | closed : Effect globals blocks .close globals []
  | declared {v b rest} : blocks = b :: rest → b v.name = none →
      Effect globals blocks (.declare v) globals
        (Function.update b v.name (some (.var v)) :: rest)
  | assigned {name value v} : find? globals name blocks = some (.var v) → v.readOnly = false →
      Effect globals blocks (.assign name value)
        (rebind globals name (.var { v with value := value }) blocks).1
        (rebind globals name (.var { v with value := value }) blocks).2

/-- An operation that does not fail has one of the effects. -/
theorem effect_of_onFrame {op : FrameOp} {answer : ScopeAnswer} {globals' : Environment}
    {blocks' : List Environment} (h : onFrame globals blocks op = .ok (answer, globals', blocks')) :
    Effect globals blocks op globals' blocks' := by
  cases op with
  | enter =>
      simp only [onFrame] at h
      split at h
      · cases h
      · cases h
        exact .entered
  | exit =>
      simp only [onFrame] at h
      split at h
      · cases h
        exact .exited rfl
      · cases h
  | close =>
      cases h
      exact .closed
  | declare v =>
      simp only [onFrame] at h
      split at h
      · cases h
      · split at h
        · cases h
        · next hnew =>
            cases h
            exact .declared rfl hnew
  | assign name value =>
      obtain ⟨v, hv, hwrite⟩ := exists_of_bind_eq_ok h
      obtain ⟨hfind, hro⟩ := find?_of_checkAssignable hv
      cases hwrite
      exact .assigned hfind hro
  | lookup name =>
      obtain ⟨v, -, hvalue⟩ := exists_of_bind_eq_ok h
      split at hvalue
      · cases hvalue
        exact .kept
      · cases hvalue
  | resolve name | resolveVariable name | checkAssignable name =>
      obtain ⟨_, -, hread⟩ := exists_of_bind_eq_ok h
      cases hread
      exact .kept

/-! ### Places in a frame -/

/-- A place in a frame is counted from the outermost block. -/
theorem at?_block {i : Nat} (hi : n.frames[i]? = some blocks) (j : Nat) :
    n.at? (.block i j) = blocks.reverse[j]? := by
  rw [at?, hi]
  rfl

/-- The blocks of a frame, seen from one of them. -/
theorem reverse_getElem? (inner outer : List Environment) (b : Environment) (j : Nat) :
    (inner ++ b :: outer).reverse[j]? =
      if j < outer.length then outer.reverse[j]?
      else if j = outer.length then some b else inner.reverse[j - (outer.length + 1)]? := by
  rw [List.reverse_append, List.reverse_cons, List.append_assoc, List.getElem?_append]
  by_cases hj : j < outer.length
  · simp [hj]
  · by_cases hj' : j = outer.length
    · simp [hj']
    · rw [if_neg (by simpa using hj), if_neg hj, if_neg hj', List.length_reverse]
      obtain ⟨k, rfl⟩ : ∃ k, j = outer.length + 1 + k := ⟨j - (outer.length + 1), by omega⟩
      have hleft : outer.length + 1 + k - outer.length = k + 1 := by omega
      have hright : outer.length + 1 + k - (outer.length + 1) = k := by omega
      rw [hleft, hright]
      rfl

/-- A block that is exchanged for another one is seen from its own place only. -/
theorem exchanged_cases {inner outer : List Environment} {b env : Environment} {j : Nat}
    (hj : (inner ++ b :: outer).reverse[j]? = some env) (b' : Environment) :
    (j = outer.length ∧ b = env ∧ (inner ++ b' :: outer).reverse[j]? = some b') ∨
      (inner ++ b' :: outer).reverse[j]? = some env := by
  rw [reverse_getElem?] at hj
  rw [reverse_getElem?]
  by_cases hlt : j < outer.length
  · rw [if_pos hlt] at hj ⊢
    exact Or.inr hj
  · rw [if_neg hlt] at hj ⊢
    by_cases hlen : j = outer.length
    · rw [if_pos hlen] at hj ⊢
      exact Or.inl ⟨hlen, Option.some.inj hj, rfl⟩
    · rw [if_neg hlen] at hj ⊢
      exact Or.inr hj

/-- The innermost block of a frame. -/
theorem innermost_of_cons {i : Nat} {b : Environment} {rest : List Environment}
    (hi : n.frames[i]? = some (b :: rest)) : n.Innermost i rest.length := by
  unfold Innermost
  rw [at?_block hi, at?_block hi]
  simp

variable {i : Nat} {op : FrameOp} {globals' env : Environment} {blocks' : List Environment}

/-- The effect on the global environment is an assignment at most. -/
theorem Effect.globals_change (h : Effect n.globals blocks op globals' blocks')
    (hi : n.frames[i]? = some blocks) (name : String) :
    n.Change .globals name (.onFrame i op) (n.globals name) (globals' name) := by
  cases h with
  | kept | entered | exited | closed | declared => exact .kept
  | @assigned target value v hfind hro =>
      -- the global variable is assigned only where no block of the frame has the name
      rcases rebind_cases hfind (.var { v with value := value }) with
        ⟨hnone, hglobal, heq⟩ | ⟨inner, b, outer, rfl, hnone, hb, heq⟩
      · rw [heq]
        dsimp only
        by_cases hname : name = target
        · subst hname
          rw [hglobal, Function.update_self]
          refine .assigned ?_ hro
          intro j b hb
          rw [at?_block hi] at hb
          exact hnone b (List.mem_reverse.mp (List.mem_of_getElem? hb))
        · rw [Function.update_of_ne hname]
          exact .kept
      · rw [heq]
        exact .kept

/-- The effect on a block is that it is closed, or that a declaration or an assignment changes it at
one name. -/
theorem Effect.block_change (h : Effect n.globals blocks op globals' blocks')
    (hi : n.frames[i]? = some blocks) {j : Nat} (hj : blocks.reverse[j]? = some env) :
    (blocks'.reverse[j]? = none ∧ n.Closes (.block i j) (.onFrame i op)) ∨
    ∃ env', blocks'.reverse[j]? = some env' ∧
      ∀ name, n.Change (.block i j) name (.onFrame i op) (env name) (env' name) := by
  cases h with
  | kept => exact Or.inr ⟨env, hj, fun _ => .kept⟩
  | entered =>
      have hlt := (List.getElem?_eq_some_iff.mp hj).1
      refine Or.inr ⟨env, ?_, fun _ => .kept⟩
      rw [List.reverse_cons, List.getElem?_append_left hlt]
      exact hj
  | @exited b _ hblocks =>
      subst hblocks
      -- blocks are counted from the outermost one, so only the last number is lost
      have hcases := reverse_getElem? [] blocks' b j
      rw [List.nil_append] at hcases
      by_cases hlt : j < blocks'.length
      · rw [if_pos hlt, hj] at hcases
        exact Or.inr ⟨env, hcases.symm, fun _ => .kept⟩
      · have hlen : j = blocks'.length := by
          have hbound := (List.getElem?_eq_some_iff.mp hj).1
          simp only [List.length_reverse, List.length_cons] at hbound
          omega
        subst hlen
        exact Or.inl ⟨by simp, .exit (innermost_of_cons hi)⟩
  | closed => exact Or.inl ⟨by simp, .close⟩
  | @declared v b rest hblocks hnew =>
      subst hblocks
      -- the declaration exchanges the innermost block
      have hplace : ([] ++ b :: rest).reverse[j]? = some env := hj
      rcases exchanged_cases hplace (Function.update b v.name (some (.var v))) with
        ⟨rfl, rfl, hafter⟩ | hafter
      · refine Or.inr ⟨_, hafter, fun name => ?_⟩
        by_cases hname : name = v.name
        · rw [hname, Function.update_self, hnew]
          exact .declared rfl (innermost_of_cons hi) rfl
        · rw [Function.update_of_ne hname]
          exact .kept
      · exact Or.inr ⟨env, hafter, fun _ => .kept⟩
  | @assigned target value v hfind hro =>
      rcases rebind_cases hfind (.var { v with value := value }) with
        ⟨hnone, hglobal, heq⟩ | ⟨inner, b, outer, hblocks, hnone, hb, heq⟩
      · rw [heq]
        exact Or.inr ⟨env, hj, fun _ => .kept⟩
      · rw [heq]
        subst hblocks
        -- the assignment exchanges the block that has the innermost binding
        rcases exchanged_cases hj
          (Function.update b target (some (.var { v with value := value }))) with
          ⟨rfl, rfl, hafter⟩ | hafter
        · refine Or.inr ⟨_, hafter, fun name => ?_⟩
          by_cases hname : name = target
          · rw [hname, Function.update_self, hb]
            -- a block with a greater number is further in, and does not have the name
            refine .assigned ⟨rfl, fun k c hk hc => ?_⟩ hro
            rw [at?_block hi, reverse_getElem?, if_neg (by omega), if_neg (by omega)] at hc
            exact hnone c (List.mem_reverse.mp (List.mem_of_getElem? hc))
          · rw [Function.update_of_ne hname]
            exact .kept
        · exact Or.inr ⟨env, hafter, fun _ => .kept⟩

/-- An operation closes a block, or it declares a name in it, or it assigns a name for which it has
the innermost binding, or it leaves the block alone. The global environment is never closed, and
nothing is declared in it. -/
theorem step_changes (n : Nest) (op : ScopeOp) {place : Place} (h : n.at? place = some env) :
    ((n.step op).2.at? place = none ∧ n.Closes place op) ∨
    ∃ env', (n.step op).2.at? place = some env' ∧
      ∀ name, n.Change place name op (env name) (env' name) := by
  cases op with
  | openFrame =>
      refine Or.inr ⟨env, ?_, fun _ => .kept⟩
      cases place with
      | globals => exact h
      | block i j =>
          obtain ⟨blocks, hi, hj⟩ := Option.bind_eq_some_iff.mp h
          have hlt := (List.getElem?_eq_some_iff.mp hi).1
          rw [← h]
          simp only [step, at?]
          rw [List.getElem?_append_left hlt]
  | onFrame i op =>
      cases hi : n.frames[i]? with
      | none =>
          refine Or.inr ⟨env, ?_, fun _ => .kept⟩
          simpa only [step, hi] using h
      | some blocks =>
          cases hop : onFrame n.globals blocks op with
          | error e =>
              refine Or.inr ⟨env, ?_, fun _ => .kept⟩
              simpa only [step, hi, hop] using h
          | ok r =>
              obtain ⟨answer, globals', blocks'⟩ := r
              have heffect := effect_of_onFrame hop
              have hstep : (n.step (.onFrame i op)).2 = ⟨globals', n.frames.set i blocks'⟩ := by
                simp only [step, hi, hop]
              rw [hstep]
              cases place with
              | globals =>
                  cases h
                  exact Or.inr ⟨globals', rfl, heffect.globals_change hi⟩
              | block i' j =>
                  by_cases hii : i' = i
                  · subst hii
                    have hlt := (List.getElem?_eq_some_iff.mp hi).1
                    rw [at?_block hi] at h
                    have hset : (Nest.mk globals' (n.frames.set i' blocks')).frames[i']? =
                        some blocks' := by simp [hlt]
                    rw [at?_block hset]
                    exact heffect.block_change hi h
                  -- the blocks of another frame are as before
                  · refine Or.inr ⟨env, ?_, fun _ => .kept⟩
                    rw [← h]
                    simp only [at?]
                    rw [List.getElem?_set_ne (Ne.symm hii)]

/-- An operation leaves a global symbol as it is, or gives a variable that is not read-only another
value. -/
theorem step_globals (n : Nest) (op : ScopeOp) (name : String) :
    (n.step op).2.globals name = n.globals name ∨ ∃ v value,
      n.globals name = some (.var v) ∧ v.readOnly = false ∧
      (n.step op).2.globals name = some (.var { v with value := value }) := by
  have hglobals : n.at? .globals = some n.globals := rfl
  rcases n.step_changes op hglobals with ⟨hnone, -⟩ | ⟨env, heq, hchange⟩
  · cases hnone
  · cases heq
    have hname := hchange name
    generalize n.globals name = s, (n.step op).2.globals name = s' at hname ⊢
    cases hname with
    | kept => exact Or.inl rfl
    | declared hplace => cases hplace
    | assigned _ hwrite => exact Or.inr ⟨_, _, rfl, hwrite, rfl⟩

end Nest

end Pigeon

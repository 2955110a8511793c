import Pigeon.Proofs.Scope.Frame
import Pigeon.Proofs.Typing.Site
import Pigeon.Proofs.Typing.Walk

/-!
# Where the checker stands

While it walks through a typed program, the checker keeps the context of the rules in its scopes.
`Checker.Stands c g G hs Γ F` says that the current frame of `c` consists of the blocks `hs`, that
these hold the context `Γ`, and that the arena holds besides them only the global scope with the
symbols `G` and the blocks of the frames `F`. `Symbols.Means G Δ` says that the symbols of the
global scope mean what the globals `Δ` say.

In such a state the primitive checks follow the rules. Each has two lemmas: what it does where the
rule holds (`_typed`), and that the rule holds where it reports nothing (`_quiet`).
-/

namespace Pigeon

open Blocks

/-! ## Contexts as blocks -/

/-- A variable of a context as the checker keeps it. -/
def Binding.symbol (v : Binding) : Symbol :=
  .var { name := v.name, ty := some v.ty, readOnly := v.readOnly }

/-- A block of a context as the checker keeps it. -/
def Binding.symbols (block : List Binding) : Symbols :=
  block.map fun v => (v.name, v.symbol)

/-- The blocks of a context with their handles. -/
def Context.blocks (hs : List Handle) (Γ : Context) : Blocks :=
  hs.zip (Γ.map Binding.symbols)

@[simp] theorem Context.blocks_cons (h : Handle) (hs : List Handle) (block : List Binding)
    (Γ : Context) :
    Context.blocks (h :: hs) (block :: Γ) = (h, Binding.symbols block) :: Context.blocks hs Γ := rfl

/-- The blocks of a context lie in the scopes that it is given. -/
theorem Context.handles_blocks {hs : List Handle} {Γ : Context} (hlen : hs.length = Γ.length) :
    handles (Context.blocks hs Γ) = hs := by
  unfold Context.blocks Blocks.handles
  exact List.map_fst_zip (by simp [hlen])

/-- The symbol of a name in a block of a context. -/
theorem Binding.find?_symbols (block : List Binding) (name : String) :
    Symbols.find? (Binding.symbols block) name =
      (block.find? (·.name = name)).map Binding.symbol := by
  induction block with
  | nil => rfl
  | cons v block ih =>
      unfold Symbols.find? Binding.symbols at ih ⊢
      rw [List.map_cons, List.lookup_cons, List.find?_cons, ih]
      by_cases hv : v.name = name
      · simp [hv]
      · have hbeq : (name == v.name) = false := by simpa using Ne.symm hv
        simp [hv, hbeq]

/-- A declaration in the innermost block, as the checker keeps it. -/
theorem Binding.symbols_append (block : List Binding) (v : Binding) :
    Binding.symbols (block ++ [v]) = Binding.symbols block ++ [(v.name, v.symbol)] := by
  simp [Binding.symbols]

/-- A name of a context is found in its blocks. -/
theorem Context.find?_blocks_some {g : Handle} {G : Symbols} {hs : List Handle} {Γ : Context}
    {name : String} {v : Binding} (hlen : hs.length = Γ.length)
    (hv : Context.find? Γ name = some v) :
    ∃ h, Blocks.find? g G name (Context.blocks hs Γ) = some (h, v.symbol) := by
  induction Γ generalizing hs with
  | nil => simp [Context.find?] at hv
  | cons block Γ ih =>
      obtain ⟨h, hs, rfl⟩ : ∃ h hs', hs = h :: hs' := by
        cases hs with
        | nil => simp at hlen
        | cons h hs => exact ⟨h, hs, rfl⟩
      rw [Context.find?, List.findSome?_cons] at hv
      rw [Context.blocks_cons, Blocks.find?, Binding.find?_symbols]
      cases hb : block.find? (·.name = name) with
      | some w =>
          rw [hb] at hv
          cases hv
          exact ⟨h, rfl⟩
      | none =>
          rw [hb] at hv
          exact ih (by simpa using hlen) hv

/-- A name that is not in a context is looked up among the global symbols. -/
theorem Context.find?_blocks_none {g : Handle} {G : Symbols} {hs : List Handle} {Γ : Context}
    {name : String} (hlen : hs.length = Γ.length) (hv : Context.find? Γ name = none) :
    Blocks.find? g G name (Context.blocks hs Γ) = (Symbols.find? G name).map fun s => (g, s) := by
  induction Γ generalizing hs with
  | nil =>
      obtain rfl : hs = [] := List.eq_nil_of_length_eq_zero hlen
      rfl
  | cons block Γ ih =>
      obtain ⟨h, hs, rfl⟩ : ∃ h hs', hs = h :: hs' := by
        cases hs with
        | nil => simp at hlen
        | cons h hs => exact ⟨h, hs, rfl⟩
      rw [Context.find?, List.findSome?_cons] at hv
      rw [Context.blocks_cons, Blocks.find?, Binding.find?_symbols]
      cases hb : block.find? (·.name = name) with
      | some w => simp [hb] at hv
      | none =>
          rw [hb] at hv
          exact ih (by simpa using hlen) hv

/-! ## Global symbols -/

/-- What a global symbol means to the checker; a variable of unknown type means nothing. -/
def Symbol.entity? : Symbol → Option Entity
  | .var v => v.ty.map fun t => .var t v.readOnly
  | .func f => some (.func f.signature)

/-- The global symbols mean what the globals say. -/
def Symbols.Means (G : Symbols) (Δ : Globals) : Prop :=
  ∀ name, (Symbols.find? G name).map Symbol.entity? = (Δ name).map some

/-- A name that the globals do not have is not among the global symbols. -/
theorem Symbols.Means.find?_none {G : Symbols} {Δ : Globals} (M : G.Means Δ) {name : String}
    (h : Δ name = none) : Symbols.find? G name = none := by
  have hM := M name
  rw [h] at hM
  cases hf : Symbols.find? G name with
  | none => rfl
  | some s => simp [hf] at hM

/-- A name of the globals is that of a global symbol which means the same. -/
theorem Symbols.Means.find?_some {G : Symbols} {Δ : Globals} (M : G.Means Δ) {name : String}
    {x : Entity} (h : Δ name = some x) :
    ∃ s, Symbols.find? G name = some s ∧ s.entity? = some x := by
  have hM := M name
  rw [h] at hM
  cases hf : Symbols.find? G name with
  | none => simp [hf] at hM
  | some s =>
      refine ⟨s, rfl, ?_⟩
      simpa [hf] using hM

/-- A global variable is found with its type. -/
theorem Symbols.Means.find?_var {G : Symbols} {Δ : Globals} (M : G.Means Δ) {name : String}
    {t : Ty} {readOnly : Bool} (h : Δ name = some (.var t readOnly)) :
    ∃ v, Symbols.find? G name = some (.var v) ∧ v.ty = some t ∧ v.readOnly = readOnly := by
  obtain ⟨s, hs, hx⟩ := M.find?_some h
  cases s with
  | var v =>
      refine ⟨v, hs, ?_⟩
      simp only [Symbol.entity?, Option.map_eq_some_iff, Entity.var.injEq] at hx
      obtain ⟨u, hu, rfl, rfl⟩ := hx
      exact ⟨hu, rfl⟩
  | func f => simp [Symbol.entity?] at hx

/-- A global function is found with its signature. -/
theorem Symbols.Means.find?_func {G : Symbols} {Δ : Globals} (M : G.Means Δ) {name : String}
    {signature : Signature} (h : Δ name = some (.func signature)) :
    ∃ f, Symbols.find? G name = some (.func f) ∧ f.signature = signature := by
  obtain ⟨s, hs, hx⟩ := M.find?_some h
  cases s with
  | var v => simp [Symbol.entity?] at hx
  | func f =>
      refine ⟨f, hs, ?_⟩
      simpa [Symbol.entity?] using hx

/-! ## The state of the checker -/

/-- The current frame of the checker has the blocks `hs` and holds the context `Γ`; the arena holds
nothing else but the global scope and the frames `F`. -/
structure Checker.Stands (c : Checker) (g : Handle) (G : Symbols) (hs : List Handle) (Γ : Context)
    (F : List Blocks) : Prop where
  holds : c.arena.Holds g G (Context.blocks hs Γ :: F)
  blocks : c.frame.blocks = hs
  length : hs.length = Γ.length

variable {c : Checker} {g : Handle} {G : Symbols} {Δ : Globals} {hs : List Handle} {Γ : Context}
  {F : List Blocks} {site : CheckSite}

namespace Checker.Stands

/-- Where the checker stands depends on its scopes only. -/
theorem of_eq {c' : Checker} (S : c.Stands g G hs Γ F) (harena : c'.arena = c.arena)
    (hframe : c'.frame = c.frame) : c'.Stands g G hs Γ F :=
  ⟨harena ▸ S.holds, hframe ▸ S.blocks, S.length⟩

/-- The current frame has the scopes of the context. -/
theorem frame_blocks (S : c.Stands g G hs Γ F) :
    c.frame.blocks = handles (Context.blocks hs Γ) := by
  rw [S.blocks, Context.handles_blocks S.length]

theorem blocks_ne_nil (S : c.Stands g G hs Γ F) (hΓ : Γ ≠ []) : Context.blocks hs Γ ≠ [] := by
  have hlen := S.length
  cases hs with
  | nil => exact absurd (List.eq_nil_of_length_eq_zero hlen.symm) hΓ
  | cons h hs =>
      cases Γ with
      | nil => exact absurd rfl hΓ
      | cons block Γ => simp

/-- Where the checker finds a name. -/
theorem locate_eq (S : c.Stands g G hs Γ F) (hΓ : Γ ≠ []) (name : String) :
    c.frame.locate c.arena name =
      match Blocks.find? g G name (Context.blocks hs Γ) with
      | some found => .ok found
      | none => .error (.scope (.unknown name)) :=
  Frame.locate_eq S.frame_blocks (S.blocks_ne_nil hΓ) S.holds name

/-- A name that stands for a variable is found with its type. -/
theorem locateVariable_eq (S : c.Stands g G hs Γ F) (M : G.Means Δ) (hΓ : Γ ≠ []) {name : String}
    {t : Ty} {readOnly : Bool} (h : Context.resolve Δ Γ name = some (t, readOnly)) :
    ∃ k v, c.frame.locateVariable c.arena name = .ok (k, v) ∧ v.ty = some t ∧
      v.readOnly = readOnly := by
  rw [Frame.locateVariable, S.locate_eq hΓ]
  rw [Context.resolve] at h
  cases hf : Context.find? Γ name with
  | some v =>
      rw [hf] at h
      cases h
      obtain ⟨k, hk⟩ := Context.find?_blocks_some (g := g) (G := G) S.length hf
      rw [hk]
      exact ⟨k, _, rfl, rfl, rfl⟩
  | none =>
      rw [hf] at h
      simp only at h
      split at h
      · next t' readOnly' hΔ =>
          cases h
          obtain ⟨v, hv, hty, hro⟩ := M.find?_var hΔ
          rw [Context.find?_blocks_none S.length hf, hv]
          exact ⟨g, v, rfl, hty, hro⟩
      · cases h

/-- A name that stands for no variable is not found, or is that of a function. -/
theorem locateVariable_error (S : c.Stands g G hs Γ F) (M : G.Means Δ) (hΓ : Γ ≠ [])
    {name : String} (h : Context.resolve Δ Γ name = none) :
    c.frame.locateVariable c.arena name = .error (.scope (.unknown name)) ∨
      c.frame.locateVariable c.arena name = .error (.scope (.notAVariable name)) := by
  rw [Frame.locateVariable, S.locate_eq hΓ]
  rw [Context.resolve] at h
  cases hf : Context.find? Γ name with
  | some v => simp [hf] at h
  | none =>
      rw [hf] at h
      rw [Context.find?_blocks_none S.length hf]
      cases hΔ : Δ name with
      | none =>
          rw [M.find?_none hΔ]
          exact Or.inl rfl
      | some x =>
          cases x with
          | var t readOnly => simp [hΔ] at h
          | func signature =>
              obtain ⟨f, hf', -⟩ := M.find?_func hΔ
              rw [hf']
              exact Or.inr rfl

end Checker.Stands

/-! ## The end of a frame -/

/-- The current frame can be closed, which takes its blocks out of the arena. -/
theorem Check.close_eq {c : Checker} {g : Handle} {G : Symbols} {f : Blocks} {F : List Blocks}
    (hfr : c.frame.blocks = handles f) (H : c.arena.Holds g G (f :: F)) :
    ∃ a, Check.close c = (.ok (), { c with frame := { c.frame with blocks := [] }, arena := a }) ∧
      a.Holds g G F := by
  obtain ⟨a, hclose, H'⟩ := Frame.close_eq hfr H
  refine ⟨a, ?_, H'⟩
  unfold Check.close
  rw [Step.bind_ok (Step.get_apply c), hclose]
  rfl

/-- The check of a program is that of its items in a frame, which is then closed. -/
theorem Program.check_eq {p : Program} {g : Handle} {a a₁ : Arena} {fr : Frame} {c : Checker}
    {G : Symbols} {f : Blocks} (hopen : Frame.openIn a g = (fr, a₁))
    (hitems : Check.checkItems { filename := p.filename, globals := g } p.items
      { arena := a₁, frame := fr, diagnostics := [], types := #[] } = (.ok (), c))
    (hfr : c.frame.blocks = handles f) (H : c.arena.Holds g G [f]) :
    ∃ a', p.check g a = ⟨.ok (), c.diagnostics, c.types, a'⟩ ∧ a'.Holds g G [] := by
  obtain ⟨a', hclose, H'⟩ := Check.close_eq hfr H
  refine ⟨a', ?_, H'⟩
  unfold Program.check Check.andFinally
  simp only [hopen, ExceptT.run, hitems, hclose]

end Pigeon

import Pigeon.Execution.Program
import Pigeon.Proofs.Native.Registered
import Pigeon.Proofs.Scope.Frame
import Pigeon.Proofs.Typing.Rules

/-!
# Where the machine stands

While a typed program runs, the blocks of the current frame have the variables of the context that
the rules give to the current place, and every variable has a value. `Setting.Stands w m Γ G f F`
says this of the machine `m`: its current frame has the blocks `f`, which fit the context `Γ`, the
frames below it have the blocks `F`, and the global symbols are `G`.

Whether the values also have the types of their variables depends on the program: a conditional
expression may give a value of another type than the rules say. A setting says by `strict` whether
such expressions are excluded. Everything is proved for both kinds of settings at once.
-/

namespace Pigeon

open Blocks

/-- A program on a host, with the handle of its global scope. In a strict setting values have the
types that the rules say. -/
structure Setting where
  strict : Bool
  natives : Natives
  program : Program
  root : Handle

/-- What the global names mean. -/
def Setting.globals (w : Setting) : Globals := w.program.globals w.natives

/-! ## Variables with values -/

/-- The symbol is a variable with a value that stands for the binding. -/
def Binding.Fits (strict : Bool) (v : Binding) (x : String × Symbol) : Prop :=
  ∃ t value, x = (v.name, .var ⟨v.name, t, v.readOnly, some value⟩) ∧
    (strict = true → t = some v.ty ∧ value.ty = v.ty)

/-- The blocks have the variables of the context. -/
def Context.Fits (strict : Bool) (Γ : Context) (f : Blocks) : Prop :=
  List.Forall₂ (fun block b => List.Forall₂ (Binding.Fits strict) block b.2) Γ f

/-- Every variable among the symbols has a value of its type. -/
def Symbols.Tagged (b : Symbols) : Prop :=
  ∀ x ∈ b, ∀ v, x.2 = .var v → ∃ value, v.value = some value ∧ v.ty = some value.ty

/-- Every variable of the blocks has a value of its type. -/
def Blocks.Tagged (f : Blocks) : Prop := ∀ b ∈ f, Symbols.Tagged b.2

theorem Symbols.tagged_nil : Symbols.Tagged [] := by
  intro x hx
  cases hx

/-- Storing a variable with a value of its type keeps all values at their types. -/
theorem Symbols.Tagged.insert {b : Symbols} (h : Symbols.Tagged b) (name : String) {v : Variable}
    {value : Value} (hvalue : v.value = some value) (hty : v.ty = some value.ty) :
    Symbols.Tagged (Symbols.insert b name (.var v)) := by
  intro x hx w hw
  rcases Symbols.mem_insert hx with rfl | hx
  · cases hw
    exact ⟨value, hvalue, hty⟩
  · exact h x hx w hw

/-- In a strict setting a variable that fits its binding has a value of its type. -/
theorem Binding.Fits.tagged {v : Binding} {x : String × Symbol} (h : v.Fits true x) :
    ∀ w, x.2 = .var w → ∃ value, w.value = some value ∧ w.ty = some value.ty := by
  obtain ⟨t, value, rfl, htags⟩ := h
  rintro w ⟨⟩
  obtain ⟨rfl, hvalue⟩ := htags rfl
  exact ⟨value, rfl, congrArg some hvalue.symm⟩

/-- In a strict setting all variables of a block that fits have values of their types. -/
theorem Binding.tagged_of_forall₂ {block : List Binding} {b : Symbols}
    (h : List.Forall₂ (Binding.Fits true) block b) : Symbols.Tagged b := by
  induction h with
  | nil => exact Symbols.tagged_nil
  | cons hx _ ih =>
      intro y hy
      rw [List.mem_cons] at hy
      rcases hy with rfl | hy
      · exact hx.tagged
      · exact ih y hy

/-- In a strict setting the values of a fitting frame have the types of their variables. -/
theorem Context.Fits.tagged {Γ : Context} {f : Blocks} (h : Context.Fits true Γ f) :
    Blocks.Tagged f := by
  induction h with
  | nil =>
      intro b hb
      cases hb
  | cons hb _ ih =>
      intro c hc
      rw [List.mem_cons] at hc
      rcases hc with rfl | hc
      · exact Binding.tagged_of_forall₂ hb
      · exact ih c hc

/-! ## Looking up and storing -/

variable {strict : Bool}

/-- A name that a block of the context does not have is not declared in the block. -/
theorem Binding.find?_none_of_forall₂ {block : List Binding} {b : Symbols} {name : String}
    (h : List.Forall₂ (Binding.Fits strict) block b)
    (hnone : block.find? (·.name = name) = none) : Symbols.find? b name = none := by
  induction h with
  | nil => rfl
  | cons hx _ ih =>
      obtain ⟨t, value, rfl, -⟩ := hx
      rw [List.find?_cons] at hnone
      split at hnone
      · cases hnone
      · next hne =>
          rw [Symbols.find?_cons, if_neg (Ne.symm (of_decide_eq_false hne))]
          exact ih hnone

/-- A variable of a block of the context is declared in the block, and can be given any other value
of its type. -/
theorem Binding.find?_some_of_forall₂ {block : List Binding} {b : Symbols} {name : String}
    {v : Binding} (h : List.Forall₂ (Binding.Fits strict) block b)
    (hsome : block.find? (·.name = name) = some v) :
    ∃ t old, Symbols.find? b name = some (.var ⟨name, t, v.readOnly, some old⟩) ∧
      (strict = true → t = some v.ty ∧ old.ty = v.ty) ∧
      ∀ value : Value, (strict = true → value.ty = v.ty) →
        List.Forall₂ (Binding.Fits strict) block
          (Symbols.insert b name (.var ⟨name, t, v.readOnly, some value⟩)) := by
  induction h with
  | nil => cases hsome
  | cons hx hxs ih =>
      obtain ⟨t, old, rfl, htags⟩ := hx
      rw [List.find?_cons] at hsome
      split at hsome
      · next heq =>
          cases hsome
          obtain rfl := of_decide_eq_true heq
          refine ⟨t, old, by rw [Symbols.find?_cons, if_pos rfl], htags, fun value hvalue => ?_⟩
          rw [Symbols.insert, if_pos rfl]
          exact .cons ⟨t, value, rfl, fun hs => ⟨(htags hs).1, hvalue hs⟩⟩ hxs
      · next hne =>
          have hne' := of_decide_eq_false hne
          obtain ⟨t', old', hfind, htags', hstore⟩ := ih hsome
          refine ⟨t', old', ?_, htags', fun value hvalue => ?_⟩
          · rw [Symbols.find?_cons, if_neg (Ne.symm hne')]
            exact hfind
          · rw [Symbols.insert, if_neg hne']
            exact .cons ⟨t, old, rfl, htags⟩ (hstore value hvalue)

/-- A name that the context does not have is looked up among the global symbols. -/
theorem Context.Fits.find?_none {Γ : Context} {f : Blocks} (h : Context.Fits strict Γ f)
    {name : String} (hnone : Context.find? Γ name = none) (g : Handle) (G : Symbols) :
    Blocks.find? g G name f = (Symbols.find? G name).map fun s => (g, s) := by
  induction h with
  | nil => rfl
  | @cons block b _ _ hb _ ih =>
      obtain ⟨k, b⟩ := b
      rw [Context.find?, List.findSome?_cons] at hnone
      split at hnone
      · cases hnone
      · next hblock =>
          rw [Blocks.find?, Binding.find?_none_of_forall₂ hb hblock]
          exact ih hnone

/-- A variable of the context is found in a block, and can be given any other value of its type
there. -/
theorem Context.Fits.find?_some {Γ : Context} {f : Blocks} (h : Context.Fits strict Γ f)
    (hnodup : (handles f).Nodup) {name : String} {v : Binding}
    (hsome : Context.find? Γ name = some v) (g : Handle) (G : Symbols) :
    ∃ k t old, Blocks.find? g G name f = some (k, .var ⟨name, t, v.readOnly, some old⟩) ∧
      k ∈ handles f ∧ (strict = true → t = some v.ty ∧ old.ty = v.ty) ∧
      ∀ value : Value, (strict = true → value.ty = v.ty) →
        Context.Fits strict Γ
          (Blocks.store k name (.var ⟨name, t, v.readOnly, some value⟩) f) := by
  induction h with
  | nil => cases hsome
  | @cons block b _ rest hb hrest ih =>
      obtain ⟨k, b⟩ := b
      rw [handles_cons, List.nodup_cons] at hnodup
      rw [Context.find?, List.findSome?_cons] at hsome
      split at hsome
      · next w hblock =>
          -- the innermost block has the name
          cases hsome
          obtain ⟨t, old, hfind, htags, hstore⟩ := Binding.find?_some_of_forall₂ hb hblock
          refine ⟨k, t, old, by rw [Blocks.find?, hfind], by simp, htags, fun value hvalue => ?_⟩
          have htail := store_of_notMem name (.var ⟨name, t, v.readOnly, some value⟩) hnodup.1
          unfold Blocks.store at htail ⊢
          rw [List.map_cons, htail, if_pos rfl]
          exact .cons (hstore value hvalue) hrest
      · next hblock =>
          -- the name is further out
          obtain ⟨k', t, old, hfind, hmem, htags, hstore⟩ := ih hnodup.2 hsome
          have hne : k ≠ k' := by
            rintro rfl
            exact hnodup.1 hmem
          refine ⟨k', t, old, ?_, by simp [hmem], htags, fun value hvalue => ?_⟩
          · rw [Blocks.find?, Binding.find?_none_of_forall₂ hb hblock]
            exact hfind
          · unfold Blocks.store
            rw [List.map_cons, if_neg hne]
            exact .cons hb (hstore value hvalue)

/-- A new variable in the innermost block. -/
theorem Context.Fits.declare {block : List Binding} {Γ : Context} {k : Handle} {b : Symbols}
    {f : Blocks} (h : Context.Fits strict (block :: Γ) ((k, b) :: f)) {v : Binding} {t : Option Ty}
    {value : Value} (htags : strict = true → t = some v.ty ∧ value.ty = v.ty) :
    Context.Fits strict (Context.declare v (block :: Γ))
      ((k, b ++ [(v.name, .var ⟨v.name, t, v.readOnly, some value⟩)]) :: f) := by
  cases h with
  | cons hb hrest => exact .cons (List.rel_append hb (.cons ⟨t, value, rfl, htags⟩ .nil)) hrest

/-- A name that is fresh in a context is not in the innermost block that fits it. -/
theorem Context.Fits.find?_fresh {block : List Binding} {Γ : Context} {k : Handle} {b : Symbols}
    {f : Blocks} (h : Context.Fits strict (block :: Γ) ((k, b) :: f)) {name : String}
    (hfresh : Context.Fresh (block :: Γ) name) : Symbols.find? b name = none := by
  cases h with
  | cons hb _ =>
      refine Binding.find?_none_of_forall₂ hb (List.find?_eq_none.mpr fun v hv => ?_)
      simpa using hfresh v hv

/-! ## Global symbols -/

/-- The function can be called: it is native, or it is declared by a declaration that follows the
rules. -/
def Setting.Callable (w : Setting) (f : Function) : Prop :=
  (∃ n ∈ w.natives.funcs, f = ⟨n.name, n.returns, n.parameters, .native n.callback⟩) ∨
    ∃ d ∈ w.program.functions, d.WellTyped w.globals f

/-- The symbol, if there is one, is what the globals say. -/
inductive Setting.Answers (w : Setting) : Option Entity → Option Symbol → Prop
  | none : w.Answers none none
  | var {name : String} {t : Ty} {u : Option Ty} {readOnly : Bool} {value : Value} :
      (w.strict = true → u = some t ∧ value.ty = t) →
      w.Answers (some (.var t readOnly)) (some (.var ⟨name, u, readOnly, some value⟩))
  | func {f : Function} : w.Callable f → w.Answers (some (.func f.signature)) (some (.func f))

/-- The global symbols are what the globals say. -/
def Setting.Serves (w : Setting) (G : Symbols) : Prop :=
  ∀ name, w.Answers (w.globals name) (Symbols.find? G name)

variable {w : Setting} {G : Symbols}

/-- A global variable can be given any other value of its type. -/
theorem Setting.Serves.find?_var (h : w.Serves G) {name : String} {t : Ty} {readOnly : Bool}
    (hvar : w.globals name = some (.var t readOnly)) :
    ∃ n u old, Symbols.find? G name = some (.var ⟨n, u, readOnly, some old⟩) ∧
      (w.strict = true → u = some t ∧ old.ty = t) ∧
      ∀ value : Value, (w.strict = true → value.ty = t) →
        w.Serves (Symbols.insert G name (.var ⟨n, u, readOnly, some value⟩)) := by
  have hname := h name
  rw [hvar] at hname
  generalize hfind : Symbols.find? G name = found at hname
  cases hname with
  | @var n _ u _ old htags =>
      refine ⟨n, u, old, rfl, htags, fun value hvalue n' => ?_⟩
      rw [Symbols.find?_insert]
      by_cases hn : n' = name
      · rw [if_pos hn, hn, hvar]
        exact .var fun hs => ⟨(htags hs).1, hvalue hs⟩
      · rw [if_neg hn]
        exact h n'

/-- A global function of the setting is found with its signature, and can be called. -/
theorem Setting.Serves.find?_func (h : w.Serves G) {name : String} {signature : Signature}
    (hfunc : w.globals name = some (.func signature)) :
    ∃ f, Symbols.find? G name = some (.func f) ∧ f.signature = signature ∧ w.Callable f := by
  have hname := h name
  rw [hfunc] at hname
  generalize hfind : Symbols.find? G name = found at hname
  cases hname with
  | func hf => exact ⟨_, rfl, rfl, hf⟩

end Pigeon

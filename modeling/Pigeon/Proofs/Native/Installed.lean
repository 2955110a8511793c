import Pigeon.Proofs.Execution.Lockstep
import Pigeon.Proofs.Native.Registered
import Pigeon.Proofs.Scope.Tenants

/-!
# Installed natives stay

The symbols of a global scope stay where they are while other scopes come and go: only the values of
variables change (`Tenants.Settled.step_keeps`). Installing natives in a new global scope and
resetting them there store symbols one after the other (`Arena.storeAll`), and of symbols with
distinct names each is found in the end.
-/

namespace Pigeon

/-! ## Symbols under handles -/

namespace Arena

variable {a : Arena} {live : List Handle} {g h : Handle} {c : Scope}

/-- A scope that is alive is asked for its own symbols. -/
theorem symbol?_of_slot (hc : a.slots[h]? = some (some c)) (name : String) :
    a.symbol? name h = c.symbols.find? name := by
  unfold symbol?
  rw [hc]
  rfl

/-- A global scope that is alive answers with its own symbols, without a failure. -/
theorem global?_of_slot (hc : a.slots[g]? = some (some c)) (name : String) :
    a.global? g name = .ok (a.symbol? name g) := by
  rw [symbol?_of_slot hc, global?, get_eq_ok hc]
  rfl

/-- A symbol is put into a scope that is alive without a failure. -/
theorem put_of_slot (hc : a.slots[g]? = some (some c)) (name : String) (s : Symbol) :
    a.put g name s = .ok (a.store g name s) := by
  rw [put, get_eq_ok hc]
  rfl

/-- A stored symbol is found under its name, and nothing else changes. -/
theorem symbol?_store (hc : a.slots[g]? = some (some c)) (name : String) (s : Symbol) (n : String)
    (h : Handle) :
    (a.store g name s).symbol? n h = if h = g ∧ n = name then some s else a.symbol? n h := by
  by_cases hh : h = g
  · subst hh
    have hslot : (a.store h name s).slots[h]? =
        some (some { c with symbols := c.symbols.insert name s }) := by
      rw [store_slots, if_pos rfl, hc]
      rfl
    rw [symbol?_of_slot hslot, symbol?_of_slot hc, Symbols.find?_insert]
    simp only [true_and]
  · rw [if_neg fun hand => hh hand.1]
    unfold symbol?
    rw [store_slots, if_neg (Ne.symm hh)]

/-- A scope that has a symbol is alive. -/
theorem exists_slot_of_symbol? {name : String} {s : Symbol} (h : a.symbol? name g = some s) :
    ∃ c, a.slots[g]? = some (some c) := by
  unfold symbol? at h
  rcases hslot : a.slots[g]? with _ | _ | c
  · rw [hslot] at h; cases h
  · rw [hslot] at h; cases h
  · exact ⟨c, rfl⟩

/-- Storing a symbol in one scope changes no other one. -/
theorem symbol?_store_of_ne {k : Handle} (hk : h ≠ k) (name : String) (s : Symbol) (n : String) :
    (a.store k name s).symbol? n h = a.symbol? n h := by
  unfold symbol?
  rw [store_slots, if_neg (Ne.symm hk)]

/-- Opening a scope changes none of those that are alive. -/
theorem symbol?_newScope (T : a.Tracks live) (parent : Option Handle) (hh : h ∈ live)
    (name : String) : (a.newScope parent).2.symbol? name h = a.symbol? name h := by
  obtain ⟨-, -, hother⟩ := newScope_slots parent fun h hh => (T.free_iff h).mp hh
  have hne : h ≠ (a.newScope parent).1 := fun e => T.newScope_notMem parent (e ▸ hh)
  unfold symbol?
  rw [hother h hne]

/-- Closing a scope changes no other one. -/
theorem symbol?_vacate {k : Handle} (hk : h ≠ k) (name : String) :
    (a.vacate k).symbol? name h = a.symbol? name h := by
  unfold symbol? vacate
  rw [Array.getElem?_setIfInBounds_ne (Ne.symm hk)]

/-- Closing scopes changes none of the others. -/
theorem symbol?_foldl_vacate {ks : List Handle} (hk : h ∉ ks) (name : String) :
    (ks.foldl vacate a).symbol? name h = a.symbol? name h := by
  induction ks generalizing a with
  | nil => rfl
  | cons k ks ih =>
      rw [List.mem_cons, not_or] at hk
      rw [List.foldl_cons, ih hk.2, symbol?_vacate hk.1]

end Arena

/-! ## Global symbols stay -/

namespace Tenants

open Arena

variable {t : Tenants} {a a' : Arena} {gs : List Handle} {f : Frame} {F : List Frame}
  {g : Handle} {name : String} {s : Symbol}

/-- The symbol is found in the scope, perhaps with another value. -/
def Keeps (a : Arena) (g : Handle) (s : Symbol) : Prop :=
  ∃ s', a.symbol? s.name g = some s' ∧ s'.unvalued = s.unvalued

/-- Whether a symbol is kept depends on what the scope has under its name. -/
theorem Keeps.congr (hs : Keeps a g s) (h : a'.symbol? s.name g = a.symbol? s.name g) :
    Keeps a' g s := by
  unfold Keeps
  rw [h]
  exact hs

/-- A variable with another value is kept. -/
theorem Keeps.assign (hs : Keeps a g s) {h : Handle} {v : Variable}
    (hv : a.symbol? name h = some (.var v)) (value : Option Value) :
    Keeps (a.store h name (.var { v with value := value })) g s := by
  obtain ⟨s', hs', hvalue⟩ := hs
  obtain ⟨c, hc⟩ := exists_slot_of_symbol? hv
  unfold Keeps
  rw [symbol?_store hc]
  split
  · next heq =>
      obtain ⟨rfl, rfl⟩ := heq
      refine ⟨_, rfl, ?_⟩
      rw [← hvalue, Option.some.inj (hs'.symm.trans hv)]
      rfl
  · exact ⟨s', hs', hvalue⟩

/-- A global scope is not a block of a frame. -/
theorem Settled.ne_of_mem_blocks (S : t.Settled) (hg : g ∈ t.globals) (hf : f ∈ t.frames)
    {h : Handle} (hh : h ∈ f.blocks) : g ≠ h := by
  have hdisj := (List.nodup_append.mp S.tracks.live_nodup).2.2
  exact hdisj g hg h (List.mem_flatMap.mpr ⟨f, hf, hh⟩)

/-- A variable that a frame finds is a symbol of the scope in which it is found. -/
theorem Settled.symbol?_of_locateVariable (S : t.Settled) (hf : f ∈ t.frames) {h : Handle}
    {v : Variable} (hv : f.locateVariable t.arena name = .ok (h, v)) :
    t.arena.symbol? name h = some (.var v) := by
  obtain ⟨⟨k, s⟩, hlocate, hs⟩ := exists_of_bind_eq_ok hv
  obtain ⟨k', hinner, hlocate⟩ := exists_of_bind_eq_ok hlocate
  obtain ⟨path, W⟩ := S.walk (Settled.mem_live_of_innermost hf hinner)
  rw [W.locate_eq name] at hlocate
  have hfound : path.findSome? (fun h => (t.arena.symbol? name h).map fun s => (h, s)) =
      some (k, s) := by
    cases hfind : path.findSome? (fun h => (t.arena.symbol? name h).map fun s => (h, s)) with
    | none => rw [hfind] at hlocate; cases hlocate
    | some found => rw [hfind] at hlocate; cases hlocate; rfl
  obtain ⟨h', -, hsymbol⟩ := List.exists_of_findSome?_eq_some hfound
  obtain ⟨s', hs', heq⟩ := Option.map_eq_some_iff.mp hsymbol
  cases heq
  cases s with
  | var w =>
      cases hs
      exact hs'
  | func _ => cases hs

/-- A name is declared in a block of the frame. -/
theorem mem_blocks_of_checkDeclarable {h : Handle} (hcheck : f.checkDeclarable a name = .ok h) :
    h ∈ f.blocks := by
  obtain ⟨k, hinner, hcheck⟩ := exists_of_bind_eq_ok hcheck
  obtain ⟨c, -, hcheck⟩ := exists_of_bind_eq_ok hcheck
  have hk : k ∈ f.blocks := by
    unfold Frame.innermost at hinner
    split at hinner
    · next k' rest hblocks =>
        cases hinner
        simp [hblocks]
    · cases hinner
  split at hcheck
  · cases hcheck
  · cases hcheck
    exact hk

/-- A variable that a frame may assign is one that it finds. -/
theorem locateVariable_of_locateAssignable {h : Handle} {v : Variable}
    (hv : f.locateAssignable a name = .ok (h, v)) : f.locateVariable a name = .ok (h, v) := by
  obtain ⟨⟨k, w⟩, hlocate, hv⟩ := exists_of_bind_eq_ok hv
  dsimp only at hv
  split at hv
  · cases hv
  · cases hv
    exact hlocate

/-- An operation on a frame leaves the symbols of global scopes where they are. -/
theorem Settled.onFrame_keeps (S : Settled ⟨a, gs, f :: F⟩) (hg : g ∈ gs) (op : FrameOp)
    (hs : Keeps a g s) : Keeps (Scopes.onFrame f a op).2.2 g s := by
  have hf : f ∈ (⟨a, gs, f :: F⟩ : Tenants).frames := List.mem_cons_self
  have hlive : g ∈ (⟨a, gs, f :: F⟩ : Tenants).live := mem_live_of_mem_globals hg
  have hne : ∀ h ∈ f.blocks, g ≠ h := fun h hh => S.ne_of_mem_blocks hg hf hh
  -- the blocks of a frame are no global scopes, so only an assignment can reach one
  cases op with
  | enter =>
      cases hblocks : f.blocks with
      | nil =>
          simp only [Scopes.onFrame, Frame.enter, Frame.innermost, hblocks]
          exact hs
      | cons h below =>
          simp only [Scopes.onFrame, Frame.enter, Frame.innermost, hblocks]
          exact hs.congr (symbol?_newScope S.tracks (some h) hlive _)
  | exit =>
      rcases hblocks : f.blocks with _ | ⟨h, _ | ⟨h', below⟩⟩
      · simp only [Scopes.onFrame, Frame.exit, hblocks]
        exact hs
      · simp only [Scopes.onFrame, Frame.exit, hblocks]
        exact hs
      · have hok : a.checkReleasable h = .ok () := by
          obtain ⟨g, blocks⟩ := f
          cases hblocks
          exact S.vacate.1
        simp only [Scopes.onFrame, Frame.exit, hblocks, hok]
        exact hs.congr (symbol?_vacate (hne h (by simp [hblocks])) _)
  | close =>
      simp only [Scopes.onFrame, Frame.close, S.releaseAll.1]
      exact hs.congr (symbol?_foldl_vacate (fun hmem => hne g hmem rfl) _)
  | declare v =>
      simp only [Scopes.onFrame, Frame.declare]
      cases hcheck : f.checkDeclarable a v.name with
      | error e => exact hs
      | ok h =>
          show Keeps (a.store h v.name (.var v)) g s
          exact hs.congr (symbol?_store_of_ne (hne h (mem_blocks_of_checkDeclarable hcheck)) _ _ _)
  | assign name value =>
      simp only [Scopes.onFrame, Frame.assign]
      cases hlocate : f.locateAssignable a name with
      | error e => exact hs
      | ok found =>
          obtain ⟨h, v⟩ := found
          show Keeps (a.store h name (.var { v with value := value })) g s
          exact hs.assign
            (S.symbol?_of_locateVariable hf (locateVariable_of_locateAssignable hlocate)) value
  | lookup name => exact hs
  | resolve name => exact hs
  | resolveVariable name => exact hs
  | checkAssignable name => exact hs

/-- Global scopes are never released. -/
theorem mem_globals_step (hg : g ∈ t.globals) (op : TenantOp) : g ∈ (t.step op).2.globals := by
  cases op with
  | newGlobal => exact List.mem_append_left _ hg
  | declareGlobal k s =>
      simp only [Tenants.step]
      split
      · exact hg
      · split <;> exact hg
  | openFrame k =>
      simp only [Tenants.step]
      split <;> exact hg
  | onFrame i op =>
      simp only [Tenants.step]
      split <;> exact hg

/-- An operation leaves the symbols of global scopes where they are. -/
theorem Settled.step_keeps (S : t.Settled) (hg : g ∈ t.globals) (op : TenantOp)
    (hs : Keeps t.arena g s) : Keeps (t.step op).2.arena g s := by
  obtain ⟨a, gs, F⟩ := t
  have hlive : g ∈ (⟨a, gs, F⟩ : Tenants).live := mem_live_of_mem_globals hg
  cases op with
  | newGlobal => exact hs.congr (symbol?_newScope S.tracks none hlive _)
  | declareGlobal k s₀ =>
      simp only [Tenants.step]
      cases hk : gs[k]? with
      | none => exact hs
      | some g' =>
          obtain ⟨c, hc⟩ : ∃ c, a.slots[g']? = some (some c) :=
            (S.tracks.live_iff g').mp (mem_live_of_mem_globals (List.mem_of_getElem? hk))
          have hdeclare := declareGlobal_eq hc s₀
          cases hfind : c.symbols.find? s₀.name with
          | some _ =>
              simp only [hdeclare, hfind]
              exact hs
          | none =>
              simp only [hdeclare, hfind]
              refine hs.congr ?_
              rw [symbol?_store hc, if_neg]
              -- a name that can be declared is not that of a symbol
              rintro ⟨rfl, hname⟩
              obtain ⟨s', hs', -⟩ := hs
              rw [hname, symbol?_of_slot hc, hfind] at hs'
              cases hs'
  | openFrame k =>
      simp only [Tenants.step]
      cases hk : gs[k]? with
      | none => exact hs
      | some g' => exact hs.congr (symbol?_newScope S.tracks (some g') hlive _)
  | onFrame i op =>
      simp only [Tenants.step]
      cases hf : F[i]? with
      | none => exact hs
      | some f =>
          obtain ⟨hlt, rfl⟩ := List.getElem?_eq_some_iff.mp hf
          have S₁ : Settled ⟨a, gs, F[i] :: F.eraseIdx i⟩ :=
            S.perm (List.getElem_cons_eraseIdx_perm hlt).symm
          exact S₁.onFrame_keeps hg op hs

end Tenants

/-! ## Symbols that are stored one after the other -/

namespace Arena

variable {a : Arena} {g : Handle} {symbols : List Symbol}

/-- Stores symbols under their names in the scope of a handle. -/
def storeAll (g : Handle) (symbols : List Symbol) (a : Arena) : Arena :=
  symbols.foldl (fun a s => a.store g s.name s) a

theorem storeAll_cons (g : Handle) (s : Symbol) (symbols : List Symbol) (a : Arena) :
    storeAll g (s :: symbols) a = storeAll g symbols (a.store g s.name s) := rfl

/-- New names stay new when a symbol with another name is stored. -/
theorem symbol?_store_new {c : Scope} {s : Symbol} (hc : a.slots[g]? = some (some c))
    (hname : s.name ∉ symbols.map Symbol.name)
    (hnew : ∀ t ∈ symbols, a.symbol? t.name g = none) :
    ∀ t ∈ symbols, (a.store g s.name s).symbol? t.name g = none := by
  intro t ht
  rw [symbol?_store hc, if_neg, hnew t ht]
  rintro ⟨-, heq⟩
  exact hname (heq ▸ List.mem_map_of_mem ht)

/-- Stored symbols are found under their names, and nothing else changes. -/
theorem symbol?_storeAll (hlive : ∃ c, a.slots[g]? = some (some c))
    (hnodup : (symbols.map Symbol.name).Nodup) :
    (∀ s ∈ symbols, (a.storeAll g symbols).symbol? s.name g = some s) ∧
      ∀ n h, (h = g → n ∉ symbols.map Symbol.name) →
        (a.storeAll g symbols).symbol? n h = a.symbol? n h := by
  induction symbols generalizing a with
  | nil => exact ⟨fun _ hs => absurd hs List.not_mem_nil, fun _ _ _ => rfl⟩
  | cons s symbols ih =>
      obtain ⟨c, hc⟩ := hlive
      rw [List.map_cons, List.nodup_cons] at hnodup
      obtain ⟨hset, hother⟩ := ih ((store_slots_live a g s.name s g).mpr ⟨c, hc⟩) hnodup.2
      rw [storeAll_cons]
      refine ⟨?_, fun n h hn => ?_⟩
      · rw [List.forall_mem_cons]
        refine ⟨?_, hset⟩
        rw [hother s.name g fun _ => hnodup.1, symbol?_store hc, if_pos ⟨rfl, rfl⟩]
      · rw [hother n h fun hh hmem => hn hh (List.mem_cons_of_mem _ hmem), symbol?_store hc, if_neg]
        rintro ⟨hh, rfl⟩
        exact hn hh List.mem_cons_self

/-- Symbols with distinct new names are stored after the other symbols of the scope. -/
theorem slots_storeAll {p : Option Handle} {G : Symbols}
    (hc : a.slots[g]? = some (some ⟨p, G⟩)) (hnodup : (symbols.map Symbol.name).Nodup)
    (hnew : ∀ s ∈ symbols, a.symbol? s.name g = none) :
    (a.storeAll g symbols).slots[g]? = some (some ⟨p, G ++ Symbol.named symbols⟩) := by
  induction symbols generalizing a G with
  | nil => simpa [storeAll, Symbol.named] using hc
  | cons s symbols ih =>
      rw [List.map_cons, List.nodup_cons] at hnodup
      rw [List.forall_mem_cons] at hnew
      obtain ⟨hfirst, hnew⟩ := hnew
      rw [symbol?_of_slot hc] at hfirst
      have hstore : (a.store g s.name s).slots[g]? = some (some ⟨p, G ++ [(s.name, s)]⟩) := by
        rw [store_slots, if_pos rfl, hc, ← Symbols.insert_of_find?_eq_none s hfirst]
        rfl
      have hslot := ih hstore hnodup.2 (symbol?_store_new hc hnodup.1 hnew)
      simpa [storeAll_cons, Symbol.named] using hslot

end Arena

/-- Storing symbols leaves the tenants settled, as no scope is opened or closed. -/
theorem Tenants.Settled.storeAll {a : Arena} {gs : List Handle} {F : List Frame}
    (S : Settled ⟨a, gs, F⟩) (g : Handle) (symbols : List Symbol) :
    Settled ⟨a.storeAll g symbols, gs, F⟩ := by
  induction symbols generalizing a with
  | nil => exact S
  | cons s symbols ih => exact ih (S.store g s.name s)

/-- The symbols of a scope that has nothing but named symbols. -/
theorem Arena.globals_of_slot {a : Arena} {g : Handle} {p : Option Handle} {symbols : List Symbol}
    (hc : a.slots[g]? = some (some ⟨p, Symbol.named symbols⟩)) : a.globals g = .ok symbols := by
  rw [globals, get_eq_ok hc]
  show Except.ok ((symbols.map fun s => (s.name, s)).map (·.2)) = .ok symbols
  rw [List.map_map]
  exact congrArg _ (List.map_id symbols)

/-! ## Installing and resetting -/

namespace Natives

open Tenants

variable {a : Arena} {g : Handle} {symbols : List Symbol} {vars : List NativeVariable}

/-- Symbols with distinct new names are declared by storing them. -/
theorem declareAll_eq (hlive : ∃ c, a.slots[g]? = some (some c))
    (hnodup : (symbols.map Symbol.name).Nodup) (hnew : ∀ s ∈ symbols, a.symbol? s.name g = none) :
    declareAll g symbols a = (.ok (), a.storeAll g symbols) := by
  induction symbols generalizing a with
  | nil => rfl
  | cons s symbols ih =>
      obtain ⟨c, hc⟩ := hlive
      rw [List.map_cons, List.nodup_cons] at hnodup
      rw [List.forall_mem_cons] at hnew
      obtain ⟨hfirst, hnew⟩ := hnew
      rw [Arena.symbol?_of_slot hc] at hfirst
      rw [declareAll, changeAll, Arena.declareGlobal_eq hc, hfirst]
      exact ih ((Arena.store_slots_live a g s.name s g).mpr ⟨c, hc⟩) hnodup.2
        (Arena.symbol?_store_new hc hnodup.1 hnew)

/-- A native variable that is kept gets its first value again by storing its symbol. -/
theorem resetVariable_store {v : NativeVariable} (hfits : v.Fits) (hv : Keeps a g v.symbol) :
    resetVariable g v a = .ok (a.store g v.name v.symbol) := by
  obtain ⟨first, hfirst, -, hsymbol⟩ := hfits.first
  rw [hsymbol] at hv ⊢
  obtain ⟨s, hs, hvalue⟩ := hv
  obtain ⟨c, hc⟩ := Arena.exists_slot_of_symbol? hs
  have hglobal : a.global? g v.name = .ok (some s) := by
    rw [Arena.global?_of_slot hc]
    exact congrArg Except.ok hs
  cases s with
  | func f => cases hvalue
  | var w =>
      have hw : ({ w with value := some first } : Variable) =
          ⟨v.name, some v.ty, v.readOnly, some first⟩ :=
        congrArg (fun u : Variable => { u with value := some first }) (Symbol.var.inj hvalue)
      unfold resetVariable
      rw [hfirst, hglobal, ← hw]
      exact Arena.put_of_slot hc _ _

/-- All native variables that are kept get their first values again by storing their symbols. -/
theorem resetAll_store (hnodup : (vars.map (·.name)).Nodup)
    (hvars : ∀ v ∈ vars, v.Fits ∧ Keeps a g v.symbol) :
    resetAll g vars a = (.ok (), a.storeAll g (vars.map (·.symbol))) := by
  induction vars generalizing a with
  | nil => rfl
  | cons v vars ih =>
      rw [List.map_cons, List.nodup_cons] at hnodup
      rw [List.forall_mem_cons] at hvars
      obtain ⟨⟨hfits, hv⟩, hvars⟩ := hvars
      obtain ⟨c, hc⟩ : ∃ c, a.slots[g]? = some (some c) := by
        obtain ⟨s, hs, -⟩ := hv
        exact Arena.exists_slot_of_symbol? hs
      have hkept : ∀ w ∈ vars, w.Fits ∧ Keeps (a.store g v.name v.symbol) g w.symbol := by
        intro w hw
        refine ⟨(hvars w hw).1, (hvars w hw).2.congr ?_⟩
        rw [Arena.symbol?_store hc, if_neg]
        rintro ⟨-, hname⟩
        exact hnodup.1 (List.mem_map.mpr ⟨w, hw, hname⟩)
      rw [resetAll, changeAll, resetVariable_store hfits hv]
      exact ih hnodup.2 hkept

end Natives

end Pigeon

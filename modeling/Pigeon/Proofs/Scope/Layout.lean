import Mathlib.Data.List.Nodup
import Mathlib.Data.List.Infix
import Mathlib.Data.Finset.Card
import Mathlib.Data.List.FinRange
import Pigeon.Scope.Frame

/-!
# How frames lie in the arena

`Arena.Holds a g G frames` says that the arena `a` holds exactly a global scope at the handle `g`
with the symbols `G`, and the blocks of the frames in the list `frames`. The blocks of one frame
form a chain: the scope around a block is the next block of the same frame, and the scope around
the last one is the global scope. No two blocks share a slot, and the free list names the empty
slots.

Each operation on the arena and on a frame is described by what it does to this layout. A look-up
through the handles is a look-up through the lists of symbols (`Blocks.find?`).
-/

namespace Pigeon

/-- The blocks of a frame: the handle and the symbols of each, the innermost first. -/
abbrev Blocks := List (Handle × Symbols)

namespace Blocks

/-- The handles of the blocks. -/
def handles (f : Blocks) : List Handle := f.map (·.1)

/-- The handle of the innermost block, or of the global scope `g` if there is no block. -/
def top (g : Handle) : Blocks → Handle
  | [] => g
  | (h, _) :: _ => h

/-- The scope and the symbol of a name, in the blocks and then among the global symbols. -/
def find? (g : Handle) (G : Symbols) (name : String) : Blocks → Option (Handle × Symbol)
  | [] => (Symbols.find? G name).map fun s => (g, s)
  | (h, b) :: rest =>
    match Symbols.find? b name with
    | some s => some (h, s)
    | none => find? g G name rest

/-- Stores a symbol in the block with a given handle. -/
def store (h : Handle) (name : String) (s : Symbol) (f : Blocks) : Blocks :=
  f.map fun b => (b.1, if b.1 = h then b.2.insert name s else b.2)

/-- The handles of the blocks of several frames. -/
def allHandles (frames : List Blocks) : List Handle := frames.flatMap handles

@[simp] theorem handles_nil : handles [] = [] := rfl

@[simp] theorem handles_cons (b : Handle × Symbols) (f : Blocks) :
    handles (b :: f) = b.1 :: handles f := rfl

@[simp] theorem allHandles_nil : allHandles [] = [] := rfl

@[simp] theorem allHandles_cons (f : Blocks) (frames : List Blocks) :
    allHandles (f :: frames) = handles f ++ allHandles frames := rfl

/-- The handles of a frame are among those of all frames. -/
theorem mem_allHandles {h : Handle} {f : Blocks} {F : List Blocks} (hf : f ∈ F)
    (hh : h ∈ handles f) : h ∈ allHandles F :=
  List.mem_flatMap.mpr ⟨f, hf, hh⟩

/-- Storing a symbol changes no handle. -/
@[simp] theorem handles_store (h : Handle) (name : String) (s : Symbol) (f : Blocks) :
    handles (store h name s f) = handles f := by
  simp [handles, store, Function.comp_def]

/-- A store at a handle of another block changes nothing. -/
theorem store_of_notMem {h : Handle} {f : Blocks} (name : String) (s : Symbol)
    (hf : h ∉ handles f) : store h name s f = f := by
  induction f with
  | nil => rfl
  | cons b f ih =>
      rw [handles_cons, List.mem_cons, not_or] at hf
      have htail : store h name s f = f := ih hf.2
      rw [store, List.map_cons, if_neg (fun e => hf.1 e.symm)]
      exact congrArg (b :: ·) htail

/-- A store at the handle of a block of none of the frames changes nothing in them. -/
theorem map_store_of_notMem {h : Handle} {F : List Blocks} (name : String) (s : Symbol)
    (hF : h ∉ allHandles F) : F.map (store h name s) = F := by
  have hsame : ∀ f ∈ F, store h name s f = id f := fun f hf =>
    store_of_notMem name s fun hmem => hF (mem_allHandles hf hmem)
  rw [List.map_congr_left hsame, List.map_id]

/-- What is found in the global scope has its handle, and what is found in a block has the handle of
that block. -/
theorem mem_of_find? {g : Handle} {G : Symbols} {name : String} {f : Blocks} {h : Handle}
    {s : Symbol} (hf : find? g G name f = some (h, s)) :
    (h = g ∧ Symbols.find? G name = some s) ∨ h ∈ handles f := by
  induction f with
  | nil =>
      rw [find?, Option.map_eq_some_iff] at hf
      obtain ⟨s', hs, he⟩ := hf
      cases he
      exact Or.inl ⟨rfl, hs⟩
  | cons b f ih =>
      rw [find?] at hf
      split at hf
      · cases hf
        exact Or.inr (by simp)
      · rcases ih hf with hg | hmem
        · exact Or.inl hg
        · exact Or.inr (by simp [hmem])

/-- What is found behind the innermost block has not the handle of that block. -/
theorem ne_of_find? {g k : Handle} {G : Symbols} {name : String} {f : Blocks} {h : Handle}
    {s : Symbol} (hgk : g ≠ k) (hk : k ∉ handles f) (hf : find? g G name f = some (h, s)) :
    k ≠ h := by
  rintro rfl
  rcases mem_of_find? hf with ⟨hg, -⟩ | hmem
  · exact hgk hg.symm
  · exact hk hmem

end Blocks

namespace Arena

open Blocks

/-- The blocks stand in the arena, each inside the next one and the last one inside `g`. -/
def Chained (a : Arena) (g : Handle) : Blocks → Prop
  | [] => True
  | (h, b) :: rest => a.slots[h]? = some (some ⟨some (top g rest), b⟩) ∧ Chained a g rest

/-- The arena holds a global scope and the blocks of some frames, and nothing else. -/
structure Holds (a : Arena) (g : Handle) (G : Symbols) (frames : List Blocks) : Prop where
  root : a.slots[g]? = some (some ⟨none, G⟩)
  chained : ∀ f ∈ frames, a.Chained g f
  nodup : (g :: allHandles frames).Nodup
  live : ∀ h s, a.slots[h]? = some (some s) → h ∈ g :: allHandles frames
  free_iff : ∀ h, h ∈ a.free ↔ a.slots[h]? = some none
  free_nodup : a.free.Nodup

variable {a a' : Arena} {g : Handle} {G : Symbols} {f : Blocks} {F : List Blocks}

/-- A chain depends on its own slots only. -/
theorem Chained.congr (hslots : ∀ h ∈ handles f, a'.slots[h]? = a.slots[h]?)
    (hf : a.Chained g f) : a'.Chained g f := by
  induction f with
  | nil => trivial
  | cons b f ih =>
      obtain ⟨hhead, htail⟩ := hf
      refine ⟨?_, ih (fun h hmem => hslots h (by simp [hmem])) htail⟩
      rw [hslots b.1 (by simp)]
      exact hhead

/-- Every slot of a chain is alive and has the symbols of its block. -/
theorem Chained.live_of_mem {h : Handle} (hf : a.Chained g f) (hmem : h ∈ handles f) :
    ∃ s, a.slots[h]? = some (some s) ∧ (h, s.symbols) ∈ f := by
  induction f with
  | nil => simp at hmem
  | cons b f ih =>
      obtain ⟨hhead, htail⟩ := hf
      rw [handles_cons, List.mem_cons] at hmem
      rcases hmem with rfl | hmem
      · exact ⟨_, hhead, List.mem_cons_self⟩
      · obtain ⟨s, hs, hsmem⟩ := ih htail hmem
        exact ⟨s, hs, List.mem_cons_of_mem _ hsmem⟩

/-- As many scopes are alive as there are handles of such scopes. -/
theorem liveCount_eq_length {live : List Handle} (hlive : live.Nodup)
    (hiff : ∀ h, (∃ s, a.slots[h]? = some (some s)) ↔ h ∈ live) : a.liveCount = live.length := by
  let alive : List (Fin a.slots.toList.length) :=
    (List.finRange _).filter fun i => (a.slots.toList.get i).isSome
  have hcount : a.liveCount = alive.length := by
    unfold liveCount
    rw [← Array.countP_toList]
    conv_lhs => rw [← List.map_get_finRange a.slots.toList]
    rw [List.countP_map, List.countP_eq_length_filter]
    rfl
  have hperm : (alive.map Fin.val).Perm live := by
    have hnodup : (alive.map Fin.val).Nodup :=
      ((List.nodup_finRange _).filter _).map Fin.val_injective
    refine (List.perm_ext_iff_of_nodup hnodup hlive).mpr fun h => ?_
    rw [← hiff h]
    constructor
    · intro hmem
      obtain ⟨i, hi, rfl⟩ := List.mem_map.mp hmem
      obtain ⟨s, hs⟩ := Option.isSome_iff_exists.mp (List.mem_filter.mp hi).2
      refine ⟨s, ?_⟩
      rw [← Array.getElem?_toList, List.getElem?_eq_getElem i.isLt]
      exact congrArg some hs
    · rintro ⟨s, hs⟩
      rw [← Array.getElem?_toList] at hs
      obtain ⟨hlt, hs⟩ := List.getElem?_eq_some_iff.mp hs
      refine List.mem_map.mpr ⟨⟨h, hlt⟩, List.mem_filter.mpr ⟨List.mem_finRange _, ?_⟩, rfl⟩
      exact Option.isSome_iff_exists.mpr ⟨s, hs⟩
  rw [hcount, ← List.length_map Fin.val, hperm.length_eq]

namespace Holds

/-- The handles of the layout are exactly those of the scopes that are alive. -/
theorem live_iff (H : a.Holds g G F) (h : Handle) :
    (∃ s, a.slots[h]? = some (some s)) ↔ h ∈ g :: allHandles F := by
  constructor
  · rintro ⟨s, hs⟩
    exact H.live h s hs
  · intro hmem
    rw [List.mem_cons] at hmem
    rcases hmem with rfl | hmem
    · exact ⟨_, H.root⟩
    · obtain ⟨f, hf, hh⟩ := List.mem_flatMap.mp hmem
      obtain ⟨s, hs, -⟩ := (H.chained f hf).live_of_mem hh
      exact ⟨s, hs⟩

/-- The scopes that are alive are the global one and the blocks of the frames. -/
theorem liveCount_eq (H : a.Holds g G F) : a.liveCount = (allHandles F).length + 1 :=
  liveCount_eq_length H.nodup H.live_iff

/-- The handles of one frame and the global one are different. -/
theorem nodup_current (H : a.Holds g G (f :: F)) : (g :: handles f).Nodup := by
  have hall := H.nodup
  rw [allHandles_cons, ← List.cons_append, List.nodup_append] at hall
  exact hall.1

/-- A frame without blocks takes no room. -/
theorem nil_cons_iff : a.Holds g G ([] :: F) ↔ a.Holds g G F := by
  constructor
  · intro H
    exact ⟨H.root, fun f hf => H.chained f (List.mem_cons_of_mem _ hf), by simpa using H.nodup,
      by simpa using H.live, H.free_iff, H.free_nodup⟩
  · intro H
    refine ⟨H.root, ?_, by simpa using H.nodup, by simpa using H.live, H.free_iff, H.free_nodup⟩
    intro f hf
    rw [List.mem_cons] at hf
    rcases hf with rfl | hf
    · trivial
    · exact H.chained f hf

end Holds

/-! ## New and released scopes -/

/-- A new scope takes a slot that was not alive, and no other slot changes. -/
theorem newScope_slots (parent : Option Handle) (hfree : ∀ h ∈ a.free, a.slots[h]? = some none) :
    (∀ s, a.slots[(a.newScope parent).1]? ≠ some (some s)) ∧
      (a.newScope parent).2.slots[(a.newScope parent).1]? = some (some ⟨parent, []⟩) ∧
      ∀ k, k ≠ (a.newScope parent).1 → (a.newScope parent).2.slots[k]? = a.slots[k]? := by
  unfold newScope
  cases hf : a.free with
  | nil =>
      refine ⟨by simp, by simp, ?_⟩
      intro k hk
      simp only at hk ⊢
      rw [Array.getElem?_push, if_neg hk]
  | cons h rest =>
      have hnone : a.slots[h]? = some none := hfree h (by simp [hf])
      have hlt : h < a.slots.size := (Array.getElem?_eq_some_iff.mp hnone).1
      refine ⟨by simp [hnone], by simp [hlt], ?_⟩
      intro k hk
      simp only at hk ⊢
      rw [Array.getElem?_setIfInBounds_ne (Ne.symm hk)]

/-- The free list after a new scope was taken from it. -/
theorem newScope_free_iff (parent : Option Handle) (hnodup : a.free.Nodup) (h : Handle) :
    h ∈ (a.newScope parent).2.free ↔ h ∈ a.free ∧ h ≠ (a.newScope parent).1 := by
  unfold newScope
  cases hf : a.free with
  | nil => simp
  | cons k rest =>
      rw [hf, List.nodup_cons] at hnodup
      simp only [List.mem_cons]
      constructor
      · intro hmem
        exact ⟨Or.inr hmem, fun e => hnodup.1 (e ▸ hmem)⟩
      · rintro ⟨rfl | hmem, hne⟩
        · exact absurd rfl hne
        · exact hmem

/-- Opening a scope leaves the free list without repetitions. -/
theorem newScope_free_nodup (parent : Option Handle) (hnodup : a.free.Nodup) :
    (a.newScope parent).2.free.Nodup := by
  unfold newScope
  cases hf : a.free with
  | nil => simp
  | cons k rest =>
      rw [hf] at hnodup
      exact hnodup.of_cons

/-- A release empties the slot. -/
theorem vacate_slots_self {h : Handle} {s : Scope} (hs : a.slots[h]? = some (some s)) :
    (a.vacate h).slots[h]? = some none := by
  have hlt : h < a.slots.size := (Array.getElem?_eq_some_iff.mp hs).1
  simp [vacate, hlt]

/-- A release leaves the other slots alone. -/
theorem vacate_slots_of_ne {h k : Handle} (hk : k ≠ h) :
    (a.vacate h).slots[k]? = a.slots[k]? :=
  Array.getElem?_setIfInBounds_ne (Ne.symm hk)

/-- After a release the free list names the empty slots, as before. -/
theorem vacate_free_iff {h : Handle} {s : Scope} (hs : a.slots[h]? = some (some s))
    (hfree : ∀ k, k ∈ a.free ↔ a.slots[k]? = some none) (k : Handle) :
    k ∈ (a.vacate h).free ↔ (a.vacate h).slots[k]? = some none := by
  by_cases hk : k = h
  · subst hk
    exact iff_of_true List.mem_cons_self (vacate_slots_self hs)
  · rw [vacate_slots_of_ne hk, ← hfree k]
    simp [vacate, hk]

/-- Closing a scope that is alive leaves the free list without repetitions. -/
theorem vacate_free_nodup {h : Handle} {s : Scope} (hs : a.slots[h]? = some (some s))
    (hfree : ∀ k, k ∈ a.free ↔ a.slots[k]? = some none) (hnodup : a.free.Nodup) :
    (a.vacate h).free.Nodup := by
  refine List.nodup_cons.mpr ⟨?_, hnodup⟩
  rw [hfree h, hs]
  simp

namespace Holds

/-- A new scope is not among those of the layout. -/
theorem newScope_notMem (H : a.Holds g G F) (parent : Option Handle) :
    (a.newScope parent).1 ∉ g :: allHandles F := by
  intro hmem
  obtain ⟨s, hs⟩ := (H.live_iff _).mpr hmem
  exact (newScope_slots parent fun h hh => (H.free_iff h).mp hh).1 s hs

/-- A new scope around which lies the innermost block of a frame becomes its innermost block. -/
theorem newScope (H : a.Holds g G (f :: F)) :
    (a.newScope (some (top g f))).2.Holds g G
      ((((a.newScope (some (top g f))).1, []) :: f) :: F) := by
  obtain ⟨hold, hnew, hother⟩ :=
    newScope_slots (some (top g f)) fun h hh => (H.free_iff h).mp hh
  have hfresh := H.newScope_notMem (some (top g f))
  have hfree := newScope_free_iff (some (top g f)) H.free_nodup
  have hnodup := newScope_free_nodup (some (top g f)) H.free_nodup
  generalize a.newScope (some (top g f)) = r at hold hnew hother hfresh hfree hnodup ⊢
  obtain ⟨h, a'⟩ := r
  simp only at hold hnew hother hfresh hfree hnodup ⊢
  -- every handle of the old layout is another one than the new handle
  have hne : ∀ k ∈ g :: allHandles (f :: F), k ≠ h := fun k hk e => hfresh (e ▸ hk)
  refine ⟨?_, ?_, ?_, ?_, ?_, hnodup⟩
  · rw [hother g (hne g (by simp))]
    exact H.root
  · intro f' hf'
    rw [List.mem_cons] at hf'
    rcases hf' with rfl | hf'
    · refine ⟨hnew, (H.chained f (by simp)).congr fun k hk => hother k (hne k ?_)⟩
      simp [hk]
    · refine (H.chained f' (by simp [hf'])).congr fun k hk => hother k (hne k ?_)
      simp [mem_allHandles hf' hk]
  · have hold_nodup := H.nodup
    rw [List.nodup_cons] at hold_nodup ⊢
    rw [allHandles_cons, handles_cons, List.cons_append, ← allHandles_cons]
    rw [List.mem_cons, not_or] at hfresh
    refine ⟨?_, List.nodup_cons.mpr ⟨hfresh.2, hold_nodup.2⟩⟩
    rw [List.mem_cons, not_or]
    exact ⟨fun e => hfresh.1 e.symm, hold_nodup.1⟩
  · intro k s hk
    by_cases hkh : k = h
    · simp [hkh]
    · rw [hother k hkh] at hk
      have := H.live k s hk
      simp only [allHandles_cons, handles_cons, List.mem_cons, List.cons_append] at this ⊢
      tauto
  · intro k
    rw [hfree k, H.free_iff k]
    by_cases hkh : k = h
    · simp [hkh, hnew]
    · simp [hkh, hother k hkh]

/-- The innermost block of a frame can be released, and is then gone from the layout. -/
theorem vacate {h : Handle} {b : Symbols} (H : a.Holds g G (((h, b) :: f) :: F)) :
    a.checkReleasable h = .ok () ∧ (a.vacate h).Holds g G (f :: F) := by
  obtain ⟨hslot, hchain⟩ := H.chained ((h, b) :: f) (by simp)
  have hnodup := H.nodup
  rw [allHandles_cons, handles_cons, List.cons_append, ← allHandles_cons] at hnodup
  rw [List.nodup_cons, List.mem_cons, not_or, List.nodup_cons] at hnodup
  obtain ⟨⟨hgh, hg⟩, hh, hrest⟩ := hnodup
  have hother : ∀ k ∈ allHandles (f :: F), (a.vacate h).slots[k]? = a.slots[k]? := fun k hk =>
    vacate_slots_of_ne fun e => hh (e ▸ hk)
  refine ⟨by rw [checkReleasable, hslot], ?_, ?_, ?_, ?_, vacate_free_iff hslot H.free_iff,
    vacate_free_nodup hslot H.free_iff H.free_nodup⟩
  · rw [vacate_slots_of_ne hgh]
    exact H.root
  · intro f' hf'
    rw [List.mem_cons] at hf'
    rcases hf' with rfl | hf'
    · refine hchain.congr fun k hk => hother k ?_
      simp [hk]
    · refine (H.chained f' (by simp [hf'])).congr fun k hk => hother k ?_
      simp [mem_allHandles hf' hk]
  · exact List.nodup_cons.mpr ⟨hg, hrest⟩
  · intro k s hk
    have hkh : k ≠ h := by
      rintro rfl
      rw [vacate_slots_self hslot] at hk
      simp at hk
    rw [vacate_slots_of_ne hkh] at hk
    have := H.live k s hk
    simp only [allHandles_cons, handles_cons, List.mem_cons, List.cons_append] at this ⊢
    tauto

end Holds

/-! ## Stored symbols -/

/-- A store changes the symbols of one scope. -/
theorem store_slots (a : Arena) (h : Handle) (name : String) (s : Symbol) (k : Handle) :
    (a.store h name s).slots[k]? =
      if h = k then
        a.slots[k]?.map (·.map fun c => { c with symbols := c.symbols.insert name s })
      else a.slots[k]? := by
  unfold store
  rw [Array.getElem?_modify]

/-- After a store a slot is alive if and only if it was alive before. -/
theorem store_slots_live (a : Arena) (h : Handle) (name : String) (s : Symbol) (k : Handle) :
    (∃ c, (a.store h name s).slots[k]? = some (some c)) ↔ ∃ c, a.slots[k]? = some (some c) := by
  rw [store_slots]
  by_cases hk : h = k
  · rw [if_pos hk]
    rcases a.slots[k]? with _ | _ | c <;> simp
  · rw [if_neg hk]

/-- After a store a slot is empty if and only if it was empty before. -/
theorem store_slots_empty (a : Arena) (h : Handle) (name : String) (s : Symbol) (k : Handle) :
    (a.store h name s).slots[k]? = some none ↔ a.slots[k]? = some none := by
  rw [store_slots]
  by_cases hk : h = k
  · rw [if_pos hk]
    rcases a.slots[k]? with _ | _ | c <;> simp
  · rw [if_neg hk]

/-- A chain after a store. -/
theorem Chained.store (h : Handle) (name : String) (s : Symbol) (hf : a.Chained g f) :
    (a.store h name s).Chained g (Blocks.store h name s f) := by
  induction f with
  | nil => trivial
  | cons b f ih =>
      obtain ⟨hhead, htail⟩ := hf
      have htop : top g (Blocks.store h name s f) = top g f := by
        cases f <;> rfl
      refine ⟨?_, ih htail⟩
      rw [store_slots, hhead]
      rw [show top g (f.map fun b => (b.1, if b.1 = h then b.2.insert name s else b.2)) = top g f
        from htop]
      by_cases hb : b.1 = h
      · simp [hb]
      · simp [hb, Ne.symm hb]

namespace Holds

/-- The layout after a store. -/
theorem store (H : a.Holds g G F) (h : Handle) (name : String) (s : Symbol) :
    (a.store h name s).Holds g (if g = h then G.insert name s else G)
      (F.map (Blocks.store h name s)) := by
  have hall : allHandles (F.map (Blocks.store h name s)) = allHandles F := by
    unfold allHandles
    rw [List.flatMap_map]
    exact congrArg (List.flatMap · F) (funext fun f => handles_store h name s f)
  refine ⟨?_, ?_, ?_, ?_, ?_, H.free_nodup⟩
  · rw [store_slots, H.root]
    by_cases hg : g = h
    · simp [hg]
    · simp [hg, Ne.symm hg]
  · intro f hf
    obtain ⟨f₀, hf₀, rfl⟩ := List.mem_map.mp hf
    exact (H.chained f₀ hf₀).store h name s
  · rw [hall]
    exact H.nodup
  · intro k c hk
    rw [hall]
    exact (H.live_iff k).mp ((store_slots_live a h name s k).mp ⟨c, hk⟩)
  · intro k
    rw [store_slots_empty]
    exact H.free_iff k

/-- A store in the current frame leaves the global scope and the other frames alone. -/
theorem store_current {h : Handle} (H : a.Holds g G (f :: F)) (name : String) (s : Symbol)
    (hmem : h ∈ handles f) :
    (a.store h name s).Holds g G (Blocks.store h name s f :: F) := by
  have hnodup := H.nodup
  rw [List.nodup_cons, allHandles_cons, List.nodup_append] at hnodup
  obtain ⟨hg, -, -, hdisj⟩ := hnodup
  have hgh : g ≠ h := by
    rintro rfl
    exact hg (List.mem_append_left _ hmem)
  have hF : h ∉ allHandles F := fun hmem' => hdisj h hmem h hmem' rfl
  have hstored := H.store h name s
  rw [if_neg hgh, List.map_cons, map_store_of_notMem name s hF] at hstored
  exact hstored

/-- A store in the innermost block. -/
theorem store_top {h : Handle} {b : Symbols} (H : a.Holds g G (((h, b) :: f) :: F))
    (name : String) (s : Symbol) :
    (a.store h name s).Holds g G (((h, b.insert name s) :: f) :: F) := by
  have hstored := H.store_current (h := h) name s (by simp)
  have hnodup := H.nodup
  rw [List.nodup_cons, allHandles_cons, handles_cons, List.cons_append, List.nodup_cons] at hnodup
  have hf : Blocks.store h name s f = f :=
    store_of_notMem name s fun hmem => hnodup.2.1 (List.mem_append_left _ hmem)
  have hcons : Blocks.store h name s ((h, b) :: f) = (h, b.insert name s) :: f := by
    rw [Blocks.store, List.map_cons, if_pos rfl]
    exact congrArg ((h, b.insert name s) :: ·) hf
  rw [hcons] at hstored
  exact hstored

/-- A store in the global scope. -/
theorem store_global (H : a.Holds g G F) (name : String) (s : Symbol) :
    (a.store g name s).Holds g (G.insert name s) F := by
  have hg : g ∉ allHandles F := (List.nodup_cons.mp H.nodup).1
  have hstored := H.store g name s
  rw [if_pos rfl, map_store_of_notMem name s hg] at hstored
  exact hstored

end Holds

/-! ## Looking names up -/

theorem get_eq_ok {h : Handle} {s : Scope} (hs : a.slots[h]? = some (some s)) :
    a.get h = .ok s := by
  rw [get, hs]

/-- Following the handles from the innermost block is looking through the lists of symbols. -/
theorem locateFrom_eq (hroot : a.slots[g]? = some (some ⟨none, G⟩)) (name : String)
    (hf : a.Chained g f) {fuel : Nat} (hfuel : f.length < fuel) :
    a.locateFrom name fuel (some (top g f)) = .ok (Blocks.find? g G name f) := by
  induction f generalizing fuel with
  | nil =>
      obtain ⟨n, rfl⟩ : ∃ n, fuel = n + 1 := ⟨fuel - 1, by simp at hfuel; omega⟩
      rw [top, locateFrom, get_eq_ok hroot, Blocks.find?]
      show (match Symbols.find? G name with | some symbol => _ | none => _) = _
      cases Symbols.find? G name with
      | none => cases n <;> rfl
      | some s => rfl
  | cons b f ih =>
      obtain ⟨n, rfl⟩ : ∃ n, fuel = n + 1 := ⟨fuel - 1, by simp at hfuel; omega⟩
      obtain ⟨hhead, htail⟩ := hf
      have hrest : a.locateFrom name n (some (top g f)) = .ok (Blocks.find? g G name f) :=
        ih htail (by simpa using hfuel)
      rw [top, locateFrom, get_eq_ok hhead, Blocks.find?]
      show (match Symbols.find? b.2 name with | some symbol => _ | none => _) = _
      cases Symbols.find? b.2 name with
      | none => exact hrest
      | some s => rfl

namespace Holds

/-- A frame has no more blocks than the arena has slots. -/
theorem length_le (H : a.Holds g G F) (hf : f ∈ F) : f.length ≤ a.slots.size := by
  have hsub : (handles f).Sublist (allHandles F) := by
    obtain ⟨l, r, rfl⟩ := List.append_of_mem hf
    unfold allHandles
    rw [List.flatMap_append, List.flatMap_cons]
    exact (List.sublist_append_left _ _).trans (List.sublist_append_right _ _)
  have hnodup : (handles f).Nodup := (List.nodup_cons.mp H.nodup).2.sublist hsub
  have hrange : (handles f).toFinset ⊆ Finset.range a.slots.size := by
    intro h hmem
    rw [List.mem_toFinset] at hmem
    obtain ⟨s, hs, -⟩ := (H.chained f hf).live_of_mem hmem
    exact Finset.mem_range.mpr (Array.getElem?_eq_some_iff.mp hs).1
  have hcard := Finset.card_le_card hrange
  rw [List.toFinset_card_of_nodup hnodup, Finset.card_range] at hcard
  simpa [handles] using hcard

/-- The look-up of a name from the innermost block of a frame. -/
theorem locate (H : a.Holds g G F) (hf : f ∈ F) (name : String) :
    a.locate (some (top g f)) name = .ok (Blocks.find? g G name f) :=
  locateFrom_eq H.root name (H.chained f hf) (Nat.lt_succ_of_le (H.length_le hf))

/-- The look-up of a name in the global scope. -/
theorem global? (H : a.Holds g G F) (name : String) :
    a.global? g name = .ok (Symbols.find? G name) := by
  rw [Arena.global?, get_eq_ok H.root]
  rfl

end Holds

end Arena

end Pigeon

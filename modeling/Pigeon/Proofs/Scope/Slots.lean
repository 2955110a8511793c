import Pigeon.Proofs.Scope.Layout

/-!
# Slots of the arena

`Arena.Tracks a live` says that the scopes of the arena `a` that are alive are those of the handles
`live`, and that the free list names every other slot once. A new scope adds a handle to `live`, and
a release takes one away. The arena has as many slots as there are scopes alive and handles free.

`Arena.Walk a h path` says that a look-up that begins at `h` and goes on to the scope around each
scope passes the handles of `path`, all of them alive, and ends there.
-/

namespace Pigeon

namespace Arena

variable {a : Arena} {live : List Handle}

/-! ## Live slots and free slots -/

/-- The scopes that are alive are those of the given handles, and the free list names every empty
slot once. -/
structure Tracks (a : Arena) (live : List Handle) : Prop where
  free_nodup : a.free.Nodup
  free_iff : ∀ h, h ∈ a.free ↔ a.slots[h]? = some none
  live_nodup : live.Nodup
  live_iff : ∀ h, h ∈ live ↔ ∃ s, a.slots[h]? = some (some s)

namespace Tracks

/-- An arena without slots. -/
theorem empty : Tracks {} [] := by
  refine ⟨List.nodup_nil, ?_, List.nodup_nil, ?_⟩
  · intro h
    simp
  · intro h
    simp

/-- The order of the handles does not matter. -/
theorem perm {live' : List Handle} (T : a.Tracks live) (hperm : live.Perm live') :
    a.Tracks live' := by
  refine ⟨T.free_nodup, T.free_iff, hperm.nodup_iff.mp T.live_nodup, ?_⟩
  intro h
  rw [← hperm.mem_iff]
  exact T.live_iff h

/-- A new scope has a handle of its own. -/
theorem newScope_notMem (T : a.Tracks live) (parent : Option Handle) :
    (a.newScope parent).1 ∉ live := by
  intro hmem
  obtain ⟨s, hs⟩ := (T.live_iff _).mp hmem
  exact (newScope_slots parent fun h hh => (T.free_iff h).mp hh).1 s hs

/-- A new scope is alive in addition to the others. -/
theorem newScope (T : a.Tracks live) (parent : Option Handle) :
    (a.newScope parent).2.Tracks ((a.newScope parent).1 :: live) := by
  obtain ⟨-, hnew, hother⟩ := newScope_slots parent fun h hh => (T.free_iff h).mp hh
  refine ⟨newScope_free_nodup parent T.free_nodup, ?_,
    List.nodup_cons.mpr ⟨T.newScope_notMem parent, T.live_nodup⟩, ?_⟩
  · intro h
    rw [newScope_free_iff parent T.free_nodup, T.free_iff]
    by_cases hh : h = (a.newScope parent).1
    · simp [hh, hnew]
    · simp [hh, hother h hh]
  · intro h
    rw [List.mem_cons, T.live_iff]
    by_cases hh : h = (a.newScope parent).1
    · simp [hh, hnew]
    · simp [hh, hother h hh]

/-- A scope that is alive can be released, and is then no longer alive. -/
theorem vacate {h : Handle} (T : a.Tracks (h :: live)) :
    a.checkReleasable h = .ok () ∧ (a.vacate h).Tracks live := by
  obtain ⟨s, hs⟩ := (T.live_iff h).mp List.mem_cons_self
  have hnodup := List.nodup_cons.mp T.live_nodup
  refine ⟨by rw [checkReleasable, hs], vacate_free_nodup hs T.free_iff T.free_nodup,
    vacate_free_iff hs T.free_iff, hnodup.2, ?_⟩
  intro k
  by_cases hk : k = h
  · subst hk
    rw [vacate_slots_self hs]
    exact iff_of_false hnodup.1 (by simp)
  · rw [vacate_slots_of_ne hk, ← T.live_iff, List.mem_cons]
    simp [hk]

/-- A stored symbol leaves the slots as they are. -/
theorem store (T : a.Tracks live) (h : Handle) (name : String) (s : Symbol) :
    (a.store h name s).Tracks live := by
  refine ⟨T.free_nodup, ?_, T.live_nodup, ?_⟩
  · intro k
    rw [store_slots_empty]
    exact T.free_iff k
  · intro k
    rw [store_slots_live]
    exact T.live_iff k

/-! ## The number of slots -/

/-- As many scopes are alive as are tracked. -/
theorem liveCount_eq (T : a.Tracks live) : a.liveCount = live.length :=
  liveCount_eq_length T.live_nodup fun h => (T.live_iff h).symm

/-- Every slot is alive or free. -/
theorem size_eq (T : a.Tracks live) : a.slots.size = a.liveCount + a.free.length := by
  have hdisjoint : ∀ h ∈ live, ∀ k ∈ a.free, h ≠ k := by
    rintro h hh k hk rfl
    obtain ⟨s, hs⟩ := (T.live_iff h).mp hh
    rw [(T.free_iff h).mp hk] at hs
    cases hs
  have hnodup : (live ++ a.free).Nodup :=
    List.nodup_append.mpr ⟨T.live_nodup, T.free_nodup, hdisjoint⟩
  have hperm : (List.range a.slots.size).Perm (live ++ a.free) := by
    refine (List.perm_ext_iff_of_nodup List.nodup_range hnodup).mpr fun h => ?_
    rw [List.mem_range, List.mem_append, T.live_iff, T.free_iff]
    constructor
    · intro hlt
      rw [Array.getElem?_eq_getElem hlt]
      cases a.slots[h] with
      | none => exact Or.inr rfl
      | some s => exact Or.inl ⟨s, rfl⟩
    · rintro (⟨s, hs⟩ | hs)
      · exact (Array.getElem?_eq_some_iff.mp hs).1
      · exact (Array.getElem?_eq_some_iff.mp hs).1
  rw [T.liveCount_eq, ← List.length_append, ← hperm.length_eq, List.length_range]

/-- There are no more scopes alive than slots. -/
theorem liveCount_le (T : a.Tracks live) : a.liveCount ≤ a.slots.size := by
  rw [T.size_eq]
  exact Nat.le_add_right _ _

/-- An arena that is not larger than before has room for all that is alive. -/
theorem size_eq_max {n : Nat} (T : a.Tracks live) (h : a.slots.size = n) :
    a.slots.size = max n a.liveCount := by
  have hle := T.liveCount_le
  omega

/-- A new scope makes the arena larger only if all slots are alive. -/
theorem size_newScope (T : a.Tracks live) (parent : Option Handle) :
    (a.newScope parent).2.slots.size =
      max a.slots.size (a.newScope parent).2.liveCount := by
  have hold := T.size_eq
  have hlive := T.liveCount_eq
  have hnew : (a.newScope parent).2.liveCount = live.length + 1 := (T.newScope parent).liveCount_eq
  rw [hnew]
  unfold Arena.newScope
  cases hfree : a.free with
  | nil =>
      rw [hfree, List.length_nil] at hold
      simp only [Array.size_push]
      omega
  | cons h rest =>
      rw [hfree, List.length_cons] at hold
      simp only [Array.size_setIfInBounds]
      omega

end Tracks

/-- Closing scopes leaves the number of slots. -/
theorem size_foldl_vacate (hs : List Handle) (a : Arena) :
    (hs.foldl Arena.vacate a).slots.size = a.slots.size := by
  induction hs generalizing a with
  | nil => rfl
  | cons h hs ih =>
      rw [List.foldl_cons, ih]
      exact Array.size_setIfInBounds ..

/-! ## The scope around a scope -/

/-- The scope around the scope of a handle, if that is alive. -/
def parent? (a : Arena) (h : Handle) : Option (Option Handle) :=
  a.slots[h]?.join.map (·.parent)

/-- The symbol of a name in the scope of a handle alone. -/
def symbol? (a : Arena) (name : String) (h : Handle) : Option Symbol :=
  a.slots[h]?.join.bind (·.symbols.find? name)

/-- A scope has a parent entry exactly where it is alive. -/
theorem parent?_eq_some_iff {h : Handle} {p : Option Handle} :
    a.parent? h = some p ↔ ∃ s, a.slots[h]? = some (some s) ∧ s.parent = p := by
  unfold parent?
  rcases a.slots[h]? with _ | _ | s <;> simp

/-- Opening a scope gives it its parent and leaves all other parents. -/
theorem parent?_newScope (T : a.Tracks live) (parent : Option Handle) (h : Handle) :
    (a.newScope parent).2.parent? h =
      if h = (a.newScope parent).1 then some parent else a.parent? h := by
  obtain ⟨-, hnew, hother⟩ := newScope_slots parent fun h hh => (T.free_iff h).mp hh
  unfold parent?
  by_cases hh : h = (a.newScope parent).1
  · rw [if_pos hh, hh, hnew]
    rfl
  · rw [if_neg hh, hother h hh]

/-- Closing a scope leaves the parents of the others. -/
theorem parent?_vacate {h k : Handle} (hk : k ≠ h) : (a.vacate h).parent? k = a.parent? k := by
  unfold parent?
  rw [vacate_slots_of_ne hk]

/-- Storing a symbol changes no parent. -/
theorem parent?_store (a : Arena) (h : Handle) (name : String) (s : Symbol) (k : Handle) :
    (a.store h name s).parent? k = a.parent? k := by
  unfold parent?
  rw [store_slots]
  by_cases hk : h = k
  · rw [if_pos hk]
    rcases a.slots[k]? with _ | _ | c <;> rfl
  · rw [if_neg hk]

/-- The scope around each of the handles is that of the next one, and the scope around the last one
is that of `g`. -/
def Linked (a : Arena) (g : Handle) : List Handle → Prop
  | [] => True
  | h :: below => a.parent? h = some (some (below.headD g)) ∧ Linked a g below

/-- Links depend on their own handles only. -/
theorem Linked.congr {a' : Arena} {g : Handle} {hs : List Handle}
    (heq : ∀ h ∈ hs, a'.parent? h = a.parent? h) (hl : a.Linked g hs) : a'.Linked g hs := by
  induction hs with
  | nil => trivial
  | cons h below ih =>
      obtain ⟨hhead, htail⟩ := hl
      refine ⟨?_, ih (fun k hk => heq k (List.mem_cons_of_mem _ hk)) htail⟩
      rw [heq h List.mem_cons_self]
      exact hhead

/-! ## Looking outward -/

/-- A look-up from a handle passes the handles of the path, which are alive, and ends there. -/
inductive Walk (a : Arena) : Option Handle → List Handle → Prop
  | done : Walk a none []
  | outward {h : Handle} {s : Scope} {path : List Handle} : a.slots[h]? = some (some s) →
      Walk a s.parent path → Walk a (some h) (h :: path)

/-- Along linked handles a look-up goes on to the global scope. -/
theorem Linked.walk {g : Handle} {hs : List Handle} (hroot : a.parent? g = some none)
    (hl : a.Linked g hs) : a.Walk (some (hs.headD g)) (hs ++ [g]) := by
  induction hs with
  | nil =>
      obtain ⟨s, hs, hparent⟩ := parent?_eq_some_iff.mp hroot
      exact .outward hs (hparent ▸ .done)
  | cons h below ih =>
      obtain ⟨hhead, htail⟩ := hl
      obtain ⟨s, hs, hparent⟩ := parent?_eq_some_iff.mp hhead
      refine .outward hs ?_
      rw [hparent]
      exact ih htail

namespace Walk

variable {o : Option Handle} {path : List Handle}

/-- Every handle of a path is alive. -/
theorem live_of_mem (W : a.Walk o path) {h : Handle} (hmem : h ∈ path) :
    ∃ s, a.slots[h]? = some (some s) := by
  induction W with
  | done => cases hmem
  | outward hs _ ih =>
      rw [List.mem_cons] at hmem
      rcases hmem with rfl | hmem
      · exact ⟨_, hs⟩
      · exact ih hmem

/-- There is only one path from a handle. -/
theorem unique {path' : List Handle} (W : a.Walk o path) (W' : a.Walk o path') : path = path' := by
  induction W generalizing path' with
  | done =>
      cases W'
      rfl
  | outward hs _ ih =>
      cases W' with
      | outward hs' W' =>
          rw [hs] at hs'
          cases hs'
          rw [ih W']

/-- From a handle of a path the look-up goes on along the path. -/
theorem of_mem (W : a.Walk o path) {h : Handle} (hmem : h ∈ path) :
    ∃ rest, a.Walk (some h) rest ∧ rest.length ≤ path.length := by
  induction W with
  | done => cases hmem
  | outward hs W' ih =>
      rw [List.mem_cons] at hmem
      rcases hmem with rfl | hmem
      · exact ⟨_, .outward hs W', le_rfl⟩
      · obtain ⟨rest, hrest, hle⟩ := ih hmem
        exact ⟨rest, hrest, Nat.le_succ_of_le hle⟩

/-- A look-up that ends does not come back to a scope: the path from there would be longer than
itself. -/
theorem nodup (W : a.Walk o path) : path.Nodup := by
  induction W with
  | done => exact List.nodup_nil
  | @outward h s path hs W' ih =>
      refine List.nodup_cons.mpr ⟨?_, ih⟩
      intro hmem
      obtain ⟨rest, hrest, hle⟩ := W'.of_mem hmem
      obtain rfl := (Walk.outward hs W').unique hrest
      rw [List.length_cons] at hle
      omega

/-- A path is no longer than the arena. -/
theorem length_le (W : a.Walk o path) : path.length ≤ a.slots.size := by
  have hrange : ∀ h ∈ path, h ∈ List.range a.slots.size := by
    intro h hmem
    obtain ⟨s, hs⟩ := W.live_of_mem hmem
    exact List.mem_range.mpr (Array.getElem?_eq_some_iff.mp hs).1
  simpa using (W.nodup.subperm hrange).length_le

/-- A look-up finds the first symbol on its path, if it may pass all of the path. -/
theorem locateFrom_eq (W : a.Walk o path) (name : String) {fuel : Nat}
    (hfuel : path.length ≤ fuel) :
    a.locateFrom name fuel o =
      .ok (path.findSome? fun h => (a.symbol? name h).map fun s => (h, s)) := by
  induction W generalizing fuel with
  | done => cases fuel <;> rfl
  | @outward h s path hs _ ih =>
      obtain ⟨n, rfl⟩ : ∃ n, fuel = n + 1 := ⟨fuel - 1, by simp at hfuel; omega⟩
      have hrest := ih (by simpa using hfuel)
      have hsymbol : a.symbol? name h = Symbols.find? s.symbols name := by
        unfold symbol?
        rw [hs]
        rfl
      rw [locateFrom, get_eq_ok hs, List.findSome?_cons, hsymbol]
      cases hfind : Symbols.find? s.symbols name with
      | none =>
          simp only [bind, Except.bind, hfind]
          exact hrest
      | some symbol =>
          simp only [bind, Except.bind, hfind]
          rfl

/-- A search answers with the first scope on the way that has the name. -/
theorem locate_eq (W : a.Walk o path) (name : String) :
    a.locate o name = .ok (path.findSome? fun h => (a.symbol? name h).map fun s => (h, s)) :=
  W.locateFrom_eq name (Nat.le_succ_of_le W.length_le)

/-- The look-up of a name gives its first symbol on the path. -/
theorem find_eq (W : a.Walk o path) (name : String) :
    a.find o name = .ok (path.findSome? (a.symbol? name)) := by
  unfold find
  rw [W.locate_eq name]
  show Except.ok (Option.map Prod.snd (path.findSome? _)) = _
  rw [List.map_findSome?]
  congr 2
  funext k
  show Option.map Prod.snd (Option.map (fun s => (k, s)) (a.symbol? name k)) = _
  cases a.symbol? name k <;> rfl

end Walk

end Arena

end Pigeon

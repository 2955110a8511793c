import Mathlib.Order.Bounds.Defs
import Pigeon.Proofs.Scope.Refine
import Pigeon.Proofs.Scope.Slots

/-!
# Global scopes and frames in one arena

Any number of global scopes and frames can live in one arena, and blocks of different frames are
opened and closed in any order. `Tenants` are the global scopes and the frames that were created in
an arena; `Tenants.Settled` says how they lie in it.

The main result is that every sequence of operations leaves them settled. So a look-up always ends
and never meets a released scope, no scope is released twice, and the arena has never more slots than
scopes were alive at once (`Tenants.run_settled`).
-/

namespace Pigeon

open Arena

/-! ## Operations that meet no released scope -/

/-- The failure of an operation that releases a scope twice or uses a released one. -/
inductive Failure.Stale : Failure → Prop
  | twice {h : Int} {location : Option Location} : Stale (.defect (.releasedTwice h) location)
  | used {h : Int} {location : Option Location} : Stale (.defect (.releasedScope h) location)

/-- The operation has met no released scope. -/
def Intact {α : Type} (x : Except Failure α) : Prop := ∀ e, x = .error e → ¬ e.Stale

namespace Intact

variable {α β : Type}

theorem ok (a : α) : Intact (.ok a : Except Failure α) := by
  rintro _ ⟨⟩

/-- A failure that is not about a stale handle is intact. -/
theorem error {e : Failure} (h : ¬ e.Stale) : Intact (.error e : Except Failure α) := by
  rintro _ ⟨⟩
  exact h

/-- Two computations in a row are intact if the first one is and the second one is on its result. -/
theorem bind {x : Except Failure α} {f : α → Except Failure β} (hx : Intact x)
    (hf : ∀ a, x = .ok a → Intact (f a)) : Intact (x >>= f) := by
  cases x with
  | error e => exact error (hx e rfl)
  | ok a => exact hf a rfl

/-- A function applied to the result does not make a computation stale. -/
theorem map {x : Except Failure α} (hx : Intact x) (f : α → β) : Intact (x.map f) := by
  cases x with
  | error e => exact error (hx e rfl)
  | ok a => exact ok _

end Intact

/-! ## The operations -/

/-- An arena with the global scopes and the frames that were created in it, in the order of their
creation. A closed frame has no blocks. -/
structure Tenants where
  arena : Arena := {}
  globals : List Handle := []
  frames : List Frame := []

/-- An operation on global scopes and frames, which are numbered as they are created. -/
inductive TenantOp where
  | newGlobal
  | declareGlobal (k : Nat) (s : Symbol)
  | openFrame (k : Nat)
  | onFrame (i : Nat) (op : FrameOp)

namespace Tenants

/-- The handles of the global scopes and of the open blocks. -/
def live (t : Tenants) : List Handle := t.globals ++ t.frames.flatMap (·.blocks)

/-- What an operation answers, and the tenants after it. -/
def step (t : Tenants) : TenantOp → Except Failure ScopeAnswer × Tenants
  | .newGlobal =>
    let (g, a) := t.arena.newScope none
    (.ok .done, { t with arena := a, globals := t.globals ++ [g] })
  | .declareGlobal k s =>
    match t.globals[k]? with
    | none => (.error .outOfRange, t)
    | some g =>
      match t.arena.declareGlobal g s with
      | .ok a => (.ok .done, { t with arena := a })
      | .error e => (.error e, t)
  | .openFrame k =>
    match t.globals[k]? with
    | none => (.error .outOfRange, t)
    | some g =>
      let (f, a) := Frame.openIn t.arena g
      (.ok .done, { t with arena := a, frames := t.frames ++ [f] })
  | .onFrame i op =>
    match t.frames[i]? with
    | none => (.error .outOfRange, t)
    | some f =>
      let (answer, f, a) := Scopes.onFrame f t.arena op
      (answer, { t with arena := a, frames := t.frames.set i f })

/-- The answers of several operations, and the tenants after them. -/
def run (t : Tenants) : List TenantOp → List (Except Failure ScopeAnswer) × Tenants
  | [] => ([], t)
  | op :: ops =>
    let (answer, t) := t.step op
    let (answers, t) := t.run ops
    (answer :: answers, t)

/-- The scopes that are alive are the global ones and the open blocks, no two of which share a slot.
No scope lies around a global one. The scope around a block is the next block of the same frame, and
the scope around the last block is the global scope of the frame. -/
structure Settled (t : Tenants) : Prop where
  tracks : t.arena.Tracks t.live
  roots : ∀ g ∈ t.globals, t.arena.parent? g = some none
  linked : ∀ f ∈ t.frames, f.globals ∈ t.globals ∧ t.arena.Linked f.globals f.blocks

namespace Settled

variable {t : Tenants} {a : Arena} {gs : List Handle} {f : Frame} {F F' : List Frame}

/-- Without scopes there is nothing to be settled. -/
theorem start : Settled {} := ⟨.empty, nofun, nofun⟩

/-- The order of the frames does not matter. -/
theorem perm (S : Settled ⟨a, gs, F⟩) (hperm : F.Perm F') : Settled ⟨a, gs, F'⟩ := by
  refine ⟨?_, S.roots, fun f hf => S.linked f (hperm.mem_iff.mpr hf)⟩
  exact S.tracks.perm ((hperm.flatMap_right _).append_left gs)

/-! ## What the operations do to the arena -/

/-- A stored symbol leaves the tenants where they are. -/
theorem store (S : Settled ⟨a, gs, F⟩) (h : Handle) (name : String) (s : Symbol) :
    Settled ⟨a.store h name s, gs, F⟩ := by
  refine ⟨S.tracks.store h name s, ?_, ?_⟩
  · intro g hg
    rw [parent?_store]
    exact S.roots g hg
  · intro f hf
    obtain ⟨hglobal, hlinked⟩ := S.linked f hf
    exact ⟨hglobal, hlinked.congr fun k _ => parent?_store a h name s k⟩

/-- A new scope does not change what lies around the others. -/
theorem parent?_newScope_of_mem (S : t.Settled) (parent : Option Handle) {h : Handle}
    (hh : h ∈ t.live) : (t.arena.newScope parent).2.parent? h = t.arena.parent? h := by
  rw [parent?_newScope S.tracks, if_neg]
  rintro rfl
  exact S.tracks.newScope_notMem parent hh

/-- The global scopes are alive. -/
theorem mem_live_of_mem_globals {g : Handle} (hg : g ∈ t.globals) : g ∈ t.live :=
  List.mem_append_left _ hg

/-- The blocks of the frames are alive. -/
theorem mem_live_of_mem_blocks {h : Handle} (hf : f ∈ t.frames) (hh : h ∈ f.blocks) : h ∈ t.live :=
  List.mem_append_right _ (List.mem_flatMap.mpr ⟨f, hf, hh⟩)

/-- The tenants that were there before are settled after a new scope, too. -/
theorem kept_newScope (S : t.Settled) (parent : Option Handle) :
    (∀ g ∈ t.globals, (t.arena.newScope parent).2.parent? g = some none) ∧
      ∀ f ∈ t.frames, f.globals ∈ t.globals ∧
        (t.arena.newScope parent).2.Linked f.globals f.blocks := by
  refine ⟨?_, ?_⟩
  · intro g hg
    rw [S.parent?_newScope_of_mem parent (mem_live_of_mem_globals hg)]
    exact S.roots g hg
  · intro f hf
    obtain ⟨hglobal, hlinked⟩ := S.linked f hf
    exact ⟨hglobal, hlinked.congr fun k hk =>
      S.parent?_newScope_of_mem parent (mem_live_of_mem_blocks hf hk)⟩

/-- Another global scope takes a slot that nobody has. -/
theorem newGlobal (S : Settled ⟨a, gs, F⟩) :
    Settled ⟨(a.newScope none).2, gs ++ [(a.newScope none).1], F⟩ := by
  obtain ⟨hroots, hlinked⟩ := S.kept_newScope none
  refine ⟨(S.tracks.newScope none).perm ?_, ?_, ?_⟩
  · unfold live
    rw [List.append_assoc]
    exact List.perm_middle.symm
  · intro g hg
    rw [List.mem_append, List.mem_singleton] at hg
    rcases hg with hg | rfl
    · exact hroots g hg
    · rw [parent?_newScope S.tracks, if_pos rfl]
  · intro f hf
    exact ⟨List.mem_append_left _ (hlinked f hf).1, (hlinked f hf).2⟩

/-- A frame gets one more block, its first one or one inside its innermost block. -/
theorem newBlock (S : Settled ⟨a, gs, f :: F⟩) :
    Settled ⟨(a.newScope (some (f.blocks.headD f.globals))).2, gs,
      { f with blocks := (a.newScope (some (f.blocks.headD f.globals))).1 :: f.blocks } :: F⟩ := by
  obtain ⟨hroots, hlinked⟩ := S.kept_newScope (some (f.blocks.headD f.globals))
  refine ⟨(S.tracks.newScope _).perm List.perm_middle.symm, hroots, ?_⟩
  intro f' hf'
  rw [List.mem_cons] at hf'
  rcases hf' with rfl | hf'
  · obtain ⟨hglobal, hblocks⟩ := hlinked f List.mem_cons_self
    refine ⟨hglobal, ?_, hblocks⟩
    rw [parent?_newScope S.tracks, if_pos rfl]
  · exact hlinked f' (List.mem_cons_of_mem _ hf')

/-- A frame without blocks takes no room. -/
theorem emptyFrame {g : Handle} (S : Settled ⟨a, gs, F⟩) (hg : g ∈ gs) :
    Settled ⟨a, gs, ⟨g, []⟩ :: F⟩ := by
  refine ⟨S.tracks, S.roots, ?_⟩
  intro f hf
  rw [List.mem_cons] at hf
  rcases hf with rfl | hf
  · exact ⟨hg, trivial⟩
  · exact S.linked f hf

/-- The innermost block of a frame can be released. -/
theorem vacate {g h : Handle} {below : List Handle}
    (S : Settled ⟨a, gs, ⟨g, h :: below⟩ :: F⟩) :
    a.checkReleasable h = .ok () ∧ Settled ⟨a.vacate h, gs, ⟨g, below⟩ :: F⟩ := by
  have T : a.Tracks (h :: (gs ++ (below ++ F.flatMap (·.blocks)))) :=
    S.tracks.perm List.perm_middle
  have hfresh := (List.nodup_cons.mp T.live_nodup).1
  rw [List.mem_append, List.mem_append, not_or, not_or] at hfresh
  obtain ⟨hglobal, hbelow, hothers⟩ := hfresh
  refine ⟨T.vacate.1, T.vacate.2, ?_, ?_⟩
  · intro g hg
    have hne : g ≠ h := fun e => hglobal (e ▸ hg)
    rw [parent?_vacate hne]
    exact S.roots g hg
  · intro f' hf'
    rw [List.mem_cons] at hf'
    rcases hf' with rfl | hf'
    · obtain ⟨hg, -, hlinked⟩ := S.linked _ List.mem_cons_self
      refine ⟨hg, hlinked.congr fun k hk => parent?_vacate ?_⟩
      rintro rfl
      exact hbelow hk
    · obtain ⟨hg, hlinked⟩ := S.linked f' (List.mem_cons_of_mem _ hf')
      refine ⟨hg, hlinked.congr fun k hk => parent?_vacate ?_⟩
      rintro rfl
      exact hothers (List.mem_flatMap.mpr ⟨f', hf', hk⟩)

/-- All blocks of a frame can be released. -/
theorem releaseAll {g : Handle} {blocks : List Handle}
    (S : Settled ⟨a, gs, ⟨g, blocks⟩ :: F⟩) :
    Frame.releaseAll blocks a = (.ok (), [], blocks.foldl Arena.vacate a) ∧
      Settled ⟨blocks.foldl Arena.vacate a, gs, ⟨g, []⟩ :: F⟩ := by
  induction blocks generalizing a with
  | nil => exact ⟨rfl, S⟩
  | cons h below ih =>
      obtain ⟨hok, S'⟩ := S.vacate
      obtain ⟨heq, S''⟩ := ih S'
      refine ⟨?_, S''⟩
      rw [Frame.releaseAll, hok]
      exact heq

/-! ## Looking names up -/

/-- From every scope that is alive a look-up ends. -/
theorem walk (S : t.Settled) {h : Handle} (hh : h ∈ t.live) :
    ∃ path, t.arena.Walk (some h) path := by
  rw [live, List.mem_append, List.mem_flatMap] at hh
  rcases hh with hg | ⟨f, hf, hmem⟩
  · have hlinked : t.arena.Linked h [] := trivial
    exact ⟨_, hlinked.walk (S.roots h hg)⟩
  · obtain ⟨hglobal, hlinked⟩ := S.linked f hf
    have W := hlinked.walk (S.roots _ hglobal)
    obtain ⟨rest, hrest, -⟩ := W.of_mem (List.mem_append_left _ hmem)
    exact ⟨rest, hrest⟩

/-- A live handle gives its scope. -/
theorem get_ok (S : t.Settled) {h : Handle} (hh : h ∈ t.live) : ∃ s, t.arena.get h = .ok s := by
  obtain ⟨s, hs⟩ := (S.tracks.live_iff h).mp hh
  exact ⟨s, get_eq_ok hs⟩

/-- Asking for the innermost block looks at no scope. -/
theorem innermost_intact (f : Frame) : Intact f.innermost := by
  unfold Frame.innermost
  split
  · exact .ok _
  · exact .error nofun

/-- The innermost block of a frame is alive. -/
theorem mem_live_of_innermost (hf : f ∈ t.frames) {h : Handle} (hinner : f.innermost = .ok h) :
    h ∈ t.live := by
  unfold Frame.innermost at hinner
  split at hinner
  · next k rest hblocks =>
      cases hinner
      exact mem_live_of_mem_blocks hf (by simp [hblocks])
  · cases hinner

/-- Asking whether a name can be declared meets no stale handle. -/
theorem checkDeclarable_intact (S : t.Settled) (hf : f ∈ t.frames) (name : String) :
    Intact (f.checkDeclarable t.arena name) := by
  refine .bind (innermost_intact f) fun h hinner => ?_
  obtain ⟨s, hs⟩ := S.get_ok (mem_live_of_innermost hf hinner)
  rw [hs]
  show Intact (if s.symbols.contains name then throw _ else pure h)
  split
  · exact .error nofun
  · exact .ok _

/-- A search from the innermost block to the global scope meets no stale handle. -/
theorem locate_intact (S : t.Settled) (hf : f ∈ t.frames) (name : String) :
    Intact (f.locate t.arena name) := by
  refine .bind (innermost_intact f) fun h hinner => ?_
  obtain ⟨path, W⟩ := S.walk (mem_live_of_innermost hf hinner)
  rw [W.locate_eq name]
  refine .bind (.ok _) fun found _ => ?_
  cases found with
  | none => exact .error nofun
  | some found => exact .ok _

/-- The same of a search for a variable. -/
theorem locateVariable_intact (S : t.Settled) (hf : f ∈ t.frames) (name : String) :
    Intact (f.locateVariable t.arena name) := by
  refine .bind (S.locate_intact hf name) fun found _ => ?_
  obtain ⟨h, s⟩ := found
  cases s with
  | var v => exact .ok _
  | func g => exact .error nofun

/-- The same of a search for a variable that can be assigned. -/
theorem locateAssignable_intact (S : t.Settled) (hf : f ∈ t.frames) (name : String) :
    Intact (f.locateAssignable t.arena name) := by
  refine .bind (S.locateVariable_intact hf name) fun found _ => ?_
  obtain ⟨h, v⟩ := found
  show Intact (if v.readOnly then throw _ else pure (h, v))
  split
  · exact .error nofun
  · exact .ok _

/-- The same of looking up a variable. -/
theorem resolveVariable_intact (S : t.Settled) (hf : f ∈ t.frames) (name : String) :
    Intact (f.resolveVariable t.arena name) :=
  .bind (S.locateVariable_intact hf name) fun _ _ => .ok _

end Settled

/-! ## Operations on a frame -/

/-- What an operation can do to a frame and to the arena. -/
inductive Effect (f : Frame) (a : Arena) : Frame → Arena → Prop
  | kept : Effect f a f a
  | stored (h : Handle) (name : String) (s : Symbol) : Effect f a f (a.store h name s)
  | entered {h : Handle} {below : List Handle} : f.blocks = h :: below →
      Effect f a { f with blocks := (a.newScope (some h)).1 :: f.blocks } (a.newScope (some h)).2
  | exited {h : Handle} {below : List Handle} : f.blocks = h :: below →
      Effect f a { f with blocks := below } (a.vacate h)
  | closed : Effect f a { f with blocks := [] } (f.blocks.foldl Arena.vacate a)

variable {t : Tenants} {a a' : Arena} {gs : List Handle} {f f' : Frame} {F : List Frame}

/-- An operation on a frame meets no released scope and has one of the effects. -/
theorem onFrame_effect (S : Settled ⟨a, gs, f :: F⟩) (op : FrameOp) :
    ∃ answer f' a', Scopes.onFrame f a op = (answer, f', a') ∧ Intact answer ∧
      Effect f a f' a' := by
  have hf : f ∈ (⟨a, gs, f :: F⟩ : Tenants).frames := List.mem_cons_self
  cases op with
  | enter =>
      cases hblocks : f.blocks with
      | nil =>
          refine ⟨.error .outOfRange, f, a, ?_, .error (by rintro ⟨⟩), .kept⟩
          simp only [Scopes.onFrame, Frame.enter, Frame.innermost, hblocks]
          rfl
      | cons h below =>
          refine ⟨.ok .done, _, _, ?_, .ok _, .entered hblocks⟩
          simp only [Scopes.onFrame, Frame.enter, Frame.innermost, hblocks]
          rfl
  | exit =>
      -- the outermost block of a frame is not left
      have hroot (h : f.exit a = (.error (.defect .exitOfRootBlock none), f, a)) :
          ∃ answer f' a', Scopes.onFrame f a .exit = (answer, f', a') ∧ Intact answer ∧
            Effect f a f' a' := by
        refine ⟨.error (.defect .exitOfRootBlock none), f, a, ?_, .error (by rintro ⟨⟩), .kept⟩
        simp only [Scopes.onFrame, h]
        rfl
      rcases hblocks : f.blocks with _ | ⟨h, _ | ⟨h', below⟩⟩
      · exact hroot (by rw [Frame.exit, hblocks])
      · exact hroot (by rw [Frame.exit, hblocks])
      · have hok : a.checkReleasable h = .ok () := by
          obtain ⟨g, blocks⟩ := f
          cases hblocks
          exact S.vacate.1
        refine ⟨.ok .done, _, _, ?_, .ok _, .exited hblocks⟩
        simp only [Scopes.onFrame, Frame.exit, hblocks, hok]
        rfl
  | close =>
      refine ⟨.ok .done, _, _, ?_, .ok _, .closed⟩
      simp only [Scopes.onFrame, Frame.close, S.releaseAll.1]
      rfl
  | declare v =>
      have hintact := S.checkDeclarable_intact hf v.name
      simp only [Scopes.onFrame, Frame.declare]
      cases hcheck : f.checkDeclarable a v.name with
      | error e => exact ⟨_, _, _, rfl, .error (hintact e hcheck), .kept⟩
      | ok h => exact ⟨_, _, _, rfl, .ok _, .stored h v.name (.var v)⟩
  | assign name value =>
      have hintact := S.locateAssignable_intact hf name
      simp only [Scopes.onFrame, Frame.assign]
      cases hlocate : f.locateAssignable a name with
      | error e => exact ⟨_, _, _, rfl, .error (hintact e hlocate), .kept⟩
      | ok found => exact ⟨_, _, _, rfl, .ok _, .stored _ _ _⟩
  | lookup name =>
      refine ⟨_, _, _, rfl, .map ?_ _, .kept⟩
      refine .bind (S.resolveVariable_intact hf name) fun v _ => ?_
      split
      · exact .ok _
      · exact .error (by rintro ⟨⟩)
  | resolve name =>
      exact ⟨_, _, _, rfl, .map (.bind (S.locate_intact hf name) fun _ _ => .ok _) _, .kept⟩
  | resolveVariable name =>
      exact ⟨_, _, _, rfl, .map (S.resolveVariable_intact hf name) _, .kept⟩
  | checkAssignable name =>
      exact ⟨_, _, _, rfl,
        .map (.bind (S.locateAssignable_intact hf name) fun _ _ => .ok _) _, .kept⟩

/-- What an operation does to a frame leaves the tenants settled. -/
theorem Effect.settled (h : Effect f a f' a') (S : Settled ⟨a, gs, f :: F⟩) :
    Settled ⟨a', gs, f' :: F⟩ := by
  obtain ⟨g, blocks⟩ := f
  cases h with
  | kept => exact S
  | stored h name s => exact S.store h name s
  | entered hblocks =>
      cases hblocks
      exact S.newBlock
  | exited hblocks =>
      cases hblocks
      exact S.vacate.2
  | closed => exact S.releaseAll.2

/-- The arena becomes larger only where more scopes are alive than it had slots. -/
theorem Effect.size_eq (h : Effect f a f' a') (S : Settled ⟨a, gs, f :: F⟩) :
    a'.slots.size = max a.slots.size a'.liveCount := by
  have T := (h.settled S).tracks
  cases h with
  | kept => exact T.size_eq_max rfl
  | stored h name s => exact T.size_eq_max (Array.size_modify ..)
  | entered _ => exact S.tracks.size_newScope _
  | exited _ => exact T.size_eq_max (Array.size_setIfInBounds ..)
  | closed => exact T.size_eq_max (size_foldl_vacate f.blocks a)

/-! ## Every operation -/

/-- An operation meets no released scope, leaves the tenants settled, and makes the arena larger only
where more scopes are alive than it had slots. -/
theorem Settled.step (S : t.Settled) (op : TenantOp) :
    Intact (t.step op).1 ∧ (t.step op).2.Settled ∧
      (t.step op).2.arena.slots.size = max t.arena.slots.size (t.step op).2.arena.liveCount := by
  obtain ⟨a, gs, F⟩ := t
  have hkept := S.tracks.size_eq_max rfl
  cases op with
  | newGlobal => exact ⟨.ok _, S.newGlobal, S.tracks.size_newScope none⟩
  | declareGlobal k s =>
      simp only [Tenants.step]
      cases hg : gs[k]? with
      | none => exact ⟨.error nofun, S, hkept⟩
      | some g =>
          obtain ⟨scope, hscope⟩ := S.get_ok (mem_live_of_mem_globals (List.mem_of_getElem? hg))
          have hdeclare : a.declareGlobal g s =
              if scope.symbols.contains s.name then .error (.scope (.duplicateGlobal s.name))
              else .ok (a.store g s.name s) := by
            unfold declareGlobal containsGlobal Arena.put
            rw [hscope]
            rfl
          simp only [hdeclare]
          by_cases htaken : scope.symbols.contains s.name = true
          · rw [if_pos htaken]
            exact ⟨.error nofun, S, hkept⟩
          · rw [if_neg htaken]
            have S' := S.store g s.name s
            exact ⟨.ok _, S', S'.tracks.size_eq_max (Array.size_modify ..)⟩
  | openFrame k =>
      simp only [Tenants.step]
      cases hg : gs[k]? with
      | none => exact ⟨.error nofun, S, hkept⟩
      | some g =>
          have S' := (S.emptyFrame (List.mem_of_getElem? hg)).newBlock
          exact ⟨.ok _, S'.perm (List.perm_append_singleton _ _).symm, S.tracks.size_newScope _⟩
  | onFrame i op =>
      simp only [Tenants.step]
      cases hf : F[i]? with
      | none => exact ⟨.error nofun, S, hkept⟩
      | some f =>
          obtain ⟨hlt, rfl⟩ := List.getElem?_eq_some_iff.mp hf
          -- the order of the frames does not matter, so this one can be the first
          have S₁ : Settled ⟨a, gs, F[i] :: F.eraseIdx i⟩ :=
            S.perm (List.getElem_cons_eraseIdx_perm hlt).symm
          obtain ⟨answer, f', a', hrun, hintact, heffect⟩ := onFrame_effect S₁ op
          simp only [hrun]
          exact ⟨hintact, (heffect.settled S₁).perm (List.set_perm_cons_eraseIdx hlt f').symm,
            heffect.size_eq S₁⟩

/-- A frame can be closed at any time, and has no blocks then. -/
theorem Settled.step_close (S : t.Settled) {i : Nat} (hf : t.frames[i]? = some f) :
    ∃ a, t.step (.onFrame i .close) =
      (.ok .done, ⟨a, t.globals, t.frames.set i { f with blocks := [] }⟩) := by
  obtain ⟨a, gs, F⟩ := t
  obtain ⟨hlt, hget⟩ := List.getElem?_eq_some_iff.mp hf
  have S₁ : Settled ⟨a, gs, f :: F.eraseIdx i⟩ := by
    rw [← hget]
    exact S.perm (List.getElem_cons_eraseIdx_perm hlt).symm
  refine ⟨f.blocks.foldl Arena.vacate a, ?_⟩
  simp only [Tenants.step, hf, Scopes.onFrame, Frame.close, S₁.releaseAll.1]
  rfl

/-- Operations one after another meet no released scope and leave the tenants settled. -/
theorem Settled.run (S : t.Settled) (ops : List TenantOp) :
    (∀ answer ∈ (t.run ops).1, Intact answer) ∧ (t.run ops).2.Settled := by
  induction ops generalizing t with
  | nil => exact ⟨fun _ hmem => absurd hmem List.not_mem_nil, S⟩
  | cons op ops ih =>
      obtain ⟨hanswer, S', -⟩ := S.step op
      obtain ⟨hanswers, S''⟩ := ih S'
      refine ⟨?_, S''⟩
      intro answer hmem
      rw [Tenants.run, List.mem_cons] at hmem
      rcases hmem with rfl | hmem
      · exact hanswer
      · exact hanswers answer hmem

/-- The arena never becomes smaller. -/
theorem Settled.size_le_run (S : t.Settled) (ops : List TenantOp) :
    t.arena.slots.size ≤ (t.run ops).2.arena.slots.size := by
  induction ops generalizing t with
  | nil => exact le_rfl
  | cons op ops ih =>
      obtain ⟨-, S', hsize⟩ := S.step op
      calc t.arena.slots.size
          ≤ max t.arena.slots.size (t.step op).2.arena.liveCount := le_max_left _ _
        _ = (t.step op).2.arena.slots.size := hsize.symm
        _ ≤ ((t.step op).2.run ops).2.arena.slots.size := ih S'

/-- The arena has room for all scopes that were alive at any time. -/
theorem Settled.liveCount_le_size_run (S : t.Settled) {pre ops : List TenantOp}
    (hpre : pre <+: ops) :
    (t.run pre).2.arena.liveCount ≤ (t.run ops).2.arena.slots.size := by
  induction ops generalizing t pre with
  | nil =>
      rw [List.prefix_nil.mp hpre]
      exact S.tracks.liveCount_le
  | cons op ops ih =>
      cases pre with
      | nil => exact S.tracks.liveCount_le.trans (S.size_le_run (op :: ops))
      | cons op' pre =>
          obtain ⟨rfl, htail⟩ := List.cons_prefix_cons.mp hpre
          exact ih (S.step op').2.1 htail

/-- An arena that has grown was full at some time. -/
theorem Settled.exists_liveCount_eq_size_run (S : t.Settled) (ops : List TenantOp)
    (hgrown : (t.run ops).2.arena.slots.size ≠ t.arena.slots.size) :
    ∃ pre, pre <+: ops ∧ (t.run pre).2.arena.liveCount = (t.run ops).2.arena.slots.size := by
  induction ops generalizing t with
  | nil => exact absurd rfl hgrown
  | cons op ops ih =>
      obtain ⟨-, S', hsize⟩ := S.step op
      by_cases hlater : ((t.step op).2.run ops).2.arena.slots.size = (t.step op).2.arena.slots.size
      · -- the first operation has made the arena as large as it is in the end
        refine ⟨[op], by simp, ?_⟩
        have hfirst : (t.step op).2.arena.slots.size ≠ t.arena.slots.size := fun h =>
          hgrown (hlater.trans h)
        show (t.step op).2.arena.liveCount = ((t.step op).2.run ops).2.arena.slots.size
        omega
      · obtain ⟨pre, hpre, heq⟩ := ih S' hlater
        exact ⟨op :: pre, List.cons_prefix_cons.mpr ⟨rfl, hpre⟩, heq⟩

/-- Whatever is created, opened and closed in an arena, and in whatever order: the free list names
every empty slot once; the scopes that are alive are the global ones and the blocks of the open
frames, each inside the one that lies below it in its frame; a frame can be closed, which releases
all of its blocks; a look-up from any of them passes scopes
that are alive and ends; no operation has met a released scope; and the number of slots is the
largest number of scopes that were alive at once. -/
theorem run_settled (ops : List TenantOp) :
    let t := (run {} ops).2
    t.Settled ∧
    (∀ i f, t.frames[i]? = some f → ∃ a, t.step (.onFrame i .close) =
      (.ok .done, ⟨a, t.globals, t.frames.set i { f with blocks := [] }⟩)) ∧
    (∀ h ∈ t.live, ∃ path, t.arena.Walk (some h) path ∧
      ∀ name, t.arena.find (some h) name = .ok (path.findSome? (t.arena.symbol? name))) ∧
    (∀ answer ∈ (run {} ops).1, Intact answer) ∧
    IsGreatest { n | ∃ pre, pre <+: ops ∧ n = (run {} pre).2.arena.liveCount }
      t.arena.slots.size := by
  obtain ⟨hintact, S⟩ := Settled.start.run ops
  refine ⟨S, fun i f hf => S.step_close hf, ?_, hintact, ?_, ?_⟩
  · intro h hh
    obtain ⟨path, W⟩ := S.walk hh
    exact ⟨path, W, W.find_eq⟩
  · by_cases hgrown : (run {} ops).2.arena.slots.size = 0
    · refine ⟨[], List.nil_prefix, ?_⟩
      rw [hgrown]
      rfl
    · obtain ⟨pre, hpre, heq⟩ := Settled.start.exists_liveCount_eq_size_run ops hgrown
      exact ⟨pre, hpre, heq.symm⟩
  · rintro n ⟨pre, hpre, rfl⟩
    exact Settled.start.liveCount_le_size_run hpre

end Tenants

end Pigeon

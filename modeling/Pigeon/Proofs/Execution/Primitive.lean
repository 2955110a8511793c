import Pigeon.Proofs.Execution.Standing
import Pigeon.Proofs.Step

/-!
# The primitive steps of the machine

What each primitive step does where the machine stands in a context. None of them fails where the
rules hold: blocks can be opened and closed, a new name can be declared, a variable of the context
has a value and can be given another one, and a function that the rules know is found.
-/

namespace Pigeon

open Blocks

/-- The current frame of the machine has the blocks `f`, which fit the context `Γ`; the frames below
it have the blocks `F`; the global symbols `G` are what the globals say. -/
structure Setting.Stands (w : Setting) (m : Machine) (Γ : Context) (G : Symbols) (f : Blocks)
    (F : List Blocks) : Prop where
  holds : m.arena.Holds w.root G (f :: F)
  globals : m.globals = w.root
  frames : m.frames = (f :: F).map fun f => ⟨w.root, handles f⟩
  fits : Context.Fits w.strict Γ f
  serves : w.Serves G
  tagged : w.strict = true → Symbols.Tagged G ∧ ∀ f' ∈ F, Blocks.Tagged f'

namespace Run

variable {w : Setting} {m : Machine} {Γ : Context} {G : Symbols} {f : Blocks} {F : List Blocks}

theorem ofExcept_apply {α : Type} (x : Except Failure α) (m : Machine) : ofExcept x m = (x, m) := by
  cases x with
  | ok a => rfl
  | error e => rfl

/-- The current frame. -/
theorem frame_eq (S : w.Stands m Γ G f F) : frame m = (.ok ⟨w.root, handles f⟩, m) := by
  unfold frame
  rw [Step.bind_ok (Step.get_apply m), S.frames]
  rfl

theorem ne_nil_of_fits {strict : Bool} (h : Context.Fits strict Γ f) (hΓ : Γ ≠ []) : f ≠ [] := by
  rintro rfl
  cases h
  exact hΓ rfl

/-! ## Blocks -/

/-- A block can be opened. -/
theorem enter_eq (S : w.Stands m Γ G f F) (hΓ : Γ ≠ []) :
    ∃ m' k, enter m = (.ok (), m') ∧ w.Stands m' ([] :: Γ) G ((k, []) :: f) F := by
  have hinner : (Frame.mk w.root (handles f)).innermost = .ok (top w.root f) :=
    Frame.innermost_eq rfl (ne_nil_of_fits S.fits hΓ)
  refine ⟨{ m with
      arena := (m.arena.newScope (some (top w.root f))).2
      frames := ⟨w.root, (m.arena.newScope (some (top w.root f))).1 :: handles f⟩ ::
        F.map fun f => ⟨w.root, handles f⟩ }, _, ?_,
    ⟨S.holds.newScope, S.globals, rfl, .cons .nil S.fits, S.serves, S.tagged⟩⟩
  unfold enter
  rw [Step.bind_ok (frame_eq S), hinner, Step.bind_ok (ofExcept_apply (.ok (top w.root f)) m)]
  unfold newScope setFrame
  rw [Step.bind_ok (Step.modifyGet_apply _ m), Step.modify_apply, S.frames]
  rfl

/-- A block that is not the last one of its frame can be closed. -/
theorem exit_eq {block : List Binding} {b : Handle × Symbols}
    (S : w.Stands m (block :: Γ) G (b :: f) F) (hΓ : Γ ≠ []) :
    ∃ m', exit m = (.ok (), m') ∧ m'.host = m.host ∧ w.Stands m' Γ G f F := by
  obtain ⟨k, b⟩ := b
  have hfits : Context.Fits w.strict Γ f := by
    cases S.fits with
    | cons _ h => exact h
  have hexit : (Frame.mk w.root (handles ((k, b) :: f))).exit m.arena =
      (.ok (), ⟨w.root, handles f⟩, m.arena.vacate k) :=
    Frame.exit_eq rfl (ne_nil_of_fits hfits hΓ) S.holds
  refine ⟨{ m with
      arena := m.arena.vacate k
      frames := ⟨w.root, handles f⟩ :: F.map fun f => ⟨w.root, handles f⟩ }, ?_, rfl,
    ⟨S.holds.vacate.2, S.globals, rfl, hfits, S.serves, S.tagged⟩⟩
  unfold exit
  rw [Step.bind_ok (frame_eq S), Step.bind_ok (Step.modifyGet_apply _ m)]
  simp only [hexit]
  rw [S.frames]
  rfl

/-! ## Variables -/

/-- A new name can be declared in a frame whose innermost block is `b`. -/
theorem declareIn_eq {fr : Frame} {g k : Handle} {b : Symbols}
    (hfr : fr.blocks = handles ((k, b) :: f))
    (H : m.arena.Holds g G (((k, b) :: f) :: F)) {v : Variable}
    (hnew : Symbols.find? b v.name = none) :
    ∃ a, declareIn fr v m = (.ok (), { m with arena := a }) ∧
      a.Holds g G (((k, b ++ [(v.name, .var v)]) :: f) :: F) := by
  have hcheck : fr.checkDeclarable m.arena v.name = .ok k := by
    rw [Frame.checkDeclarable_eq hfr H, (Symbols.contains_eq_false_iff b v.name).mpr hnew]
    rfl
  have hstore := H.store_top v.name (.var v)
  rw [Symbols.insert_of_find?_eq_none _ hnew] at hstore
  refine ⟨m.arena.store k v.name (.var v), ?_, hstore⟩
  unfold declareIn
  rw [Step.bind_ok (Step.get_apply m), hcheck, Step.bind_ok (ofExcept_apply (.ok k) m)]
  rfl

/-- A new name can be declared. -/
theorem declare_eq (S : w.Stands m Γ G f F) (hΓ : Γ ≠ []) {v : Binding} {t : Option Ty}
    {value : Value} (hfresh : Context.Fresh Γ v.name)
    (htags : w.strict = true → t = some v.ty ∧ value.ty = v.ty) :
    ∃ m' f', declare ⟨v.name, t, v.readOnly, some value⟩ m = (.ok (), m') ∧
      w.Stands m' (Context.declare v Γ) G f' F := by
  obtain ⟨block, outer, rfl⟩ := List.exists_cons_of_ne_nil hΓ
  obtain ⟨⟨k, b⟩, rest, rfl⟩ := List.exists_cons_of_ne_nil (ne_nil_of_fits S.fits hΓ)
  obtain ⟨a, heq, H⟩ := declareIn_eq
    (rfl : (Frame.mk w.root (handles ((k, b) :: rest))).blocks = _) S.holds
    (v := ⟨v.name, t, v.readOnly, some value⟩) (S.fits.find?_fresh hfresh)
  refine ⟨{ m with arena := a }, _, ?_,
    ⟨H, S.globals, S.frames, S.fits.declare htags, S.serves, S.tagged⟩⟩
  unfold declare
  rw [Step.bind_ok (frame_eq S), heq]

/-- The handles of the current frame are distinct. -/
theorem handles_nodup (S : w.Stands m Γ G f F) : (handles f).Nodup :=
  (List.nodup_cons.mp S.holds.nodup_current).2

/-- A variable that the rules know has a value, and can be given another one if it is not
read-only. -/
theorem locateVariable_eq (S : w.Stands m Γ G f F) (hΓ : Γ ≠ []) {name : String} {t : Ty}
    {readOnly : Bool} (h : Context.resolve w.globals Γ name = some (t, readOnly)) :
    ∃ k n u old, (Frame.mk w.root (handles f)).locateVariable m.arena name =
        .ok (k, ⟨n, u, readOnly, some old⟩) ∧
      (w.strict = true → old.ty = t) ∧
      ∀ value : Value, (w.strict = true → value.ty = t) → ∃ G' f',
        w.Stands { m with
          arena := m.arena.store k name (.var ⟨n, u, readOnly, some value⟩) } Γ G' f' F := by
  have hlocate := Frame.locate_eq (rfl : (Frame.mk w.root (handles f)).blocks = _)
    (ne_nil_of_fits S.fits hΓ) S.holds name
  unfold Frame.locateVariable
  rw [hlocate]
  unfold Context.resolve at h
  cases hv : Context.find? Γ name with
  | some v =>
      -- the handle is one of the current frame, whose blocks stand for the context
      rw [hv] at h
      cases h
      obtain ⟨k, u, old, hfind, hmem, htags, hstore⟩ :=
        S.fits.find?_some (handles_nodup S) hv w.root G
      rw [hfind]
      refine ⟨k, name, u, old, rfl, fun hs => (htags hs).2, fun value hvalue => ?_⟩
      refine ⟨G, _, S.holds.store_current name _ hmem, S.globals, ?_, hstore value hvalue, S.serves,
        S.tagged⟩
      rw [List.map_cons, handles_store]
      exact S.frames
  | none =>
      rw [hv] at h
      simp only at h
      split at h
      · next t' readOnly' hΔ =>
          -- no block has the name, so the global scope is reached
          cases h
          obtain ⟨n, u, old, hfind, htags, hserves⟩ := S.serves.find?_var hΔ
          rw [S.fits.find?_none hv, hfind]
          refine ⟨w.root, n, u, old, rfl, fun hs => (htags hs).2, fun value hvalue => ?_⟩
          refine ⟨_, f, S.holds.store_global name _, S.globals, S.frames, S.fits,
            hserves value hvalue, fun hs => ⟨?_, (S.tagged hs).2⟩⟩
          refine (S.tagged hs).1.insert name rfl ?_
          rw [(htags hs).1, hvalue hs]
      · cases h

/-- A variable that the rules know has a value. -/
theorem lookup_eq (S : w.Stands m Γ G f F) (hΓ : Γ ≠ []) {name : String} {t : Ty}
    {readOnly : Bool} (h : Context.resolve w.globals Γ name = some (t, readOnly)) :
    ∃ value, lookup name m = (.ok value, m) ∧ (w.strict = true → value.ty = t) := by
  obtain ⟨k, n, u, old, hlocate, htags, -⟩ := locateVariable_eq S hΓ h
  refine ⟨old, ?_, htags⟩
  unfold lookup
  rw [Step.bind_ok (frame_eq S), Step.bind_ok (Step.get_apply m), ofExcept_apply]
  unfold Frame.lookup Frame.resolveVariable
  rw [hlocate]
  rfl

/-- A variable that the rules know and that is not read-only can be given another value. -/
theorem assign_eq (S : w.Stands m Γ G f F) (hΓ : Γ ≠ []) {name : String} {t : Ty}
    (h : Context.resolve w.globals Γ name = some (t, false)) {value : Value}
    (hvalue : w.strict = true → value.ty = t) :
    ∃ m' G' f', assign name value m = (.ok (), m') ∧ w.Stands m' Γ G' f' F := by
  obtain ⟨k, n, u, old, hlocate, -, hstore⟩ := locateVariable_eq S hΓ h
  obtain ⟨G', f', S'⟩ := hstore value hvalue
  refine ⟨_, G', f', ?_, S'⟩
  have hassignable : (Frame.mk w.root (handles f)).locateAssignable m.arena name =
      .ok (k, ⟨n, u, false, some old⟩) := by
    unfold Frame.locateAssignable
    rw [hlocate]
    rfl
  unfold assign
  rw [Step.bind_ok (frame_eq S), Step.bind_ok (Step.get_apply m), hassignable]
  rfl

/-! ## Frames -/

/-- A new frame has one block without symbols. -/
theorem openFrame_eq {g : Handle} (H : m.arena.Holds g G F) (hglobals : m.globals = g) :
    ∃ k a, openFrame m = (.ok ⟨g, [k]⟩, { m with arena := a }) ∧
      a.Holds g G ([(k, [])] :: F) := by
  obtain ⟨k, a, -, hnew, H'⟩ := Frame.openIn_eq H
  refine ⟨k, a, ?_, H'⟩
  rw [← hglobals] at hnew ⊢
  unfold openFrame newScope
  rw [Step.bind_ok (Step.get_apply m), Step.bind_ok (Step.modifyGet_apply _ m), hnew]
  rfl

/-- Arguments are bound to parameters with new and distinct names. -/
theorem bindParams_eq {fr : Frame} {k : Handle} (hfr : fr.blocks = [k]) {block : List Binding}
    {b : Symbols} (hb : List.Forall₂ (Binding.Fits w.strict) block b)
    (H : m.arena.Holds w.root G ([(k, b)] :: F)) {ps : List Parameter} {vs : List Value}
    (hvs : List.Forall₂ (fun q v => w.strict = true → v.ty = q.ty) ps vs)
    (hnodup : (block.map (·.name) ++ ps.map (·.name)).Nodup) :
    ∃ a b', bindParams fr ps vs m = (.ok (), { m with arena := a }) ∧
      a.Holds w.root G ([(k, b')] :: F) ∧
      List.Forall₂ (Binding.Fits w.strict) (block ++ ps.map Parameter.binding) b' := by
  induction hvs generalizing m block b with
  | nil => exact ⟨m.arena, b, rfl, H, by simpa using hb⟩
  | @cons q v ps vs hv _ ih =>
      have hfresh : block.find? (·.name = q.name) = none := by
        rw [List.find?_eq_none]
        intro x hx heq
        rw [List.nodup_append] at hnodup
        exact hnodup.2.2 x.name (List.mem_map_of_mem hx) q.name (by simp) (of_decide_eq_true heq)
      obtain ⟨a, heq, H'⟩ := declareIn_eq (v := ⟨q.name, some q.ty, false, some v⟩) hfr H
        (Binding.find?_none_of_forall₂ hb hfresh)
      have hfits : q.binding.Fits w.strict (q.name, .var ⟨q.name, some q.ty, false, some v⟩) :=
        ⟨some q.ty, v, rfl, fun hs => ⟨rfl, hv hs⟩⟩
      obtain ⟨a', b', hrest, H'', hb'⟩ := ih (m := { m with arena := a })
        (List.rel_append hb (.cons hfits .nil)) H' (by simpa [Parameter.binding] using hnodup)
      refine ⟨a', b', ?_, H'', by simpa using hb'⟩
      rw [bindParams, Step.bind_ok heq]
      exact hrest

/-- The current frame can be closed. -/
theorem close_eq (S : w.Stands m Γ G f F) :
    ∃ a, close m = (.ok (), { m with arena := a, frames := F.map fun f => ⟨w.root, handles f⟩ }) ∧
      a.Holds w.root G F := by
  obtain ⟨a, hclose, H⟩ := Frame.close_eq (rfl : (Frame.mk w.root (handles f)).blocks = _)
    S.holds
  refine ⟨a, ?_, H⟩
  unfold close
  rw [Step.bind_ok (frame_eq S), Step.bind_ok (Step.modifyGet_apply _ m)]
  simp only [hclose]
  rw [S.frames]
  rfl

/-! ## Functions -/

/-- A function that the rules know is found. -/
theorem function_eq (S : w.Stands m Γ G f F) {name : String} {signature : Signature}
    (h : w.globals name = some (.func signature)) (site : RunSite) (sp : Option Span) :
    ∃ fn, function site name sp m = (.ok fn, m) ∧ fn.signature = signature ∧ w.Callable fn := by
  obtain ⟨fn, hfind, hsignature, hcallable⟩ := S.serves.find?_func h
  refine ⟨fn, ?_, hsignature, hcallable⟩
  have hglobal : m.arena.globalFunction? m.globals name = .ok (some fn) := by
    unfold Arena.globalFunction?
    rw [S.globals, S.holds.global? name, hfind]
    rfl
  unfold function
  rw [Step.bind_ok (Step.get_apply m), hglobal, Step.bind_ok (ofExcept_apply (.ok (some fn)) m)]
  rfl

end Run

end Pigeon

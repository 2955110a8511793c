import Mathlib.Data.List.Perm.Basic
import Pigeon.Proofs.Scope.Frame
import Pigeon.Proofs.Scope.Nested

/-!
# Scopes in an arena are nested environments

The scopes of an arena, with a global one and frames in it, show nested environments: what each
handle leads to. Every operation on frames answers as the operation on the environments does, and
the scopes after it show the environments after it.
-/

namespace Pigeon

open Blocks Arena

/-! ## Lists of symbols as environments -/

/-- The environments of the blocks of a frame. -/
def Blocks.environments (f : Blocks) : List Environment := f.map fun b => b.2.find?

@[simp] theorem Blocks.environments_nil : environments [] = [] := rfl

@[simp] theorem Blocks.environments_cons (b : Handle × Symbols) (f : Blocks) :
    environments (b :: f) = b.2.find? :: environments f := rfl

/-- Inserting a symbol updates the environment at its name. -/
theorem Symbols.find?_insert_eq_update (b : Symbols) (name : String) (s : Symbol) :
    (b.insert name s).find? = Function.update b.find? name (some s) := by
  funext n
  rw [Symbols.find?_insert, Function.update_apply]

section

variable {g h : Handle} {G : Symbols} {f : Blocks} {name : String} {s : Symbol}

/-- Looking through the blocks is looking through their environments. -/
theorem Blocks.map_find? (g : Handle) (G : Symbols) (name : String) (f : Blocks) :
    (Blocks.find? g G name f).map (·.2) = Nest.find? G.find? name f.environments := by
  induction f with
  | nil =>
      rw [Blocks.find?, environments_nil, Nest.find?]
      cases Symbols.find? G name <;> rfl
  | cons b f ih =>
      rw [Blocks.find?, environments_cons, Nest.find?, ← ih]
      cases Symbols.find? b.2 name <;> rfl

/-- Storing a symbol where a name is found gives its innermost binding the symbol. -/
theorem Blocks.rebind_environments (hnodup : (g :: handles f).Nodup) {s₀ : Symbol}
    (hfind : Blocks.find? g G name f = some (h, s₀)) (s : Symbol) :
    Nest.rebind G.find? name s f.environments =
      (if h = g then (G.insert name s).find? else G.find?,
        (Blocks.store h name s f).environments) := by
  induction f with
  | nil =>
      obtain ⟨rfl, -⟩ : h = g ∧ _ := (mem_of_find? hfind).resolve_right (by simp)
      rw [if_pos rfl, Symbols.find?_insert_eq_update]
      rfl
  | cons b f ih =>
      obtain ⟨k, b⟩ := b
      rw [handles_cons, List.nodup_cons, List.mem_cons, not_or, List.nodup_cons] at hnodup
      obtain ⟨⟨hgk, hgf⟩, hkf, hf⟩ := hnodup
      rw [environments_cons, Nest.rebind]
      rw [Blocks.find?] at hfind
      cases hb : Symbols.find? b name with
      | some s₁ =>
          rw [hb] at hfind
          cases hfind
          have hrest : Blocks.store h name s f = f := store_of_notMem name s hkf
          rw [if_neg (Ne.symm hgk)]
          simp only [Blocks.store, List.map_cons, if_pos, environments_cons] at hrest ⊢
          rw [hrest, Symbols.find?_insert_eq_update]
      | none =>
          rw [hb] at hfind
          have hne : k ≠ h := ne_of_find? hgk hkf hfind
          rw [ih (List.nodup_cons.mpr ⟨hgf, hf⟩) hfind]
          simp only [Blocks.store, List.map_cons, if_neg hne, environments_cons]

end

/-! ## Operations on frames in an arena -/

/-- A global scope in an arena and the frames that were opened in it. -/
structure Scopes where
  arena : Arena
  globals : Handle
  frames : List Frame

namespace Scopes

/-- A global scope with some symbols, and no frame yet. -/
def start (G : Symbols) : Scopes := ⟨{ slots := #[some ⟨none, G⟩] }, 0, []⟩

/-- What an operation on a frame answers, and the frame and the arena after it. -/
def onFrame (f : Frame) (a : Arena) : FrameOp → Except Failure ScopeAnswer × Frame × Arena
  | .enter =>
    match f.enter a with
    | .ok (f, a) => (.ok .done, f, a)
    | .error e => (.error e, f, a)
  | .exit => ((f.exit a).1.map fun _ => .done, (f.exit a).2)
  | .close => ((f.close a).1.map fun _ => .done, (f.close a).2)
  | .declare v =>
    match f.declare a v with
    | .ok a => (.ok (.variable v), f, a)
    | .error e => (.error e, f, a)
  | .assign name value =>
    match f.assign a name value with
    | .ok a => (.ok .done, f, a)
    | .error e => (.error e, f, a)
  | .lookup name => ((f.lookup a name).map .value, f, a)
  | .resolve name => ((f.resolve a name).map .symbol, f, a)
  | .resolveVariable name => ((f.resolveVariable a name).map .variable, f, a)
  | .checkAssignable name => ((f.checkAssignable a name).map .variable, f, a)

/-- What an operation answers, and the scopes after it. -/
def step (s : Scopes) : ScopeOp → Except Failure ScopeAnswer × Scopes
  | .openFrame =>
    let (f, a) := Frame.openIn s.arena s.globals
    (.ok .done, { s with arena := a, frames := s.frames ++ [f] })
  | .onFrame i op =>
    match s.frames[i]? with
    | none => (.error .outOfRange, s)
    | some f =>
      let (answer, f, a) := onFrame f s.arena op
      (answer, { s with arena := a, frames := s.frames.set i f })

/-- The answers of several operations, and the scopes after them. -/
def run (s : Scopes) : List ScopeOp → List (Except Failure ScopeAnswer) × Scopes
  | [] => ([], s)
  | op :: ops =>
    let (answer, s) := s.step op
    let (answers, s) := s.run ops
    (answer :: answers, s)

/-- The environment that a handle leads to. -/
def environment (a : Arena) (h : Handle) : Environment :=
  match a.slots[h]? with
  | some (some scope) => scope.symbols.find?
  | _ => .empty

/-- The nested environments that the scopes show. -/
def view (s : Scopes) : Nest :=
  ⟨environment s.arena s.globals, s.frames.map fun f => f.blocks.map (environment s.arena)⟩

/-! ## The layout of the frames -/

/-- The arena holds the global symbols and the blocks of the frames, and nothing else. -/
structure Lies (s : Scopes) (G : Symbols) (F : List Blocks) : Prop where
  holds : s.arena.Holds s.globals G F
  frames : s.frames = F.map fun f => ⟨s.globals, handles f⟩

end Scopes

section

variable {a : Arena} {g : Handle} {G : Symbols} {f : Blocks} {F F' : List Blocks}

/-- The order of the frames does not matter. -/
theorem Arena.Holds.perm (H : a.Holds g G F) (hperm : F.Perm F') : a.Holds g G F' := by
  have hall : (allHandles F).Perm (allHandles F') := hperm.flatMap_right handles
  refine ⟨H.root, fun f hf => H.chained f (hperm.mem_iff.mpr hf), ?_, ?_, H.free_iff, H.free_nodup⟩
  · exact (hall.cons g).nodup_iff.mp H.nodup
  · intro h s hs
    exact (hall.cons g).mem_iff.mp (H.live h s hs)

end

/-! ## Reading -/

namespace Frame

variable {a : Arena} {g : Handle} {G : Symbols} {f : Blocks} {F : List Blocks}

/-- A name means in the frame what it means in the environments. -/
theorem resolve_eq_nested (H : a.Holds g G (f :: F)) (name : String) :
    resolve ⟨g, handles f⟩ a name = Nest.resolve G.find? f.environments name := by
  cases f with
  | nil => rfl
  | cons b f =>
      have hview := Blocks.map_find? g G name (b :: f)
      unfold resolve Nest.resolve
      rw [locate_eq rfl (by simp) H name, ← hview]
      cases Blocks.find? g G name (b :: f) <;> rfl

/-- A name is that of a variable in the frame if it is in the environments. -/
theorem resolveVariable_eq_nested (H : a.Holds g G (f :: F)) (name : String) :
    resolveVariable ⟨g, handles f⟩ a name = Nest.resolveVariable G.find? f.environments name := by
  unfold Nest.resolveVariable
  rw [← resolve_eq_nested H name]
  unfold resolveVariable locateVariable resolve
  cases locate ⟨g, handles f⟩ a name with
  | error e => rfl
  | ok found =>
      obtain ⟨h, s⟩ := found
      cases s <;> rfl

/-- A name can be assigned in the frame if it can be in the environments. -/
theorem checkAssignable_eq_nested (H : a.Holds g G (f :: F)) (name : String) :
    checkAssignable ⟨g, handles f⟩ a name = Nest.checkAssignable G.find? f.environments name := by
  unfold Nest.checkAssignable
  rw [← resolveVariable_eq_nested H name]
  unfold checkAssignable locateAssignable resolveVariable
  cases locateVariable ⟨g, handles f⟩ a name with
  | error e => rfl
  | ok found =>
      obtain ⟨h, v⟩ := found
      cases hro : v.readOnly with
      | true => simp [hro, bind, Except.bind, pure, Except.pure]; rfl
      | false => simp [hro, bind, Except.bind, pure, Except.pure]

/-- The scope that holds an assignable variable. -/
theorem locateAssignable_of_checkAssignable {name : String} {v : Variable}
    (H : a.Holds g G (f :: F)) (h : checkAssignable ⟨g, handles f⟩ a name = .ok v) :
    ∃ k, locateAssignable ⟨g, handles f⟩ a name = .ok (k, v) ∧
      Blocks.find? g G name f = some (k, .var v) := by
  obtain ⟨⟨k, u⟩, hlocate, hu⟩ := exists_of_bind_eq_ok h
  cases hu
  refine ⟨k, hlocate, ?_⟩
  obtain ⟨⟨k', u'⟩, hvar, hwrite⟩ := exists_of_bind_eq_ok hlocate
  dsimp only at hwrite
  split at hwrite
  · cases hwrite
  · cases hwrite
    obtain ⟨⟨k'', s⟩, hfound, hs⟩ := exists_of_bind_eq_ok hvar
    cases f with
    | nil => cases hfound
    | cons b f =>
        rw [locate_eq rfl (by simp) H name] at hfound
        cases s with
        | func _ => cases hs
        | var _ =>
            cases hs
            cases hfind : Blocks.find? g G name (b :: f) with
            | none =>
                rw [hfind] at hfound
                cases hfound
            | some found =>
                rw [hfind] at hfound
                cases hfound
                rfl

/-- An assignment fails as the check for assignments does, since both look for the variable in the
same way. -/
theorem assign_of_checkAssignable_error {name : String} {e : Failure}
    (h : checkAssignable ⟨g, handles f⟩ a name = .error e) (value : Option Value) :
    assign ⟨g, handles f⟩ a name value = .error e := by
  unfold assign
  unfold checkAssignable at h
  cases hlocate : locateAssignable ⟨g, handles f⟩ a name with
  | error e' =>
      rw [hlocate] at h
      cases h
      rfl
  | ok found =>
      rw [hlocate] at h
      cases h

/-- A variable is assigned where it is found. -/
theorem assign_eq_nested {name : String} {v : Variable} (H : a.Holds g G (f :: F))
    (h : checkAssignable ⟨g, handles f⟩ a name = .ok v) (value : Option Value) :
    ∃ G' f' a', assign ⟨g, handles f⟩ a name value = .ok a' ∧ a'.Holds g G' (f' :: F) ∧
      handles f' = handles f ∧
      Nest.rebind G.find? name (.var { v with value := value }) f.environments =
        (G'.find?, f'.environments) := by
  obtain ⟨k, hlocate, hfind⟩ := locateAssignable_of_checkAssignable H h
  have hassign : assign ⟨g, handles f⟩ a name value =
      .ok (a.store k name (.var { v with value := value })) := by
    unfold assign
    rw [hlocate]
    rfl
  have hrebind := Blocks.rebind_environments H.nodup_current hfind (.var { v with value := value })
  by_cases hk : k = g
  · have hg : g ∉ handles f := (List.nodup_cons.mp H.nodup_current).1
    subst hk
    rw [if_pos rfl, store_of_notMem name _ hg] at hrebind
    exact ⟨_, f, _, hassign, H.store_global name _, rfl, hrebind⟩
  · have hmem : k ∈ handles f := (mem_of_find? hfind).resolve_left fun hg => hk hg.1
    rw [if_neg hk] at hrebind
    exact ⟨G, _, _, hassign, H.store_current name _ hmem, handles_store _ _ _ _, hrebind⟩

end Frame

/-! ## Every operation -/

namespace Scopes

variable {a : Arena} {s : Scopes} {g : Handle} {G : Symbols} {f : Blocks} {F : List Blocks}

attribute [local simp] onFrame Nest.onFrame

/-- The operation on the frame with the blocks `f` answers as it does on the environments of the
blocks, and leaves scopes that show the environments after it. Where it fails on the environments it
fails in the same way on the scopes, and changes nothing. -/
def Refines (a : Arena) (g : Handle) (G : Symbols) (f : Blocks) (F : List Blocks)
    (op : FrameOp) : Prop :=
  match Nest.onFrame G.find? f.environments op with
  | .ok (answer, globals, blocks) => ∃ G' f' a',
      onFrame ⟨g, handles f⟩ a op = (.ok answer, ⟨g, handles f'⟩, a') ∧
        a'.Holds g G' (f' :: F) ∧ globals = G'.find? ∧ blocks = f'.environments
  | .error e => onFrame ⟨g, handles f⟩ a op = (.error e, ⟨g, handles f⟩, a)

namespace Refines

/-- A new block has the empty environment. -/
theorem enter (H : a.Holds g G (f :: F)) : Refines a g G f F .enter := by
  cases f with
  | nil => rfl
  | cons b f =>
      refine ⟨G, _, _, ?_, H.newScope, rfl, rfl⟩
      rw [onFrame, Frame.enter_eq (g := g) rfl (by simp)]
      rfl

/-- The innermost block is left unless it is the only one. -/
theorem exit (H : a.Holds g G (f :: F)) : Refines a g G f F .exit := by
  match f, H with
  | [], _ => rfl
  | [_], _ => rfl
  | b :: b' :: f, H =>
      refine ⟨G, b' :: f, _, ?_, H.vacate.2, rfl, rfl⟩
      rw [onFrame, Frame.exit_eq rfl (by simp) H]
      rfl

/-- A frame that is closed has no blocks. -/
theorem close (H : a.Holds g G (f :: F)) : Refines a g G f F .close := by
  have hblocks : (⟨g, handles f⟩ : Frame).blocks = handles f := rfl
  obtain ⟨a', hclose, H'⟩ := Frame.close_eq hblocks H
  refine ⟨G, [], a', ?_, Holds.nil_cons_iff.mpr H', rfl, rfl⟩
  simp [hclose, Except.map]

/-- Only the innermost block is asked whether the name of a declaration is taken. -/
theorem declare (H : a.Holds g G (f :: F)) (v : Variable) : Refines a g G f F (.declare v) := by
  cases f with
  | nil => rfl
  | cons b f =>
      obtain ⟨h, b⟩ := b
      have hblocks : (⟨g, handles ((h, b) :: f)⟩ : Frame).blocks = handles ((h, b) :: f) := rfl
      have hcheck := Frame.checkDeclarable_eq hblocks H v.name
      simp only [Refines, Nest.onFrame, environments_cons, onFrame, Frame.declare]
      cases hb : Symbols.find? b v.name with
      | some s =>
          rw [if_pos ((Symbols.contains_iff b v.name).mpr ⟨s, hb⟩)] at hcheck
          rw [hcheck]
          rfl
      | none =>
          rw [(Symbols.contains_eq_false_iff b v.name).mpr hb] at hcheck
          rw [hcheck]
          refine ⟨G, (h, b.insert v.name (.var v)) :: f, _, rfl, H.store_top v.name (.var v),
            rfl, ?_⟩
          rw [environments_cons, Symbols.find?_insert_eq_update]

/-- An assignment gives the innermost binding of the name another value. -/
theorem assign (H : a.Holds g G (f :: F)) (name : String) (value : Option Value) :
    Refines a g G f F (.assign name value) := by
  have hcheck := Frame.checkAssignable_eq_nested H name
  simp only [Refines, Nest.onFrame, onFrame]
  rw [← hcheck]
  cases hv : Frame.checkAssignable ⟨g, handles f⟩ a name with
  | error e =>
      rw [Frame.assign_of_checkAssignable_error hv value]
      rfl
  | ok v =>
      obtain ⟨G', f', a', hassign, H', hhandles, hrebind⟩ := Frame.assign_eq_nested H hv value
      rw [hassign]
      refine ⟨G', f', a', by rw [hhandles], H', ?_, ?_⟩
      · rw [hrebind]
      · rw [hrebind]

/-- Looking up a value changes nothing. -/
theorem lookup (H : a.Holds g G (f :: F)) (name : String) : Refines a g G f F (.lookup name) := by
  have hvar := Frame.resolveVariable_eq_nested H name
  simp only [Refines, Nest.onFrame, onFrame, Frame.lookup]
  rw [← hvar]
  cases Frame.resolveVariable ⟨g, handles f⟩ a name with
  | error e => rfl
  | ok v =>
      simp only [bind, Except.bind, pure, Except.pure]
      cases hvalue : v.value with
      | none => rfl
      | some x => exact ⟨G, f, a, rfl, H, rfl, rfl⟩

end Refines

/-- Every operation on a frame refines that on its environments. -/
theorem onFrame_refines (H : a.Holds g G (f :: F)) (op : FrameOp) : Refines a g G f F op := by
  cases op with
  | enter => exact .enter H
  | exit => exact .exit H
  | close => exact .close H
  | declare v => exact .declare H v
  | assign name value => exact .assign H name value
  | lookup name => exact .lookup H name
  | resolve name =>
      simp only [Refines, Nest.onFrame, onFrame, Frame.resolve_eq_nested H name]
      cases Nest.resolve G.find? f.environments name with
      | error e => rfl
      | ok s => exact ⟨G, f, a, rfl, H, rfl, rfl⟩
  | resolveVariable name =>
      simp only [Refines, Nest.onFrame, onFrame, Frame.resolveVariable_eq_nested H name]
      cases Nest.resolveVariable G.find? f.environments name with
      | error e => rfl
      | ok v => exact ⟨G, f, a, rfl, H, rfl, rfl⟩
  | checkAssignable name =>
      simp only [Refines, Nest.onFrame, onFrame, Frame.checkAssignable_eq_nested H name]
      cases Nest.checkAssignable G.find? f.environments name with
      | error e => rfl
      | ok v => exact ⟨G, f, a, rfl, H, rfl, rfl⟩

/-- The scopes show the environments of the layout. -/
theorem Lies.view_eq (L : s.Lies G F) : s.view = ⟨G.find?, F.map environments⟩ := by
  have hchain : ∀ {f : Blocks}, s.arena.Chained s.globals f →
      (handles f).map (environment s.arena) = f.environments := by
    intro f hf
    induction f with
    | nil => rfl
    | cons b f ih =>
        obtain ⟨hhead, htail⟩ := hf
        rw [handles_cons, List.map_cons, ih htail, environment, hhead, environments_cons]
  unfold view
  congr 1
  · rw [environment, L.holds.root]
  · rw [L.frames, List.map_map]
    exact List.map_congr_left fun f hf => hchain (L.holds.chained f hf)

/-- Every operation answers as the one on the environments that the scopes show, and the scopes
after it show the environments after it. An operation that fails changes nothing. -/
theorem Lies.step (L : s.Lies G F) (op : ScopeOp) :
    (∃ G' F', (s.step op).2.Lies G' F') ∧ (s.step op).1 = (s.view.step op).1 ∧
      (s.step op).2.view = (s.view.step op).2 ∧
      ∀ e, (s.step op).1 = .error e → (s.step op).2 = s := by
  cases op with
  | openFrame =>
      obtain ⟨h, a', hopen, -, H'⟩ := Frame.openIn_eq L.holds
      have L' : (s.step .openFrame).2.Lies G (F ++ [[(h, [])]]) := by
        simp only [Scopes.step, hopen]
        refine ⟨H'.perm (List.perm_append_singleton _ _).symm, ?_⟩
        rw [L.frames, List.map_append]
        rfl
      refine ⟨⟨_, _, L'⟩, rfl, ?_, fun e he => ?_⟩
      · rw [L'.view_eq, L.view_eq, List.map_append]
        rfl
      · simp only [Scopes.step, hopen] at he
        cases he
  | onFrame i op =>
      rw [L.view_eq]
      cases hi : F[i]? with
      | none =>
          have hframe : s.frames[i]? = none := by rw [L.frames, List.getElem?_map, hi]; rfl
          have hstep : s.step (.onFrame i op) = (.error .outOfRange, s) := by
            simp only [Scopes.step, hframe]
          rw [hstep, Nest.step]
          simp only [List.getElem?_map, hi, Option.map_none]
          exact ⟨⟨G, F, L⟩, trivial, L.view_eq, fun _ _ => trivial⟩
      | some f =>
          obtain ⟨hlt, hf⟩ := List.getElem?_eq_some_iff.mp hi
          have hframe : s.frames[i]? = some ⟨s.globals, handles f⟩ := by
            rw [L.frames, List.getElem?_map, hi]
            rfl
          -- the order of the frames does not matter to the layout, so this one can be the first
          have H : s.arena.Holds s.globals G (f :: F.eraseIdx i) :=
            L.holds.perm (hf ▸ (List.getElem_cons_eraseIdx_perm hlt).symm)
          have hop := onFrame_refines H op
          unfold Refines at hop
          rw [Nest.step]
          simp only [List.getElem?_map, hi, Option.map_some]
          cases hn : Nest.onFrame G.find? f.environments op with
          | error e =>
              rw [hn] at hop
              have hsame : s.frames.set i ⟨s.globals, handles f⟩ = s.frames := by
                obtain ⟨hlt', hget⟩ := List.getElem?_eq_some_iff.mp hframe
                rw [← hget, List.set_getElem_self]
              have hstep : s.step (.onFrame i op) = (.error e, s) := by
                simp only [Scopes.step, hframe, hop, hsame]
              rw [hstep]
              exact ⟨⟨G, F, L⟩, rfl, L.view_eq, fun _ _ => rfl⟩
          | ok r =>
              obtain ⟨answer, globals, blocks⟩ := r
              rw [hn] at hop
              obtain ⟨G', f', a', hrun, H', rfl, rfl⟩ := hop
              have hstep : s.step (.onFrame i op) = (.ok answer,
                  ⟨a', s.globals, s.frames.set i ⟨s.globals, handles f'⟩⟩) := by
                simp only [Scopes.step, hframe, hrun]
              have L' : (s.step (.onFrame i op)).2.Lies G' (F.set i f') := by
                rw [hstep]
                refine ⟨H'.perm (List.set_perm_cons_eraseIdx hlt f').symm, ?_⟩
                simp only [L.frames, List.map_set]
              refine ⟨⟨_, _, L'⟩, by rw [hstep], ?_, fun e he => ?_⟩
              · rw [L'.view_eq, List.map_set]
              · rw [hstep] at he
                cases he

/-- Operations one after another. -/
theorem Lies.run (L : s.Lies G F) (ops : List ScopeOp) :
    (∃ G' F', (s.run ops).2.Lies G' F') ∧ (s.run ops).1 = (s.view.run ops).1 ∧
      (s.run ops).2.view = (s.view.run ops).2 := by
  induction ops generalizing s G F with
  | nil => exact ⟨⟨G, F, L⟩, rfl, rfl⟩
  | cons op ops ih =>
      obtain ⟨⟨G', F', L'⟩, hanswer, hview, -⟩ := L.step op
      obtain ⟨hlies, hanswers, hviews⟩ := ih L'
      rw [hview] at hanswers hviews
      exact ⟨hlies, by simp only [Scopes.run, Nest.run, hanswer, hanswers],
        by simp only [Scopes.run, Nest.run, hviews]⟩

/-- At the start there is no frame. -/
theorem start_lies (G : Symbols) : (start G).Lies G [] := by
  refine ⟨⟨rfl, by simp, by simp, ?_, ?_, by simp [start]⟩, rfl⟩
  · intro h s hs
    have hlt := (Array.getElem?_eq_some_iff.mp hs).1
    have hzero : h = 0 := Nat.lt_one_iff.mp hlt
    simp [hzero, start]
  · intro h
    simp only [start, List.not_mem_nil, false_iff]
    intro hs
    obtain ⟨hlt, hs⟩ := Array.getElem?_eq_some_iff.mp hs
    have hzero : h = 0 := Nat.lt_one_iff.mp hlt
    subst hzero
    simp at hs

/-- Operations on any number of frames, in any order, answer as those on nested environments do,
and what the scopes show afterwards are the environments afterwards. In every state that is reached,
an operation that fails changes nothing; a block is closed only by an operation on its own frame,
and keeps all its symbols until then, except that a name is declared in it or that a variable is
assigned for which it has the innermost binding; and a read-only variable stays as it is. -/
theorem run_refines_nested (G : Symbols) (ops : List ScopeOp) :
    ((start G).run ops).1 = (Nest.run ⟨G.find?, []⟩ ops).1 ∧
    ((start G).run ops).2.view = (Nest.run ⟨G.find?, []⟩ ops).2 ∧
    ∀ op, let s := ((start G).run ops).2
      (∀ e, (s.step op).1 = .error e → (s.step op).2 = s) ∧
      (∀ place env, s.view.at? place = some env →
        ((s.step op).2.view.at? place = none ∧ s.view.Closes place op) ∨
        ∃ env', (s.step op).2.view.at? place = some env' ∧
          ∀ name, s.view.Change place name op (env name) (env' name)) ∧
      ∀ place env env' name v, s.view.at? place = some env →
        (s.step op).2.view.at? place = some env' → env name = some (.var v) → v.readOnly = true →
          env' name = some (.var v) := by
  have hview : (start G).view = ⟨G.find?, []⟩ := (start_lies G).view_eq
  obtain ⟨⟨G', F', L⟩, hanswers, hviews⟩ := (start_lies G).run ops
  rw [hview] at hanswers hviews
  refine ⟨hanswers, hviews, fun op => ?_⟩
  obtain ⟨-, -, hstep, hfail⟩ := L.step op
  dsimp only
  rw [hstep]
  have hchanges := fun place env (h : ((start G).run ops).2.view.at? place = some env) =>
    Nest.step_changes ((start G).run ops).2.view op h
  refine ⟨hfail, hchanges, ?_⟩
  intro place env env' name v henv henv' hname hro
  rcases hchanges place env henv with ⟨hnone, -⟩ | ⟨env'', henv'', hchange⟩
  · rw [hnone] at henv'
    cases henv'
  · rw [henv''] at henv'
    cases henv'
    exact (hname ▸ hchange name).eq_of_readOnly hro

end Scopes

end Pigeon

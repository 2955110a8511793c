import Pigeon.Proofs.Execution.Primitive
import Pigeon.Proofs.Scope.Refine

/-!
# What a machine shows

The frames of a machine lie in its arena, and what they show are nested environments. The primitive
steps of a machine are operations on its current frame (`Run.onFrame`), so their answers, and what
the machine shows after them, depend on what it shows before, and not on the handles of its scopes.
-/

namespace Pigeon

open Blocks

/-! ## Machines and environments -/

/-- The scopes of a machine. -/
def Machine.scopes (m : Machine) : Scopes := ⟨m.arena, m.globals, m.frames⟩

/-- The arena of the machine holds its frames and nothing else, and they show the environments. -/
structure Machine.Shows (m : Machine) (n : Nest) : Prop where
  lies : ∃ G F, m.scopes.Lies G F
  view_eq : m.scopes.view = n

/-- The number of blocks of the current frame. -/
def Machine.depth (m : Machine) : Nat :=
  match m.frames with
  | [] => 0
  | f :: _ => f.blocks.length

/-- A layout of the frames shows its environments. -/
theorem Scopes.Lies.shows {m : Machine} {G : Symbols} {F : List Blocks} (L : m.scopes.Lies G F) :
    m.Shows ⟨G.find?, F.map environments⟩ :=
  ⟨⟨G, F, L⟩, L.view_eq⟩

namespace Machine.Shows

variable {m : Machine} {n : Nest}

/-- The layout behind the environments. -/
theorem exists_lies (S : m.Shows n) :
    ∃ G F, m.scopes.Lies G F ∧ n = ⟨G.find?, F.map environments⟩ := by
  obtain ⟨G, F, L⟩ := S.lies
  exact ⟨G, F, L, S.view_eq.symm.trans L.view_eq⟩

/-- Without frames the arena holds the global scope alone. -/
theorem exists_holds (S : m.Shows n) (hm : m.frames = []) :
    ∃ G, m.arena.Holds m.globals G [] ∧ n.globals = Symbols.find? G := by
  obtain ⟨G, F, L, rfl⟩ := S.exists_lies
  obtain rfl : F = [] := List.map_eq_nil_iff.mp (L.frames.symm.trans hm)
  exact ⟨G, L.holds, rfl⟩

/-- The current frame shows as many environments as it has blocks. -/
theorem depth_eq (S : m.Shows n) : m.depth = (n.frames.headD []).length := by
  rw [← S.view_eq]
  unfold Machine.depth Scopes.view Machine.scopes
  cases m.frames with
  | nil => rfl
  | cons f rest => exact (List.length_map _).symm

end Machine.Shows

/-- The environment with arguments bound to parameters, as far as both go. -/
def Environment.bind (env : Environment) : List Parameter → List Value → Environment
  | p :: ps, v :: vs =>
    let symbol : Symbol := .var { name := p.name, ty := some p.ty, value := some v }
    bind (Function.update env p.name (some symbol)) ps vs
  | _, _ => env

/-! ## Operations on the current frame -/

namespace Run

/-- An operation on the current frame. -/
def onFrame (op : FrameOp) : Run ScopeAnswer := fun m =>
  let (answer, s) := m.scopes.step (.onFrame 0 op)
  (answer, { m with arena := s.arena, frames := s.frames })

/-- An operation on the current frame leaves the frames below it and the host alone. -/
theorem onFrame_cons (op : FrameOp) (a : Arena) (g : Handle) (f : Frame) (rest : List Frame)
    (host : Host) :
    onFrame op ⟨a, g, f :: rest, host⟩ = ((Scopes.onFrame f a op).1,
      ⟨(Scopes.onFrame f a op).2.2, g, (Scopes.onFrame f a op).2.1 :: rest, host⟩) := rfl

/-- The step does the operation on the current frame, and its result tells the answer. -/
def Performs {α : Type} (x : Run α) (op : FrameOp) (answer : α → ScopeAnswer) : Prop :=
  ∀ m, ((x m).1.map answer, (x m).2) = onFrame op m

/-- The result of a step that performs an operation is the answer to it. -/
theorem Performs.result_eq {α : Type} {x : Run α} {op : FrameOp} {answer : α → ScopeAnswer}
    (h : Performs x op answer) (m : Machine) : (x m).1.map answer = (onFrame op m).1 :=
  congrArg Prod.fst (h m)

/-- A step that performs an operation leaves the machine that the operation does. -/
theorem Performs.machine_eq {α : Type} {x : Run α} {op : FrameOp} {answer : α → ScopeAnswer}
    (h : Performs x op answer) (m : Machine) : (x m).2 = (onFrame op m).2 :=
  congrArg Prod.snd (h m)

/-- A step that first looks at the current frame performs an operation if it does so whenever there
is a frame. -/
theorem Performs.of_frame {α : Type} {k : Frame → Run α} {op : FrameOp} {answer : α → ScopeAnswer}
    (h : ∀ a g f rest host,
      ((k f ⟨a, g, f :: rest, host⟩).1.map answer, (k f ⟨a, g, f :: rest, host⟩).2) =
        onFrame op ⟨a, g, f :: rest, host⟩) :
    Performs (frame >>= k) op answer := by
  rintro ⟨a, g, frames, host⟩
  cases frames with
  | nil => rfl
  | cons f rest => exact h a g f rest host

/-- Entering a block is the operation `enter`. -/
theorem enter_performs : Performs enter .enter fun _ => .done := by
  refine .of_frame fun a g f rest host => ?_
  obtain ⟨_, blocks⟩ := f
  cases blocks <;> rfl

/-- Leaving a block is the operation `exit`. -/
theorem exit_performs : Performs exit .exit fun _ => .done := by
  refine .of_frame fun a g f rest host => ?_
  rw [Step.bind_ok (Step.modifyGet_apply _ _), onFrame_cons, Scopes.onFrame]
  rcases f.exit a with ⟨r, f', a⟩
  cases r <;> rfl

/-- A declaration is the operation `declare`. -/
theorem declare_performs (v : Variable) :
    Performs (declare v) (.declare v) fun _ => .variable v := by
  refine .of_frame fun a g f rest host => ?_
  rw [declareIn, Step.bind_ok (Step.get_apply _), onFrame_cons, Scopes.onFrame, Frame.declare]
  cases f.checkDeclarable a v.name <;> rfl

/-- An assignment is the operation `assign`. -/
theorem assign_performs (name : String) (value : Value) :
    Performs (assign name value) (.assign name (some value)) fun _ => .done := by
  refine .of_frame fun a g f rest host => ?_
  rw [Step.bind_ok (Step.get_apply _), onFrame_cons, Scopes.onFrame, Frame.assign]
  cases f.locateAssignable a name <;> rfl

/-- Looking up a value is the operation `lookup`. -/
theorem lookup_performs (name : String) : Performs (lookup name) (.lookup name) .value := by
  refine .of_frame fun a g f rest host => ?_
  rw [Step.bind_ok (Step.get_apply _), onFrame_cons, Scopes.onFrame]
  cases f.lookup a name <;> rfl

end Run

/-! ## What the primitive steps show -/

/-- The machine `t` has the frames of the machine `m`, each with the same blocks. -/
structure Machine.SameFrames (m t : Machine) : Prop where
  globals : t.globals = m.globals
  frames : t.frames = m.frames

/-- The machine `t` has the frames of the machine `m`, with one more block in the current one. -/
structure Machine.Encloses (m t : Machine) : Prop where
  globals : t.globals = m.globals
  frames : ∃ f rest k, m.frames = f :: rest ∧ 0 < f.blocks.length ∧
    t.frames = { f with blocks := k :: f.blocks } :: rest

namespace Machine

variable {m t u : Machine} {n : Nest}

theorem SameFrames.refl (m : Machine) : m.SameFrames m := ⟨rfl, rfl⟩

/-- Frames that are the same over two steps are the same over both. -/
theorem SameFrames.trans (h : m.SameFrames t) (h' : t.SameFrames u) : m.SameFrames u :=
  ⟨h'.globals.trans h.globals, h'.frames.trans h.frames⟩

/-- The same frames have equally many blocks. -/
theorem SameFrames.depth_eq (h : m.SameFrames t) : t.depth = m.depth := by
  unfold depth
  rw [h.frames]

/-- What encloses a machine encloses one with the same frames. -/
theorem Encloses.trans (h : m.Encloses t) (h' : t.SameFrames u) : m.Encloses u :=
  ⟨h'.globals.trans h.globals, h'.frames ▸ h.frames⟩

/-- The enclosed machine has at least one block more. -/
theorem Encloses.lt_depth (h : m.Encloses t) : m.depth < t.depth := by
  obtain ⟨f, rest, k, hm, -, ht⟩ := h.frames
  unfold depth
  rw [hm, ht]
  exact Nat.lt_succ_self _

/-- A machine with some depth has a current frame with a block. -/
theorem exists_eq_of_depth (h : 0 < m.depth) : ∃ a g g' k hs rest host,
    m = ⟨a, g, ⟨g', k :: hs⟩ :: rest, host⟩ := by
  obtain ⟨a, g, frames, host⟩ := m
  match frames, h with
  | ⟨g', k :: hs⟩ :: rest, _ => exact ⟨a, g, g', k, hs, rest, host, rfl⟩

/-- An operation answers as the one on the environments, which are afterwards shown. -/
theorem Shows.onFrame (S : m.Shows n) (op : FrameOp) :
    (Run.onFrame op m).1 = (n.step (.onFrame 0 op)).1 ∧
      (Run.onFrame op m).2.Shows (n.step (.onFrame 0 op)).2 := by
  obtain ⟨⟨G, F, L⟩, rfl⟩ := S
  obtain ⟨hlies, hanswer, hview, -⟩ := L.step (.onFrame 0 op)
  have hscopes : (Run.onFrame op m).2.scopes = (m.scopes.step (.onFrame 0 op)).2 := by
    obtain ⟨a, g, frames, host⟩ := m
    cases frames <;> rfl
  exact ⟨hanswer, hscopes ▸ hlies, hscopes ▸ hview⟩

end Machine

namespace Run

variable {m t : Machine} {n : Nest}

/-- A block can be opened in a frame that is open. -/
theorem enter_shows (S : m.Shows n) (hdepth : 0 < m.depth) :
    ∃ t, enter m = (.ok (), t) ∧ t.Shows (n.step (.onFrame 0 .enter)).2 ∧ m.Encloses t ∧
      t.host = m.host := by
  have hshows := (S.onFrame .enter).2
  rw [← enter_performs.machine_eq] at hshows
  obtain ⟨a, g, g', k, hs, rest, host, rfl⟩ := Machine.exists_eq_of_depth hdepth
  exact ⟨_, rfl, hshows, ⟨rfl, _, _, _, rfl, Nat.zero_lt_succ _, rfl⟩, rfl⟩

/-- The innermost block is released when it is closed. -/
theorem exit_eq_vacate {a : Arena} {g g' k h : Handle} {hs : List Handle} {rest : List Frame}
    {host : Host} (S : Machine.Shows ⟨a, g, ⟨g', k :: h :: hs⟩ :: rest, host⟩ n) :
    exit ⟨a, g, ⟨g', k :: h :: hs⟩ :: rest, host⟩ =
      (.ok (), ⟨a.vacate k, g, ⟨g', h :: hs⟩ :: rest, host⟩) := by
  have hreleasable : a.checkReleasable k = .ok () := by
    obtain ⟨G, F, L⟩ := S.lies
    obtain ⟨f, F, rfl, hf, -⟩ := List.map_eq_cons_iff.mp L.frames.symm
    have hblocks : handles f = k :: h :: hs := (Frame.mk.inj hf).2
    cases f with
    | nil => cases hblocks
    | cons b f =>
        obtain ⟨rfl, -⟩ := List.cons.inj hblocks
        exact L.holds.vacate.1
  have hexit : Frame.exit ⟨g', k :: h :: hs⟩ a = (.ok (), ⟨g', h :: hs⟩, a.vacate k) := by
    simp only [Frame.exit, hreleasable]
  unfold exit
  rw [Step.bind_ok (by rfl : frame _ = (.ok ⟨g', k :: h :: hs⟩, _)),
    Step.bind_ok (Step.modifyGet_apply _ _)]
  simp only [hexit]
  rfl

/-- The block that a machine has more than another one can be closed. -/
theorem exit_shows (S : t.Shows n) (h : m.Encloses t) :
    ∃ u, exit t = (.ok (), u) ∧ u.Shows (n.step (.onFrame 0 .exit)).2 ∧ m.SameFrames u ∧
      u.host = t.host := by
  have hshows := (S.onFrame .exit).2
  rw [← exit_performs.machine_eq] at hshows
  obtain ⟨hglobals, f, rest, k, hm, hlt, ht⟩ := h
  obtain ⟨a, g, frames, host⟩ := t
  obtain ⟨g', blocks⟩ := f
  obtain ⟨h, hs, rfl⟩ := List.exists_cons_of_length_pos hlt
  obtain rfl : frames = _ := ht
  have heq := exit_eq_vacate S
  rw [heq] at hshows ⊢
  exact ⟨_, rfl, hshows, ⟨hglobals, hm.symm⟩, rfl⟩

/-- A block that is closed can be opened again, at the same handle. -/
theorem renew_shows (S : m.Shows n) (hdepth : 1 < m.depth) :
    ∃ t u, exit m = (.ok (), t) ∧ enter t = (.ok (), u) ∧
      u.Shows ((n.step (.onFrame 0 .exit)).2.step (.onFrame 0 .enter)).2 ∧ m.SameFrames u ∧
      u.host = m.host := by
  have hexit := (S.onFrame .exit).2
  rw [← exit_performs.machine_eq] at hexit
  have henter := (hexit.onFrame .enter).2
  rw [← enter_performs.machine_eq] at henter
  obtain ⟨a, g, g', k, hs, rest, host, rfl⟩ := Machine.exists_eq_of_depth (Nat.zero_lt_of_lt hdepth)
  obtain ⟨h, hs, rfl⟩ := List.exists_cons_of_length_pos (Nat.lt_of_succ_lt_succ hdepth)
  have heq := exit_eq_vacate S
  rw [heq] at henter ⊢
  exact ⟨_, _, rfl, rfl, henter, ⟨rfl, rfl⟩, rfl⟩

/-! ## Frames -/

/-- Arguments are bound to parameters with new and distinct names. -/
theorem bindParams_binds {g k : Handle} {G b : Symbols} {F : List Blocks} {ps : List Parameter}
    (H : m.arena.Holds g G ([(k, b)] :: F)) (hfresh : ∀ p ∈ ps, Symbols.find? b p.name = none)
    (hnodup : (ps.map (·.name)).Nodup) (vs : List Value) :
    ∃ a b', bindParams ⟨g, [k]⟩ ps vs m = (.ok (), { m with arena := a }) ∧
      a.Holds g G ([(k, b')] :: F) ∧ Symbols.find? b' = Environment.bind b.find? ps vs := by
  induction ps generalizing m b vs with
  | nil => exact ⟨m.arena, b, rfl, H, rfl⟩
  | cons p ps ih =>
      cases vs with
      | nil => exact ⟨m.arena, b, rfl, H, rfl⟩
      | cons v vs =>
          rw [List.map_cons, List.nodup_cons] at hnodup
          rw [List.forall_mem_cons] at hfresh
          obtain ⟨a, heq, H'⟩ := declareIn_eq (v := ⟨p.name, some p.ty, false, some v⟩)
            (rfl : (Frame.mk g [k]).blocks = _) H hfresh.1
          rw [← Symbols.insert_of_find?_eq_none _ hfresh.1] at H'
          have hfresh' : ∀ q ∈ ps, Symbols.find? (Symbols.insert b p.name
              (.var ⟨p.name, some p.ty, false, some v⟩)) q.name = none := by
            intro q hq
            have hne : q.name ≠ p.name := fun h => hnodup.1 (h ▸ List.mem_map_of_mem hq)
            rw [Symbols.find?_insert, if_neg hne]
            exact hfresh.2 q hq
          obtain ⟨a', b', hrest, H'', hb'⟩ := ih (m := { m with arena := a }) H' hfresh' hnodup.2 vs
          refine ⟨a', b', ?_, H'', ?_⟩
          · rw [bindParams, Step.bind_ok heq]
            exact hrest
          · rw [hb', Symbols.find?_insert_eq_update]
            rfl

/-- A new frame with arguments can be put above the frames of a machine. -/
theorem openFrame_shows (S : m.Shows n) {ps : List Parameter} (hnodup : (ps.map (·.name)).Nodup)
    (vs : List Value) :
    ∃ f t u, openFrame m = (.ok f, t) ∧ bindParams f ps vs t = (.ok (), u) ∧ m.SameFrames u ∧
      u.host = m.host ∧ 0 < f.blocks.length ∧
      Machine.Shows { u with frames := f :: u.frames }
        ⟨n.globals, [Environment.empty.bind ps vs] :: n.frames⟩ := by
  obtain ⟨G, F, L, rfl⟩ := S.exists_lies
  obtain ⟨k, a, hopen, H⟩ := openFrame_eq L.holds rfl
  obtain ⟨a', b, hbind, H', hb⟩ :=
    bindParams_binds (m := { m with arena := a }) H (fun _ _ => rfl) hnodup vs
  refine ⟨_, _, _, hopen, hbind, ⟨rfl, rfl⟩, rfl, Nat.zero_lt_one, ?_⟩
  have hnew : Environment.empty.bind ps vs = Symbols.find? b := hb.symm
  rw [hnew]
  exact Scopes.Lies.shows (F := [(k, b)] :: F) ⟨H', congrArg (_ :: ·) L.frames⟩

/-- The current frame can be closed, and the frames below it are left alone. -/
theorem close_shows {f : Frame} {rest : List Frame} (S : m.Shows n) (hm : m.frames = f :: rest) :
    ∃ t, close m = (.ok (), t) ∧ t.Shows ⟨n.globals, n.frames.tail⟩ ∧ t.globals = m.globals ∧
      t.frames = rest ∧ t.host = m.host := by
  obtain ⟨G, F, L, rfl⟩ := S.exists_lies
  obtain ⟨a, g, frames, host⟩ := m
  obtain rfl : frames = _ := hm
  obtain ⟨b, F, rfl, hf, hrest⟩ := List.map_eq_cons_iff.mp L.frames.symm
  obtain ⟨a', hclose, H⟩ := Frame.close_eq (congrArg Frame.blocks hf.symm) L.holds
  refine ⟨⟨a', g, rest, host⟩, ?_, Scopes.Lies.shows ⟨H, hrest.symm⟩, rfl, rfl, rfl⟩
  unfold close
  rw [Step.bind_ok (by rfl : frame _ = (.ok f, _)), Step.bind_ok (Step.modifyGet_apply _ _)]
  simp only [show f.close a = _ from hclose]
  rfl

/-- A function is found among the global symbols. -/
theorem function_shows (S : m.Shows n) (site : RunSite) (name : String) (sp : Option Span) :
    function site name sp m = (match n.globals name with
      | some (.func f) => .ok f
      | _ => .error (.defect (.undeclaredFunction name) (some ⟨site.filename, sp⟩)), m) := by
  obtain ⟨G, F, L, rfl⟩ := S.exists_lies
  unfold function Arena.globalFunction?
  rw [Step.bind_ok (Step.get_apply m), show m.arena.global? m.globals name = _ from
    L.holds.global? name]
  show _ = (match Symbols.find? G name with | some (.func f) => _ | _ => _, m)
  rcases Symbols.find? G name with _ | (_ | _) <;> rfl

end Run

end Pigeon

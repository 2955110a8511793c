import Pigeon.Proofs.Scope.View
import Pigeon.Proofs.Session.Evaluated

/-!
# Evaluation mirrors the check

Whenever the machine begins with a node of a loaded program, its current frame has the blocks that
the checker had when it met the node: as many blocks, with the same names and the same read-only
variables. So a variable is found at the same place. Both sides are compared with the context of
the site: `Visit.Shows` for the checker, `Setting.Stands` for the machine.
-/

namespace Pigeon

open Blocks

variable {β : Type} {strict : Bool} {Γ : Context} {f : Blocks} {F : List Blocks} {g : Handle}
  {G : Symbols}

/-! ## The view of a context -/

/-- The names of a context with what `look` tells about the variables. -/
def Context.view (look : Binding → β) (Γ : Context) : List (List (String × Option β)) :=
  Γ.map fun block => block.map fun v => (v.name, some (look v))

/-- The blocks of a running frame show the context that they fit. -/
theorem Context.Fits.view_eq {look : Variable → β} {look' : Binding → β}
    (hlook : ∀ (v : Binding) (t : Option Ty) (value : Value),
      (strict = true → t = some v.ty ∧ value.ty = v.ty) →
        look ⟨v.name, t, v.readOnly, some value⟩ = look' v)
    (h : Context.Fits strict Γ f) : Blocks.view look f = Context.view look' Γ := by
  have hblock : ∀ {block : List Binding} {b : Symbols},
      List.Forall₂ (Binding.Fits strict) block b →
        b.view look = block.map fun v => (v.name, some (look' v)) := by
    intro block b hb
    induction hb with
    | nil => rfl
    | cons hx _ ih =>
        obtain ⟨t, value, rfl, htags⟩ := hx
        unfold Symbols.view at ih ⊢
        rw [List.map_cons, List.map_cons, ih, ← hlook _ t value htags]
  induction h with
  | nil => rfl
  | cons hb _ ih =>
      unfold Blocks.view Context.view at ih ⊢
      rw [List.map_cons, List.map_cons, ih, hblock hb]

/-- The blocks of the checker show the context that they hold. -/
theorem Context.view_blocks {look : Variable → β} {look' : Binding → β}
    (hlook : ∀ v : Binding, look ⟨v.name, some v.ty, v.readOnly, none⟩ = look' v) {hs : List Handle}
    (hlen : hs.length = Γ.length) :
    Blocks.view look (Context.blocks hs Γ) = Context.view look' Γ := by
  have hblock : ∀ block : List Binding, (Binding.symbols block).view look =
      block.map fun v => (v.name, some (look' v)) := by
    intro block
    unfold Symbols.view Binding.symbols
    rw [List.map_map]
    refine List.map_congr_left fun v _ => ?_
    show (v.name, some (look ⟨v.name, some v.ty, v.readOnly, none⟩)) = _
    rw [hlook v]
  induction Γ generalizing hs with
  | nil =>
      obtain rfl : hs = [] := List.eq_nil_of_length_eq_zero hlen
      rfl
  | cons block Γ ih =>
      obtain ⟨h, hs, rfl⟩ := List.exists_cons_of_length_eq_add_one hlen
      have hrest : Blocks.view look (Context.blocks hs Γ) = Context.view look' Γ :=
        ih (by simpa using hlen)
      unfold Blocks.view Context.view at hrest ⊢
      rw [Context.blocks_cons, List.map_cons, List.map_cons, hrest, hblock]

/-! ## What the machine and the checker see -/

/-- The machine sees the context of the node that it works on. -/
theorem Setting.Stands.view_eq {w : Setting} {m : Machine} (S : w.Stands m Γ G f F)
    (look : Variable → β) (look' : Binding → β)
    (hlook : ∀ (v : Binding) (t : Option Ty) (value : Value),
      (w.strict = true → t = some v.ty ∧ value.ty = v.ty) →
        look ⟨v.name, t, v.readOnly, some value⟩ = look' v) :
    ∃ frame, m.frames.head? = some frame ∧
      frame.view look m.arena = .ok (Context.view look' Γ) := by
  refine ⟨⟨w.root, handles f⟩, by rw [S.frames]; rfl, ?_⟩
  rw [← S.fits.view_eq hlook]
  exact Frame.view_eq look rfl S.holds

/-- The checker sees the context of the node that it meets. -/
theorem Visit.Shows.view_eq {v : Visit} {site : Site} (h : v.Shows g G site) (look : Variable → β)
    (look' : Binding → β)
    (hlook : ∀ v : Binding, look ⟨v.name, some v.ty, v.readOnly, none⟩ = look' v) :
    v.frame.view look v.arena = .ok (Context.view look' site.context) := by
  obtain ⟨-, hs, F, S⟩ := h
  rw [← Context.view_blocks hlook S.length]
  exact Frame.view_eq look S.frame_blocks S.holds

/-- The machine and the checker find a variable at the same place. -/
theorem Setting.Stands.place_eq {w : Setting} {m : Machine} (S : w.Stands m Γ G f F) (hΓ : Γ ≠ [])
    {v : Visit} {G' : Symbols} {node : Node} (h : v.Shows w.root G' ⟨node, Γ⟩)
    (M : G'.Means w.globals) {name : String} {t : Ty} {readOnly : Bool}
    (hresolve : Context.resolve w.globals Γ name = some (t, readOnly)) :
    ∃ frame place, m.frames.head? = some frame ∧ frame.place m.arena name = .ok place ∧
      v.frame.place v.arena name = .ok place := by
  obtain ⟨-, hs, F', S'⟩ := h
  obtain ⟨k, n, u, old, hrun, -⟩ := Run.locateVariable_eq S hΓ hresolve
  obtain ⟨k', u', hcheck, -⟩ := S'.locateVariable_eq M hΓ hresolve
  refine ⟨⟨w.root, handles f⟩, Blocks.place w.root name f, by rw [S.frames]; rfl, ?_, ?_⟩
  · exact Frame.place_eq rfl (Run.ne_nil_of_fits S.fits hΓ) S.holds hrun
  · have hview : Blocks.view (·.readOnly) f = Blocks.view (·.readOnly) (Context.blocks hs Γ) :=
      (S.fits.view_eq fun _ _ _ _ => rfl).trans (Context.view_blocks (fun _ => rfl) S'.length).symm
    rw [Blocks.place_of_view (congrArg _ hview)]
    exact Frame.place_eq S'.frame_blocks (S'.blocks_ne_nil hΓ) S'.holds hcheck

/-! ## Every evaluation -/

/-- The current frame has the blocks that the checker had at the visit: the same names with the same
flags, block by block. -/
def Event.SeesAs (ev : Event) (v : Visit) : Prop :=
  ∃ frame blocks, ev.machine.frames.head? = some frame ∧
    frame.view (·.readOnly) ev.machine.arena = .ok blocks ∧
    v.frame.view (·.readOnly) v.arena = .ok blocks

/-- The current frame finds the variable at the place where the checker found it at the visit. -/
def Event.FindsAs (ev : Event) (v : Visit) (name : String) : Prop :=
  ∃ frame place, ev.machine.frames.head? = some frame ∧
    frame.place ev.machine.arena name = .ok place ∧ v.frame.place v.arena name = .ok place

/-- An evaluation of the session `t` mirrors the check of the session `s₀`. -/
structure Session.Mirrors (t s₀ : Session) (limits : Limits) : Prop where
  /-- Where the machine begins with a node, it sees what the checker saw when it met the node. -/
  enter : ∀ ev ∈ t.evaluation limits, ∀ n, ev.moment = .enter n →
    ∃ v, s₀.visits[ev.index]? = some v ∧ v.node = n ∧ ev.SeesAs v
  /-- Where the machine looks up the variable of a node, it finds what the checker found. -/
  resolve : ∀ ev ∈ t.evaluation limits, ∀ name, ev.moment = .resolve name →
    ∃ v, s₀.visits[ev.index]? = some v ∧ v.node.target? = some name ∧ ev.FindsAs v name

namespace Session

variable {natives : Natives} {p : Program} {source : String} {filename : Option String}
  {host : Host} {context : Option LogContext} {time : String} {s₀ s t : Session}

/-- The visit of the node at a site. -/
theorem Loaded.visit (L : Loaded natives p s₀ s) {k : Nat} {site : Site}
    (hsite : (p.sites natives)[k]? = some site) :
    ∃ G v, Symbols.Means G (p.globals natives) ∧ s₀.visits[k]? = some v ∧ v.Shows 0 G site := by
  obtain ⟨G, M, hvisits⟩ := L.visited
  obtain ⟨hlt, rfl⟩ := List.getElem?_eq_some_iff.mp hsite
  have hlt' : k < s₀.visits.length := hvisits.length_eq ▸ hlt
  exact ⟨G, s₀.visits[k], M, List.getElem?_eq_getElem hlt', hvisits.get hlt' hlt⟩

/-- The check meets every node of the program once. -/
theorem Loaded.map_node_visits (L : Loaded natives p s₀ s) :
    s₀.visits.map Visit.node = p.nodes := by
  obtain ⟨G, -, hvisits⟩ := L.visited
  rw [← Program.map_node_sites natives p]
  generalize s₀.visits = visits at hvisits
  generalize p.sites natives = sites at hvisits
  induction hvisits with
  | nil => rfl
  | cons hv _ ih => rw [List.map_cons, List.map_cons, hv.1, ih]

/-- Events that are true mirror the check. -/
theorem Loaded.mirrors (L : Loaded natives p s₀ s) {limits : Limits}
    (hgood : ∀ ev ∈ t.evaluation limits, Setting.Good ⟨false, natives, p, 0⟩ ev) :
    t.Mirrors s₀ limits := by
  constructor
  · intro ev hev n hn
    obtain ⟨Γ, G, f, F, -, S, htold⟩ := hgood ev hev
    rw [hn] at htold
    obtain ⟨G', v, -, hv, hshows⟩ := L.visit htold
    obtain ⟨frame, hframe, hview⟩ := S.view_eq (·.readOnly) (·.readOnly) fun _ _ _ _ => rfl
    exact ⟨v, hv, hshows.1, frame, _, hframe, hview, hshows.view_eq _ _ fun _ => rfl⟩
  · intro ev hev name hname
    obtain ⟨Γ, G, f, F, hΓ, S, htold⟩ := hgood ev hev
    rw [hname] at htold
    obtain ⟨n, ty, readOnly, hsite, htarget, hresolve⟩ := htold
    obtain ⟨G', v, M, hv, hshows⟩ := L.visit hsite
    refine ⟨v, hv, ?_, S.place_eq hΓ hshows M hresolve⟩
    rw [hshows.1]
    exact htarget

/-- Every evaluation of a program that was loaded without diagnostics mirrors the check of the
program, which meets every node once. -/
theorem evaluation_mirrors_check (hn : natives.Registered)
    (hload : load source filename (start natives host context time) = (.ok (), s))
    (hd : s.diagnostics = []) (hs : s.Continues t) (limits : Limits) :
    ∃ s₀ p, prepare source filename (start natives host context time) = (.ok (), s₀) ∧
      (∃ j, check s₀ = (.ok (), { s with journal := j })) ∧ s.program = some p ∧
      s₀.visits.map Visit.node = p.nodes ∧ t.Mirrors s₀ limits := by
  obtain ⟨p, s₀, hprepare, L, hw, R⟩ := ready_of_load hn hload hd hs
  exact ⟨s₀, p, hprepare, L.checked, L.program_eq, L.map_node_visits, L.mirrors (R.good hw limits)⟩

/-- A program that declares a name in a block of a loop where the name is used before and after. -/
def shadowingSource : String :=
  "let n = 1; for i = 0 to 2 \x7b n += i; let n = \"inner\"; print(n); \x7d print(n);"

/-- Its evaluation mirrors the check at every one of the events that there are. -/
theorem evaluation_mirrors_check_shadowing :
    ∃ s, load shadowingSource none (start Console.natives {} none "") = (.ok (), s) ∧
      s.diagnostics = [] ∧ s.evaluation ⟨4, 4⟩ ≠ [] ∧
      ∃ s₀, prepare shadowingSource none (start Console.natives {} none "") = (.ok (), s₀) ∧
        s.Mirrors s₀ ⟨4, 4⟩ := by
  obtain ⟨s, hload, hd, hevents⟩ : ∃ s,
      load shadowingSource none (start Console.natives {} none "") = (.ok (), s) ∧
      s.diagnostics = [] ∧ (s.evaluation ⟨4, 4⟩).isEmpty = false :=
    exists_of_quiet_and (by decide +kernel)
  obtain ⟨s₀, p, hprepare, -, -, -, hmirrors⟩ := evaluation_mirrors_check
    Console.natives_registered hload hd .refl ⟨4, 4⟩
  exact ⟨s, hload, hd, List.isEmpty_eq_false_iff.mp hevents, s₀, hprepare, hmirrors⟩

end Session

end Pigeon

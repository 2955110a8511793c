import Pigeon.Proofs.Execution.Keep
import Pigeon.Proofs.Session.Mirrored

/-!
# Type soundness

The check of a loaded program records a type for every expression. If the two branches of every
conditional expression are recorded with the same type, every evaluation keeps to the types: an
expression has a value of its recorded type whenever it is evaluated, every variable that is alive
has a value of its type, and no operation fails for a value of another type.

The branches matter because a conditional expression has the type of its first branch, whichever
branch its value comes from.
-/

namespace Pigeon

open Blocks

/-! ## Recorded types -/

/-- The place of an entry among the entries that a list gives rise to. -/
theorem getElem?_filterMap {α β : Type} {f : α → Option β} {l : List α} {k : Nat} {a : α} {b : β}
    (ha : l[k]? = some a) (hb : f a = some b) :
    (l.filterMap f)[(l.take k).countP fun x => (f x).isSome]? = some b := by
  induction l generalizing k with
  | nil => cases ha
  | cons x l ih =>
      cases k with
      | zero =>
          cases ha
          rw [List.filterMap_cons, hb]
          rfl
      | succ k =>
          have htail := ih ha
          rw [List.take_succ_cons, List.countP_cons, List.filterMap_cons]
          cases hx : f x with
          | none => simpa using htail
          | some y => simpa using htail

namespace Program

variable {natives : Natives} {p : Program} {k : Nat}

/-- The number of an expression, counted among the sites. -/
theorem exprIndex_eq (natives : Natives) (p : Program) (k : Nat) :
    p.exprIndex k = ((p.sites natives).take k).countP fun site => site.node.expr?.isSome := by
  unfold exprIndex
  rw [← p.map_node_sites natives, ← List.map_take, List.filterMap_map,
    List.length_filterMap_eq_countP]
  rfl

/-- The number of an expression after some sites of expressions. -/
theorem exprIndex_add {part : List Site} (h : Listed (p.sites natives) k part)
    (hpart : ∀ site ∈ part, site.node.expr?.isSome = true) :
    p.exprIndex (k + part.length) = p.exprIndex k + part.length := by
  obtain ⟨more, hmore⟩ := h
  rw [exprIndex_eq natives, exprIndex_eq natives, List.take_add, ← hmore, List.take_left,
    List.countP_append, List.countP_eq_length.mpr hpart]

/-- The expression at a site is the expression with its number. -/
theorem exprs_exprIndex {e : Expr} {Γ : Context}
    (hsite : (p.sites natives)[k]? = some ⟨.expr e, Γ⟩) : p.exprs[p.exprIndex k]? = some e := by
  have hexprs : p.exprs = (p.sites natives).filterMap fun site => site.node.expr? := by
    rw [← p.filterMap_expr?_nodes, ← p.map_node_sites natives, List.filterMap_map]
    rfl
  rw [hexprs, exprIndex_eq natives]
  exact getElem?_filterMap hsite rfl

end Program

namespace Session

variable {natives : Natives} {p : Program} {s₀ s : Session}

/-- The recorded type of the expression at a site is its type in the context of the site. -/
theorem Loaded.recorded (L : Loaded natives p s₀ s) {k : Nat} {e : Expr} {Γ : Context}
    (hsite : (p.sites natives)[k]? = some ⟨.expr e, Γ⟩) :
    s.annotations.get? (p.exprIndex k) = e.typeIn (p.globals natives) Γ := by
  have htypes : (Site.types (p.globals natives) (p.sites natives))[p.exprIndex k]? =
      some (e.typeIn (p.globals natives) Γ) := by
    have hcount : (fun site : Site => site.node.expr?.isSome) = fun site =>
        (site.node.expr?.map fun e => e.typeIn (p.globals natives) site.context).isSome := by
      funext site
      rw [Option.isSome_map]
    rw [Program.exprIndex_eq natives, hcount]
    exact getElem?_filterMap hsite rfl
  rw [L.types, htypes]
  rfl

/-- The entry of an expression among the recorded types. -/
theorem types_eq_some (hp : s.program = some p) {i : Nat} {e : Expr} (he : p.exprs[i]? = some e) :
    s.types[i]? = some (e, s.annotations.get? i) := by
  unfold types
  rw [hp]
  simp [he]

/-! ## Conditional expressions -/

/-- The recorded types of the two branches of every conditional expression. -/
def branchTypes (s : Session) : List (Option Ty × Option Ty) :=
  s.types.zipIdx.filterMap fun
    | ((.ternary cond yes _ _, _), i) =>
      some (s.annotations.get? (i + 1 + cond.preorder.length),
        s.annotations.get? (i + 1 + cond.preorder.length + yes.preorder.length))
    | _ => none

end Session

/-- An expression has as many sites as nodes that are expressions. -/
theorem Expr.length_sites_eq (Γ : Context) (e : Expr) :
    (e.sites Γ).length = e.preorder.length := by
  simp [Expr.sites, Expr.nodes]

/-- All sites in an expression are those of expressions. -/
theorem Expr.isSome_of_mem_sites {Γ : Context} {e : Expr} :
    ∀ site ∈ e.sites Γ, site.node.expr?.isSome = true := by
  intro site hsite
  simp only [Expr.sites, Expr.nodes, List.map_map, List.mem_map] at hsite
  obtain ⟨e', -, rfl⟩ := hsite
  rfl

/-- An expression with a type is the first of its own sites. -/
theorem HasType.sites_eq {Δ : Globals} {Γ : Context} {e : Expr} {t : Ty} (h : HasType Δ Γ e t) :
    ∃ rest, e.sites Γ = ⟨.expr e, Γ⟩ :: rest := by
  cases h with
  | _ => exact ⟨_, rfl⟩

/-- The types of the branches of a conditional expression are recorded for them. -/
theorem Session.Loaded.mem_branchTypes {natives : Natives} {p : Program} {s₀ s : Session}
    (L : Loaded natives p s₀ s) {k : Nat} {Γ : Context} {c y n : Expr} {sp : Option Span} {t u : Ty}
    (hk : Listed (p.sites natives) k ((Expr.ternary c y n sp).sites Γ))
    (hy : HasType (p.globals natives) Γ y t) (hn : HasType (p.globals natives) Γ n u) :
    (some t, some u) ∈ s.branchTypes := by
  rw [Expr.sites_ternary] at hk
  -- the numbers of the branches, counted from that of the conditional expression
  have hfirst : p.exprIndex (k + 1) = p.exprIndex k + 1 := by
    have hone : Listed (p.sites natives) k ([⟨.expr (.ternary c y n sp), Γ⟩] ++ _) := hk
    refine Program.exprIndex_add hone.left fun site hsite => ?_
    rw [List.mem_singleton] at hsite
    rw [hsite]
    rfl
  have hyes := Program.exprIndex_add hk.tail.left Expr.isSome_of_mem_sites
  have hno := Program.exprIndex_add hk.tail.right.left Expr.isSome_of_mem_sites
  rw [hyes, hfirst] at hno
  rw [hfirst] at hyes
  -- the types that are recorded there are the types of the branches
  have hrecordedy : s.annotations.get? (p.exprIndex (k + 1 + (c.sites Γ).length)) = some t := by
    obtain ⟨rest, heq⟩ := hy.sites_eq
    have hlisted := hk.tail.right.left
    rw [heq] at hlisted
    exact (L.recorded hlisted.head).trans hy.typeIn_eq
  have hrecordedn : s.annotations.get?
      (p.exprIndex (k + 1 + (c.sites Γ).length + (y.sites Γ).length)) = some u := by
    obtain ⟨rest, heq⟩ := hn.sites_eq
    have hlisted := hk.tail.right.right
    rw [heq] at hlisted
    exact (L.recorded hlisted.head).trans hn.typeIn_eq
  rw [hyes, Expr.length_sites_eq] at hrecordedy
  rw [hno, Expr.length_sites_eq, Expr.length_sites_eq] at hrecordedn
  rw [← hrecordedy, ← hrecordedn]
  exact List.mem_filterMap.mpr ⟨_, List.mk_mem_zipIdx_iff_getElem?.mpr
    (types_eq_some L.program_eq (Program.exprs_exprIndex hk.head)), rfl⟩

/-- Where the recorded types of branches agree, the branches have the same type. -/
theorem Session.Loaded.even {natives : Natives} {p : Program} {s₀ s : Session}
    (L : Loaded natives p s₀ s) (h : ∀ b ∈ s.branchTypes, b.1 = b.2) :
    Setting.Even ⟨true, natives, p, 0⟩ := by
  intro _ k Γ c y n sp t u hk hy hn
  exact Option.some.inj (h _ (L.mem_branchTypes hk hy hn))

/-! ## Live scopes -/

/-- Every variable of every scope that is alive has a value of its type. -/
def Arena.Tagged (a : Arena) : Prop :=
  ∀ (h : Handle) (scope : Scope), a.slots[h]? = some (some scope) → Symbols.Tagged scope.symbols

/-- Where the global symbols and the blocks of all frames are tagged, the arena is. -/
theorem Arena.Holds.tagged {a : Arena} {g : Handle} {G : Symbols} {F : List Blocks}
    (H : a.Holds g G F) (hG : Symbols.Tagged G) (hF : ∀ f ∈ F, Blocks.Tagged f) : a.Tagged :=
  H.all hG hF

/-- Where the machine stands in a strict setting, all scopes are in order. -/
theorem Setting.Stands.tagged_arena {w : Setting} {m : Machine} {Γ : Context} {G : Symbols}
    {f : Blocks} {F : List Blocks} (S : w.Stands m Γ G f F) (hs : w.strict = true) :
    m.arena.Tagged := by
  have hfits := S.fits
  rw [hs] at hfits
  refine S.holds.tagged (S.tagged hs).1 fun f' hf' => ?_
  rw [List.mem_cons] at hf'
  rcases hf' with rfl | hf'
  · exact hfits.tagged
  · exact (S.tagged hs).2 f' hf'

/-! ## Every evaluation -/

/-- The variables of the current frame have values of the types that the checker gave them at the
visit. -/
def Event.TypedAs (ev : Event) (v : Visit) : Prop :=
  ∃ frame blocks, ev.machine.frames.head? = some frame ∧
    frame.view (fun x => x.value.map Value.ty) ev.machine.arena = .ok blocks ∧
    v.frame.view (·.ty) v.arena = .ok blocks

/-- An evaluation of the session `t` respects the types that the check has found in the session `s₀`
and recorded in the session `s`. -/
structure Session.Respects (t s₀ s : Session) (p : Program) (limits : Limits) : Prop where
  /-- An expression has a value of the type that is recorded for its node. -/
  value : ∀ ev ∈ t.evaluation limits, ∀ e v, ev.moment = .value e v →
    s.types[p.exprIndex ev.index]? = some (e, some v.ty)
  /-- At every moment the variables of the scopes that are alive have values of their types. -/
  tagged : ∀ ev ∈ t.evaluation limits, ev.machine.arena.Tagged
  /-- Where the machine begins with a node, these are the types that the checker knew there. -/
  enter : ∀ ev ∈ t.evaluation limits, ∀ n, ev.moment = .enter n →
    ∃ v, s₀.visits[ev.index]? = some v ∧ v.node = n ∧ ev.TypedAs v

namespace Session

variable {natives : Natives} {p : Program} {source : String} {filename : Option String}
  {host : Host} {context : Option LogContext} {time : String} {s₀ s t : Session}

/-- Events that are true in a strict setting respect the types. -/
theorem Loaded.respects (L : Loaded natives p s₀ s) {limits : Limits}
    (hgood : ∀ ev ∈ t.evaluation limits, Setting.Good ⟨true, natives, p, 0⟩ ev) :
    t.Respects s₀ s p limits := by
  refine ⟨?_, ?_, ?_⟩
  · intro ev hev e v hvalue
    obtain ⟨Γ, G, f, F, -, -, htold⟩ := hgood ev hev
    rw [hvalue] at htold
    obtain ⟨hsite, htype⟩ := htold
    rw [types_eq_some L.program_eq (Program.exprs_exprIndex hsite), L.recorded hsite]
    exact congrArg (fun t => some (e, t)) (htype rfl)
  · intro ev hev
    obtain ⟨Γ, G, f, F, -, S, -⟩ := hgood ev hev
    exact S.tagged_arena rfl
  · intro ev hev n hn
    obtain ⟨Γ, G, f, F, -, S, htold⟩ := hgood ev hev
    rw [hn] at htold
    obtain ⟨G', v, -, hv, hshows⟩ := L.visit htold
    obtain ⟨frame, hframe, hview⟩ := S.view_eq (fun x => x.value.map Value.ty) (fun v => some v.ty)
      fun _ _ _ htags => congrArg some (htags rfl).2
    exact ⟨v, hv, hshows.1, frame, _, hframe, hview, hshows.view_eq _ _ fun _ => rfl⟩

/-- Type soundness: every evaluation of a program that was loaded without diagnostics respects the
types, if the branches of every conditional expression have the same recorded type. A failure with
the code of a type mismatch comes from a native function: the last thing that the evaluation has done
is to call it, and it has failed in this way there. -/
theorem evaluation_respects_types (hn : natives.Registered) (hb : ∀ f ∈ natives.funcs, f.Behaves)
    (hload : load source filename (start natives host context time) = (.ok (), s))
    (hd : s.diagnostics = []) (hbranches : ∀ b ∈ s.branchTypes, b.1 = b.2) (hs : s.Continues t)
    (name : Option String) (limits : Limits) :
    (∃ s₀ p, prepare source filename (start natives host context time) = (.ok (), s₀) ∧
      (∃ j, check s₀ = (.ok (), { s with journal := j })) ∧ s.program = some p ∧
      t.Respects s₀ s p limits) ∧
    (evaluate name limits t).2.arena.Tagged ∧
    ∀ cause sp, (evaluate name limits t).1 = .error (.runtime cause sp) →
      "[RUN-0040]".toList <+: cause.message.toList →
      ∃ f ∈ natives.funcs, ∃ ev args, (t.evaluation limits).getLast? = some ev ∧
        ev.moment = .native f.name args ∧ f.callback args ev.machine.host =
          (.error (.runtime cause sp), (evaluate name limits t).2.host) := by
  obtain ⟨p, s₀, -, hprepare, L⟩ := loaded_of_load hn hload hd
  have hw : Setting.Sound ⟨true, natives, p, 0⟩ := ⟨hn, L.wellTyped, L.even hbranches⟩
  have R := (L.ready hn true).continues hw hs
  obtain ⟨r, t', heq, R', hallowed, hgood⟩ := R.evaluate hw name limits
  obtain ⟨G, H, -, htagged⟩ := R'.clear
  rw [heq]
  refine ⟨⟨s₀, p, hprepare, L.checked, L.program_eq, L.respects hgood⟩, ?_, ?_⟩
  · exact H.tagged (htagged rfl) fun _ hf => absurd hf List.not_mem_nil
  · intro cause sp hr hcode
    obtain ⟨m, hhost, hfailed⟩ := hallowed _ hr
    rw [← hhost]
    cases hfailed with
    | runtime hraised => exact hraised rfl (cause.isMismatch_iff.mpr hcode)
    | unruly hf hnot => exact absurd (hb _ hf) hnot

/-- A program with a conditional expression whose branches are both numbers. -/
def evenSource : String :=
  "let n = 5; int twice(int k) return k * 2; while n > 0 n -= n % 2 == 0 ? twice(1) : 1; print(n);"

/-- Its evaluation respects the types at every one of the events that there are. -/
theorem evaluation_respects_types_even :
    ∃ s, load evenSource none (start Console.natives {} none "") = (.ok (), s) ∧
      s.diagnostics = [] ∧ s.branchTypes = [(some .int, some .int)] ∧ s.evaluation ⟨4, 8⟩ ≠ [] ∧
      ∃ s₀ p, prepare evenSource none (start Console.natives {} none "") = (.ok (), s₀) ∧
        s.Respects s₀ s p ⟨4, 8⟩ := by
  obtain ⟨s, hload, hd, hbranches, hevents⟩ : ∃ s,
      load evenSource none (start Console.natives {} none "") = (.ok (), s) ∧
      s.diagnostics = [] ∧ s.branchTypes = [(some .int, some .int)] ∧
      (s.evaluation ⟨4, 8⟩).isEmpty = false := exists_of_quiet_and (by decide +kernel)
  have heven : ∀ b ∈ s.branchTypes, b.1 = b.2 := by
    rw [hbranches]
    decide
  obtain ⟨⟨s₀, p, hprepare, -, -, hrespects⟩, -⟩ := evaluation_respects_types
    Console.natives_registered Console.natives_behave hload hd heven .refl none ⟨4, 8⟩
  exact ⟨s, hload, hd, hbranches, List.isEmpty_eq_false_iff.mp hevents, s₀, p, hprepare, hrespects⟩

end Session

end Pigeon

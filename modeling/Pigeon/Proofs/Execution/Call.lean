import Pigeon.Proofs.Execution.Stmt

/-!
# Calls and programs are safe

A call of a declared function is safe: its body runs in a frame of its own, which is closed on every
way out of it, and the frames below are left as they are. The proof is by induction on the number of
calls that may be open inside each other. From this the whole run of a program is safe.
-/

namespace Pigeon

open Blocks

variable {w : Setting}

/-! ## Declared functions -/

/-- A type that is spelled in source text is not `any`. -/
theorem Ty.ofName_ne_any {name : String} {t : Ty} (h : Ty.ofName name = .ok t) : t ≠ .any := by
  rintro rfl
  unfold Ty.ofName Ty.ofName? at h
  split at h
  · next t' hfind =>
      cases h
      have hmem := List.mem_of_find?_eq_some hfind
      simp [Ty.spellable] at hmem
  · cases h

/-- No declared parameter has the type `any`. -/
theorem Param.parameters_ne_any {ps : List Param} {qs : List Parameter}
    (h : Param.parameters ps = .ok qs) : ∀ q ∈ qs, q.ty ≠ .any := by
  induction ps generalizing qs with
  | nil =>
      cases h
      simp
  | cons p ps ih =>
      obtain ⟨t, qs', ht, hqs, rfl⟩ := Param.parameters_cons h
      intro q hq
      rw [List.mem_cons] at hq
      rcases hq with rfl | hq
      · exact Ty.ofName_ne_any ht
      · exact ih hqs q hq

/-- What a declared parameter accepts in a strict setting has its type. -/
theorem FuncDecl.WellTyped.args_typed {Δ : Globals} {d : FuncDecl} {f : Function}
    (W : d.WellTyped Δ f) {args : List Value}
    (hargs : List.Forall₂ (fun q (v : Value) => w.strict = true → q.ty.accepts v.ty = true) f.params
      args) :
    List.Forall₂ (fun q (v : Value) => w.strict = true → v.ty = q.ty) f.params args := by
  have hany := Param.parameters_ne_any (FuncDecl.toFunction_ok W.function).2.1
  generalize f.params = ps at hargs hany
  induction hargs with
  | nil => exact .nil
  | cons hv _ ih =>
      refine .cons (fun hs => ?_) (ih fun q hq => hany q (List.mem_cons_of_mem _ hq))
      have haccepts := hv hs
      simp only [Ty.accepts, Bool.and_eq_true, Bool.or_eq_true, decide_eq_true_eq] at haccepts
      rcases haccepts.2 with hq | hq
      · exact absurd hq (hany _ List.mem_cons_self)
      · exact hq.symm

/-- The body of a function stands at its number among the sites of the items. -/
theorem Item.listed_bodyIndex {Δ : Globals} {all : List Site} {d : FuncDecl} :
    ∀ (items : List Item) (Γ : Context) (k : Nat), Listed all k (Item.sitesAll Δ Γ items) →
      (∀ d' : FuncDecl, .func d' ∈ items → d'.name = d.name → d' = d) → .func d ∈ items →
      Listed all (Item.bodyIndex d.name k items) (d.sites Δ)
  | [], _, _, _, _, hd => by cases hd
  | .func d' :: rest, Γ, k, h, hunique, hd => by
      rw [Item.sitesAll] at h
      unfold Item.bodyIndex
      by_cases hname : d'.name = d.name
      · rw [if_pos hname]
        obtain rfl := hunique d' List.mem_cons_self hname
        exact h.left
      · rw [if_neg hname]
        have hrest := h.after_func
        have hd' : .func d ∈ rest := by
          rw [List.mem_cons] at hd
          rcases hd with hd | hd
          · cases hd
            exact absurd rfl hname
          · exact hd
        exact listed_bodyIndex rest Γ _ hrest
          (fun d'' h'' => hunique d'' (List.mem_cons_of_mem _ h'')) hd'
  | .stmt s :: rest, Γ, k, h, hunique, hd => by
      rw [Item.sitesAll] at h
      have hrest := h.after_stmt
      have hd' : .func d ∈ rest := by
        rw [List.mem_cons] at hd
        rcases hd with hd | hd
        · cases hd
        · exact hd
      exact listed_bodyIndex rest _ _ hrest
        (fun d'' h'' => hunique d'' (List.mem_cons_of_mem _ h'')) hd'

/-- The body of a function stands at its number among the sites of the program. -/
theorem Setting.listed_body (W : w.program.WellTyped w.natives) {d : FuncDecl}
    (hd : d ∈ w.program.functions) :
    Listed w.sites (Item.bodyIndex d.name 0 w.program.items) (d.sites w.globals) := by
  refine Item.listed_bodyIndex w.program.items [[]] 0 (List.prefix_refl _) ?_
    (Program.mem_functions.mp hd)
  intro d' hd' hname
  exact List.inj_on_of_nodup_map W.names_nodup (Program.mem_functions.mpr hd') hd hname

/-! ## Frames -/

/-- The frames of the machine have the blocks `F`, the global symbols are what the globals say, and
the events so far were true. -/
structure Setting.Rests (w : Setting) (F : List Blocks) (s : Machine × List Event) : Prop where
  holds : ∃ G, s.1.arena.Holds w.root G F ∧ w.Serves G ∧ (w.strict = true → Symbols.Tagged G)
  globals : s.1.globals = w.root
  frames : s.1.frames = F.map fun f => ⟨w.root, handles f⟩
  tagged : w.strict = true → ∀ f ∈ F, Blocks.Tagged f
  good : ∀ ev ∈ s.2, w.Good ev

/-- The machine at rest with a frame that fits a context stands in that context. -/
theorem Setting.Rests.at {Γ : Context} {f : Blocks} {F : List Blocks} {s : Machine × List Event}
    (R : w.Rests (f :: F) s) (hΓ : Γ ≠ []) (hfits : Context.Fits w.strict Γ f) : w.At Γ F s := by
  obtain ⟨G, H, hserves, htagged⟩ := R.holds
  exact ⟨hΓ, ⟨G, f, H, R.globals, R.frames, hfits, hserves, fun hs =>
    ⟨htagged hs, fun f' hf' => R.tagged hs f' (List.mem_cons_of_mem _ hf')⟩⟩, R.good⟩

/-- The machine rests on a frame that fits the context. -/
theorem Setting.At.rests {Γ : Context} {F : List Blocks} {s : Machine × List Event}
    (I : w.At Γ F s) : ∃ f, w.Rests (f :: F) s ∧ Context.Fits w.strict Γ f := by
  obtain ⟨G, f, S⟩ := I.stands
  refine ⟨f, ⟨⟨G, S.holds, S.serves, fun hs => (S.tagged hs).1⟩, S.globals, S.frames, ?_, I.good⟩,
    S.fits⟩
  intro hs f' hf'
  rw [List.mem_cons] at hf'
  rcases hf' with rfl | hf'
  · have hfits := S.fits
    rw [hs] at hfits
    exact hfits.tagged
  · exact (S.tagged hs).2 f' hf'

/-- The frame around a step is closed on every way out of it. -/
theorem Setting.Runs.inFrame {α : Type} {x : Trace α} {Q : α → Context → Prop}
    {block : List Binding} (h : w.Runs [block] x Q) {m : Machine} {log : List Event} {k : Handle}
    {b : Symbols} {F : List Blocks}
    (hb : List.Forall₂ (Binding.Fits w.strict) block b)
    (R : w.Rests ([(k, b)] :: F)
      ({ m with frames := ⟨w.root, [k]⟩ :: m.frames }, log)) :
    Step.Yields (Trace.inFrame ⟨w.root, [k]⟩ x) (m, log)
      (fun a t => (∃ Γ', Q a Γ') ∧ w.Rests F t) (fun e t => w.Allowed t e ∧ w.Rests F t) := by
  have I := R.at (List.cons_ne_nil block []) (.cons hb .nil)
  -- closing leads from any context that the body can end in back to the frames below
  have hclose : ∀ Γ' t, w.At Γ' F t →
      ∃ m', Run.close t.1 = (.ok (), m') ∧ m'.host = t.1.host ∧ w.Rests F (m', t.2) := by
    rintro Γ' ⟨m', log'⟩ I'
    obtain ⟨G, f, S⟩ := I'.stands
    obtain ⟨a, heq, H⟩ := Run.close_eq S
    exact ⟨_, heq, rfl, ⟨G, H, S.serves, fun hs => (S.tagged hs).1⟩, S.globals, rfl,
      fun hs => (S.tagged hs).2, I'.good⟩
  have hpush : (Logged.lift (modify fun m => { m with frames := ⟨w.root, [k]⟩ :: m.frames }) :
      Trace Unit) (m, log) = (.ok (), ({ m with frames := ⟨w.root, [k]⟩ :: m.frames }, log)) := rfl
  refine Step.Yields.bind_ok hpush ?_
  have hx := h F _ I
  unfold Step.Yields Logged.andFinally at *
  rcases hrun : x ({ m with frames := ⟨w.root, [k]⟩ :: m.frames }, log) with ⟨r, t⟩
  rw [hrun] at hx
  cases r with
  | ok a =>
      obtain ⟨Γ', -, ha, I'⟩ := hx
      obtain ⟨m', heq, -, R'⟩ := hclose Γ' t I'
      simp only [Logged.lift, heq]
      exact ⟨⟨Γ', ha⟩, R'⟩
  | error e =>
      obtain ⟨he, Γ', -, I'⟩ := hx
      obtain ⟨m', heq, hhost, R'⟩ := hclose Γ' t I'
      simp only [Logged.lift, heq]
      exact ⟨he.congr hhost rfl, R'⟩

/-! ## Calls -/

/-- The value of a call whose body has finished as the rules allow. -/
theorem Run.callResult_ok {f : Function} {c : Completion} (hends : w.Ends (some f.returns) false c)
    (hreturns : f.returns ≠ .void → c ≠ .normal) (filename : Option String) (sp : Option Span) :
    ∃ v, Run.callResult filename f sp c = pure v ∧ (w.strict = true → v.ty = f.returns) := by
  cases c with
  | normal =>
      have hvoid : f.returns = .void := by
        by_contra h
        exact hreturns h rfl
      refine ⟨.void, ?_, fun _ => hvoid.symm⟩
      rw [Run.callResult, if_pos hvoid]
  | brk => cases hends
  | cont => cases hends
  | ret v =>
      obtain ⟨t, ht, hv⟩ := hends
      cases ht
      exact ⟨v, rfl, hv⟩

/-- Declared functions are called safely, whatever the number of calls that may be open. -/
theorem Trace.callDeclared_calls (hw : w.Even) (W : w.program.WellTyped w.natives)
    (filename : Option String) (rounds : Nat) :
    ∀ depth, w.Calls (callDeclared filename rounds (Item.bodyIndex · 0 w.program.items) depth)
  | 0 => fun _ _ _ _ _ _ _ _ => .throw fun _ => .of_lenient fun _ => rfl
  | depth + 1 => by
      intro d f args sp Γ hd Wf hargs F s I
      obtain ⟨m, log⟩ := s
      obtain ⟨f₀, R, hfits⟩ := I.rests
      obtain ⟨G, H, hserves, htagged⟩ := R.holds
      obtain ⟨hname, -, -⟩ := FuncDecl.toFunction_ok Wf.function
      -- the frame is made and filled before it is among the frames
      obtain ⟨k, a₁, hopen, H₁⟩ := Run.openFrame_eq H R.globals
      obtain ⟨a₂, b, hbind, H₂, hb⟩ := Run.bindParams_eq (m := { m with arena := a₁ })
        (rfl : (Frame.mk w.root [k]).blocks = _) .nil H₁ (Wf.args_typed hargs)
        (by simpa using Wf.params_nodup)
      rw [List.nil_append] at hb
      have hbody : w.Runs [f.params.map Parameter.binding]
          (execBlock
            { filename := filename, rounds := rounds
              call := Run.callDeclared filename rounds depth }
            (callDeclared filename rounds (Item.bodyIndex · 0 w.program.items) depth)
            (Item.bodyIndex f.name 0 w.program.items) d.body)
          fun c _ => w.Ends (some f.returns) false c ∧
            (c = .normal → ¬ Stmt.SomeReturns d.body.stmts) := by
        obtain ⟨Γ₁, htyped⟩ := Wf.body
        have hlisted := Setting.listed_body W hd
        unfold FuncDecl.sites FuncDecl.paramBlock at hlisted
        rw [Wf.function, ← hname] at hlisted
        exact (execBlock_runs hw (callDeclared_calls hw W filename rounds depth) d.body false _ Γ₁ _
          htyped hlisted).mono fun _ _ hc => hc.2
      have R₂ : w.Rests ([(k, b)] :: f₀ :: F)
          ({ m with arena := a₂, frames := ⟨w.root, [k]⟩ :: m.frames }, log) := by
        refine ⟨⟨G, H₂, hserves, htagged⟩, R.globals, ?_, fun hs f' hf' => ?_, R.good⟩
        · show _ :: m.frames = _
          rw [R.frames]
          rfl
        · rw [List.mem_cons] at hf'
          rcases hf' with rfl | hf'
          · have hfits' : Context.Fits w.strict [f.params.map Parameter.binding] [(k, b)] :=
              .cons hb .nil
            rw [hs] at hfits'
            exact hfits'.tagged
          · exact R.tagged hs f' hf'
      have hopen' : (Logged.lift Run.openFrame : Trace Frame) (m, log) =
          (.ok ⟨w.root, [k]⟩, ({ m with arena := a₁ }, log)) := by
        rw [Logged.lift_apply, hopen]
      have hbind' : (Logged.lift (Run.bindParams ⟨w.root, [k]⟩ f.params args) : Trace Unit)
          ({ m with arena := a₁ }, log) = (.ok (), ({ m with arena := a₂ }, log)) := by
        rw [Logged.lift_apply, hbind]
      refine Step.Yields.bind_ok hopen' (Step.Yields.bind_ok hbind' ?_)
      have hframe := hbody.inFrame (m := { m with arena := a₂ }) hb R₂
      refine (hframe.mono (fun _ _ h => h) ?_).bind ?_
      · rintro e t ⟨he, R'⟩
        exact ⟨he, Γ, rfl, R'.at I.ne_nil hfits⟩
      · rintro c t ⟨⟨-, hends, hnormal⟩, R'⟩
        obtain ⟨v, heq, hv⟩ := Run.callResult_ok (w := w) hends
          (fun hvoid hc => hnormal hc (Wf.returns hvoid)) filename sp
        rw [heq]
        exact Step.Yields.pure ⟨Γ, rfl, ⟨rfl, hv⟩, R'.at I.ne_nil hfits⟩

/-! ## Programs -/

/-- The statements of a program at top level are executed safely; each of them finishes normally. -/
theorem Trace.execItems_runs {site : RunSite} {call : Caller} (hw : w.Even) (hcall : w.Calls call) :
    ∀ (items : List Item) (Γ Γ₁ : Context) (k : Nat),
      StmtsTyped w.globals none false Γ
        (items.filterMap fun | .func _ => none | .stmt s => some s) Γ₁ →
      Listed w.sites k (Item.sitesAll w.globals Γ items) →
      w.Runs Γ (execItems site call k items) fun _ _ => True
  | [], _, _, _, _, _ => .pure trivial
  | .func d :: rest, Γ, Γ₁, k, h, hk => by
      rw [Item.sitesAll] at hk
      have hrest := hk.after_func
      exact execItems_runs hw hcall rest Γ Γ₁ _ h hrest
  | .stmt s :: rest, Γ, Γ₁, k, h, hk => by
      rw [Item.sitesAll] at hk
      have hrest := hk.after_stmt
      cases h with
      | cons hs hss =>
          rw [hs.after_eq] at hrest
          refine .bind (exec_runs hw hcall s false Γ _ k hs hk.left) ?_
          rintro c Γ' ⟨hends, hnormal⟩
          cases c with
          | normal =>
              obtain ⟨rfl, -⟩ := hnormal rfl
              exact execItems_runs hw hcall rest _ Γ₁ _ hss hrest
          | brk => cases hends
          | cont => cases hends
          | ret v =>
              obtain ⟨t, ht, -⟩ := hends
              cases ht

/-- A program that follows the rules runs safely from a machine without frames. -/
theorem Setting.traced_yields (hw : w.Even) (W : w.program.WellTyped w.natives) (limits : Limits)
    {m : Machine} {log : List Event} (R : w.Rests [] (m, log)) :
    Step.Yields (w.program.traced limits) (m, log) (fun _ t => w.Rests [] t)
      (fun e t => w.Allowed t e ∧ w.Rests [] t) := by
  obtain ⟨G, H, hserves, htagged⟩ := R.holds
  obtain ⟨k, a, hopen, H'⟩ := Run.openFrame_eq H R.globals
  obtain ⟨Γ₁, hstmts⟩ := W.statements
  have hcall := Trace.callDeclared_calls hw W w.program.filename limits.rounds limits.calls
  have hitems : w.Runs [[]] (Trace.execItems (w.program.runSite limits) _ 0 w.program.items)
      fun _ _ => True :=
    Trace.execItems_runs hw hcall w.program.items [[]] Γ₁ 0 hstmts (List.prefix_refl _)
  have hopen' : (Logged.lift Run.openFrame : Trace Frame) (m, log) =
      (.ok ⟨w.root, [k]⟩, ({ m with arena := a }, log)) := by
    rw [Logged.lift_apply, hopen]
  have R' : w.Rests [[(k, [])]]
      ({ m with arena := a, frames := ⟨w.root, [k]⟩ :: m.frames }, log) := by
    refine ⟨⟨G, H', hserves, htagged⟩, R.globals, ?_, fun _ f hf b hb => ?_, R.good⟩
    · show _ :: m.frames = _
      rw [R.frames]
      rfl
    · rw [List.mem_singleton] at hf
      subst hf
      rw [List.mem_singleton] at hb
      subst hb
      exact Symbols.tagged_nil
  refine Step.Yields.bind_ok hopen' ?_
  exact (hitems.inFrame (m := { m with arena := a }) .nil R').mono (fun _ _ h => h.2) fun _ _ h => h

end Pigeon

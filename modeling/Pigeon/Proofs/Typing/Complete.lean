import Pigeon.Proofs.Typing.Premise

/-!
# Typed programs pass the check

The walk of the checker through a program that follows the rules reports nothing, finds the types
that the rules give, and meets every node in the context of its site.

`Walk.Passes` says this of one step of the walk: begun in any state that stands in the context `Γ`,
the step ends with the result `a` in a state that stands in `Γ'`, and has met the given sites. It is
proved for composed steps by one rule for each way to compose, and then for each construct of the
language along its typing rule.
-/

namespace Pigeon

open Blocks

/-- What the checker sees when it meets a node is the context of the site. -/
def Visit.Shows (g : Handle) (G : Symbols) (v : Visit) (s : Site) : Prop :=
  v.node = s.node ∧ ∃ hs F,
    Checker.Stands { arena := v.arena, frame := v.frame, diagnostics := [], types := #[] } g G hs
      s.context F

/-- The types of the expressions among some sites. -/
def Site.types (Δ : Globals) (sites : List Site) : List (Option Ty) :=
  sites.filterMap fun s => s.node.expr?.map fun e => e.typeIn Δ s.context

theorem Site.types_append (Δ : Globals) (s₁ s₂ : List Site) :
    Site.types Δ (s₁ ++ s₂) = Site.types Δ s₁ ++ Site.types Δ s₂ :=
  List.filterMap_append

namespace Walk

open Logged

variable {α β : Type} {Δ : Globals} {g : Handle} {G : Symbols} {Γ Γ₁ Γ₂ : Context}
  {sites s₁ s₂ : List Site}

/-- From any state that stands in `Γ` the step passes with the result `a`, stands in `Γ'` then, and
has met the given sites. -/
def Passes (Δ : Globals) (g : Handle) (G : Symbols) (x : Walk α) (a : α) (Γ Γ' : Context)
    (sites : List Site) : Prop :=
  ∀ c log hs F, Checker.Stands c g G hs Γ F → ∃ c' vs, x (c, log) = (.ok a, (c', log ++ vs)) ∧
    c'.Stands g G hs Γ' F ∧ c'.diagnostics = c.diagnostics ∧
    c'.types.toList = c.types.toList ++ Site.types Δ sites ∧
    List.Forall₂ (Visit.Shows g G) vs sites

namespace Passes

/-! ## One rule for each way to compose -/

theorem pure (a : α) : Passes Δ g G (pure a) a Γ Γ [] := by
  intro c log hs F S
  exact ⟨c, [], by rw [List.append_nil]; rfl, S, rfl, (List.append_nil _).symm, .nil⟩

/-- Two steps in a row pass if the second one does from the context that the first one leaves, and
they visit the sites of both. -/
theorem bind {x : Walk α} {f : α → Walk β} {a : α} {b : β} (hx : Passes Δ g G x a Γ Γ₁ s₁)
    (hf : Passes Δ g G (f a) b Γ₁ Γ₂ s₂) : Passes Δ g G (x >>= f) b Γ Γ₂ (s₁ ++ s₂) := by
  intro c log hs F S
  obtain ⟨c₁, vs₁, hx₁, S₁, hd₁, ht₁, hv₁⟩ := hx c log hs F S
  obtain ⟨c₂, vs₂, hf₂, S₂, hd₂, ht₂, hv₂⟩ := hf c₁ (log ++ vs₁) hs F S₁
  refine ⟨c₂, vs₁ ++ vs₂, ?_, S₂, hd₂.trans hd₁, ?_, List.rel_append hv₁ hv₂⟩
  · rw [Step.bind_ok hx₁, hf₂, List.append_assoc]
  · rw [ht₂, ht₁, Site.types_append, List.append_assoc]

/-- A primitive check that changes nothing. -/
theorem lift_eq {x : Check α} {a : α}
    (hx : ∀ c hs F, Checker.Stands c g G hs Γ F → x c = (.ok a, c)) :
    Passes Δ g G (Logged.lift x) a Γ Γ [] := by
  intro c log hs F S
  refine ⟨c, [], ?_, S, rfl, (List.append_nil _).symm, .nil⟩
  rw [lift_apply, hx c hs F S, List.append_nil]

/-- A primitive check that declares a variable. -/
theorem lift_arena {x : Check α} {a : α}
    (hx : ∀ c hs F, Checker.Stands c g G hs Γ F →
      ∃ arena, x c = (.ok a, { c with arena := arena }) ∧
        Checker.Stands { c with arena := arena } g G hs Γ₁ F) :
    Passes Δ g G (Logged.lift x) a Γ Γ₁ [] := by
  intro c log hs F S
  obtain ⟨arena, heq, S'⟩ := hx c hs F S
  refine ⟨_, [], ?_, S', rfl, (List.append_nil _).symm, .nil⟩
  rw [lift_apply, heq, List.append_nil]

/-- A visit of a statement or a block is its site, with no type. -/
theorem visit (n : Node) (hn : n.expr? = none) :
    Passes Δ g G (Walk.visit n) () Γ Γ [⟨n, Γ⟩] := by
  intro c log hs F S
  refine ⟨c, [⟨n, c.arena, c.frame⟩], rfl, S, rfl, ?_,
    .cons ⟨rfl, hs, F, S.of_eq rfl rfl⟩ .nil⟩
  simp [Site.types, hn]

/-- A block passes if its body does, and the context is as before it afterwards. -/
theorem inBlock {x : Walk α} {a : α} {block : List Binding} (hΓ : Γ ≠ [])
    (hx : Passes Δ g G x a ([] :: Γ) (block :: Γ) sites) :
    Passes Δ g G (Walk.inBlock x) a Γ Γ sites := by
  intro c log hs F S
  obtain ⟨h, c₁, henter, S₁, hd₁, ht₁⟩ := Check.enter_typed S hΓ
  obtain ⟨c₂, vs, hx₂, S₂, hd₂, ht₂, hv⟩ := hx c₁ log (h :: hs) F S₁
  obtain ⟨c₃, hexit, S₃, hd₃, ht₃⟩ := Check.exit_typed S₂ hΓ
  refine ⟨c₃, vs, ?_, S₃, hd₃.trans (hd₂.trans hd₁), by rw [ht₃, ht₂, ht₁], hv⟩
  unfold Walk.inBlock
  have hlift : (lift Check.enter : Walk Unit) (c, log) = (.ok (), (c₁, log)) := by
    rw [lift_apply, henter]
  rw [Step.bind_ok hlift]
  unfold Logged.andFinally
  rw [hx₂]
  simp only [lift_apply, hexit]

/-- The entry of an expression is filled once its type is found. -/
theorem annotated {e : Expr} {x : Walk (Option Ty)} {t : Ty}
    (hx : Passes Δ g G x (some t) Γ Γ sites) (ht : e.typeIn Δ Γ = some t) :
    Passes Δ g G (Walk.annotated e x) (some t) Γ Γ (⟨.expr e, Γ⟩ :: sites) := by
  intro c log hs F S
  let c₁ : Checker := { c with types := c.types.push none }
  obtain ⟨c₂, vs, hx₂, S₂, hd₂, ht₂, hv⟩ :=
    hx c₁ (log ++ [⟨.expr e, c.arena, c.frame⟩]) hs F (S.of_eq rfl rfl)
  refine ⟨{ c₂ with types := c₂.types.setIfInBounds c.types.size (some t) },
    ⟨.expr e, c.arena, c.frame⟩ :: vs, ?_, S₂.of_eq rfl rfl, hd₂, ?_,
    .cons ⟨rfl, hs, F, S.of_eq rfl rfl⟩ hv⟩
  · unfold Walk.annotated Walk.visit
    have hreserve : (lift Check.reserve : Walk Nat) (c, log ++ [⟨.expr e, c.arena, c.frame⟩]) =
        (.ok c.types.size, (c₁, log ++ [⟨.expr e, c.arena, c.frame⟩])) := rfl
    rw [Step.bind_ok (note_apply _ c log), Step.bind_ok hreserve, Step.bind_ok hx₂]
    simp [Step.bind_apply, lift_apply]
  · have hset : c₂.types.toList.set c.types.size (some t) =
        c.types.toList ++ (some t :: Site.types Δ sites) := by
      rw [ht₂]
      simp [c₁]
    rw [Array.toList_setIfInBounds, hset]
    simp [Site.types, Node.expr?, ht]

/-- A step in a frame of its own. -/
theorem inFrame {x : Walk α} {a : α} (hx : Passes Δ g G x a [[]] Γ₁ sites) :
    Passes Δ g G (Walk.inFrame g x) a Γ Γ sites := by
  intro c log hs F S
  obtain ⟨h, arena, hopen, -, hnew⟩ := Frame.openIn_eq S.holds
  let c₁ : Checker := { c with frame := ⟨g, [h]⟩, arena := arena }
  have S₁ : c₁.Stands g G [h] [[]] (Context.blocks hs Γ :: F) := ⟨hnew, rfl, rfl⟩
  obtain ⟨c₂, vs, hx₂, S₂, hd₂, ht₂, hv⟩ := hx c₁ log [h] _ S₁
  obtain ⟨arena', hclose, hheld⟩ := Check.close_eq S₂.frame_blocks S₂.holds
  refine ⟨{ c₂ with frame := c.frame, arena := arena' }, vs, ?_, ⟨hheld, S.blocks, S.length⟩, hd₂,
    ht₂, hv⟩
  unfold Walk.inFrame
  have hlift : (lift (Check.openFrame g) : Walk Frame) (c, log) = (.ok c.frame, (c₁, log)) := by
    rw [lift_apply, Check.openFrame, Step.modifyGet_apply, hopen]
  rw [Step.bind_ok hlift]
  unfold Logged.andFinally
  rw [hx₂]
  have hclean : (do Check.close; modify fun s => { s with frame := c.frame } : Check Unit) c₂ =
      (.ok (), { c₂ with frame := c.frame, arena := arena' }) := by
    rw [Step.bind_ok hclose]
    rfl
  simp only [lift_apply, hclean]

/-- The check without the log does what a walk that passes does. -/
theorem check {x : Walk α} {y : Check α} {a : α} {c : Checker} {hs : List Handle}
    {F : List Blocks} (hx : Passes Δ g G x a Γ Γ₁ sites) (he : Erases x y)
    (S : c.Stands g G hs Γ F) :
    ∃ c', y c = (.ok a, c') ∧ c'.Stands g G hs Γ₁ F ∧ c'.diagnostics = c.diagnostics := by
  obtain ⟨c', vs, hx', S', hd, -, -⟩ := hx c [] hs F S
  refine ⟨c', ?_, S', hd⟩
  have hy := he c []
  rw [hx'] at hy
  exact hy.symm

theorem of_eq {x : Walk α} {a : α} (hx : Passes Δ g G x a Γ Γ₁ s₁) (h : s₁ = s₂) :
    Passes Δ g G x a Γ Γ₁ s₂ := h ▸ hx

end Passes

/-! ## Expressions -/

variable {site : CheckSite}

mutual

/-- The walk through an expression that has a type. -/
theorem infer_passes (M : G.Means Δ) (hg : site.globals = g) (hΓ : Γ ≠ []) :
    ∀ {e : Expr} {t : Ty}, HasType Δ Γ e t →
      Passes Δ g G (infer site e) (some t) Γ Γ (e.sites Γ)
  | .int _ _, _, .int => .annotated (.pure _) rfl
  | .float _ _, _, .float => .annotated (.pure _) rfl
  | .string _ _, _, .string => .annotated (.pure _) rfl
  | .bool _ _, _, .bool => .annotated (.pure _) rfl
  | .var _ _, _, .var h =>
      .annotated (.lift_eq fun _ _ _ S => Check.variableType_typed S M hΓ h)
        (HasType.var h).typeIn_eq
  | .paren e sp, _, .paren h => .annotated (infer_passes M hg hΓ h) (HasType.paren h).typeIn_eq
  | .unary op e sp, t, .unary h hop => by
      have hlast : Passes Δ g G (lift (Check.unaryType site op (some _) sp)) (some t) Γ Γ [] :=
        .lift_eq fun _ _ _ _ => Check.unaryType_typed hop
      refine .of_eq (.annotated (.bind (infer_passes M hg hΓ h) hlast)
        (HasType.unary h hop).typeIn_eq) ?_
      rw [Expr.sites_unary, List.append_nil]
  | .binary op l r sp, t, .binary hl hr hu hv hop => by
      have hlast : Passes Δ g G (lift (Check.binaryType site op (some _) (some _) sp)) (some t)
          Γ Γ [] :=
        .lift_eq fun _ _ _ _ => Check.binaryType_typed hu hv hop
      refine .of_eq (.annotated (.bind (infer_passes M hg hΓ hl) (.bind (infer_passes M hg hΓ hr)
        hlast)) (HasType.binary hl hr hu hv hop).typeIn_eq) ?_
      rw [Expr.sites_binary, List.append_nil]
  | .ternary c y n sp, t, .ternary hc hy hn => by
      have hcond : Passes Δ g G
          (lift (Check.checkCondition site .ternaryCondition (some .bool) c.span)) () Γ Γ [] :=
        .lift_eq fun _ _ _ _ => rfl
      refine .of_eq (.annotated (.bind (infer_passes M hg hΓ hc) (.bind hcond
        (.bind (infer_passes M hg hΓ hy) (.bind (infer_passes M hg hΓ hn) (.pure _)))))
        (HasType.ternary hc hy hn).typeIn_eq) ?_
      rw [Expr.sites_ternary, List.append_nil, List.nil_append]
  | .call name args sp, t, .call hname hargs => by
      obtain ⟨types, htypes, haccepted⟩ := hargs.types
      obtain ⟨found, hpass, hfound⟩ := inferAll_passes M hg hΓ htypes
      have hlast : Passes Δ g G (lift (Check.callType site name found sp)) (some t) Γ Γ [] :=
        .lift_eq fun _ _ _ S => Check.callType_typed S M hg hname hfound haccepted
      refine .of_eq (.annotated (.bind hpass hlast) (HasType.call hname hargs).typeIn_eq) ?_
      rw [Expr.sites_call, List.append_nil]

/-- The walk through expressions that have types. -/
theorem inferAll_passes (M : G.Means Δ) (hg : site.globals = g) (hΓ : Γ ≠ []) :
    ∀ {es : List Expr} {types : List Ty}, List.Forall₂ (HasType Δ Γ) es types →
      ∃ found : List (Option Span × Option Ty),
        Passes Δ g G (inferAll site es) found Γ Γ (Expr.sitesAll Γ es) ∧
        found.map (·.2) = types.map some
  | [], _, .nil => ⟨[], .pure _, rfl⟩
  | e :: es, _, .cons (b := t) h hrest => by
      obtain ⟨found, hpass, hfound⟩ := inferAll_passes M hg hΓ hrest
      refine ⟨(e.span, some t) :: found,
        .of_eq (.bind (infer_passes M hg hΓ h) (.bind hpass (.pure _))) ?_, ?_⟩
      · rw [Expr.sitesAll_cons, List.append_nil]
      · rw [List.map_cons, hfound, List.map_cons]

end

/-! ## Statements -/

/-- The sites of a block are itself and then those of its statements. -/
theorem block_sites_eq (b : Block) (inner : Context) :
    b.sites Δ Γ inner = ⟨.block b, Γ⟩ :: Stmt.sitesAll Δ inner b.stmts := by
  cases b
  rfl

theorem checkBody_eq (b : Block) : checkBody site b = checkStmts site b.stmts := by
  cases b
  rfl

end Walk

/-- A statement leaves the outer blocks of the context alone. -/
theorem StmtTyped.eq_cons {Δ : Globals} {ret : Option Ty} {loop : Bool} {block : List Binding}
    {Γ Γ' : Context} {s : Stmt} (h : StmtTyped Δ ret loop (block :: Γ) s Γ') :
    ∃ block', Γ' = block' :: Γ := by
  cases h with
  | declare _ _ _ => exact ⟨_, rfl⟩
  | _ => exact ⟨_, rfl⟩

/-- A context keeps at least one block over a typed statement. -/
theorem StmtTyped.ne_nil {Δ : Globals} {ret : Option Ty} {loop : Bool} {Γ Γ' : Context} {s : Stmt}
    (h : StmtTyped Δ ret loop Γ s Γ') (hΓ : Γ ≠ []) : Γ' ≠ [] := by
  cases Γ with
  | nil => exact absurd rfl hΓ
  | cons block Γ =>
      obtain ⟨block', rfl⟩ := h.eq_cons
      simp

/-- Statements leave the outer blocks of the context alone. -/
theorem StmtsTyped.eq_cons {Δ : Globals} {ret : Option Ty} {loop : Bool} {block : List Binding}
    {Γ Γ' : Context} {ss : List Stmt} (h : StmtsTyped Δ ret loop (block :: Γ) ss Γ') :
    ∃ block', Γ' = block' :: Γ := by
  induction ss generalizing block with
  | nil =>
      cases h
      exact ⟨block, rfl⟩
  | cons s ss ih =>
      cases h with
      | cons hs hss =>
          obtain ⟨block₁, rfl⟩ := hs.eq_cons
          exact ih hss

namespace Walk

open Logged

variable {Δ : Globals} {g : Handle} {G : Symbols} {Γ Γ' : Context} {site : CheckSite}
  {ret : Option Ty} {loop : Bool}

/-- The walk through the statements of a block of its own. -/
theorem Passes.body {b : Block} {r : Bool} (hΓ : Γ ≠ [])
    (htyped : StmtsTyped Δ ret loop ([] :: Γ) b.stmts Γ')
    (hpass : Passes Δ g G (checkStmts site b.stmts) r ([] :: Γ) Γ'
      (Stmt.sitesAll Δ ([] :: Γ) b.stmts)) :
    Passes Δ g G (Walk.inBlock (checkBody site b)) r Γ Γ (Stmt.sitesAll Δ ([] :: Γ) b.stmts) := by
  obtain ⟨block, rfl⟩ := htyped.eq_cons
  rw [checkBody_eq]
  exact .inBlock hΓ hpass

/-- A state that stands in a context with a block has a handle for it. -/
theorem handles_eq_cons {c : Checker} {hs : List Handle} {block : List Binding} {F : List Blocks}
    (S : c.Stands g G hs (block :: Γ) F) : ∃ h hs', hs = h :: hs' := by
  have hlen := S.length
  cases hs with
  | nil => simp at hlen
  | cons h hs => exact ⟨h, hs, rfl⟩

/-- The counter of a loop is declared in the new block of the loop. -/
theorem Passes.counterDeclared (name : String) :
    Passes Δ g G (lift (Check.declareCounter name)) () ([] :: Γ) (Γ.counting name) [] := by
  refine .lift_arena fun c hs F S => ?_
  obtain ⟨h, hs, rfl⟩ := handles_eq_cons S
  exact Check.declareCounter_typed S name

/-- A declaration of a typed value under a fresh name passes, and the context has the variable
afterwards. -/
theorem checkDeclaration_passes (M : G.Means Δ) (hg : site.globals = g) (hΓ : Γ ≠ [])
    {name : String} {e : Expr} {isConst : Bool} {sp : Option Span} {t : Ty} (h : HasType Δ Γ e t)
    (ht : t ≠ .void) (hfresh : Context.Fresh Γ name) :
    Passes Δ g G (checkDeclaration site name e isConst sp) () Γ
      (Context.declare ⟨name, t, isConst⟩ Γ) (e.sites Γ) := by
  cases Γ with
  | nil => exact absurd rfl hΓ
  | cons block Γ =>
      have hlast : Passes Δ g G (lift (Check.declareFound site name e isConst sp (some t))) ()
          (block :: Γ) ((block ++ [⟨name, t, isConst⟩]) :: Γ) [] := by
        refine .lift_arena fun c hs F S => ?_
        obtain ⟨h, hs, rfl⟩ := handles_eq_cons S
        exact Check.declareFound_typed S ht hfresh e isConst
      exact .of_eq (.bind (infer_passes M hg hΓ h) hlast) (List.append_nil _)

/-- The target of an assignment is found in the state before the value is met. -/
theorem Passes.target {α : Type} {a : α} {sites : List Site} (M : G.Means Δ) (hΓ : Γ ≠ [])
    {name : String} {sp : Option Span} {t : Ty} {k : Option Variable → Walk α}
    (h : Context.resolve Δ Γ name = some (t, false))
    (hk : ∀ v : Variable, v.ty = some t → Passes Δ g G (k (some v)) a Γ Γ sites) :
    Passes Δ g G (do
      let s ← lift get
      let target ← lift (Check.orReport site sp .unassignable
        (s.frame.checkAssignable s.arena name))
      k target) a Γ Γ sites := by
  intro c log hs F S
  obtain ⟨v, hv, hty⟩ := Check.checkAssignable_typed site sp S M hΓ h
  obtain ⟨c', vs, heq, hrest⟩ := hk v hty c log hs F S
  refine ⟨c', vs, ?_, hrest⟩
  have hget : (lift get : Walk Checker) (c, log) = (.ok c, (c, log)) := rfl
  have hfound : (lift (Check.orReport site sp .unassignable
      (c.frame.checkAssignable c.arena name)) : Walk (Option Variable)) (c, log) =
        (.ok (some v), (c, log)) := by
    rw [lift_apply, hv]
  rw [Step.bind_ok hget, Step.bind_ok hfound, heq]

/-- An assignment of a typed value that fits its variable passes. -/
theorem checkAssignment_passes (M : G.Means Δ) (hg : site.globals = g) (hΓ : Γ ≠ [])
    {name : String} {op : AssignOp} {e : Expr} {sp : Option Span} {t u : Ty}
    (htarget : Context.resolve Δ Γ name = some (t, false)) (h : HasType Δ Γ e u)
    (hfit : ∀ c, Check.checkAssignedType site name op t u sp c = (.ok (), c)) :
    Passes Δ g G (checkAssignment site name op e sp) () Γ Γ (e.sites Γ) := by
  refine .target M hΓ htarget fun v hv => ?_
  have hlast : Passes Δ g G (lift (Check.assignFound site name op sp v.ty (some u))) () Γ Γ [] :=
    .lift_eq fun c _ _ _ => by rw [hv]; exact hfit c
  exact .of_eq (.bind (infer_passes M hg hΓ h) hlast) (List.append_nil _)

/-- A Boolean condition passes. -/
theorem Passes.condition (place : ConditionPlace) (sp : Option Span) :
    Passes Δ g G (lift (Check.checkCondition site place (some .bool) sp)) () Γ Γ [] :=
  .lift_eq fun _ _ _ _ => rfl

/-- An integer bound passes. -/
theorem Passes.counter (issue : Ty → Issue) (sp : Option Span) :
    Passes Δ g G (lift (Check.checkCounter site issue (some .int) sp)) () Γ Γ [] :=
  .lift_eq fun _ _ _ _ => rfl

-- The induction is on the tree. In each case the walks through the parts are put together in the
-- order of the check, and `Passes.of_eq` says that their sites make up those of the statement.

mutual

/-- The walk through a statement that follows the rules. -/
theorem checkStmt_passes (M : G.Means Δ) : ∀ (s : Stmt) (site : CheckSite) (loop : Bool)
    (Γ Γ' : Context), StmtTyped Δ ret loop Γ s Γ' → Γ ≠ [] → site.globals = g →
      site.function.map (·.2) = ret → site.inLoop = loop →
      ∃ r, Passes Δ g G (checkStmt site s) r Γ Γ' (s.sites Δ Γ) ∧ (r = true ↔ s.Returns)
  | .block (.mk stmts braced bsp) => by
      intro site loop Γ Γ' h hΓ hg hret hloop
      cases h with
      | block h =>
          obtain ⟨r, hpass, hr⟩ := checkStmts_passes M stmts _ _ _ _ h (by simp) hg hret hloop
          refine ⟨r, .of_eq (.bind (.visit _ rfl) (.bind (.visit _ rfl) (.body hΓ h hpass))) rfl, ?_⟩
          rw [hr]
          exact ⟨fun h => .block h, fun | .block h => h⟩
  | .declare name e isConst sp => by
      intro site loop Γ Γ' h hΓ hg hret hloop
      cases h with
      | declare h ht hfresh =>
          exact ⟨false, .of_eq (.bind (.visit _ rfl)
            (.bind (checkDeclaration_passes M hg hΓ h ht hfresh) (.pure _)))
            (by simp [Stmt.sites]), nofun, nofun⟩
  | .assign name op e sp => by
      intro site loop Γ Γ' h hΓ hg hret hloop
      cases h with
      | assign htarget h hop =>
          exact ⟨false, .of_eq (.bind (.visit _ rfl) (.bind (checkAssignment_passes M hg hΓ htarget h
            fun _ => Check.checkAssignedType_set hop) (.pure _)))
            (by simp [Stmt.sites]), nofun, nofun⟩
      | update htarget h hop hfit =>
          exact ⟨false, .of_eq (.bind (.visit _ rfl) (.bind (checkAssignment_passes M hg hΓ htarget h
            fun _ => Check.checkAssignedType_update hop hfit) (.pure _)))
            (by simp [Stmt.sites]), nofun, nofun⟩
  | .call e sp => by
      intro site loop Γ Γ' h hΓ hg hret hloop
      cases h with
      | call h =>
          exact ⟨false, .of_eq (.bind (.visit _ rfl) (.bind (infer_passes M hg hΓ h) (.pure _)))
            (by simp [Stmt.sites]), nofun, nofun⟩
  | .ifThen c (.mk stmts braced bsp) sp => by
      intro site loop Γ Γ' h hΓ hg hret hloop
      cases h with
      | ifThen hc hy =>
          -- whether the body returns is left open, since it need not be executed
          obtain ⟨r, hpass, -⟩ := checkStmts_passes M stmts _ _ _ _ hy (by simp) hg hret hloop
          exact ⟨false, .of_eq (.bind (.visit _ rfl) (.bind (infer_passes M hg hΓ hc)
            (.bind (.condition _ _) (.bind (.visit _ rfl) (.bind (.body hΓ hy hpass) (.pure _))))))
            (by simp [Stmt.sites, Block.sites, Block.stmts]), nofun, nofun⟩
  | .ifThenElse c (.mk stmts₁ braced₁ bsp₁) (.mk stmts₂ braced₂ bsp₂) sp => by
      intro site loop Γ Γ' h hΓ hg hret hloop
      cases h with
      | ifThenElse hc hy hn =>
          obtain ⟨r₁, hpass₁, hr₁⟩ := checkStmts_passes M stmts₁ _ _ _ _ hy (by simp) hg hret hloop
          obtain ⟨r₂, hpass₂, hr₂⟩ := checkStmts_passes M stmts₂ _ _ _ _ hn (by simp) hg hret hloop
          refine ⟨r₁ && r₂, .of_eq (.bind (.visit _ rfl) (.bind (infer_passes M hg hΓ hc)
            (.bind (.condition _ _) (.bind (.visit _ rfl) (.bind (.body hΓ hy hpass₁)
              (.bind (.visit _ rfl) (.bind (.body hΓ hn hpass₂) (.pure _))))))))
            (by simp [Stmt.sites, Block.sites, Block.stmts]), ?_⟩
          rw [Bool.and_eq_true, hr₁, hr₂]
          exact ⟨fun h => .ifThenElse h.1 h.2, fun | .ifThenElse h₁ h₂ => ⟨h₁, h₂⟩⟩
  | .whileDo c (.mk stmts braced bsp) sp => by
      intro site loop Γ Γ' h hΓ hg hret hloop
      cases h with
      | whileDo hc hb =>
          obtain ⟨r, hpass, -⟩ :=
            checkStmts_passes M stmts { site with inLoop := true } _ _ _ hb (by simp) hg hret rfl
          exact ⟨false, .of_eq (.bind (.visit _ rfl) (.bind (infer_passes M hg hΓ hc)
            (.bind (.condition _ _) (.bind (.visit _ rfl) (.bind (.body hΓ hb hpass) (.pure _))))))
            (by simp [Stmt.sites, Block.sites, Block.stmts]), nofun, nofun⟩
  | .doWhile (.mk stmts braced bsp) c sp => by
      intro site loop Γ Γ' h hΓ hg hret hloop
      cases h with
      | doWhile hb hc =>
          obtain ⟨r, hpass, -⟩ :=
            checkStmts_passes M stmts { site with inLoop := true } _ _ _ hb (by simp) hg hret rfl
          exact ⟨false, .of_eq (.bind (.visit _ rfl) (.bind (.visit _ rfl)
            (.bind (.body hΓ hb hpass) (.bind (infer_passes M hg hΓ hc) (.bind (.condition _ _)
              (.pure _)))))) (by simp [Stmt.sites, Block.sites, Block.stmts]), nofun, nofun⟩
  | .forCount counter start bound direction (.mk stmts braced bsp) sp => by
      intro site loop Γ Γ' h hΓ hg hret hloop
      cases h with
      | forCount hstart hbound hb =>
          obtain ⟨block, rfl⟩ := hb.eq_cons
          obtain ⟨r, hpass, -⟩ :=
            checkStmts_passes M stmts { site with inLoop := true } _ _ _ hb (by simp) hg hret rfl
          -- the counter is declared before the bound is checked, but after the start
          exact ⟨false, .of_eq (.bind (.visit _ rfl) (.bind (infer_passes M hg hΓ hstart)
            (.bind (.counter _ _) (.inBlock hΓ (.bind (.counterDeclared _) (.bind (infer_passes M hg
              (List.cons_ne_nil _ _) hbound) (.bind (.counter _ _) (.bind (.visit _ rfl)
                (.bind hpass (.pure _))))))))))
            (by simp [Stmt.sites, Block.sites, Context.counting]), nofun, nofun⟩
  | .ret none sp => by
      intro site loop Γ Γ' h hΓ hg hret hloop
      cases h with
      | retVoid hvoid =>
          -- the rules know the result type only, and the check the name of the function as well
          obtain ⟨⟨name, _⟩, hf, rfl⟩ := Option.map_eq_some_iff.mp (hret.trans hvoid)
          have hlast : Passes Δ g G (lift (Check.checkReturn site none sp)) () Γ Γ [] :=
            .lift_eq fun _ _ _ _ => Check.checkReturn_none hf
          exact ⟨true, .of_eq (.bind (.visit _ rfl) (.bind hlast (.pure _))) rfl,
            fun _ => .ret, fun _ => rfl⟩
  | .ret (some e) sp => by
      intro site loop Γ Γ' h hΓ hg hret hloop
      cases h with
      | ret h ht hty =>
          obtain ⟨⟨name, _⟩, hf, rfl⟩ := Option.map_eq_some_iff.mp (hret.trans hty)
          have hlast : Passes Δ g G (lift (Check.checkReturn site (some (e.span, some _)) sp)) ()
              Γ Γ [] :=
            .lift_eq fun _ _ _ _ => Check.checkReturn_some hf ht e.span
          exact ⟨true, .of_eq (.bind (.visit _ rfl) (.bind (infer_passes M hg hΓ h)
            (.bind hlast (.pure _)))) (by simp [Stmt.sites]), fun _ => .ret, fun _ => rfl⟩
  | .brk sp => by
      intro site loop Γ Γ' h hΓ hg hret hloop
      cases h with
      | brk =>
          have hlast : Passes Δ g G (lift (Check.checkStmt site (.brk sp))) false Γ Γ [] :=
            .lift_eq fun _ _ _ _ => by simp [Check.checkStmt, hloop]
          exact ⟨false, .of_eq (.bind (.visit _ rfl) hlast) rfl, nofun, nofun⟩
  | .cont sp => by
      intro site loop Γ Γ' h hΓ hg hret hloop
      cases h with
      | cont =>
          have hlast : Passes Δ g G (lift (Check.checkStmt site (.cont sp))) false Γ Γ [] :=
            .lift_eq fun _ _ _ _ => by simp [Check.checkStmt, hloop]
          exact ⟨false, .of_eq (.bind (.visit _ rfl) hlast) rfl, nofun, nofun⟩
  | .other kind fields sp => by
      intro site loop Γ Γ' h
      cases h

/-- The walk through statements that follow the rules. -/
theorem checkStmts_passes (M : G.Means Δ) : ∀ (ss : List Stmt) (site : CheckSite) (loop : Bool)
    (Γ Γ' : Context), StmtsTyped Δ ret loop Γ ss Γ' → Γ ≠ [] → site.globals = g →
      site.function.map (·.2) = ret → site.inLoop = loop →
      ∃ r, Passes Δ g G (checkStmts site ss) r Γ Γ' (Stmt.sitesAll Δ Γ ss) ∧
        (r = true ↔ Stmt.SomeReturns ss)
  | [] => by
      intro site loop Γ Γ' h hΓ hg hret hloop
      cases h
      exact ⟨false, .pure _, nofun, nofun⟩
  | s :: ss => by
      intro site loop Γ Γ' h hΓ hg hret hloop
      cases h with
      | cons hs hss =>
          obtain ⟨r₁, hpass₁, hr₁⟩ := checkStmt_passes M s _ _ _ _ hs hΓ hg hret hloop
          obtain ⟨r₂, hpass₂, hr₂⟩ := checkStmts_passes M ss _ _ _ _ hss (hs.ne_nil hΓ) hg hret hloop
          refine ⟨r₁ || r₂, .of_eq (.bind hpass₁ (.bind hpass₂ (.pure _))) ?_, ?_⟩
          · rw [Stmt.sitesAll, hs.after_eq, List.append_nil]
          · rw [Bool.or_eq_true, hr₁, hr₂]
            constructor
            · rintro (h | h)
              · exact .here h
              · exact .later h
            · rintro (h | h)
              · exact Or.inl h
              · exact Or.inr h

end

/-! ## Functions and programs -/

/-- Parameters with distinct new names become variables of the block. -/
theorem declareParams_passes {params : List Parameter} {block : List Binding}
    (hnew : ∀ q ∈ params, ∀ v ∈ block, v.name ≠ q.name) (hnodup : (params.map (·.name)).Nodup) :
    Passes Δ g G (lift (Check.declareParams params)) () [block]
      [block ++ params.map Parameter.binding] [] := by
  refine .lift_arena fun c hs F S => ?_
  induction params generalizing block c with
  | nil => exact ⟨c.arena, rfl, by simpa using S⟩
  | cons q params ih =>
      obtain ⟨h, hs, rfl⟩ := handles_eq_cons S
      rw [List.map_cons, List.nodup_cons] at hnodup
      have hnew' : ∀ q' ∈ params, ∀ v ∈ block ++ [q.binding], v.name ≠ q'.name := by
        intro q' hq' v hv
        rw [List.mem_append, List.mem_singleton] at hv
        rcases hv with hv | rfl
        · exact hnew q' (by simp [hq']) v hv
        · intro hname
          exact hnodup.1 (List.mem_map.mpr ⟨q', hq', hname.symm⟩)
      obtain ⟨a, heq, S'⟩ := Check.declare_typed S q.binding fun v hv => hnew q (by simp) v hv
      obtain ⟨a', heq', S''⟩ := ih hnew' hnodup.2 _ S'
      refine ⟨a', ?_, by simpa using S''⟩
      have hfirst : Check.declare { name := q.name, ty := some q.ty } c =
          (.ok true, { c with arena := a }) := heq
      rw [Check.declareParams, Step.bind_ok hfirst, heq']

/-- The walk through a function that follows the rules. -/
theorem checkFunction_passes (M : G.Means Δ) (hg : site.globals = g) {d : FuncDecl} {f : Function}
    (W : d.WellTyped Δ f) : Passes Δ g G (checkFunction site d) () Γ Γ (d.sites Δ) := by
  subst hg
  let inner : CheckSite := { site with function := some (d.name, f.returns), inLoop := false }
  obtain ⟨Γ', hbody⟩ := W.body
  obtain ⟨r, hpass, hr⟩ :=
    checkStmts_passes M d.body.stmts inner _ _ _ hbody (List.cons_ne_nil _ _) rfl rfl rfl
  have hparams : Passes Δ site.globals G (lift (Check.declareParams f.params)) () [[]]
      [f.params.map Parameter.binding] [] :=
    declareParams_passes (by simp) W.params_nodup
  have hlast : Passes Δ site.globals G (lift (do
      if f.returns ≠ .void && !r then
        Check.report inner d.span (.missingReturn d.name f.returns))) ()
      [f.params.map Parameter.binding] [f.params.map Parameter.binding] [] := by
    refine .lift_eq fun c _ _ _ => ?_
    by_cases hvoid : f.returns = .void
    · simp [hvoid]
    · simp [hr.mpr (W.returns hvoid)]
  have hblock : d.paramBlock = f.params.map Parameter.binding := by
    rw [FuncDecl.paramBlock, W.function]
  unfold checkFunction
  rw [W.function]
  refine .of_eq (.inFrame (.bind hparams (.bind (.visit _ rfl)
    (.bind (.body (List.cons_ne_nil _ _) hbody hpass) hlast)))) ?_
  rw [FuncDecl.sites, block_sites_eq, hblock]
  simp

/-- The walk through items that follow the rules. -/
theorem checkItems_passes (M : G.Means Δ) {items : List Item} {Γ Γ' : Context} (hΓ : Γ ≠ [])
    (hg : site.globals = g) (hret : site.function = none) (hloop : site.inLoop = false)
    (hfunctions : ∀ d, .func d ∈ items → ∃ f, d.WellTyped Δ f)
    (hstmts : StmtsTyped Δ none false Γ
      (items.filterMap fun | .func _ => none | .stmt s => some s) Γ') :
    Passes Δ g G (checkItems site items) () Γ Γ' (Item.sitesAll Δ Γ items) := by
  induction items generalizing Γ with
  | nil =>
      cases hstmts
      exact .pure _
  | cons item items ih =>
      have hfunctions' : ∀ d, .func d ∈ items → ∃ f, d.WellTyped Δ f :=
        fun d hd => hfunctions d (List.mem_cons_of_mem _ hd)
      cases item with
      | func d =>
          obtain ⟨f, W⟩ := hfunctions d List.mem_cons_self
          exact .bind (checkFunction_passes M hg W) (ih hΓ hfunctions' hstmts)
      | stmt s =>
          cases hstmts with
          | cons hs hss =>
              obtain ⟨r, hpass, -⟩ :=
                checkStmt_passes M s site _ _ _ hs hΓ hg (by rw [hret]; rfl) hloop
              refine .bind hpass ?_
              rw [hs.after_eq]
              exact ih (hs.ne_nil hΓ) hfunctions' hss

end Walk

/-- The check of a typed program: it ends well, reports nothing, records the type of every
expression in the context of its site, and shows the context of every site. -/
theorem Program.check_typed {p : Program} {natives : Natives} {g : Handle} {a : Arena} {G : Symbols}
    (H : a.Holds g G []) (M : G.Means (p.globals natives)) (W : p.WellTyped natives) :
    (p.check g a).result = .ok () ∧ (p.check g a).diagnostics = [] ∧
      (p.check g a).types.toList = Site.types (p.globals natives) (p.sites natives) ∧
      (p.check g a).arena.Holds g G [] ∧
      List.Forall₂ (Visit.Shows g G) (p.visits g a) (p.sites natives) := by
  obtain ⟨h, a₁, hopen, -, hnew⟩ := Frame.openIn_eq H
  let site : CheckSite := { filename := p.filename, globals := g }
  let c : Checker := { arena := a₁, frame := ⟨g, [h]⟩, diagnostics := [], types := #[] }
  have S : c.Stands g G [h] [[]] [] := ⟨hnew, rfl, rfl⟩
  obtain ⟨Γ', hstmts⟩ := W.statements
  have hpass : Walk.Passes (p.globals natives) g G (Walk.checkItems site p.items) () [[]] Γ'
      (p.sites natives) :=
    Walk.checkItems_passes M (List.cons_ne_nil _ _) rfl rfl rfl
      (fun d hd => W.functions d (Program.mem_functions.mpr hd)) hstmts
  obtain ⟨c', vs, hwalk, S', hd, ht, hv⟩ := hpass c [] [h] [] S
  have hitems : Check.checkItems site p.items c = (.ok (), c') := by
    have herase := Walk.checkItems_erases site p.items c []
    rw [hwalk] at herase
    exact herase.symm
  obtain ⟨a₂, hcheck, hheld⟩ := Program.check_eq hopen hitems S'.frame_blocks S'.holds
  have hvisits : p.visits g a = vs := by
    unfold Program.visits
    rw [hopen]
    show (Walk.checkItems site p.items (c, [])).2.2 = vs
    rw [hwalk]
    rfl
  rw [hcheck, hvisits]
  exact ⟨rfl, hd, by simpa [c] using ht, hheld, hv⟩

end Pigeon

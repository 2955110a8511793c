import Pigeon.Proofs.Typing.Complete

/-!
# A quiet check follows the rules

Where the check of a plain tree reports nothing, the tree follows the rules. The proof goes
through the parts of the tree in the order of the check. A part that was checked quietly follows
the rules, so the walk through it passes (`Walk.Passes`), and this says in which state the next
part is checked.
-/

namespace Pigeon

namespace Check

open Blocks

variable {α β : Type} {Δ : Globals} {g : Handle} {G : Symbols} {Γ Γ₁ : Context}
  {hs : List Handle} {F : List Blocks} {c : Checker} {site : CheckSite} {sites : List Site}

/-- After a first part that passes, the second part of a quiet sequence is quiet. -/
theorem Quiet.after {x : Walk α} {y : Check α} {a : α} {f : α → Check β}
    (hx : Walk.Passes Δ g G x a Γ Γ₁ sites) (he : Logged.Erases x y) (hy : Grows y)
    (hf : ∀ b, Grows (f b)) (S : c.Stands g G hs Γ F) (h : Quiet (y >>= f) c) :
    ∃ c', c'.Stands g G hs Γ₁ F ∧ Quiet (f a) c' := by
  obtain ⟨c', heq, S', -⟩ := hx.check he S
  exact ⟨c', S', (Quiet.bind hy hf h).2 a c' heq⟩

/-- An expression in front of a quiet sequence, if quiet expressions are typed. -/
theorem Quiet.infer_bind {e : Expr} {f : Option Ty → Check β} (M : G.Means Δ)
    (hg : site.globals = g) (hΓ : Γ ≠ []) (hf : ∀ b, Grows (f b)) (S : c.Stands g G hs Γ F)
    (ih : Quiet (infer site e) c → ∃ t, HasType Δ Γ e t) (h : Quiet (infer site e >>= f) c) :
    ∃ t, HasType Δ Γ e t ∧ ∃ c', c'.Stands g G hs Γ F ∧ Quiet (f (some t)) c' := by
  obtain ⟨t, ht⟩ := ih (Quiet.bind (infer_grows site e) hf h).1
  exact ⟨t, ht, Quiet.after (Walk.infer_passes M hg hΓ ht) (Walk.infer_erases site e)
    (infer_grows site e) hf S h⟩

/-- A new entry among the types changes no scope. -/
theorem stands_reserve (S : c.Stands g G hs Γ F) :
    Checker.Stands { c with types := c.types.push none } g G hs Γ F :=
  S.of_eq rfl rfl

/-- The body of a quiet entry is quiet. -/
theorem Quiet.annotated {x : Check (Option Ty)} (hx : Grows x) (h : Quiet (Check.annotated x) c) :
    Quiet x { c with types := c.types.push none } := by
  have hrest := (Quiet.bind reserve_grows
    (fun _ => .bind hx fun _ => .bind (.of_eq fun _ => rfl) fun _ => .pure _) h).2 _ _ rfl
  exact (Quiet.bind hx (fun _ => .bind (.of_eq fun _ => rfl) fun _ => .pure _) hrest).1

/-- The body of a quiet block is quiet in the state inside the block. -/
theorem Quiet.inBlock {x : Check α} (hx : Grows x) (hΓ : Γ ≠ []) (S : c.Stands g G hs Γ F)
    (h : Quiet (Check.inBlock x) c) :
    ∃ k c', c'.Stands g G (k :: hs) ([] :: Γ) F ∧ Quiet x c' := by
  obtain ⟨k, c', henter, S', -⟩ := enter_typed S hΓ
  have hbody := (Quiet.bind enter_grows (fun _ => .andFinally hx exit_grows) h).2 () c' henter
  exact ⟨k, c', S', Quiet.andFinally hx exit_grows hbody⟩

/-! ## Expressions -/

-- By induction on the tree, from left to right through the parts of an expression. A quiet part has
-- a type, so the walk through it passes, and the next part is quiet in the state that it leaves.

mutual

/-- An expression whose check is quiet has a type. -/
theorem infer_quiet (M : G.Means Δ) (hg : site.globals = g) (hΓ : Γ ≠ []) :
    ∀ (e : Expr) (c : Checker), e.Plain → c.Stands g G hs Γ F → Quiet (infer site e) c →
      ∃ t, HasType Δ Γ e t
  | .int _ _, _, _, _, _ => ⟨_, .int⟩
  | .float _ _, _, _, _, _ => ⟨_, .float⟩
  | .string _ _, _, _, _, _ => ⟨_, .string⟩
  | .bool _ _, _, _, _, _ => ⟨_, .bool⟩
  | .var name sp, c, _, S, hq => by
      have hbody := Quiet.annotated (variableType_grows site name sp) hq
      obtain ⟨t, readOnly, h⟩ := variableType_quiet (stands_reserve S) M hΓ hbody
      exact ⟨t, .var h⟩
  | .paren e _, c, hp, S, hq => by
      have hbody := Quiet.annotated (infer_grows site e) hq
      obtain ⟨t, h⟩ := infer_quiet M hg hΓ e _ hp (stands_reserve S) hbody
      exact ⟨t, .paren h⟩
  | .unary op e sp, c, hp, S, hq => by
      have hlast (r : Option Ty) : Grows (unaryType site op r sp) := unaryType_grows site op r sp
      have hbody := Quiet.annotated (.bind (infer_grows site e) hlast) hq
      have S₀ := stands_reserve S
      obtain ⟨u, he, c₁, S₁, hq₁⟩ :=
        Quiet.infer_bind M hg hΓ hlast S₀ (infer_quiet M hg hΓ e _ hp.2 S₀) hbody
      obtain ⟨t, hop⟩ := unaryType_quiet hp.1 hq₁
      exact ⟨t, .unary he hop⟩
  | .binary op l r sp, c, hp, S, hq => by
      have hlast (u v : Option Ty) : Grows (binaryType site op u v sp) :=
        binaryType_grows site op u v sp
      have hright (u : Option Ty) : Grows (infer site r >>= fun v => binaryType site op u v sp) :=
        .bind (infer_grows site r) fun v => hlast u v
      have hbody := Quiet.annotated (.bind (infer_grows site l) hright) hq
      have S₀ := stands_reserve S
      obtain ⟨u, hl, c₁, S₁, hq₁⟩ :=
        Quiet.infer_bind M hg hΓ hright S₀ (infer_quiet M hg hΓ l _ hp.2.1 S₀) hbody
      obtain ⟨v, hr, c₂, S₂, hq₂⟩ :=
        Quiet.infer_bind M hg hΓ (hlast _) S₁ (infer_quiet M hg hΓ r _ hp.2.2 S₁) hq₁
      obtain ⟨hu, hv, t, hop⟩ := binaryType_quiet hp.1 hq₂
      exact ⟨t, .binary hl hr hu hv hop⟩
  | .ternary cond y n sp, c, hp, S, hq => by
      -- what is still to be done after each part never takes a diagnostic away
      have hno (t : Option Ty) : Grows (infer site n >>= fun u => pure (t.or u)) :=
        .bind (infer_grows site n) fun _ => .pure _
      have hyes : Grows (infer site y >>= fun t => infer site n >>= fun u => pure (t.or u)) :=
        .bind (infer_grows site y) hno
      have hcond (r : Option Ty) :
          Grows (checkCondition site .ternaryCondition r cond.span >>= fun _ =>
            infer site y >>= fun t => infer site n >>= fun u => pure (t.or u)) :=
        .bind (checkCondition_grows _ _ _ _) fun _ => hyes
      have hbody := Quiet.annotated (.bind (infer_grows site cond) hcond) hq
      have S₀ := stands_reserve S
      obtain ⟨b, hc, c₁, S₁, hq₁⟩ :=
        Quiet.infer_bind M hg hΓ hcond S₀ (infer_quiet M hg hΓ cond _ hp.1 S₀) hbody
      obtain rfl := checkCondition_quiet
        (Quiet.bind (checkCondition_grows _ _ _ _) (fun _ => hyes) hq₁).1
      have hq₂ := (Quiet.bind (checkCondition_grows _ _ _ _) (fun _ => hyes) hq₁).2 () c₁ rfl
      obtain ⟨t, hy, c₂, S₂, hq₃⟩ :=
        Quiet.infer_bind M hg hΓ hno S₁ (infer_quiet M hg hΓ y _ hp.2.1 S₁) hq₂
      obtain ⟨u, hn, -⟩ :=
        Quiet.infer_bind M hg hΓ (fun _ => .pure _) S₂ (infer_quiet M hg hΓ n _ hp.2.2 S₂) hq₃
      exact ⟨t, .ternary hc hy hn⟩
  | .call name args sp, c, hp, S, hq => by
      have hlast (found : List (Option Span × Option Ty)) : Grows (callType site name found sp) :=
        callType_grows site name found sp
      have hbody := Quiet.annotated (.bind (inferAll_grows site args) hlast) hq
      have S₀ := stands_reserve S
      -- the arguments are inferred before the function is looked up
      have hargs := (Quiet.bind (inferAll_grows site args) hlast hbody).1
      obtain ⟨types, htypes⟩ := inferAll_quiet M hg hΓ args _ hp S₀ hargs
      obtain ⟨found, hpass, hfound⟩ := Walk.inferAll_passes M hg hΓ htypes
      obtain ⟨c₁, S₁, hq₁⟩ := Quiet.after hpass (Walk.inferAll_erases site args)
        (inferAll_grows site args) hlast S₀ hbody
      obtain ⟨t, params, hname, haccepted⟩ := callType_quiet S₁ M hg hfound hq₁
      exact ⟨t, .call hname (.of_types htypes haccepted)⟩
  | .other _ _ _, _, hp, _, _ => hp.elim

/-- Expressions whose check is quiet have types. -/
theorem inferAll_quiet (M : G.Means Δ) (hg : site.globals = g) (hΓ : Γ ≠ []) :
    ∀ (es : List Expr) (c : Checker), Expr.PlainAll es → c.Stands g G hs Γ F →
      Quiet (inferAll site es) c → ∃ types, List.Forall₂ (HasType Δ Γ) es types
  | [], _, _, _, _ => ⟨[], .nil⟩
  | e :: es, c, hp, S, hq => by
      have hrest (r : Option Ty) :
          Grows (inferAll site es >>= fun more => pure ((e.span, r) :: more)) :=
        .bind (inferAll_grows site es) fun _ => .pure _
      obtain ⟨t, he, c₁, S₁, hq₁⟩ :=
        Quiet.infer_bind M hg hΓ hrest S (infer_quiet M hg hΓ e _ hp.1 S) hq
      obtain ⟨types, htypes⟩ := inferAll_quiet M hg hΓ es _ hp.2 S₁
        (Quiet.bind (inferAll_grows site es) (fun _ => .pure _) hq₁).1
      exact ⟨t :: types, .cons he htypes⟩

end

/-! ## Statements -/

/-- Where the check of a declaration reports nothing, its value is typed and its name fresh. -/
theorem checkDeclaration_quiet (M : G.Means Δ) (hg : site.globals = g) (hΓ : Γ ≠ [])
    (S : c.Stands g G hs Γ F) {name : String} {e : Expr} {isConst : Bool} {sp : Option Span}
    (hp : e.Plain) (hq : Quiet (checkDeclaration site name e isConst sp) c) :
    ∃ t, HasType Δ Γ e t ∧ t ≠ .void ∧ Context.Fresh Γ name := by
  have hlast (found : Option Ty) : Grows (declareFound site name e isConst sp found) :=
    declareFound_grows site name e isConst sp found
  obtain ⟨t, he, c₁, S₁, hq₁⟩ :=
    Quiet.infer_bind M hg hΓ hlast S (infer_quiet M hg hΓ e c hp S) hq
  cases Γ with
  | nil => exact absurd rfl hΓ
  | cons block Γ =>
      obtain ⟨h, hs, rfl⟩ := Walk.handles_eq_cons S₁
      obtain ⟨ht, hfresh⟩ := declareFound_quiet S₁ hq₁
      exact ⟨t, he, ht, hfresh⟩

/-- Where the check of an assignment reports nothing, it follows the rules. -/
theorem checkAssignment_quiet (M : G.Means Δ) (hg : site.globals = g) (hΓ : Γ ≠ [])
    (S : c.Stands g G hs Γ F) {name : String} {op : AssignOp} {e : Expr} {sp : Option Span}
    (hop : op.Plain) (hp : e.Plain) (hq : Quiet (checkAssignment site name op e sp) c)
    {ret : Option Ty} {loop : Bool} : StmtTyped Δ ret loop Γ (.assign name op e sp) Γ := by
  have hlast (target found : Option Ty) : Grows (assignFound site name op sp target found) :=
    assignFound_grows site name op sp target found
  have hvalue (target : Option Variable) : Grows (infer site e >>= fun found =>
      assignFound site name op sp (target.bind (·.ty)) found) :=
    .bind (infer_grows site e) fun found => hlast _ found
  have hq₀ := (Quiet.bind .get (fun s => .bind (orReport_grows site sp .unassignable
    (s.frame.checkAssignable s.arena name)) hvalue) hq).2 c c rfl
  obtain ⟨htarget, hrest⟩ := Quiet.bind (orReport_grows _ _ _ _) hvalue hq₀
  obtain ⟨t, hresolve⟩ := checkAssignable_quiet S M hΓ htarget
  obtain ⟨v, heq, hty⟩ := checkAssignable_typed site sp S M hΓ hresolve
  obtain ⟨u, he, c₁, S₁, hq₁⟩ := Quiet.infer_bind M hg hΓ (fun found => hlast _ found) S
    (infer_quiet M hg hΓ e c hp S) (hrest _ _ heq)
  have hty' : (some v).bind (·.ty) = some t := hty
  rw [hty'] at hq₁
  rcases checkAssignedType_quiet hop hq₁ with ⟨hset, rfl⟩ | ⟨binary, hupdate, hfit⟩
  · exact .assign hresolve he hset
  · exact .update hresolve he hupdate hfit

/-- Where `break` is not reported it stands in a loop. -/
theorem checkStmt_brk_quiet {sp : Option Span} (hq : Quiet (checkStmt site (.brk sp)) c) :
    site.inLoop = true := by
  cases hloop : site.inLoop with
  | true => rfl
  | false =>
      rw [checkStmt, hloop] at hq
      exact absurd hq (not_quiet_report (.pure _))

/-- Where `continue` is not reported it stands in a loop. -/
theorem checkStmt_cont_quiet {sp : Option Span} (hq : Quiet (checkStmt site (.cont sp)) c) :
    site.inLoop = true := by
  cases hloop : site.inLoop with
  | true => rfl
  | false =>
      rw [checkStmt, hloop] at hq
      exact absurd hq (not_quiet_report (.pure _))

/-- A condition in front of a quiet sequence. -/
theorem Quiet.condition_bind {e : Expr} {place : ConditionPlace} {f : Unit → Check β}
    (M : G.Means Δ) (hg : site.globals = g) (hΓ : Γ ≠ []) (hf : ∀ b, Grows (f b))
    (S : c.Stands g G hs Γ F) (hp : e.Plain)
    (h : Quiet (infer site e >>= fun r => checkCondition site place r e.span >>= f) c) :
    HasType Δ Γ e .bool ∧ ∃ c', c'.Stands g G hs Γ F ∧ Quiet (f ()) c' := by
  have hcond (r : Option Ty) : Grows (checkCondition site place r e.span >>= f) :=
    .bind (checkCondition_grows _ _ _ _) hf
  obtain ⟨t, he, c₁, S₁, hq₁⟩ :=
    Quiet.infer_bind M hg hΓ hcond S (infer_quiet M hg hΓ e c hp S) h
  obtain ⟨hfound, hrest⟩ := Quiet.bind (checkCondition_grows _ _ _ _) hf hq₁
  obtain rfl := checkCondition_quiet hfound
  exact ⟨he, c₁, S₁, hrest () c₁ rfl⟩

/-- The start or the bound of a counted loop in front of a quiet sequence. -/
theorem Quiet.counter_bind {e : Expr} {issue : Ty → Issue} {f : Unit → Check β}
    (M : G.Means Δ) (hg : site.globals = g) (hΓ : Γ ≠ []) (hf : ∀ b, Grows (f b))
    (S : c.Stands g G hs Γ F) (hp : e.Plain)
    (h : Quiet (infer site e >>= fun r => checkCounter site issue r e.span >>= f) c) :
    HasType Δ Γ e .int ∧ ∃ c', c'.Stands g G hs Γ F ∧ Quiet (f ()) c' := by
  have hcount (r : Option Ty) : Grows (checkCounter site issue r e.span >>= f) :=
    .bind (checkCounter_grows _ _ _ _) hf
  obtain ⟨t, he, c₁, S₁, hq₁⟩ :=
    Quiet.infer_bind M hg hΓ hcount S (infer_quiet M hg hΓ e c hp S) h
  obtain ⟨hfound, hrest⟩ := Quiet.bind (checkCounter_grows _ _ _ _) hf hq₁
  obtain rfl := checkCounter_quiet hfound
  exact ⟨he, c₁, S₁, hrest () c₁ rfl⟩

/-- A block in front of a quiet sequence, if quiet statements follow the rules. -/
theorem Quiet.body_bind (site : CheckSite) {stmts : List Stmt} {braced : Bool} {bsp : Option Span}
    {f : Bool → Check β} (M : G.Means Δ) (hg : site.globals = g) (hΓ : Γ ≠ [])
    (hf : ∀ b, Grows (f b)) (S : c.Stands g G hs Γ F)
    (ih : ∀ hs c, Checker.Stands c g G hs ([] :: Γ) F → Quiet (checkStmts site stmts) c →
      ∃ Γ', StmtsTyped Δ (site.function.map (·.2)) site.inLoop ([] :: Γ) stmts Γ')
    (h : Quiet (Check.inBlock (checkBody site (.mk stmts braced bsp)) >>= f) c) :
    ∃ Γ', StmtsTyped Δ (site.function.map (·.2)) site.inLoop ([] :: Γ) stmts Γ' ∧
      ∃ r c', (r = true ↔ Stmt.SomeReturns stmts) ∧ c'.Stands g G hs Γ F ∧ Quiet (f r) c' := by
  have hgrows : Grows (checkBody site (.mk stmts braced bsp)) := checkBody_grows site _
  obtain ⟨k, c₁, S₁, hq₁⟩ :=
    Quiet.inBlock hgrows hΓ S (Quiet.bind (inBlock_grows hgrows) hf h).1
  obtain ⟨Γ', htyped⟩ := ih _ c₁ S₁ hq₁
  obtain ⟨r, hpass, hr⟩ :=
    Walk.checkStmts_passes M stmts site _ _ _ htyped (List.cons_ne_nil _ _) hg rfl rfl
  obtain ⟨c₂, S₂, hq₂⟩ := Quiet.after
    (Walk.Passes.body (b := .mk stmts braced bsp) hΓ htyped hpass)
    (Walk.inBlock_erases (Walk.checkBody_erases site _)) (inBlock_grows hgrows) hf S h
  exact ⟨Γ', htyped, r, c₂, hr, S₂, hq₂⟩

-- Again by induction on the tree and through the parts in the order of the check. The context after
-- the statement is found with the proof that it follows the rules.

mutual

/-- A statement whose check is quiet follows the rules. -/
theorem checkStmt_quiet (M : G.Means Δ) : ∀ (s : Stmt) (site : CheckSite) (hs : List Handle)
    (Γ : Context) (c : Checker), s.Plain → Γ ≠ [] → site.globals = g → c.Stands g G hs Γ F →
      Quiet (checkStmt site s) c →
      ∃ Γ', StmtTyped Δ (site.function.map (·.2)) site.inLoop Γ s Γ'
  | .block (.mk stmts braced bsp), site, hs, Γ, c, hp, hΓ, hg, S, hq => by
      obtain ⟨k, c₁, S₁, hq₁⟩ := Quiet.inBlock (checkBody_grows site _) hΓ S hq
      obtain ⟨Γ', htyped⟩ :=
        checkStmts_quiet M stmts site _ _ c₁ hp (List.cons_ne_nil _ _) hg S₁ hq₁
      exact ⟨Γ, .block htyped⟩
  | .declare name e isConst sp, site, hs, Γ, c, hp, hΓ, hg, S, hq => by
      obtain ⟨t, he, ht, hfresh⟩ := checkDeclaration_quiet M hg hΓ S hp
        (Quiet.bind (checkDeclaration_grows _ _ _ _ _) (fun _ => .pure _) hq).1
      exact ⟨_, .declare he ht hfresh⟩
  | .assign name op e sp, site, hs, Γ, c, hp, hΓ, hg, S, hq =>
      ⟨Γ, checkAssignment_quiet M hg hΓ S hp.1 hp.2
        (Quiet.bind (checkAssignment_grows _ _ _ _ _) (fun _ => .pure _) hq).1⟩
  | .call e sp, site, hs, Γ, c, hp, hΓ, hg, S, hq => by
      obtain ⟨t, he⟩ := infer_quiet M hg hΓ e c hp S
        (Quiet.bind (infer_grows site e) (fun _ => .pure _) hq).1
      exact ⟨Γ, .call he⟩
  | .ifThen e (.mk stmts braced bsp) sp, site, hs, Γ, c, hp, hΓ, hg, S, hq => by
      obtain ⟨he, c₁, S₁, hq₁⟩ := Quiet.condition_bind M hg hΓ
        (fun _ => .bind (inBlock_grows (checkBody_grows _ _)) fun _ => .pure _) S hp.1 hq
      obtain ⟨Γ', hy, -⟩ := Quiet.body_bind site M hg hΓ (fun _ => .pure _) S₁
        (fun _ c' => checkStmts_quiet M stmts site _ _ c' hp.2 (List.cons_ne_nil _ _) hg) hq₁
      exact ⟨Γ, .ifThen he hy⟩
  | .ifThenElse e (.mk stmts₁ braced₁ bsp₁) (.mk stmts₂ braced₂ bsp₂) sp, site, hs, Γ, c, hp, hΓ, hg,
      S, hq => by
      have hno (r : Bool) : Grows (Check.inBlock (checkBody site (.mk stmts₂ braced₂ bsp₂)) >>=
          fun r' => pure (r && r')) :=
        .bind (inBlock_grows (checkBody_grows _ _)) fun _ => .pure _
      obtain ⟨he, c₁, S₁, hq₁⟩ := Quiet.condition_bind M hg hΓ
        (fun _ => .bind (inBlock_grows (checkBody_grows _ _)) hno) S hp.1 hq
      obtain ⟨Γ₁, hy, r, c₂, -, S₂, hq₂⟩ := Quiet.body_bind site M hg hΓ hno S₁
        (fun _ c' => checkStmts_quiet M stmts₁ site _ _ c' hp.2.1 (List.cons_ne_nil _ _) hg) hq₁
      obtain ⟨Γ₂, hn, -⟩ := Quiet.body_bind site M hg hΓ (fun _ => .pure _) S₂
        (fun _ c' => checkStmts_quiet M stmts₂ site _ _ c' hp.2.2 (List.cons_ne_nil _ _) hg) hq₂
      exact ⟨Γ, .ifThenElse he hy hn⟩
  | .whileDo e (.mk stmts braced bsp) sp, site, hs, Γ, c, hp, hΓ, hg, S, hq => by
      obtain ⟨he, c₁, S₁, hq₁⟩ := Quiet.condition_bind M hg hΓ
        (fun _ => .bind (inBlock_grows (checkBody_grows _ _)) fun _ => .pure _) S hp.1 hq
      obtain ⟨Γ', hb, -⟩ := Quiet.body_bind { site with inLoop := true } M hg hΓ
        (fun _ => .pure _) S₁
        (fun _ c' => checkStmts_quiet M stmts _ _ _ c' hp.2 (List.cons_ne_nil _ _) hg) hq₁
      exact ⟨Γ, .whileDo he hb⟩
  | .doWhile (.mk stmts braced bsp) e sp, site, hs, Γ, c, hp, hΓ, hg, S, hq => by
      have hcond (_ : Bool) : Grows (infer site e >>= fun r =>
          checkCondition site .doWhileCondition r e.span >>= fun _ => pure false) :=
        .bind (infer_grows site e) fun _ => .bind (checkCondition_grows _ _ _ _) fun _ => .pure _
      obtain ⟨Γ', hb, r, c₁, -, S₁, hq₁⟩ := Quiet.body_bind { site with inLoop := true } M hg
        hΓ hcond S
        (fun _ c' => checkStmts_quiet M stmts _ _ _ c' hp.1 (List.cons_ne_nil _ _) hg) hq
      obtain ⟨he, -⟩ := Quiet.condition_bind M hg hΓ (fun _ => .pure _) S₁ hp.2 hq₁
      exact ⟨Γ, .doWhile hb he⟩
  | .forCount counter start bound direction (.mk stmts braced bsp) sp, site, hs, Γ, c, hp, hΓ, hg, S,
      hq => by
      let inner : CheckSite := { site with inLoop := true }
      -- what is still to be done, from the body outwards to the block of the counter
      have hbody (_ : Unit) :
          Grows (checkBody inner (.mk stmts braced bsp) >>= fun _ => pure false) :=
        .bind (checkBody_grows _ _) fun _ => .pure _
      have hbound (_ : Unit) : Grows (infer site bound >>= fun r =>
          checkCounter site .forBound r bound.span >>= fun _ =>
            checkBody inner (.mk stmts braced bsp) >>= fun _ => pure false) :=
        .bind (infer_grows site bound) fun _ => .bind (checkCounter_grows _ _ _ _) hbody
      have hblock : Grows (declareCounter counter >>= fun _ =>
          infer site bound >>= fun r => checkCounter site .forBound r bound.span >>= fun _ =>
            checkBody inner (.mk stmts braced bsp) >>= fun _ => pure false) :=
        .bind (declareCounter_grows _) hbound
      obtain ⟨hstart, c₁, S₁, hq₁⟩ :=
        Quiet.counter_bind M hg hΓ (fun _ => inBlock_grows hblock) S hp.1 hq
      obtain ⟨k, c₂, S₂, hq₂⟩ := Quiet.inBlock hblock hΓ S₁ hq₁
      obtain ⟨a, heq, S₃⟩ := declareCounter_typed S₂ counter
      have hq₃ := (Quiet.bind (declareCounter_grows _) hbound hq₂).2 () _ heq
      obtain ⟨hb, c₄, S₄, hq₄⟩ :=
        Quiet.counter_bind M hg (List.cons_ne_nil _ _) hbody S₃ hp.2.1 hq₃
      obtain ⟨Γ', hstmts⟩ := checkStmts_quiet M stmts inner _ _ c₄ hp.2.2 (List.cons_ne_nil _ _) hg
        S₄ (Quiet.bind (checkBody_grows _ _) (fun _ => .pure _) hq₄).1
      exact ⟨Γ, .forCount hstart hb hstmts⟩
  | .ret none sp, site, hs, Γ, c, hp, hΓ, hg, S, hq => by
      obtain ⟨name, hf⟩ := checkReturn_none_quiet
        (Quiet.bind (checkReturn_grows _ _ _) (fun _ => .pure _) hq).1
      exact ⟨Γ, .retVoid (by rw [hf]; rfl)⟩
  | .ret (some e) sp, site, hs, Γ, c, hp, hΓ, hg, S, hq => by
      have hlast (r : Option Ty) :
          Grows (checkReturn site (some (e.span, r)) sp >>= fun _ => pure true) :=
        .bind (checkReturn_grows _ _ _) fun _ => .pure _
      obtain ⟨t, he, c₁, S₁, hq₁⟩ :=
        Quiet.infer_bind M hg hΓ hlast S (infer_quiet M hg hΓ e c hp S) hq
      obtain ⟨name, hf, ht⟩ := checkReturn_some_quiet
        (Quiet.bind (checkReturn_grows _ _ _) (fun _ => .pure _) hq₁).1
      exact ⟨Γ, .ret he ht (by rw [hf]; rfl)⟩
  | .brk sp, site, hs, Γ, c, hp, hΓ, hg, S, hq => by
      rw [checkStmt_brk_quiet hq]
      exact ⟨Γ, .brk⟩
  | .cont sp, site, hs, Γ, c, hp, hΓ, hg, S, hq => by
      rw [checkStmt_cont_quiet hq]
      exact ⟨Γ, .cont⟩
  | .other _ _ _, _, _, _, _, hp, _, _, _, _ => hp.elim

/-- Statements whose check is quiet follow the rules. -/
theorem checkStmts_quiet (M : G.Means Δ) : ∀ (ss : List Stmt) (site : CheckSite)
    (hs : List Handle) (Γ : Context) (c : Checker), Stmt.PlainAll ss → Γ ≠ [] →
      site.globals = g → c.Stands g G hs Γ F → Quiet (checkStmts site ss) c →
      ∃ Γ', StmtsTyped Δ (site.function.map (·.2)) site.inLoop Γ ss Γ'
  | [], site, hs, Γ, c, hp, hΓ, hg, S, hq => ⟨Γ, .nil⟩
  | s :: ss, site, hs, Γ, c, hp, hΓ, hg, S, hq => by
      have hrest (r : Bool) : Grows (checkStmts site ss >>= fun r' => pure (r || r')) :=
        .bind (checkStmts_grows site ss) fun _ => .pure _
      obtain ⟨Γ₁, hs₁⟩ := checkStmt_quiet M s site hs Γ c hp.1 hΓ hg S
        (Quiet.bind (checkStmt_grows site s) hrest hq).1
      obtain ⟨r, hpass, -⟩ := Walk.checkStmt_passes M s site _ _ _ hs₁ hΓ hg rfl rfl
      obtain ⟨c₁, S₁, hq₁⟩ := Quiet.after hpass (Walk.checkStmt_erases site s)
        (checkStmt_grows site s) hrest S hq
      obtain ⟨Γ₂, hss⟩ := checkStmts_quiet M ss site hs Γ₁ c₁ hp.2 (hs₁.ne_nil hΓ) hg S₁
        (Quiet.bind (checkStmts_grows site ss) (fun _ => .pure _) hq₁).1
      exact ⟨Γ₂, .cons hs₁ hss⟩

end

/-! ## Functions and programs -/

/-- A function whose parameters are in order and whose check is quiet follows the rules. -/
theorem checkFunction_quiet (M : G.Means Δ) (hg : site.globals = g) (S : c.Stands g G hs Γ F)
    {d : FuncDecl} {f : Function} (hfunction : d.toFunction = .ok f)
    (hnodup : (f.params.map (·.name)).Nodup) (hvoid : ∀ q ∈ f.params, q.ty ≠ .void)
    (hp : d.body.Plain) (hq : Quiet (checkFunction site d) c) : d.WellTyped Δ f := by
  subst hg
  obtain ⟨name, ps, rt, ⟨stmts, braced, bsp⟩, dsp⟩ := d
  let inner : CheckSite := { site with function := some (name, f.returns), inLoop := false }
  have hlast (r : Bool) : Grows (if f.returns ≠ .void && !r then
      report inner dsp (.missingReturn name f.returns) else pure ()) :=
    .ite (.report _ _ _) (.pure _)
  have hbody (_ : Unit) : Grows (Check.inBlock (checkBody inner (.mk stmts braced bsp)) >>= fun r =>
      if f.returns ≠ .void && !r then report inner dsp (.missingReturn name f.returns)
      else pure ()) :=
    .bind (inBlock_grows (checkBody_grows _ _)) hlast
  have hall : Grows (declareParams f.params >>= fun _ =>
      Check.inBlock (checkBody inner (.mk stmts braced bsp)) >>= fun r =>
        if f.returns ≠ .void && !r then report inner dsp (.missingReturn name f.returns)
        else pure ()) :=
    .bind (declareParams_grows _) hbody
  unfold checkFunction at hq
  rw [hfunction] at hq
  -- the state after the new frame was opened
  obtain ⟨h, arena, hopen, -, hnew⟩ := Frame.openIn_eq S.holds
  let c₁ : Checker := { c with frame := ⟨site.globals, [h]⟩, arena := arena }
  have S₁ : c₁.Stands site.globals G [h] [[]] (Context.blocks hs Γ :: F) := ⟨hnew, rfl, rfl⟩
  have hopened : openFrame site.globals c = (.ok c.frame, c₁) := by
    rw [openFrame, Step.modifyGet_apply, hopen]
  have hclean : Grows (do Check.close; modify fun s => { s with frame := c.frame } : Check Unit) :=
    .bind close_grows fun _ => .of_eq fun _ => rfl
  have hq₁ := Quiet.andFinally hall hclean ((Quiet.bind (.of_eq fun _ => rfl) (fun _ =>
    .andFinally hall (.bind close_grows fun _ => .of_eq fun _ => rfl)) hq).2 _ c₁ hopened)
  have hparams : Walk.Passes Δ site.globals G (Logged.lift (declareParams f.params)) () [[]]
      [f.params.map Parameter.binding] [] :=
    Walk.declareParams_passes (by simp) hnodup
  obtain ⟨c₂, S₂, hq₂⟩ :=
    Quiet.after hparams (.lift _) (declareParams_grows _) hbody S₁ hq₁
  obtain ⟨Γ', htyped, r, c₃, hr, -, hq₃⟩ := Quiet.body_bind inner M rfl
    (List.cons_ne_nil _ _) hlast S₂
    (fun _ c' => checkStmts_quiet M stmts inner _ _ c' hp (List.cons_ne_nil _ _) rfl) hq₂
  refine ⟨hfunction, hnodup, hvoid, ⟨Γ', htyped⟩, fun hreturns => hr.mp ?_⟩
  -- a body that need not return would have been reported last
  by_contra hnot
  have hmissing : (decide (f.returns ≠ .void) && !r) = true := by
    rw [Bool.not_eq_true] at hnot
    simp [hreturns, hnot]
  rw [if_pos hmissing] at hq₃
  exact not_quiet_report_only hq₃

/-- Items whose check is quiet follow the rules. -/
theorem checkItems_quiet (M : G.Means Δ) {items : List Item} (hΓ : Γ ≠ [])
    (hg : site.globals = g) (hret : site.function = none) (hloop : site.inLoop = false)
    (hp : ∀ item ∈ items, item.Plain)
    (hparams : ∀ d, .func d ∈ items → ∃ f, d.toFunction = .ok f ∧
      (f.params.map (·.name)).Nodup ∧ ∀ q ∈ f.params, q.ty ≠ .void)
    (S : c.Stands g G hs Γ F) (hq : Quiet (checkItems site items) c) :
    (∀ d, .func d ∈ items → ∃ f, d.WellTyped Δ f) ∧
      ∃ Γ', StmtsTyped Δ none false Γ
        (items.filterMap fun | .func _ => none | .stmt s => some s) Γ' := by
  induction items generalizing Γ c with
  | nil => exact ⟨nofun, Γ, .nil⟩
  | cons item items ih =>
      have hrest : Grows (checkItems site items) := checkItems_grows site items
      have hp' : ∀ item ∈ items, item.Plain := fun item h => hp item (List.mem_cons_of_mem _ h)
      have hparams' : ∀ d, .func d ∈ items → ∃ f, d.toFunction = .ok f ∧
          (f.params.map (·.name)).Nodup ∧ ∀ q ∈ f.params, q.ty ≠ .void :=
        fun d hd => hparams d (List.mem_cons_of_mem _ hd)
      cases item with
      | func d =>
          obtain ⟨f, hfunction, hnodup, hvoid⟩ := hparams d List.mem_cons_self
          have hfirst := (Quiet.bind (checkFunction_grows site d) (fun _ => hrest) hq).1
          have W := checkFunction_quiet M hg S hfunction hnodup hvoid (hp (.func d) (by simp)).2 hfirst
          -- what follows the rules leaves the checker where it is, so the rest starts in its place
          obtain ⟨c₁, S₁, hq₁⟩ := Quiet.after (Walk.checkFunction_passes M hg W)
            (Walk.checkFunction_erases site d) (checkFunction_grows site d) (fun _ => hrest) S hq
          obtain ⟨hfunctions, hstmts⟩ := ih hΓ hp' hparams' S₁ hq₁
          refine ⟨fun d' hd' => ?_, hstmts⟩
          rcases List.mem_cons.mp hd' with hd' | hd'
          · cases hd'
            exact ⟨f, W⟩
          · exact hfunctions d' hd'
      | stmt s =>
          have hfirst := (Quiet.bind (checkStmt_grows site s) (fun _ => hrest) hq).1
          obtain ⟨Γ₁, hs₁⟩ := checkStmt_quiet M s site hs Γ c (hp (.stmt s) (by simp)) hΓ hg S hfirst
          obtain ⟨r, hpass, -⟩ := Walk.checkStmt_passes M s site _ _ _ hs₁ hΓ hg rfl rfl
          obtain ⟨c₁, S₁, hq₁⟩ := Quiet.after hpass (Walk.checkStmt_erases site s)
            (checkStmt_grows site s) (fun _ => hrest) S hq
          obtain ⟨hfunctions, Γ', hss⟩ := ih (hs₁.ne_nil hΓ) hp' hparams' S₁ hq₁
          rw [hret, hloop] at hs₁
          exact ⟨fun d hd => hfunctions d ((List.mem_cons.mp hd).resolve_left nofun), Γ',
            .cons hs₁ hss⟩

end Check

/-- A plain program with parameters in order whose check reports nothing follows the rules. -/
theorem Program.check_quiet {p : Program} {g : Handle} {a : Arena} {G : Symbols} {Δ : Globals}
    (H : a.Holds g G []) (M : G.Means Δ) (hp : p.Plain)
    (hparams : ∀ d ∈ p.functions, ∃ f, d.toFunction = .ok f ∧ (f.params.map (·.name)).Nodup ∧
      ∀ q ∈ f.params, q.ty ≠ .void)
    (hq : (p.check g a).diagnostics = []) :
    (∀ d ∈ p.functions, ∃ f, d.WellTyped Δ f) ∧
      ∃ Γ', StmtsTyped Δ none false [[]] p.statements Γ' := by
  obtain ⟨h, a₁, hopen, -, hnew⟩ := Frame.openIn_eq H
  let site : CheckSite := { filename := p.filename, globals := g }
  let c : Checker := { arena := a₁, frame := ⟨g, [h]⟩, diagnostics := [], types := #[] }
  have S : c.Stands g G [h] [[]] [] := ⟨hnew, rfl, rfl⟩
  have hdiag : (p.check g a).diagnostics =
      (Check.andFinally (Check.checkItems site p.items) Check.close c).2.diagnostics := by
    unfold Program.check
    rw [hopen]
    rfl
  rw [hdiag] at hq
  have hitems : Check.Quiet (Check.checkItems site p.items) c :=
    Check.Quiet.andFinally (Check.checkItems_grows site p.items) Check.close_grows hq
  obtain ⟨hfunctions, hstmts⟩ := Check.checkItems_quiet M (List.cons_ne_nil _ _) rfl rfl rfl hp
    (fun d hd => hparams d (Program.mem_functions.mpr hd)) S hitems
  exact ⟨fun d hd => hfunctions d (Program.mem_functions.mp hd), hstmts⟩

end Pigeon

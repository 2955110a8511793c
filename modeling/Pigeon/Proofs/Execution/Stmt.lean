import Pigeon.Proofs.Execution.Expr

/-!
# Typed statements are safe

A statement that may stand in the context where the machine stands is executed safely. Where it
finishes normally the machine stands in the context that the rules give for the next statement,
and not every path through the statement returns. A `break` or `continue` reaches no further than
the loop around it, and in a strict setting a `return` carries a value of the result type.
-/

namespace Pigeon

open Blocks

variable {w : Setting} {Γ : Context}

/-- How statements may finish in a function with the result type `ret`, inside a loop or not. -/
def Setting.Ends (w : Setting) (ret : Option Ty) (loop : Bool) : Completion → Prop
  | .normal => True
  | .brk => loop = true
  | .cont => loop = true
  | .ret v => ∃ t, ret = some t ∧ (w.strict = true → v.ty = t)

/-- A loop finishes normally or with a `return`. -/
theorem Setting.Ends.of_loop {ret : Option Ty} {loop : Bool} {c : Completion}
    (h : w.Ends ret false c) : w.Ends ret loop c := by
  cases c with
  | normal => trivial
  | brk => cases h
  | cont => cases h
  | ret v => exact h

/-- What follows a round whose body has finished as the rules allow. -/
theorem Setting.Ends.afterRound {σ : Type} {ret : Option Ty} {c : Completion} (next : σ)
    (h : w.Ends ret true c) :
    (∃ c', Run.afterRound next c = .inl c' ∧ w.Ends ret false c') ∨
      Run.afterRound next c = .inr next := by
  cases c with
  | normal => exact .inr rfl
  | brk => exact .inl ⟨.normal, rfl, trivial⟩
  | cont => exact .inr rfl
  | ret v => exact .inl ⟨.ret v, rfl, h⟩

namespace Setting.Runs

variable {α : Type} {x : Trace α} {Q : α → Context → Prop}

/-- A run always has a block. -/
theorem of_ne_nil (h : Γ ≠ [] → w.Runs Γ x Q) : w.Runs Γ x Q :=
  fun F s I => h I.ne_nil F s I

/-- A statement whose work is safe is executed safely. -/
theorem executed {k : Nat} {s : Stmt} {x : Trace Completion} {Q : Completion → Context → Prop}
    (hk : w.sites[k]? = some ⟨.stmt s, Γ⟩) (h : w.Runs Γ x Q) :
    w.Runs Γ (Trace.executed k s x) Q := by
  refine .observe_bind hk (.bind h ?_)
  intro c Γ' hc
  exact .observe_bind ⟨Γ, hk⟩ (.pure hc)

/-- A new variable in the innermost block. -/
theorem declare (v : Binding) (t : Option Ty) (value : Value) (hfresh : Context.Fresh Γ v.name)
    (htags : w.strict = true → t = some v.ty ∧ value.ty = v.ty) :
    w.Runs Γ (Logged.lift (Run.declare ⟨v.name, t, v.readOnly, some value⟩))
      fun _ Γ' => Γ' = Context.declare v Γ := by
  refine .lift_ok fun m G f F hΓ S => ?_
  obtain ⟨m', f', heq, S'⟩ := Run.declare_eq S hΓ hfresh htags
  obtain ⟨block, outer, rfl⟩ := List.exists_cons_of_ne_nil hΓ
  exact ⟨(), m', Context.declare v (block :: outer), G, f', heq, rfl, List.cons_ne_nil _ _, rfl, S'⟩

/-- A new value for a variable that is not read-only. -/
theorem assign {name : String} {t : Ty} {value : Value}
    (h : Context.resolve w.globals Γ name = some (t, false))
    (hvalue : w.strict = true → value.ty = t) :
    w.Runs Γ (Logged.lift (Run.assign name value)) fun _ Γ' => Γ' = Γ ∧ True := by
  refine .lift_ok fun m G f F hΓ S => ?_
  obtain ⟨m', G', f', heq, S'⟩ := Run.assign_eq S hΓ h hvalue
  exact ⟨(), m', Γ, G', f', heq, rfl, hΓ, ⟨rfl, trivial⟩, S'⟩

/-- The innermost block is closed and a new one opened in its place. -/
theorem reopen {block : List Binding} (hΓ : Γ ≠ []) (h : w.Runs ([] :: Γ) x Q) :
    w.Runs (block :: Γ) (do
      Logged.lift Run.exit
      Logged.lift Run.enter
      x) Q := by
  rintro F ⟨m, log⟩ I
  obtain ⟨G, f, S⟩ := I.stands
  obtain ⟨b, rest, rfl⟩ := List.exists_cons_of_ne_nil (Run.ne_nil_of_fits S.fits I.ne_nil)
  obtain ⟨m₁, hexit, -, S₁⟩ := Run.exit_eq S hΓ
  obtain ⟨m₂, k, henter, S₂⟩ := Run.enter_eq S₁ hΓ
  have hexit' : (Logged.lift Run.exit : Trace Unit) (m, log) = (.ok (), (m₁, log)) := by
    rw [Logged.lift_apply, hexit]
  have henter' : (Logged.lift Run.enter : Trace Unit) (m₁, log) = (.ok (), (m₂, log)) := by
    rw [Logged.lift_apply, henter]
  exact .bind_ok hexit' (.bind_ok henter'
    (h F (m₂, log) ⟨List.cons_ne_nil _ _, ⟨G, _, S₂⟩, I.good⟩))

/-! ## Loops -/

variable {ret : Option Ty} {test : Trace Bool} {body : Trace Completion}

/-- A round of a loop ends the loop, or leaves the context for the next one. -/
theorem whileRound (htest : w.Runs Γ test fun _ Γ' => Γ' = Γ ∧ True)
    (hbody : w.Runs Γ body fun c Γ' => Γ' = Γ ∧ w.Ends ret true c) :
    w.Runs Γ (Trace.whileRound test body ())
      (AfterRound (fun c Γ' => Γ' = Γ ∧ w.Ends ret false c) fun _ Γ' => Γ' = Γ) := by
  refine .keep_bind htest fun b _ => ?_
  cases b with
  | false => exact .pure ⟨rfl, trivial⟩
  | true =>
      refine .keep_bind hbody fun c hc => ?_
      rcases hc.afterRound () with ⟨c', heq, hc'⟩ | heq
      · rw [heq]
        exact .pure ⟨rfl, hc'⟩
      · rw [heq]
        exact .pure rfl

/-- The same of a loop that tests after its body. -/
theorem doRound (hbody : w.Runs Γ body fun c Γ' => Γ' = Γ ∧ w.Ends ret true c)
    (htest : w.Runs Γ test fun _ Γ' => Γ' = Γ ∧ True) :
    w.Runs Γ (Trace.doRound body test ())
      (AfterRound (fun c Γ' => Γ' = Γ ∧ w.Ends ret false c) fun _ Γ' => Γ' = Γ) := by
  refine .keep_bind hbody fun c hc => ?_
  rcases hc.afterRound () with ⟨c', heq, hc'⟩ | heq
  · rw [heq]
    exact .pure ⟨rfl, hc'⟩
  · rw [heq]
    refine .keep_bind htest fun b _ => ?_
    cases b with
    | false => exact .pure ⟨rfl, trivial⟩
    | true => exact .pure rfl

/-- One round of a counted loop begins and ends with an empty block. -/
theorem countRound {counter : String} {direction : Direction} {bound : Trace Int64} {n : Int64}
    (hbound : w.Runs (Γ.counting counter) bound fun _ Γ' => Γ' = Γ.counting counter ∧ True)
    (hbody : w.Runs (Γ.counting counter) body fun c _ => w.Ends ret true c) (hΓ : Γ ≠ []) :
    w.Runs ([] :: Γ) (Trace.countRound counter direction bound body n)
      (AfterRound (fun c _ => w.Ends ret false c) fun _ Γ' => Γ' = [] :: Γ) := by
  have hdeclare : w.Runs ([] :: Γ) (Logged.lift (Run.declare
      { name := counter, ty := some .int, value := some (.int n) }))
      fun _ Γ' => Γ' = Γ.counting counter :=
    declare ⟨counter, .int, false⟩ _ _ (fun v hv => nomatch hv) fun _ => ⟨rfl, rfl⟩
  refine .bind hdeclare ?_
  rintro _ _ rfl
  refine .keep_bind hbound fun last _ => ?_
  split
  · exact .pure trivial
  · -- the body may end in any context whose outer blocks are those of `Γ`
    refine .bind_tail hbody fun c Γ' htail hc => .of_ne_nil fun hne => ?_
    obtain ⟨block, outer, rfl⟩ := List.exists_cons_of_ne_nil hne
    obtain rfl : outer = Γ := htail
    rcases hc.afterRound (n + direction.step) with ⟨c', heq, hc'⟩ | heq
    · rw [heq]
      exact .pure hc'
    · rw [heq]
      exact .reopen hΓ (.pure (Eq.refl ([] :: outer)))

end Setting.Runs

/-! ## Statements -/

/-- A statement that leaves the context `Γ₁` has finished: normally only in that context, and not if
every path through it returns. -/
def Setting.Finishes (w : Setting) (ret : Option Ty) (loop : Bool) (Γ₁ : Context) (returns : Prop)
    (c : Completion) (Γ' : Context) : Prop :=
  w.Ends ret loop c ∧ (c = .normal → Γ' = Γ₁ ∧ ¬ returns)

/-- A loop has finished, after which the context is as before. -/
theorem Setting.Runs.loop {ret : Option Ty} {loop : Bool} {returns : Prop} {x : Trace Completion}
    (h : w.Runs Γ x fun c Γ' => Γ' = Γ ∧ w.Ends ret false c) (hreturns : ¬ returns) :
    w.Runs Γ x (w.Finishes ret loop Γ returns) :=
  h.mono fun _ _ hc => ⟨hc.2.of_loop, fun _ => ⟨hc.1, hreturns⟩⟩

namespace Trace

variable {site : RunSite} {call : Caller} {ret : Option Ty}

/-- A condition of the type `bool` is evaluated safely. -/
theorem evalBool_runs (hw : w.Even) (hcall : w.Calls call) {e : Expr} {k : Nat}
    (h : HasType w.globals Γ e .bool) (hk : Listed w.sites k (e.sites Γ)) :
    w.Runs Γ (evalBool site call k e) fun _ Γ' => Γ' = Γ ∧ True :=
  .keep_bind (eval_gives hw hcall e .bool k h hk) fun _ hv => .expectBool hv e.span

/-- A bound of the type `int` is evaluated safely. -/
theorem evalInt_runs (hw : w.Even) (hcall : w.Calls call) {e : Expr} {k : Nat}
    (h : HasType w.globals Γ e .int) (hk : Listed w.sites k (e.sites Γ)) :
    w.Runs Γ (evalInt site call k e) fun _ Γ' => Γ' = Γ ∧ True :=
  .keep_bind (eval_gives hw hcall e .int k h hk) fun _ hv => .expectInt hv e.span

/-- An assignment that the rules allow. -/
theorem execAssign_runs (hw : w.Even) (hcall : w.Calls call) {name : String} {op : AssignOp}
    {e : Expr} {sp : Option Span} {k : Nat} {loop : Bool} {Γ' : Context}
    (h : StmtTyped w.globals ret loop Γ (.assign name op e sp) Γ')
    (hk : Listed w.sites k (⟨.stmt (.assign name op e sp), Γ⟩ :: e.sites Γ)) :
    w.Runs Γ (execAssign site call k name op e sp) fun _ Γ' => Γ' = Γ ∧ True := by
  unfold execAssign
  cases h with
  | assign hname he hop =>
      refine .keep_bind (eval_gives hw hcall e _ _ he hk.tail) fun v hv => ?_
      refine .observe_bind ⟨_, _, _, hk.head, rfl, hname⟩ ?_
      rw [hop]
      exact .assign hname hv
  | update hname he hop hresult =>
      refine .keep_bind (eval_gives hw hcall e _ _ he hk.tail) fun v hv => ?_
      refine .observe_bind ⟨_, _, _, hk.head, rfl, hname⟩ ?_
      rw [hop]
      refine .keep_bind (.lookup hname) fun old hold => ?_
      refine .keep_bind (Setting.Gives.binary hresult hold hv sp) fun new hnew => ?_
      exact .assign hname hnew

mutual

-- The induction is on the tree. The context is the invariant: a statement that finishes normally
-- leaves the frame with the blocks of the context `Γ₁` that the rules have after it, and one that is
-- left in another way need not say anything, for the blocks around it are closed by then.

/-- A statement that follows the rules is executed safely. -/
theorem exec_runs (hw : w.Even) (hcall : w.Calls call) :
    ∀ (s : Stmt) (loop : Bool) (Γ Γ₁ : Context) (k : Nat), StmtTyped w.globals ret loop Γ s Γ₁ →
      Listed w.sites k (s.sites w.globals Γ) →
      w.Runs Γ (exec site call k s) (w.Finishes ret loop Γ₁ s.Returns)
  | .block b, loop, Γ, Γ₁, k, h, hk => by
      rw [Stmt.sites] at hk
      cases h with
      | block hb =>
          refine .executed hk.head ((execBlock_runs hw hcall b loop Γ _ _ hb hk.tail).mono ?_)
          rintro c Γ' ⟨hΓ', hends, hreturns⟩
          refine ⟨hends, fun hc => ⟨hΓ', ?_⟩⟩
          rintro ⟨⟩
          exact hreturns hc ‹_›
  | .declare name e isConst sp, loop, Γ, Γ₁, k, h, hk => by
      rw [Stmt.sites] at hk
      cases h with
      | @declare _ _ _ _ _ _ t he _ hfresh =>
          refine .executed hk.head
            (.keep_bind (eval_gives hw hcall e _ _ he hk.tail) fun v hv => ?_)
          have hdeclare := Setting.Runs.declare (w := w) ⟨name, t, isConst⟩ (some v.ty) v hfresh
            fun hs => ⟨by rw [hv hs], hv hs⟩
          refine .bind hdeclare ?_
          rintro _ _ rfl
          exact .pure ⟨trivial, fun _ => ⟨rfl, nofun⟩⟩
  | .assign name op e sp, loop, Γ, Γ₁, k, h, hk => by
      rw [Stmt.sites] at hk
      have hafter := h.after_eq
      refine .executed hk.head (.keep_bind (execAssign_runs hw hcall h hk) fun _ _ => ?_)
      exact .pure ⟨trivial, fun _ => ⟨hafter, nofun⟩⟩
  | .call e sp, loop, Γ, Γ₁, k, h, hk => by
      rw [Stmt.sites] at hk
      cases h with
      | call he =>
          refine .executed hk.head (.keep_bind (eval_gives hw hcall e _ _ he hk.tail) fun _ _ => ?_)
          exact .pure ⟨trivial, fun _ => ⟨rfl, nofun⟩⟩
  | .ifThen c y sp, loop, Γ, Γ₁, k, h, hk => by
      rw [Stmt.sites] at hk
      have hy' := hk.tail.after_expr
      cases h with
      | ifThen hc hy =>
          refine .executed hk.head
            (.keep_bind (evalBool_runs hw hcall hc hk.tail.left) fun b _ => ?_)
          cases b with
          | false => exact .pure ⟨trivial, fun _ => ⟨rfl, nofun⟩⟩
          | true =>
              refine (execBlock_runs hw hcall y loop Γ _ _ hy hy').mono ?_
              rintro c Γ' ⟨hΓ', hends, -⟩
              exact ⟨hends, fun _ => ⟨hΓ', nofun⟩⟩
  | .ifThenElse c y n sp, loop, Γ, Γ₁, k, h, hk => by
      rw [Stmt.sites] at hk
      have hy' := hk.tail.after_expr
      have hn' := hy'.after_block
      cases h with
      | ifThenElse hc hy hn =>
          refine .executed hk.head
            (.keep_bind (evalBool_runs hw hcall hc hk.tail.left) fun b _ => ?_)
          -- it returns only if both branches do, so the branch taken says that it does not
          cases b with
          | false =>
              refine (execBlock_runs hw hcall n loop Γ _ _ hn hn').mono ?_
              rintro c Γ' ⟨hΓ', hends, hreturns⟩
              refine ⟨hends, fun hc => ⟨hΓ', ?_⟩⟩
              rintro ⟨⟩
              exact hreturns hc ‹_›
          | true =>
              refine (execBlock_runs hw hcall y loop Γ _ _ hy hy'.left).mono ?_
              rintro c Γ' ⟨hΓ', hends, hreturns⟩
              refine ⟨hends, fun hc => ⟨hΓ', ?_⟩⟩
              rintro ⟨⟩
              exact hreturns hc ‹_›
  | .whileDo c b sp, loop, Γ, Γ₁, k, h, hk => by
      rw [Stmt.sites] at hk
      have hb' := hk.tail.after_expr
      cases h with
      | whileDo hc hb =>
          have hbody : w.Runs Γ (execBlock site call _ b) fun c Γ' => Γ' = Γ ∧ w.Ends ret true c :=
            (execBlock_runs hw hcall b true Γ _ _ hb hb').mono fun _ _ hc => ⟨hc.1, hc.2.1⟩
          -- every round begins and ends in the context of the loop
          refine .executed hk.head (.loop ?_ nofun)
          refine .iterate (P := fun _ Γ' => Γ' = Γ) ?_ site.rounds () Γ rfl
          rintro ⟨⟩ _ rfl
          exact .whileRound (evalBool_runs hw hcall hc hk.tail.left) hbody
  | .doWhile b c sp, loop, Γ, Γ₁, k, h, hk => by
      rw [Stmt.sites] at hk
      have hc' := hk.tail.after_block
      cases h with
      | doWhile hb hc =>
          have hbody : w.Runs Γ (execBlock site call _ b) fun c Γ' => Γ' = Γ ∧ w.Ends ret true c :=
            (execBlock_runs hw hcall b true Γ _ _ hb hk.tail.left).mono fun _ _ hc => ⟨hc.1, hc.2.1⟩
          refine .executed hk.head (.loop ?_ nofun)
          refine .iterate (P := fun _ Γ' => Γ' = Γ) ?_ site.rounds () Γ rfl
          rintro ⟨⟩ _ rfl
          exact .doRound hbody (evalBool_runs hw hcall hc hc')
  | .forCount counter start bound direction b sp, loop, Γ, Γ₁, k, h, hk => by
      rw [Stmt.sites] at hk
      have hbound' := hk.tail.after_expr
      have hb' := hbound'.after_expr
      cases h with
      | forCount hstart hbound hb =>
          -- the counter is declared anew in each round, so the rounds begin in an empty block, and
          -- the body, which has no block of its own, may leave any binding in it
          have hbody := (execBody_runs hw hcall b true _ _ _ hb hb').mono fun _ _ hc => hc.1
          refine .of_ne_nil fun hΓ => .executed hk.head
            (.keep_bind (evalInt_runs hw hcall hstart hk.tail.left) fun first _ => ?_)
          refine .loop
            ((Setting.Runs.inBlock (Q := fun c _ => w.Ends ret false c) ?_).mono ?_) nofun
          · refine .iterate (P := fun _ Γ' => Γ' = [] :: Γ) ?_ site.rounds first _ rfl
            rintro n _ rfl
            exact .countRound (evalInt_runs hw hcall hbound hbound'.left) hbody hΓ
          · rintro c Γ' ⟨hΓ', -, hends⟩
            exact ⟨hΓ', hends⟩
  | .ret none sp, loop, Γ, Γ₁, k, h, hk => by
      rw [Stmt.sites] at hk
      cases h with
      | retVoid hret => exact .executed hk.head (.pure ⟨⟨.void, hret, fun _ => rfl⟩, nofun⟩)
  | .ret (some e) sp, loop, Γ, Γ₁, k, h, hk => by
      rw [Stmt.sites] at hk
      cases h with
      | ret he _ hret =>
          refine .executed hk.head
            (.keep_bind (eval_gives hw hcall e _ _ he hk.tail) fun v hv => ?_)
          exact .pure ⟨⟨_, hret, hv⟩, nofun⟩
  | .brk sp, loop, Γ, Γ₁, k, h, hk => by
      rw [Stmt.sites] at hk
      cases h
      exact .executed hk.head (.pure ⟨rfl, nofun⟩)
  | .cont sp, loop, Γ, Γ₁, k, h, hk => by
      rw [Stmt.sites] at hk
      cases h
      exact .executed hk.head (.pure ⟨rfl, nofun⟩)
  | .other _ _ _, loop, Γ, Γ₁, k, h, hk => by cases h

/-- A block that follows the rules is executed safely in a scope of its own. -/
theorem execBlock_runs (hw : w.Even) (hcall : w.Calls call) :
    ∀ (b : Block) (loop : Bool) (Γ Γ₁ : Context) (k : Nat),
      StmtsTyped w.globals ret loop ([] :: Γ) b.stmts Γ₁ →
      Listed w.sites k (b.sites w.globals Γ ([] :: Γ)) →
      w.Runs Γ (execBlock site call k b) fun c Γ' =>
        Γ' = Γ ∧ w.Ends ret loop c ∧ (c = .normal → ¬ Stmt.SomeReturns b.stmts)
  | .mk stmts _ _, loop, Γ, Γ₁, k, h, hk => by
      rw [Block.sites] at hk
      refine .observe_bind hk.head
        ((Setting.Runs.inBlock (execStmts_runs hw hcall stmts loop _ _ _ h hk.tail)).mono ?_)
      rintro c Γ' ⟨hΓ', Γ'', hends, hnormal⟩
      exact ⟨hΓ', hends, fun hc => (hnormal hc).2⟩

/-- A block that follows the rules is executed safely in the scope that is open. -/
theorem execBody_runs (hw : w.Even) (hcall : w.Calls call) :
    ∀ (b : Block) (loop : Bool) (Γ Γ₁ : Context) (k : Nat),
      StmtsTyped w.globals ret loop Γ b.stmts Γ₁ → Listed w.sites k (b.sites w.globals Γ Γ) →
      w.Runs Γ (execBody site call k b) (w.Finishes ret loop Γ₁ (Stmt.SomeReturns b.stmts))
  | .mk stmts _ _, loop, Γ, Γ₁, k, h, hk => by
      rw [Block.sites] at hk
      exact .observe_bind hk.head (execStmts_runs hw hcall stmts loop _ _ _ h hk.tail)

/-- Statements that follow the rules are executed safely. -/
theorem execStmts_runs (hw : w.Even) (hcall : w.Calls call) :
    ∀ (ss : List Stmt) (loop : Bool) (Γ Γ₁ : Context) (k : Nat),
      StmtsTyped w.globals ret loop Γ ss Γ₁ →
      Listed w.sites k (Stmt.sitesAll w.globals Γ ss) →
      w.Runs Γ (execStmts site call k ss) (w.Finishes ret loop Γ₁ (Stmt.SomeReturns ss))
  | [], loop, Γ, Γ₁, k, h, hk => by
      cases h
      exact .pure ⟨trivial, fun _ => ⟨rfl, nofun⟩⟩
  | s :: ss, loop, Γ, Γ₁, k, h, hk => by
      rw [Stmt.sitesAll] at hk
      have hrest := hk.after_stmt
      cases h with
      | cons hs hss =>
          rw [hs.after_eq] at hrest
          refine .bind (exec_runs hw hcall s loop Γ _ k hs hk.left) ?_
          rintro c Γ' ⟨hends, hnormal⟩
          cases c with
          | normal =>
              -- only then the other statements are executed, in the context that is left
              obtain ⟨rfl, hreturns⟩ := hnormal rfl
              refine (execStmts_runs hw hcall ss loop _ Γ₁ _ hss hrest).mono ?_
              rintro c Γ'' ⟨hends', hnormal'⟩
              refine ⟨hends', fun hc => ⟨(hnormal' hc).1, ?_⟩⟩
              rintro (h | h)
              · exact hreturns h
              · exact (hnormal' hc).2 h
          | brk => exact .pure ⟨hends, nofun⟩
          | cont => exact .pure ⟨hends, nofun⟩
          | ret v => exact .pure ⟨hends, nofun⟩

end

end Trace

end Pigeon

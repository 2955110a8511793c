import Pigeon.Proofs.Execution.Lockstep

/-!
# Runs under two limits

A limit on the depth of calls or on the rounds of a loop can only cut a run short. Of two machines
that start alike, one with smaller limits, the first one either does all that the second one does, or
it stops at a failure that tells so. Nothing on the way out of the open blocks and calls hides that
failure, and what the second machine does after that moment only adds to what its host has seen.

`Run.Cuts cut seen base d x x'` says this of a step `x` and the same step `x'` with larger limits. The
failures that tell of a limit are those of `cut`, and `seen` is what a host has seen.
-/

namespace Pigeon

/-- The hosts are equal, and have seen what `start` has seen and maybe more. -/
def Host.Since (seen : Host → List Char) (start host host' : Host) : Prop :=
  host = host' ∧ seen start <+: seen host

/-- The functions of the environment only add to what a host has seen. -/
def Environment.Additive (seen : Host → List Char) (base : Environment) : Prop :=
  ∀ name f, base name = some (.func f) → ∀ start, f.Regular (Host.Since seen start)

/-- The step ends as the other one does, unless it is cut off. Either way the scopes of both are in
order afterwards. -/
structure Run.Cuts {α : Type} (cut : Failure → Prop) (seen : Host → List Char) (base : Environment)
    (d : Nat) (x x' : Run α) : Prop where
  left : ∀ start, Lockstep (Host.Since seen start) base d x
  right : ∀ start, Lockstep (Host.Since seen start) base d x'
  agrees : ∀ ⦃m n⦄, m.Shows n → n.globals.Revalues base → d ≤ m.depth →
    x' m = x m ∨ ∃ e t, x m = (.error e, t) ∧ cut e ∧ seen t.host <+: seen (x' m).2.host

variable {cut : Failure → Prop} {seen : Host → List Char} {base : Environment} {d : Nat}
  {α β σ : Type}

namespace Run

namespace Cuts

/-- A step that no limit touches. -/
theorem same {x : Run α} (h : ∀ start, Lockstep (Host.Since seen start) base d x) :
    Cuts cut seen base d x x :=
  ⟨h, h, fun _ _ _ _ _ => .inl rfl⟩

/-- A step that gives a value is not cut off. -/
theorem pure (a : α) : Cuts cut seen base d (pure a) (pure a) := same fun _ => .pure a

theorem throw (e : Failure) : Cuts cut seen base d (throw e : Run α) (throw e) :=
  same fun _ => .throw e

/-- A step compared from a number of blocks is compared from more. -/
theorem mono {x x' : Run α} (h : Cuts cut seen base d x x') {d' : Nat} (hd : d ≤ d') :
    Cuts cut seen base d' x x' :=
  ⟨fun start => (h.left start).mono hd, fun start => (h.right start).mono hd,
    fun _ _ S hbase hdepth => h.agrees S hbase (hd.trans hdepth)⟩

end Cuts

/-! ## Rules for composed steps -/

/-- After a step the scopes are in order, the frames are back and the host has seen no less. -/
theorem Lockstep.advances {x : Run α}
    (h : ∀ start, Lockstep (Host.Since seen start) base d x) {m : Machine} {n : Nest}
    (S : m.Shows n) (hbase : n.globals.Revalues base) (hdepth : d ≤ m.depth) :
    ∃ r t n', x m = (r, t) ∧ t.Shows n' ∧ n'.globals.Revalues base ∧ m.SameFrames t ∧
      seen m.host <+: seen t.host := by
  obtain ⟨r, t, t', heq, -, ⟨⟨n', T, -, hbase'⟩, -, hle⟩, hsame, -⟩ :=
    h m.host ⟨⟨n, S, S, hbase⟩, rfl, List.prefix_rfl⟩ hdepth
  exact ⟨r, t, n', heq, T, hbase', hsame, hle⟩

namespace Cuts

/-- The limit is used up, so the step fails at once. -/
theorem stop {e : Failure} (he : cut e) {x' : Run α}
    (h : ∀ start, Lockstep (Host.Since seen start) base d x') :
    Cuts cut seen base d (MonadExcept.throw e) x' := by
  refine ⟨fun _ => .throw e, h, fun m n S hbase hdepth => .inr ⟨e, m, rfl, he, ?_⟩⟩
  obtain ⟨r, t, n', heq, -, -, -, hle⟩ := Lockstep.advances h S hbase hdepth
  rw [heq]
  exact hle

/-- Two steps in a row: if the first one is cut off, so is the whole, and the other run goes on from
what had been seen by then. -/
theorem bind {x x' : Run α} {f f' : α → Run β}
    (hx : Cuts cut seen base d x x') (hf : ∀ a, Cuts cut seen base d (f a) (f' a)) :
    Cuts cut seen base d (x >>= f) (x' >>= f') := by
  refine ⟨fun start => .bind (hx.left start) fun a => (hf a).left start,
    fun start => .bind (hx.right start) fun a => (hf a).right start, fun m n S hbase hdepth => ?_⟩
  rcases hx.agrees S hbase hdepth with heq | ⟨e, t, heq, he, hle⟩
  · obtain ⟨r, t, n', hrun, T, hbase', hsame, -⟩ := Lockstep.advances hx.left S hbase hdepth
    rw [hrun] at heq
    cases r with
    | error e =>
        rw [Step.bind_error hrun, Step.bind_error heq]
        exact .inl rfl
    | ok a =>
        rw [Step.bind_ok hrun, Step.bind_ok heq]
        exact (hf a).agrees T hbase' (hsame.depth_eq ▸ hdepth)
  · -- what the longer run does after the moment of the cut only adds to what its host has seen
    refine .inr ⟨e, t, Step.bind_error heq, he, ?_⟩
    obtain ⟨r', t', n', hrun', T', hbase', hsame', -⟩ :=
      Lockstep.advances hx.right S hbase hdepth
    rw [hrun'] at hle
    cases r' with
    | error e' =>
        rw [Step.bind_error hrun']
        exact hle
    | ok a =>
        rw [Step.bind_ok hrun']
        obtain ⟨r'', u', n'', hrest, -, -, -, hle'⟩ :=
          Lockstep.advances (hf a).right T' hbase' (hsame'.depth_eq ▸ hdepth)
        rw [hrest]
        exact hle.trans hle'

/-- A block is opened around a step and closed on every way out of it. -/
theorem inBlock {x x' : Run α} (hx : Cuts cut seen base (d + 1) x x') (hd : 0 < d) :
    Cuts cut seen base d (Run.inBlock x) (Run.inBlock x') := by
  refine ⟨fun start => .inBlock (hx.left start) hd, fun start => .inBlock (hx.right start) hd,
    fun m n S hbase hdepth => ?_⟩
  obtain ⟨t, henter, T, hin, -⟩ := enter_shows S (hd.trans_le hdepth)
  have hbase' := hbase.step (.onFrame 0 .enter)
  have hdepth' : d + 1 ≤ t.depth := hdepth.trans_lt hin.lt_depth
  unfold Run.inBlock
  rw [Step.bind_ok henter, Step.bind_ok henter]
  rcases hx.agrees T hbase' hdepth' with heq | ⟨e, u, heq, he, hle⟩
  · left
    unfold andFinally
    rw [heq]
  · -- the blocks that are open at the moment of the cut can all be closed
    obtain ⟨r, u₁, n', hrun, U, -, hsame, -⟩ := Lockstep.advances hx.left T hbase' hdepth'
    obtain ⟨rfl, rfl⟩ : r = .error e ∧ u₁ = u := Prod.mk.inj (hrun.symm.trans heq)
    obtain ⟨r', u', n'', hrun', U', -, hsame', -⟩ := Lockstep.advances hx.right T hbase' hdepth'
    obtain ⟨v, hexit, -, -, hhost⟩ := exit_shows U (hin.trans hsame)
    obtain ⟨v', hexit', -, -, hhost'⟩ := exit_shows U' (hin.trans hsame')
    refine .inr ⟨e, v, andFinally_eq hrun hexit, he, ?_⟩
    rw [andFinally_eq hrun' hexit', hhost, hhost']
    rwa [hrun'] at hle

/-- A frame with arguments is opened around a step and closed on every way out of it. -/
theorem inFrame {x x' : Run α} (hx : Cuts cut seen base 1 x x') {ps : List Parameter}
    (hnodup : (ps.map (·.name)).Nodup) (vs : List Value) :
    Cuts cut seen base d
      (do
        let f ← openFrame
        bindParams f ps vs
        Run.inFrame f x)
      (do
        let f ← openFrame
        bindParams f ps vs
        Run.inFrame f x') := by
  refine ⟨fun start => .inFrame (hx.left start) hnodup vs,
    fun start => .inFrame (hx.right start) hnodup vs, fun m n S hbase hdepth => ?_⟩
  obtain ⟨f, t, u, hopen, hbind, -, -, hblocks, U⟩ := openFrame_shows S hnodup vs
  have hpush := Step.modify_apply (fun m : Machine => { m with frames := f :: m.frames }) u
  unfold Run.inFrame
  rw [Step.bind_ok hopen, Step.bind_ok hopen, Step.bind_ok hbind, Step.bind_ok hbind,
    Step.bind_ok hpush, Step.bind_ok hpush]
  rcases hx.agrees U hbase hblocks with heq | ⟨e, v, heq, he, hle⟩
  · left
    unfold andFinally
    rw [heq]
  · obtain ⟨r, v₁, n', hrun, V, -, hback, -⟩ := Lockstep.advances hx.left U hbase hblocks
    obtain ⟨rfl, rfl⟩ : r = .error e ∧ v₁ = v := Prod.mk.inj (hrun.symm.trans heq)
    obtain ⟨r', v', n'', hrun', V', -, hback', -⟩ := Lockstep.advances hx.right U hbase hblocks
    obtain ⟨w, hclose, -, -, -, hhost⟩ := close_shows V hback.frames
    obtain ⟨w', hclose', -, -, -, hhost'⟩ := close_shows V' hback'.frames
    refine .inr ⟨e, w, andFinally_eq hrun hclose, he, ?_⟩
    rw [andFinally_eq hrun' hclose', hhost, hhost']
    rwa [hrun'] at hle

/-- A step that goes on with a function of a name. -/
theorem function_bind {P : Function → Prop} (hbase : ∀ name f, base name = some (.func f) → P f)
    {k k' : Function → Run α} (hk : ∀ f, P f → Cuts cut seen base d (k f) (k' f)) (site : RunSite)
    (name : String) (sp : Option Span) :
    Cuts cut seen base d (function site name sp >>= k) (function site name sp >>= k') := by
  refine ⟨fun start => .function_bind hbase (fun f hf => (hk f hf).left start) site name sp,
    fun start => .function_bind hbase (fun f hf => (hk f hf).right start) site name sp,
    fun m n S hrevalues hdepth => ?_⟩
  have heq := function_shows S site name sp
  cases hname : n.globals name with
  | none =>
      rw [hname] at heq
      rw [Step.bind_error heq, Step.bind_error heq]
      exact .inl rfl
  | some s =>
      rw [hname] at heq
      cases s with
      | var v =>
          rw [Step.bind_error heq, Step.bind_error heq]
          exact .inl rfl
      | func f =>
          rw [Step.bind_ok heq, Step.bind_ok heq]
          exact (hk f (hbase name f (hrevalues.func_eq hname))).agrees S hrevalues hdepth

/-- A loop whose rounds are cut short at most, with fewer rounds. -/
theorem iterate {step step' : σ → Run (Completion ⊕ σ)}
    (h : ∀ s, Cuts cut seen base d (step s) (step' s)) :
    ∀ {rounds rounds' : Nat}, rounds ≤ rounds' → (rounds < rounds' → cut .unfinished) →
      ∀ s, Cuts cut seen base d (Run.iterate step rounds s) (Run.iterate step' rounds' s)
  | 0, 0, _, _, _ => .throw _
  | 0, rounds' + 1, _, hcut, s =>
    .stop (hcut (Nat.zero_lt_succ _)) fun start => .iterate (fun s => (h s).right start) _ s
  | rounds + 1, 0, hle, _, _ => absurd hle (Nat.not_succ_le_zero _)
  | rounds + 1, rounds' + 1, hle, hcut, s => by
      refine .bind (h s) fun r => ?_
      cases r with
      | inl c => exact .pure c
      | inr s' =>
          exact iterate h (Nat.le_of_succ_le_succ hle) (fun hlt => hcut (Nat.succ_lt_succ hlt)) s'

end Cuts

/-! ## Expressions -/

/-- The second site has larger limits than the first one. -/
structure Widens (cut : Failure → Prop) (seen : Host → List Char) (base : Environment)
    (site site' : RunSite) : Prop where
  filename : site'.filename = site.filename
  rounds : site.rounds ≤ site'.rounds
  unfinished : site.rounds < site'.rounds → cut .unfinished
  call : ∀ f body args sp, (f.params.map (·.name)).Nodup →
    Cuts cut seen base 1 (site.call f body args sp) (site'.call f body args sp)

variable {site site' : RunSite}

/-- A call is cut off where its body is. A callback is never cut off. -/
theorem callFunction_cuts (W : Widens cut seen base site site') {f : Function}
    (hf : ∀ start, f.Regular (Host.Since seen start)) (args : List Value)
    (sps : List (Option Span)) (sp : Option Span) :
    Cuts cut seen base 1 (callFunction site f args sps sp) (callFunction site' f args sps sp) := by
  unfold callFunction
  cases hbody : f.body with
  | native c =>
      exact .same fun start => .bind (checkNativeArguments_lockstep _ _ _ _) fun _ =>
        .bind (.callback ((hf start).respects c hbody) args) fun _ => nativeResult_lockstep _ _
  | declared body => exact W.call f body args sp ((hf {}).params_nodup body hbody)

mutual

/-- Under smaller limits an expression has the same value or is cut off, by induction on the
expression. -/
theorem eval_cuts (hbase : base.Additive seen) (W : Widens cut seen base site site') :
    ∀ e : Expr, Cuts cut seen base 1 (eval site e) (eval site' e)
  | .int _ _ => .pure _
  | .float _ _ => .pure _
  | .string _ _ => .pure _
  | .bool _ _ => .pure _
  | .var name _ => .same fun _ => .lookup name
  | .paren inner _ => eval_cuts hbase W inner
  | .unary _ operand _ => .bind (eval_cuts hbase W operand) fun _ => .same fun _ => .ofExcept _
  | .binary _ left right _ =>
    .bind (eval_cuts hbase W left) fun _ => .bind (eval_cuts hbase W right) fun _ =>
      .same fun _ => .ofExcept _
  | .ternary cond yes no _ =>
    .bind (eval_cuts hbase W cond) fun _ => .bind (.same fun _ => expectBool_lockstep _ _) fun _ =>
      .bind (eval_cuts hbase W yes) fun _ => .bind (eval_cuts hbase W no) fun _ => .pure _
  | .call name args sp => by
      -- which function is called does not depend on the limits
      have hfunction : function site' name sp = function site name sp := by
        simp only [function, W.filename]
      unfold eval
      rw [hfunction]
      exact .function_bind hbase (fun _ hf => .bind (evalAll_cuts hbase W args) fun _ =>
        callFunction_cuts W hf _ _ _) site name sp
  | .other _ _ _ => by
      unfold eval
      rw [W.filename]
      exact .throw _

/-- The same of expressions in a row. -/
theorem evalAll_cuts (hbase : base.Additive seen) (W : Widens cut seen base site site') :
    ∀ es : List Expr, Cuts cut seen base 1 (evalAll site es) (evalAll site' es)
  | [] => .pure _
  | e :: es => .bind (eval_cuts hbase W e) fun _ => .bind (evalAll_cuts hbase W es) fun _ => .pure _

end

/-- The same of conditions. -/
theorem evalBool_cuts (hbase : base.Additive seen) (W : Widens cut seen base site site')
    (e : Expr) : Cuts cut seen base 1 (evalBool site e) (evalBool site' e) :=
  .bind (eval_cuts hbase W e) fun _ => .same fun _ => expectBool_lockstep _ _

/-- The same of the bounds of counting loops. -/
theorem evalInt_cuts (hbase : base.Additive seen) (W : Widens cut seen base site site')
    (e : Expr) : Cuts cut seen base 1 (evalInt site e) (evalInt site' e) :=
  .bind (eval_cuts hbase W e) fun _ => .same fun _ => expectInt_lockstep _ _

/-! ## Statements -/

/-- With fewer rounds a loop ends in the same way or is cut off. -/
theorem whileLoop_cuts {test test' : Run Bool} {body body' : Run Completion}
    (W : Widens cut seen base site site') (htest : Cuts cut seen base d test test')
    (hbody : Cuts cut seen base d body body') :
    Cuts cut seen base d (whileLoop site.rounds test body) (whileLoop site'.rounds test' body') := by
  refine .iterate (fun _ => .bind htest fun b => ?_) W.rounds W.unfinished ()
  cases b with
  | true => exact .bind hbody fun _ => .pure _
  | false => exact .pure _

/-- The same of a loop that tests after its body. -/
theorem doLoop_cuts {test test' : Run Bool} {body body' : Run Completion}
    (W : Widens cut seen base site site') (hbody : Cuts cut seen base d body body')
    (htest : Cuts cut seen base d test test') :
    Cuts cut seen base d (doLoop site.rounds body test) (doLoop site'.rounds body' test') := by
  refine .iterate (fun _ => .bind hbody fun c => ?_) W.rounds W.unfinished ()
  cases afterRound () c with
  | inl c => exact .pure _
  | inr u =>
      refine .bind htest fun b => ?_
      cases b with
      | true => exact .pure _
      | false => exact .pure _

/-- A round of a counting loop is cut off where its bound or its body is. -/
theorem countRound_cuts {bound bound' : Run Int64} {body body' : Run Completion}
    (hbound : Cuts cut seen base d bound bound') (hbody : Cuts cut seen base d body body') (hd : 1 < d)
    (counter : String) (direction : Direction) (n : Int64) :
    Cuts cut seen base d (countRound counter direction bound body n)
      (countRound counter direction bound' body' n) := by
  refine .bind (.same fun _ => .declare _) fun _ => .bind hbound fun last => ?_
  split
  · exact .pure _
  · refine .bind hbody fun c => ?_
    cases afterRound (n + direction.step) c with
    | inl c => exact .pure _
    | inr next => exact .same fun _ => .renew (.pure _) hd

/-- With fewer rounds a counting loop ends in the same way or is cut off. -/
theorem countLoop_cuts {bound bound' : Run Int64} {body body' : Run Completion}
    (W : Widens cut seen base site site') (hbound : Cuts cut seen base 1 bound bound')
    (hbody : Cuts cut seen base 1 body body') (counter : String) (direction : Direction)
    (first : Int64) :
    Cuts cut seen base 1 (countLoop site.rounds counter direction bound body first)
      (countLoop site'.rounds counter direction bound' body' first) :=
  .inBlock (.iterate (countRound_cuts (hbound.mono (Nat.le_succ 1)) (hbody.mono (Nat.le_succ 1))
    Nat.one_lt_two counter direction) W.rounds W.unfinished first) Nat.one_pos

/-- An assignment is cut off where its value is. -/
theorem execAssign_cuts (hbase : base.Additive seen) (W : Widens cut seen base site site')
    (name : String) (op : AssignOp) (value : Expr) (sp : Option Span) :
    Cuts cut seen base 1 (execAssign site name op value sp) (execAssign site' name op value sp) := by
  refine .bind (eval_cuts hbase W value) fun v => ?_
  cases op.binary? with
  | none => exact .same fun _ => .assign name v
  | some binary =>
      exact .same fun _ => .bind (.lookup name) fun _ => .bind (.ofExcept _) fun _ => .assign name _

mutual

/-- Under smaller limits a statement does the same or is cut off, by induction on the statement. -/
theorem exec_cuts (hbase : base.Additive seen) (W : Widens cut seen base site site') :
    ∀ s : Stmt, Cuts cut seen base 1 (exec site s) (exec site' s)
  | .block body => inBlock_cuts hbase W body
  | .declare _ value _ _ => .bind (eval_cuts hbase W value) fun _ =>
      .bind (.same fun _ => .declare _) fun _ => .pure _
  | .assign name op value sp =>
    .bind (execAssign_cuts hbase W name op value sp) fun _ => .pure _
  | .call e _ => .bind (eval_cuts hbase W e) fun _ => .pure _
  | .ifThen cond yes _ => .bind (evalBool_cuts hbase W cond) fun b => by
      cases b with
      | true => exact inBlock_cuts hbase W yes
      | false => exact .pure _
  | .ifThenElse cond yes no _ => .bind (evalBool_cuts hbase W cond) fun b => by
      cases b with
      | true => exact inBlock_cuts hbase W yes
      | false => exact inBlock_cuts hbase W no
  | .whileDo cond body _ =>
    whileLoop_cuts W (evalBool_cuts hbase W cond) (inBlock_cuts hbase W body)
  | .doWhile body cond _ =>
    doLoop_cuts W (inBlock_cuts hbase W body) (evalBool_cuts hbase W cond)
  | .forCount counter start bound direction body _ =>
    .bind (evalInt_cuts hbase W start) fun _ =>
      countLoop_cuts W (evalInt_cuts hbase W bound) (execBody_cuts hbase W body) counter direction _
  | .ret none _ => .pure _
  | .ret (some value) _ => .bind (eval_cuts hbase W value) fun _ => .pure _
  | .brk _ => .pure _
  | .cont _ => .pure _
  | .other _ _ _ => by
      unfold exec
      rw [W.filename]
      exact .throw _

/-- The same of a block with a scope of its own, which is closed even where it is cut off. -/
theorem inBlock_cuts (hbase : base.Additive seen) (W : Widens cut seen base site site') :
    ∀ b : Block, Cuts cut seen base 1 (inBlock (execBody site b)) (inBlock (execBody site' b))
  | .mk stmts _ _ => .inBlock ((execStmts_cuts hbase W stmts).mono (Nat.le_succ 1)) Nat.one_pos

/-- The same of the statements of a block. -/
theorem execBody_cuts (hbase : base.Additive seen) (W : Widens cut seen base site site') :
    ∀ b : Block, Cuts cut seen base 1 (execBody site b) (execBody site' b)
  | .mk stmts _ _ => execStmts_cuts hbase W stmts

/-- The same of statements in a row. -/
theorem execStmts_cuts (hbase : base.Additive seen) (W : Widens cut seen base site site') :
    ∀ ss : List Stmt, Cuts cut seen base 1 (execStmts site ss) (execStmts site' ss)
  | [] => .pure _
  | s :: ss => .bind (exec_cuts hbase W s) fun c => by
      cases c with
      | normal => exact execStmts_cuts hbase W ss
      | brk => exact .pure _
      | cont => exact .pure _
      | ret v => exact .pure _

end

/-! ## Calls and programs -/

/-- A call with fewer calls inside each other is cut short at most. -/
theorem callDeclared_cuts (hbase : base.Additive seen) (filename : Option String)
    {rounds rounds' : Nat} (hrounds : rounds ≤ rounds')
    (hunfinished : rounds < rounds' → cut .unfinished) :
    ∀ {depth depth' : Nat}, depth ≤ depth' →
      (depth < depth' → cut (.runtime .stackExhausted none)) →
      Widens cut seen base ⟨filename, rounds, callDeclared filename rounds depth⟩
        ⟨filename, rounds', callDeclared filename rounds' depth'⟩
  | 0, 0, _, _ => ⟨rfl, hrounds, hunfinished, fun _ _ _ _ _ => .throw _⟩
  | 0, depth' + 1, _, hcut => by
      refine ⟨rfl, hrounds, hunfinished, fun f body args sp hnodup => ?_⟩
      refine .stop (hcut (Nat.zero_lt_succ _)) fun start => ?_
      exact callDeclared_lockstep (fun name f hf => hbase name f hf start) filename rounds'
        (depth' + 1) f body args sp hnodup
  | depth + 1, 0, hle, _ => absurd hle (Nat.not_succ_le_zero _)
  | depth + 1, depth' + 1, hle, hcut => by
      refine ⟨rfl, hrounds, hunfinished, fun f body args sp hnodup => ?_⟩
      have W := callDeclared_cuts hbase filename hrounds hunfinished (Nat.le_of_succ_le_succ hle)
        fun hlt => hcut (Nat.succ_lt_succ hlt)
      have hframe := Cuts.inFrame (d := 1) (inBlock_cuts hbase W body) hnodup args
      have hall := hframe.bind fun c => .same fun _ => callResult_lockstep filename f sp c
      simp only [bind_assoc] at hall
      exact hall

/-- The same of the top-level statements. -/
theorem execTop_cuts (hbase : base.Additive seen) (W : Widens cut seen base site site') :
    ∀ ss : List Stmt, Cuts cut seen base 1 (execTop site ss) (execTop site' ss)
  | [] => .pure _
  | s :: ss => .bind (exec_cuts hbase W s) fun _ => execTop_cuts hbase W ss

end Run

/-- A failure by which the first limits can cut off a run that goes on under the second ones. -/
inductive Limits.Cut (limits limits' : Limits) : Failure → Prop
  | calls : limits.calls < limits'.calls → Cut limits limits' (.runtime .stackExhausted none)
  | rounds : limits.rounds < limits'.rounds → Cut limits limits' .unfinished

/-- A program with smaller limits is cut short at most. -/
theorem Program.steps_cuts (hbase : base.Additive seen) (p : Program)
    {limits limits' : Limits} (hcalls : limits.calls ≤ limits'.calls)
    (hrounds : limits.rounds ≤ limits'.rounds) :
    Run.Cuts (limits.Cut limits') seen base 0 (p.steps limits) (p.steps limits') := by
  have W : Run.Widens (limits.Cut limits') seen base (p.runSite limits) (p.runSite limits') :=
    Run.callDeclared_cuts hbase p.filename hrounds .rounds hcalls .calls
  have hnodup : (([] : List Parameter).map (·.name)).Nodup := List.nodup_nil
  exact .inFrame (Run.execTop_cuts hbase W p.statements) hnodup []

end Pigeon

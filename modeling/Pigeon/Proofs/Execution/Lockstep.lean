import Pigeon.Proofs.Execution.Shown
import Pigeon.Proofs.Execution.Trace

/-!
# Machines in lockstep

Two machines are *alike* if they show the same environments. Their scopes may have other handles and
their free lists another order, and what their hosts have seen may differ as far as a relation `R`
allows. Every step of a program runs on such machines in *lockstep*: it ends with the same result on
both, they are alike afterwards, and each has the frames that it had before, whichever way the step
has ended.

The native functions have to respect the relation between the hosts. Every callback respects
equality, so what is said here of two machines holds of one machine and itself in particular.
-/

namespace Pigeon

/-! ## Global symbols with other values -/

/-- The symbol, without its value if it is a variable. -/
def Symbol.unvalued : Symbol → Symbol
  | var v => .var { v with value := none }
  | func f => .func f

/-- The environment has the symbols of `base`, but its variables may have other values. -/
def Environment.Revalues (env base : Environment) : Prop :=
  ∀ name, (env name).map Symbol.unvalued = (base name).map Symbol.unvalued

/-- An environment has its own symbols. -/
theorem Environment.Revalues.refl (env : Environment) : env.Revalues env := fun _ => rfl

/-- The functions are those of `base`. -/
theorem Environment.Revalues.func_eq {env base : Environment} (h : env.Revalues base)
    {name : String} {f : Function} (hf : env name = some (.func f)) :
    base name = some (.func f) := by
  have hname := h name
  rw [hf] at hname
  rcases hb : base name with _ | (v | f')
  · rw [hb] at hname
    cases hname
  · rw [hb] at hname
    cases hname
  · rw [hb] at hname
    cases hname
    rfl

/-- An operation gives global variables other values at most. -/
theorem Environment.Revalues.step {n : Nest} {base : Environment} (h : n.globals.Revalues base)
    (op : ScopeOp) : (n.step op).2.globals.Revalues base := by
  intro name
  rw [← h name]
  rcases n.step_globals op name with heq | ⟨v, value, hv, -, heq⟩
  · rw [heq]
  · rw [heq, hv]
    rfl

/-! ## Machines that are alike -/

/-- On hosts in the relation the callback gives the same result, and leaves them in the relation. -/
def Callback.Respects (R : Host → Host → Prop) (c : Callback) : Prop :=
  ∀ args host host', R host host' →
    (c args host).1 = (c args host').1 ∧ R (c args host).2 (c args host').2

/-- A declared function has distinct parameters, and a native one respects the relation. -/
structure Function.Regular (R : Host → Host → Prop) (f : Function) : Prop where
  params_nodup : ∀ body, f.body = .declared body → (f.params.map (·.name)).Nodup
  respects : ∀ c, f.body = .native c → c.Respects R

/-- The functions of the environment are regular. -/
def Environment.Regular (R : Host → Host → Prop) (env : Environment) : Prop :=
  ∀ name f, env name = some (.func f) → f.Regular R

/-- The machines show the same environments, the global one has the symbols of `base`, and the hosts
are in the relation. -/
structure Machine.Alike (R : Host → Host → Prop) (base : Environment) (m m' : Machine) : Prop where
  shows : ∃ n, m.Shows n ∧ m'.Shows n ∧ n.globals.Revalues base
  hosts : R m.host m'.host

/-- On machines that are alike and have at least `d` blocks in the current frame, the step has the
same result, they are alike afterwards, and both have their frames back. -/
def Run.Lockstep {α : Type} (R : Host → Host → Prop) (base : Environment) (d : Nat) (x : Run α) :
    Prop :=
  ∀ ⦃m m' : Machine⦄, m.Alike R base m' → d ≤ m.depth → ∃ r t t',
    x m = (r, t) ∧ x m' = (r, t') ∧ t.Alike R base t' ∧ m.SameFrames t ∧ m'.SameFrames t'

variable {R : Host → Host → Prop} {base : Environment} {α β σ : Type} {d : Nat}

/-- Machines that are alike have equally many blocks in the current frame. -/
theorem Machine.Alike.depth_eq {m m' : Machine} (A : m.Alike R base m') : m'.depth = m.depth := by
  obtain ⟨n, S, S', -⟩ := A.shows
  rw [S.depth_eq, S'.depth_eq]

/-! ## Rules for composed steps -/

namespace Run

/-- A clean-up that succeeds leaves the result as it is and gives the state after it. -/
theorem andFinally_eq {x : Run α} {cleanUp : Run Unit} {m t u : Machine} {r : Except Failure α}
    (hx : x m = (r, t)) (hcleanUp : cleanUp t = (.ok (), u)) :
    andFinally x cleanUp m = (r, u) := by
  simp only [andFinally, hx, hcleanUp]

namespace Lockstep

/-- A step that runs in lockstep from a number of blocks does so from more. -/
theorem mono {x : Run α} (h : Lockstep R base d x) {d' : Nat} (hd : d ≤ d') :
    Lockstep R base d' x :=
  fun _ _ A hdepth => h A (hd.trans hdepth)

/-- A step that does not look at the machine. -/
theorem of_eq {x : Run α} {r : Except Failure α} (h : ∀ m, x m = (r, m)) : Lockstep R base d x :=
  fun m m' A _ => ⟨r, m, m', h m, h m', A, .refl m, .refl m'⟩

/-- Giving a value is the same on all machines. -/
theorem pure (a : α) : Lockstep R base d (pure a) := of_eq fun _ => rfl

/-- Failing is the same on all machines. -/
theorem throw (e : Failure) : Lockstep R base d (throw e : Run α) := of_eq fun _ => rfl

/-- A result that is known already is the same on all machines. -/
theorem ofExcept (x : Except Failure α) : Lockstep R base d (Run.ofExcept x) :=
  of_eq fun m => ofExcept_apply x m

/-- Two steps in a row run in lockstep, as the machines are alike after the first one and give the
same value to the second. -/
theorem bind {x : Run α} {f : α → Run β} (hx : Lockstep R base d x)
    (hf : ∀ a, Lockstep R base d (f a)) : Lockstep R base d (x >>= f) := by
  intro m m' A hdepth
  obtain ⟨r, t, t', heq, heq', A', hsame, hsame'⟩ := hx A hdepth
  cases r with
  | error e => exact ⟨.error e, t, t', Step.bind_error heq, Step.bind_error heq', A', hsame, hsame'⟩
  | ok a =>
      obtain ⟨r, u, u', hrest, hrest', A'', hsame₁, hsame₁'⟩ :=
        hf a A' (hsame.depth_eq ▸ hdepth)
      rw [Step.bind_ok heq, Step.bind_ok heq']
      exact ⟨r, u, u', hrest, hrest', A'', hsame.trans hsame₁, hsame'.trans hsame₁'⟩

/-- A step that performs an operation which neither opens nor closes a block. -/
theorem of_performs {x : Run α} {op : FrameOp} {answer : α → ScopeAnswer}
    (hx : Performs x op answer) (hanswer : Function.Injective answer)
    (hop : ∀ f a, (Scopes.onFrame f a op).2.1 = f) : Lockstep R base d x := by
  -- the frames only list handles, which the operation does not touch
  have hsame : ∀ m : Machine, m.SameFrames (x m).2 := by
    rintro ⟨a, g, frames, host⟩
    rw [hx.machine_eq]
    cases frames with
    | nil => exact .refl _
    | cons f rest => exact ⟨rfl, congrArg (· :: rest) (hop f a)⟩
  intro m m' A _
  obtain ⟨⟨n, S, S', hbase⟩, hosts⟩ := A
  obtain ⟨hfirst, T⟩ := S.onFrame op
  obtain ⟨hsecond, T'⟩ := S'.onFrame op
  have hresult : (x m).1 = (x m').1 := by
    have hmap : (x m).1.map answer = (x m').1.map answer := by
      rw [hx.result_eq, hx.result_eq, hfirst, hsecond]
    revert hmap
    rcases (x m).1 with e | a <;> rcases (x m').1 with e' | a' <;> intro hmap
    · cases hmap
      rfl
    · cases hmap
    · cases hmap
    · exact congrArg _ (hanswer (Except.ok.inj hmap))
  have hhosts : R (x m).2.host (x m').2.host := by
    rw [hx.machine_eq, hx.machine_eq]
    exact hosts
  rw [← hx.machine_eq] at T T'
  exact ⟨(x m).1, (x m).2, (x m').2, rfl, Prod.ext hresult.symm rfl,
    ⟨⟨_, T, T', hbase.step _⟩, hhosts⟩, hsame m, hsame m'⟩

/-- A declaration is the operation `declare` on the environments that both machines show. -/
theorem declare (v : Variable) : Lockstep R base d (Run.declare v) := by
  refine of_performs (declare_performs v) (fun _ _ _ => rfl) fun f a => ?_
  rw [Scopes.onFrame]
  split <;> rfl

/-- An assignment is the operation `assign` on the environments that both machines show. -/
theorem assign (name : String) (value : Value) : Lockstep R base d (Run.assign name value) := by
  refine of_performs (assign_performs name value) (fun _ _ _ => rfl) fun f a => ?_
  rw [Scopes.onFrame]
  split <;> rfl

/-- A name is found in both machines or in neither, as both show the same environments. -/
theorem lookup (name : String) : Lockstep R base d (Run.lookup name) :=
  of_performs (lookup_performs name) (fun _ _ h => ScopeAnswer.value.inj h) fun _ _ => rfl

/-- A block is opened around a step and closed on every way out of it. -/
theorem inBlock {x : Run α} (hx : Lockstep R base (d + 1) x) (hd : 0 < d) :
    Lockstep R base d (Run.inBlock x) := by
  rintro m m' A hdepth
  have hdepth' : 0 < m'.depth := by
    rw [A.depth_eq]
    omega
  obtain ⟨⟨n, S, S', hbase⟩, hosts⟩ := A
  obtain ⟨t, henter, T, hin, hhost⟩ := enter_shows S (hd.trans_le hdepth)
  obtain ⟨t', henter', T', hin', hhost'⟩ := enter_shows S' hdepth'
  have hlt := hin.lt_depth
  obtain ⟨r, u, u', hrun, hrun', B, hsame, hsame'⟩ :=
    hx ⟨⟨_, T, T', hbase.step _⟩, by rw [hhost, hhost']; exact hosts⟩ (by omega)
  obtain ⟨⟨n', U, U', hbase'⟩, hosts'⟩ := B
  -- the step has left the new block open, whether it failed or not, so it can be closed
  obtain ⟨v, hexit, V, hback, hhost₁⟩ := exit_shows U (hin.trans hsame)
  obtain ⟨v', hexit', V', hback', hhost₁'⟩ := exit_shows U' (hin'.trans hsame')
  refine ⟨r, v, v', ?_, ?_, ⟨⟨_, V, V', hbase'.step _⟩, ?_⟩, hback, hback'⟩
  · unfold Run.inBlock
    rw [Step.bind_ok henter, andFinally_eq hrun hexit]
  · unfold Run.inBlock
    rw [Step.bind_ok henter', andFinally_eq hrun' hexit']
  · rw [hhost₁, hhost₁']
    exact hosts'

/-- The innermost block is closed and another one is opened in its place. -/
theorem renew {x : Run α} (hx : Lockstep R base d x) (hd : 1 < d) :
    Lockstep R base d (do exit; enter; x) := by
  rintro m m' A hdepth
  have hdepth' : 1 < m'.depth := by
    rw [A.depth_eq]
    omega
  obtain ⟨⟨n, S, S', hbase⟩, hosts⟩ := A
  obtain ⟨t, u, hexit, henter, U, hsame, hhost⟩ := renew_shows S (hd.trans_le hdepth)
  obtain ⟨t', u', hexit', henter', U', hsame', hhost'⟩ := renew_shows S' hdepth'
  obtain ⟨r, v, v', hrun, hrun', B, hback, hback'⟩ :=
    hx ⟨⟨_, U, U', (hbase.step _).step _⟩, by rw [hhost, hhost']; exact hosts⟩
      (hsame.depth_eq ▸ hdepth)
  rw [Step.bind_ok hexit, Step.bind_ok henter, Step.bind_ok hexit', Step.bind_ok henter']
  exact ⟨r, v, v', hrun, hrun', B, hsame.trans hback, hsame'.trans hback'⟩

/-- A step that goes on with a function of a name, of which all that holds of the functions of
`base` is known. -/
theorem function_bind {P : Function → Prop} (hbase : ∀ name f, base name = some (.func f) → P f)
    {k : Function → Run α} (hk : ∀ f, P f → Lockstep R base d (k f)) (site : RunSite)
    (name : String) (sp : Option Span) : Lockstep R base d (function site name sp >>= k) := by
  intro m m' A hdepth
  obtain ⟨n, S, S', hrevalues⟩ := A.shows
  have heq := function_shows S site name sp
  have heq' := function_shows S' site name sp
  cases hname : n.globals name with
  | none =>
      rw [hname] at heq heq'
      exact ⟨_, m, m', Step.bind_error heq, Step.bind_error heq', A, .refl m, .refl m'⟩
  | some s =>
      rw [hname] at heq heq'
      cases s with
      | var v => exact ⟨_, m, m', Step.bind_error heq, Step.bind_error heq', A, .refl m, .refl m'⟩
      | func f =>
          -- functions keep their symbols in `base`, so both machines call the same one
          rw [Step.bind_ok heq, Step.bind_ok heq']
          exact hk f (hbase name f (hrevalues.func_eq hname)) A hdepth

/-- A callback that respects the relation between the hosts. -/
theorem callback {c : Callback} (hc : c.Respects R) (args : List Value) :
    Lockstep R base d (Run.callback c args) := by
  intro m m' A _
  obtain ⟨⟨n, S, S', hbase⟩, hosts⟩ := A
  obtain ⟨hresult, hosts'⟩ := hc args m.host m'.host hosts
  refine ⟨_, { m with host := (c args m.host).2 }, { m' with host := (c args m'.host).2 }, rfl, ?_,
    ⟨⟨n, ⟨S.lies, S.view_eq⟩, ⟨S'.lies, S'.view_eq⟩, hbase⟩, hosts'⟩, ⟨rfl, rfl⟩, ⟨rfl, rfl⟩⟩
  rw [hresult]
  rfl

/-- A frame with arguments is opened around a step and closed on every way out of it. -/
theorem inFrame {x : Run α} (hx : Lockstep R base 1 x) {ps : List Parameter}
    (hnodup : (ps.map (·.name)).Nodup) (vs : List Value) :
    Lockstep R base d (do
      let f ← openFrame
      bindParams f ps vs
      Run.inFrame f x) := by
  intro m m' A _
  obtain ⟨⟨n, S, S', hbase⟩, hosts⟩ := A
  obtain ⟨f, t, u, hopen, hbind, hsame, hhost, hblocks, U⟩ := openFrame_shows S hnodup vs
  obtain ⟨f', t', u', hopen', hbind', hsame', hhost', -, U'⟩ := openFrame_shows S' hnodup vs
  obtain ⟨r, v, v', hrun, hrun', B, hback, hback'⟩ :=
    hx ⟨⟨_, U, U', hbase⟩, by simp only [hhost, hhost']; exact hosts⟩ hblocks
  obtain ⟨⟨n', V, V', hbase'⟩, hosts'⟩ := B
  -- the frame has the blocks that it was opened with, so closing it frees all that it holds
  obtain ⟨w, hclose, W, hglobals, hframes, hhost₁⟩ := close_shows V hback.frames
  obtain ⟨w', hclose', W', hglobals', hframes', hhost₁'⟩ := close_shows V' hback'.frames
  refine ⟨r, w, w', ?_, ?_, ⟨⟨_, W, W', hbase'⟩, ?_⟩, ?_, ?_⟩
  · rw [Step.bind_ok hopen, Step.bind_ok hbind]
    unfold Run.inFrame
    rw [Step.bind_ok (Step.modify_apply _ u), andFinally_eq hrun hclose]
  · rw [Step.bind_ok hopen', Step.bind_ok hbind']
    unfold Run.inFrame
    rw [Step.bind_ok (Step.modify_apply _ u'), andFinally_eq hrun' hclose']
  · rw [hhost₁, hhost₁']
    exact hosts'
  · exact ⟨hglobals.trans (hback.globals.trans hsame.globals), hframes.trans hsame.frames⟩
  · exact ⟨hglobals'.trans (hback'.globals.trans hsame'.globals), hframes'.trans hsame'.frames⟩

/-- A loop whose rounds run in lockstep. -/
theorem iterate {step : σ → Run (Completion ⊕ σ)} (h : ∀ s, Lockstep R base d (step s)) :
    ∀ (rounds : Nat) (s : σ), Lockstep R base d (Run.iterate step rounds s)
  | 0, _ => .throw _
  | rounds + 1, s => by
      refine .bind (h s) fun r => ?_
      cases r with
      | inl c => exact .pure c
      | inr s' => exact iterate h rounds s'

end Lockstep

/-! ## Expressions -/

/-- Whether a value is a Boolean does not depend on the machine. -/
theorem expectBool_lockstep (v : Value) (sp : Option Span) :
    Lockstep R base d (expectBool v sp) := by
  cases v with
  | bool b => exact .pure b
  | _ => exact .throw _

/-- Whether a value is an integer does not depend on the machine. -/
theorem expectInt_lockstep (v : Value) (sp : Option Span) :
    Lockstep R base d (expectInt v sp) := by
  cases v with
  | int n => exact .pure n
  | _ => exact .throw _

/-- Whether arguments fit the parameters does not depend on the machine. -/
theorem checkNativeArguments_lockstep (name : String) :
    ∀ (ps : List Parameter) (vs : List Value) (sps : List (Option Span)),
      Lockstep R base d (checkNativeArguments name ps vs sps)
  | p :: ps, v :: vs, _ :: sps => by
      rw [checkNativeArguments]
      split
      · exact checkNativeArguments_lockstep name ps vs sps
      · exact .throw _
  | [], _, _ => .pure _
  | _ :: _, [], _ => .pure _
  | _ :: _, _ :: _, [] => .pure _

/-- What a native answer is converted to does not depend on the machine. -/
theorem nativeResult_lockstep (f : Function) (p : Payload) :
    Lockstep R base d (nativeResult f p) := by
  unfold nativeResult
  split
  · exact .pure _
  · exact .throw _
  · exact .throw _
  · exact .throw _

variable {site : RunSite}

/-- The calls of declared functions run in lockstep. -/
def CallsLockstep (R : Host → Host → Prop) (base : Environment) (site : RunSite) : Prop :=
  ∀ f body args sp, (f.params.map (·.name)).Nodup → Lockstep R base 1 (site.call f body args sp)

/-- A call of a regular function runs in lockstep: a callback respects the relation, and declared
functions do so by hypothesis. -/
theorem callFunction_lockstep (hcall : CallsLockstep R base site) {f : Function}
    (hf : f.Regular R) (args : List Value) (sps : List (Option Span)) (sp : Option Span) :
    Lockstep R base 1 (callFunction site f args sps sp) := by
  unfold callFunction
  split
  · next c hc =>
      exact .bind (checkNativeArguments_lockstep _ _ _ _) fun _ =>
        .bind (.callback (hf.respects c hc) args) fun _ => nativeResult_lockstep _ _
  · next body hbody => exact hcall f body args sp (hf.params_nodup body hbody)

mutual

/-- Expressions are evaluated in lockstep, by induction on the expression. -/
theorem eval_lockstep (hregular : base.Regular R) (hcall : CallsLockstep R base site) :
    ∀ e : Expr, Lockstep R base 1 (eval site e)
  | .int _ _ => .pure _
  | .float _ _ => .pure _
  | .string _ _ => .pure _
  | .bool _ _ => .pure _
  | .var name _ => .lookup name
  | .paren inner _ => eval_lockstep hregular hcall inner
  | .unary _ operand _ => .bind (eval_lockstep hregular hcall operand) fun _ => .ofExcept _
  | .binary _ left right _ =>
    .bind (eval_lockstep hregular hcall left) fun _ =>
      .bind (eval_lockstep hregular hcall right) fun _ => .ofExcept _
  | .ternary cond yes no _ =>
    -- both branches are evaluated, whichever is chosen
    .bind (eval_lockstep hregular hcall cond) fun _ => .bind (expectBool_lockstep _ _) fun _ =>
      .bind (eval_lockstep hregular hcall yes) fun _ =>
        .bind (eval_lockstep hregular hcall no) fun _ => .pure _
  | .call name args sp =>
    .function_bind hregular (fun _ hf => .bind (evalAll_lockstep hregular hcall args) fun _ =>
      callFunction_lockstep hcall hf _ _ _) site name sp
  | .other _ _ _ => .throw _

/-- Expressions in a row are evaluated in lockstep. -/
theorem evalAll_lockstep (hregular : base.Regular R) (hcall : CallsLockstep R base site) :
    ∀ es : List Expr, Lockstep R base 1 (evalAll site es)
  | [] => .pure _
  | e :: es => .bind (eval_lockstep hregular hcall e) fun _ =>
      .bind (evalAll_lockstep hregular hcall es) fun _ => .pure _

end

/-- A condition is evaluated in lockstep. -/
theorem evalBool_lockstep (hregular : base.Regular R) (hcall : CallsLockstep R base site)
    (e : Expr) : Lockstep R base 1 (evalBool site e) :=
  .bind (eval_lockstep hregular hcall e) fun _ => expectBool_lockstep _ _

/-- A bound of a counting loop is evaluated in lockstep. -/
theorem evalInt_lockstep (hregular : base.Regular R) (hcall : CallsLockstep R base site)
    (e : Expr) : Lockstep R base 1 (evalInt site e) :=
  .bind (eval_lockstep hregular hcall e) fun _ => expectInt_lockstep _ _

/-! ## Statements -/

/-- A loop runs in lockstep if its test and its body do, by induction on the rounds. -/
theorem whileLoop_lockstep {test : Run Bool} {body : Run Completion}
    (htest : Lockstep R base d test) (hbody : Lockstep R base d body) (rounds : Nat) :
    Lockstep R base d (whileLoop rounds test body) := by
  refine .iterate (fun _ => .bind htest fun b => ?_) rounds ()
  cases b with
  | true => exact .bind hbody fun _ => .pure _
  | false => exact .pure _

/-- A loop that tests after its body runs in lockstep if both parts do. -/
theorem doLoop_lockstep {test : Run Bool} {body : Run Completion}
    (hbody : Lockstep R base d body) (htest : Lockstep R base d test) (rounds : Nat) :
    Lockstep R base d (doLoop rounds body test) := by
  refine .iterate (fun _ => .bind hbody fun c => ?_) rounds ()
  cases afterRound () c with
  | inl c => exact .pure _
  | inr u =>
      refine .bind htest fun b => ?_
      cases b with
      | true => exact .pure _
      | false => exact .pure _

/-- A round ends in the block that it began in, or in a new one at the same handle. -/
theorem countRound_lockstep {bound : Run Int64} {body : Run Completion}
    (hbound : Lockstep R base d bound) (hbody : Lockstep R base d body) (hd : 1 < d)
    (counter : String) (direction : Direction) (n : Int64) :
    Lockstep R base d (countRound counter direction bound body n) := by
  refine .bind (.declare _) fun _ => .bind hbound fun last => ?_
  split
  · exact .pure _
  · refine .bind hbody fun c => ?_
    cases afterRound (n + direction.step) c with
    | inl c => exact .pure _
    -- the counter is declared anew in each round, so the block of the loop is renewed
    | inr next => exact .renew (.pure _) hd

/-- A counting loop runs in lockstep if its bound and its body do. -/
theorem countLoop_lockstep {bound : Run Int64} {body : Run Completion}
    (hbound : Lockstep R base 1 bound) (hbody : Lockstep R base 1 body) (rounds : Nat)
    (counter : String) (direction : Direction) (first : Int64) :
    Lockstep R base 1 (countLoop rounds counter direction bound body first) :=
  .inBlock (.iterate (countRound_lockstep (hbound.mono (Nat.le_succ 1)) (hbody.mono (Nat.le_succ 1))
    Nat.one_lt_two counter direction) rounds first) Nat.one_pos

/-- An assignment with its value runs in lockstep. -/
theorem execAssign_lockstep (hregular : base.Regular R) (hcall : CallsLockstep R base site)
    (name : String) (op : AssignOp) (value : Expr) (sp : Option Span) :
    Lockstep R base 1 (execAssign site name op value sp) := by
  refine .bind (eval_lockstep hregular hcall value) fun v => ?_
  cases op.binary? with
  | none => exact .assign name v
  | some binary =>
      exact .bind (.lookup name) fun _ => .bind (.ofExcept _) fun _ => .assign name _

mutual

/-- Statements run in lockstep, by induction on the statement. -/
theorem exec_lockstep (hregular : base.Regular R) (hcall : CallsLockstep R base site) :
    ∀ s : Stmt, Lockstep R base 1 (exec site s)
  | .block body => inBlock_lockstep hregular hcall body
  | .declare _ value _ _ =>
    .bind (eval_lockstep hregular hcall value) fun _ => .bind (.declare _) fun _ => .pure _
  | .assign name op value sp =>
    .bind (execAssign_lockstep hregular hcall name op value sp) fun _ => .pure _
  | .call e _ => .bind (eval_lockstep hregular hcall e) fun _ => .pure _
  | .ifThen cond yes _ => .bind (evalBool_lockstep hregular hcall cond) fun b => by
      cases b with
      | true => exact inBlock_lockstep hregular hcall yes
      | false => exact .pure _
  | .ifThenElse cond yes no _ => .bind (evalBool_lockstep hregular hcall cond) fun b => by
      cases b with
      | true => exact inBlock_lockstep hregular hcall yes
      | false => exact inBlock_lockstep hregular hcall no
  | .whileDo cond body _ =>
    whileLoop_lockstep (evalBool_lockstep hregular hcall cond)
      (inBlock_lockstep hregular hcall body) _
  | .doWhile body cond _ =>
    doLoop_lockstep (inBlock_lockstep hregular hcall body)
      (evalBool_lockstep hregular hcall cond) _
  | .forCount counter start bound direction body _ =>
    .bind (evalInt_lockstep hregular hcall start) fun _ =>
      countLoop_lockstep (evalInt_lockstep hregular hcall bound)
        (execBody_lockstep hregular hcall body) _ counter direction _
  | .ret none _ => .pure _
  | .ret (some value) _ => .bind (eval_lockstep hregular hcall value) fun _ => .pure _
  | .brk _ => .pure _
  | .cont _ => .pure _
  | .other _ _ _ => .throw _

/-- A block runs in lockstep, and its own scope is gone on both machines afterwards. -/
theorem inBlock_lockstep (hregular : base.Regular R) (hcall : CallsLockstep R base site) :
    ∀ b : Block, Lockstep R base 1 (inBlock (execBody site b))
  | .mk stmts _ _ =>
    .inBlock ((execStmts_lockstep hregular hcall stmts).mono (Nat.le_succ 1)) Nat.one_pos

/-- The statements of a block run in lockstep. -/
theorem execBody_lockstep (hregular : base.Regular R) (hcall : CallsLockstep R base site) :
    ∀ b : Block, Lockstep R base 1 (execBody site b)
  | .mk stmts _ _ => execStmts_lockstep hregular hcall stmts

/-- Statements in a row run in lockstep. -/
theorem execStmts_lockstep (hregular : base.Regular R) (hcall : CallsLockstep R base site) :
    ∀ ss : List Stmt, Lockstep R base 1 (execStmts site ss)
  | [] => .pure _
  | s :: ss => .bind (exec_lockstep hregular hcall s) fun c => by
      cases c with
      | normal => exact execStmts_lockstep hregular hcall ss
      | brk => exact .pure _
      | cont => exact .pure _
      | ret v => exact .pure _

end

/-! ## Calls and programs -/

/-- The value of a call is made from its completion alone. -/
theorem callResult_lockstep (filename : Option String) (f : Function) (sp : Option Span)
    (c : Completion) : Lockstep R base d (callResult filename f sp c) := by
  unfold callResult
  split
  · exact .pure _
  · split
    · exact .pure _
    · exact .throw _
  · exact .throw _

/-- Declared functions are called in lockstep, whatever the number of calls that may be open. -/
theorem callDeclared_lockstep (hregular : base.Regular R) (filename : Option String)
    (rounds : Nat) : ∀ depth : Nat,
      CallsLockstep R base ⟨filename, rounds, callDeclared filename rounds depth⟩
  | 0 => fun _ _ _ _ _ => .throw _
  | depth + 1 => by
      intro f body args sp hnodup
      have hbody := inBlock_lockstep hregular
        (callDeclared_lockstep hregular filename rounds depth) body
      have hframe := Lockstep.inFrame (d := 1) hbody hnodup args
      have hall := hframe.bind fun c => callResult_lockstep filename f sp c
      simp only [bind_assoc] at hall
      exact hall

/-- The top-level statements run in lockstep. -/
theorem execTop_lockstep (hregular : base.Regular R) (hcall : CallsLockstep R base site) :
    ∀ ss : List Stmt, Lockstep R base 1 (execTop site ss)
  | [] => .pure _
  | s :: ss => .bind (exec_lockstep hregular hcall s) fun _ => execTop_lockstep hregular hcall ss

end Run

/-- The statements of a program, in a frame of their own. -/
def Program.steps (p : Program) (limits : Limits) : Run Unit := do
  let frame ← Run.openFrame
  Run.inFrame frame (Run.execTop (p.runSite limits) p.statements)

/-- A run is made of its steps on a machine with no block yet, and of what is kept of its end. -/
theorem Program.run_eq_steps (p : Program) (limits : Limits) (g : Handle) (a : Arena)
    (host : Host) :
    p.run limits g a host =
      let r := p.steps limits ⟨a, g, [], host⟩
      (r.1, r.2.arena, r.2.host) := rfl

/-- The calls of declared functions of a program run in lockstep. -/
theorem Program.runSite_lockstep (hregular : base.Regular R) (p : Program) (limits : Limits) :
    Run.CallsLockstep R base (p.runSite limits) :=
  Run.callDeclared_lockstep hregular p.filename limits.rounds limits.calls

/-- A program runs in lockstep. -/
theorem Program.steps_lockstep (hregular : base.Regular R) (p : Program) (limits : Limits) :
    Run.Lockstep R base 0 (p.steps limits) := by
  have hnodup : (([] : List Parameter).map (·.name)).Nodup := List.nodup_nil
  have hcall := p.runSite_lockstep hregular limits
  exact .inFrame (Run.execTop_lockstep hregular hcall p.statements) hnodup []

end Pigeon

import Pigeon.Proofs.Execution.Keep
import Pigeon.Proofs.Execution.Lockstep

/-!
# Expressions leave the frames alone

An expression changes nothing in the frames that are open: a function that it calls runs in a frame
of its own, which is closed again. A statement changes the current frame and none below it. What
both can change outside are the values of global variables that are not read-only.

`Machine.Retains base F m` says that the machine `m` shows the frames `F` and, up to such values,
the global environment `base`. Expressions keep it for every `F`, and statements keep it for the
frames below the current one (`Machine.RetainsBelow`); the two are proved together, by induction on
the tree and, for the calls, on the number of those that may be open.
-/

namespace Pigeon

/-! ## Global symbols that are rewritten -/

/-- The environment has the symbols of `base`, but variables that are not read-only may have other
values. -/
def Environment.Rewrites (env base : Environment) : Prop :=
  ∀ name, env name = base name ∨ ∃ v value, base name = some (.var v) ∧ v.readOnly = false ∧
    env name = some (.var { v with value := value })

namespace Environment.Rewrites

variable {env base : Environment}

/-- An environment rewrites itself. -/
theorem refl (env : Environment) : env.Rewrites env := fun _ => Or.inl rfl

/-- What is rewritten has the same symbols, up to values. -/
theorem revalues (h : env.Rewrites base) : env.Revalues base := by
  intro name
  rcases h name with heq | ⟨v, value, hv, -, heq⟩
  · rw [heq]
  · rw [heq, hv]
    rfl

/-- The functions are those of `base`. -/
theorem func_eq (h : env.Rewrites base) {name : String} {f : Function}
    (hf : env name = some (.func f)) : base name = some (.func f) := by
  rcases h name with heq | ⟨v, value, -, -, heq⟩
  · exact heq.symm.trans hf
  · rw [hf] at heq
    cases heq

/-- An operation gives variables that are not read-only other values at most. -/
theorem step {n : Nest} (h : n.globals.Rewrites base) (op : ScopeOp) :
    (n.step op).2.globals.Rewrites base := by
  intro name
  rcases n.step_globals op name with heq | ⟨v, value, hv, hwrite, heq⟩
  · rw [heq]
    exact h name
  · -- the variable may have been given another value before
    rcases h name with hold | ⟨u, old, hu, hro, hold⟩
    · exact Or.inr ⟨v, value, hold.symm.trans hv, hwrite, heq⟩
    · cases hv.symm.trans hold
      exact Or.inr ⟨u, value, hu, hro, heq⟩

end Environment.Rewrites

/-! ## What a machine retains -/

/-- The machine shows the frames, and the global symbols of `base` up to the values of variables
that are not read-only. -/
def Machine.Retains (base : Environment) (F : List (List Environment)) (m : Machine) : Prop :=
  ∃ n, m.Shows n ∧ n.globals.Rewrites base ∧ n.frames = F

/-- The machine shows the frames below the current one. -/
def Machine.RetainsBelow (base : Environment) (F : List (List Environment)) (m : Machine) : Prop :=
  ∃ f, m.Retains base (f :: F)

namespace Run

open Step

variable {α σ : Type} {I : Machine → Prop} {base : Environment} {F : List (List Environment)}

/-! ## Rules for composed steps -/

/-- What a step keeps holds after it, whether it has failed or not. -/
theorem keeps_state {x : Run α} {Q : α → Prop} (h : Keeps I x Q) {m : Machine} (hm : I m) :
    I (x m).2 := by
  have hx := h m hm
  unfold Yields at hx
  rcases heq : x m with ⟨r, t⟩
  rw [heq] at hx
  cases r with
  | ok a => exact hx.2
  | error e => exact hx

/-- A step that leads from each state with the property to such a state keeps it. -/
theorem keeps_of_state {x : Run α} (h : ∀ m, I m → I (x m).2) : Keeps I x fun _ => True := by
  intro m hm
  have hx := h m hm
  unfold Yields
  rcases heq : x m with ⟨r, t⟩
  rw [heq] at hx
  cases r with
  | ok a => exact ⟨trivial, hx⟩
  | error e => exact hx

/-- A clean-up is done on every way out of a step. -/
theorem andFinally_snd (x : Run α) (cleanUp : Run Unit) (m : Machine) :
    (andFinally x cleanUp m).2 = (cleanUp (x m).2).2 := by
  unfold andFinally
  rcases x m with ⟨r, t⟩
  rcases hclean : cleanUp t with ⟨r', u⟩
  cases r' with
  | ok v => simp only [hclean]
  | error e => simp only [hclean]

/-- Rounds keep what each round keeps, by induction on how many there may be. -/
theorem iterate_keeps {step : σ → Run (Completion ⊕ σ)}
    (h : ∀ s, Keeps I (step s) fun _ => True) :
    ∀ (rounds : Nat) (s : σ), Keeps I (iterate step rounds s) fun _ => True
  | 0, _ => .throw
  | rounds + 1, s => by
      refine .bind (h s) fun r _ => ?_
      cases r with
      | inl c => exact .pure trivial
      | inr s' => exact iterate_keeps h rounds s'

/-- A loop keeps what its test and its body keep. -/
theorem whileLoop_keeps {test : Run Bool} {body : Run Completion}
    (htest : Keeps I test fun _ => True) (hbody : Keeps I body fun _ => True) (rounds : Nat) :
    Keeps I (whileLoop rounds test body) fun _ => True := by
  refine iterate_keeps (fun _ => .bind htest fun b _ => ?_) rounds ()
  cases b with
  | true => exact .bind hbody fun _ _ => .pure trivial
  | false => exact .pure trivial

/-- A loop that tests after its body keeps what both keep. -/
theorem doLoop_keeps {test : Run Bool} {body : Run Completion}
    (hbody : Keeps I body fun _ => True) (htest : Keeps I test fun _ => True) (rounds : Nat) :
    Keeps I (doLoop rounds body test) fun _ => True := by
  refine iterate_keeps (fun _ => .bind hbody fun c _ => ?_) rounds ()
  cases afterRound () c with
  | inl c => exact .pure trivial
  | inr u =>
      refine .bind htest fun b _ => ?_
      cases b with
      | true => exact .pure trivial
      | false => exact .pure trivial

/-! ## The primitive steps -/

/-- Looking at a variable changes nothing at all. -/
theorem lookup_keeps_state (name : String) : Keeps I (lookup name) fun _ => True :=
  .bind frame_keeps fun _ _ => .bind .get_state fun _ _ => ofExcept_keeps fun _ _ => trivial

/-- Looking up a name does not change the machine. -/
theorem lookup_snd (name : String) (m : Machine) : (lookup name m).2 = m :=
  keeps_state (I := (· = m)) (lookup_keeps_state name) rfl

/-- A step that keeps whatever the frames are keeps in particular those below the current one. -/
theorem keeps_below {x : Run α} {Q : α → Prop} (h : ∀ F, Keeps (Machine.Retains base F) x Q) :
    Keeps (Machine.RetainsBelow base F) x Q := by
  rintro m ⟨f, hm⟩
  exact (h _ m hm).mono (fun _ _ hQ => ⟨hQ.1, f, hQ.2⟩) fun _ _ hm' => ⟨f, hm'⟩

/-- An operation on the current frame leaves those below it alone. -/
theorem Performs.keeps_below {x : Run α} {op : FrameOp} {answer : α → ScopeAnswer}
    (hx : Performs x op answer) : Keeps (Machine.RetainsBelow base F) x fun _ => True := by
  refine keeps_of_state ?_
  rintro m ⟨f, n, S, hbase, hframes⟩
  have hshows := (S.onFrame op).2
  rw [← hx.machine_eq] at hshows
  -- the operation fails and changes nothing, or it changes the first of the frames
  obtain ⟨f', hf'⟩ : ∃ f', (n.step (.onFrame 0 op)).2.frames = f' :: F := by
    rw [Nest.step]
    simp only [hframes, List.getElem?_cons_zero]
    split
    · next blocks _ => exact ⟨blocks, rfl⟩
    · exact ⟨f, hframes⟩
  exact ⟨f', _, hshows, hbase.step _, hf'⟩

/-- A block is opened around a step and closed on every way out of it. -/
theorem inBlock_keeps {x : Run α} (hx : Keeps (Machine.RetainsBelow base F) x fun _ => True) :
    Keeps (Machine.RetainsBelow base F) (inBlock x) fun _ => True := by
  refine .bind enter_performs.keeps_below fun _ _ => keeps_of_state fun m hm => ?_
  rw [andFinally_snd]
  exact keeps_state exit_performs.keeps_below (keeps_state hx hm)

/-- The function of a name is one of `base`, so it is regular. -/
theorem function_retains {R : Host → Host → Prop} (hregular : base.Regular R) (site : RunSite)
    (name : String) (sp : Option Span) :
    Keeps (Machine.Retains base F) (function site name sp) fun f => f.Regular R := by
  rintro m ⟨n, S, hbase, hframes⟩
  have heq := function_shows S site name sp
  cases hname : n.globals name with
  | none =>
      rw [hname] at heq
      exact .of_error heq ⟨n, S, hbase, hframes⟩
  | some s =>
      rw [hname] at heq
      cases s with
      | var v => exact .of_error heq ⟨n, S, hbase, hframes⟩
      | func f =>
          exact .of_ok heq ⟨hregular name f (hbase.func_eq hname), n, S, hbase, hframes⟩

/-- A callback sees the host only. -/
theorem callback_retains (c : Callback) (args : List Value) :
    Keeps (Machine.Retains base F) (callback c args) fun _ => True := by
  refine keeps_of_state ?_
  rintro m ⟨n, S, hbase, hframes⟩
  exact ⟨n, ⟨S.lies, S.view_eq⟩, hbase, hframes⟩

/-- A step in a new frame may do to that frame what it likes: it is gone afterwards. -/
theorem inFrame_retains {x : Run α} (hx : Keeps (Machine.RetainsBelow base F) x fun _ => True)
    {ps : List Parameter} (hnodup : (ps.map (·.name)).Nodup) (vs : List Value) :
    Keeps (Machine.Retains base F) (do
      let f ← openFrame
      bindParams f ps vs
      inFrame f x) fun _ => True := by
  refine keeps_of_state ?_
  rintro m ⟨n, S, hbase, hframes⟩
  obtain ⟨f, t, u, hopen, hbind, -, -, -, U⟩ := openFrame_shows S hnodup vs
  have hstart : Machine.RetainsBelow base F { u with frames := f :: u.frames } :=
    ⟨_, _, U, hbase, by rw [hframes]⟩
  obtain ⟨f', n', V, hbase', hframes'⟩ := keeps_state hx hstart
  -- the machine still has a frame to close, since it shows one
  obtain ⟨g, rest, hcurrent⟩ : ∃ g rest,
      (x { u with frames := f :: u.frames }).2.frames = g :: rest := by
    obtain ⟨G, F', L, rfl⟩ := V.exists_lies
    obtain ⟨b, F'', rfl, -, -⟩ := List.map_eq_cons_iff.mp hframes'
    exact ⟨_, _, L.frames⟩
  obtain ⟨w, hclose, W, -⟩ := close_shows V hcurrent
  have hrun : ((do
      let f ← openFrame
      bindParams f ps vs
      inFrame f x : Run α) m).2 = w := by
    rw [Step.bind_ok hopen, Step.bind_ok hbind]
    unfold inFrame
    rw [Step.bind_ok (Step.modify_apply _ u), andFinally_snd, hclose]
  rw [hrun]
  exact ⟨_, W, hbase', by rw [hframes']; rfl⟩

/-! ## Expressions -/

variable {site : RunSite} {R : Host → Host → Prop}

/-- The calls of declared functions leave all frames alone. -/
def CallsRetain (base : Environment) (site : RunSite) : Prop :=
  ∀ f body args sp, (f.params.map (·.name)).Nodup →
    ∀ F, Keeps (Machine.Retains base F) (site.call f body args sp) fun _ => True

/-- Asking for a Boolean does not change the machine. -/
theorem expectBool_keeps (v : Value) (sp : Option Span) :
    Keeps I (expectBool v sp) fun _ => True := by
  cases v with
  | bool b => exact .pure trivial
  | _ => exact .throw

/-- Asking for an integer does not change the machine. -/
theorem expectInt_keeps (v : Value) (sp : Option Span) :
    Keeps I (expectInt v sp) fun _ => True := by
  cases v with
  | int n => exact .pure trivial
  | _ => exact .throw

/-- A call leaves all frames alone: a callback reaches the host only, and declared functions do so
by hypothesis. -/
theorem callFunction_retains (hcall : CallsRetain base site) {f : Function} (hf : f.Regular R)
    (args : List Value) (sps : List (Option Span)) (sp : Option Span) :
    Keeps (Machine.Retains base F) (callFunction site f args sps sp) fun _ => True := by
  unfold callFunction
  split
  · next c _ =>
      refine .bind (checkNativeArguments_keeps _ _ _ _) fun _ _ =>
        .bind (callback_retains c args) fun p _ => ?_
      unfold nativeResult
      split
      · exact .pure trivial
      · exact .throw
      · exact .throw
      · exact .throw
  · next body hbody => exact hcall f body args sp (hf.params_nodup body hbody) F

mutual

/-- Evaluating an expression leaves all frames alone, by induction on the expression. -/
theorem eval_retains (hregular : base.Regular R) (hcall : CallsRetain base site) :
    ∀ e : Expr, Keeps (Machine.Retains base F) (eval site e) fun _ => True
  | .int _ _ => .pure trivial
  | .float _ _ => .pure trivial
  | .string _ _ => .pure trivial
  | .bool _ _ => .pure trivial
  | .var name _ => lookup_keeps_state name
  | .paren inner _ => eval_retains hregular hcall inner
  | .unary _ operand _ =>
    .bind (eval_retains hregular hcall operand) fun _ _ => ofExcept_keeps fun _ _ => trivial
  | .binary _ left right _ =>
    .bind (eval_retains hregular hcall left) fun _ _ =>
      .bind (eval_retains hregular hcall right) fun _ _ => ofExcept_keeps fun _ _ => trivial
  | .ternary cond yes no _ =>
    .bind (eval_retains hregular hcall cond) fun _ _ => .bind (expectBool_keeps _ _) fun _ _ =>
      .bind (eval_retains hregular hcall yes) fun _ _ =>
        .bind (eval_retains hregular hcall no) fun _ _ => .pure trivial
  | .call name args sp =>
    .bind (function_retains hregular site name sp) fun _ hf =>
      .bind (evalAll_retains hregular hcall args) fun _ _ => callFunction_retains hcall hf _ _ _
  | .other _ _ _ => .throw

/-- Evaluating expressions in a row leaves all frames alone. -/
theorem evalAll_retains (hregular : base.Regular R) (hcall : CallsRetain base site) :
    ∀ es : List Expr, Keeps (Machine.Retains base F) (evalAll site es) fun _ => True
  | [] => .pure trivial
  | e :: es => .bind (eval_retains hregular hcall e) fun _ _ =>
      .bind (evalAll_retains hregular hcall es) fun _ _ => .pure trivial

end

/-! ## Statements -/

/-- Evaluating an expression leaves the frames below the current one alone. -/
theorem eval_below (hregular : base.Regular R) (hcall : CallsRetain base site) (e : Expr) :
    Keeps (Machine.RetainsBelow base F) (eval site e) fun _ => True :=
  keeps_below fun _ => eval_retains hregular hcall e

/-- The same of evaluating a condition. -/
theorem evalBool_below (hregular : base.Regular R) (hcall : CallsRetain base site) (e : Expr) :
    Keeps (Machine.RetainsBelow base F) (evalBool site e) fun _ => True :=
  .bind (eval_below hregular hcall e) fun _ _ => expectBool_keeps _ _

/-- The same of evaluating a bound. -/
theorem evalInt_below (hregular : base.Regular R) (hcall : CallsRetain base site) (e : Expr) :
    Keeps (Machine.RetainsBelow base F) (evalInt site e) fun _ => True :=
  .bind (eval_below hregular hcall e) fun _ _ => expectInt_keeps _ _

/-- A counting loop leaves the frames below alone if its bound and its body do, as its counter is in
the current frame. -/
theorem countLoop_below {bound : Run Int64} {body : Run Completion}
    (hbound : Keeps (Machine.RetainsBelow base F) bound fun _ => True)
    (hbody : Keeps (Machine.RetainsBelow base F) body fun _ => True) (rounds : Nat)
    (counter : String) (direction : Direction) (first : Int64) :
    Keeps (Machine.RetainsBelow base F) (countLoop rounds counter direction bound body first)
      fun _ => True := by
  refine inBlock_keeps (iterate_keeps (fun n => ?_) rounds first)
  refine .bind (declare_performs _).keeps_below fun _ _ => .bind hbound fun last _ => ?_
  split
  · exact .pure trivial
  · refine .bind hbody fun c _ => ?_
    cases afterRound (n + direction.step) c with
    | inl c => exact .pure trivial
    | inr next =>
        exact .bind exit_performs.keeps_below fun _ _ =>
          .bind enter_performs.keeps_below fun _ _ => .pure trivial

/-- An assignment finds its variable in the current frame or among the globals. -/
theorem execAssign_below (hregular : base.Regular R) (hcall : CallsRetain base site)
    (name : String) (op : AssignOp) (value : Expr) (sp : Option Span) :
    Keeps (Machine.RetainsBelow base F) (execAssign site name op value sp) fun _ => True := by
  refine .bind (eval_below hregular hcall value) fun v _ => ?_
  cases op.binary? with
  | none => exact (assign_performs name v).keeps_below
  | some binary =>
      exact .bind (lookup_keeps_state name) fun _ _ =>
        .bind (ofExcept_keeps fun _ _ => trivial) fun _ _ => (assign_performs name _).keeps_below

mutual

/-- Running a statement leaves the frames below alone, by induction on the statement. -/
theorem exec_below (hregular : base.Regular R) (hcall : CallsRetain base site) :
    ∀ s : Stmt, Keeps (Machine.RetainsBelow base F) (exec site s) fun _ => True
  | .block body => inBlock_below hregular hcall body
  | .declare _ value _ _ =>
    .bind (eval_below hregular hcall value) fun _ _ =>
      .bind (declare_performs _).keeps_below fun _ _ => .pure trivial
  | .assign name op value sp =>
    .bind (execAssign_below hregular hcall name op value sp) fun _ _ => .pure trivial
  | .call e _ => .bind (eval_below hregular hcall e) fun _ _ => .pure trivial
  | .ifThen cond yes _ => .bind (evalBool_below hregular hcall cond) fun b _ => by
      cases b with
      | true => exact inBlock_below hregular hcall yes
      | false => exact .pure trivial
  | .ifThenElse cond yes no _ => .bind (evalBool_below hregular hcall cond) fun b _ => by
      cases b with
      | true => exact inBlock_below hregular hcall yes
      | false => exact inBlock_below hregular hcall no
  | .whileDo cond body _ =>
    whileLoop_keeps (evalBool_below hregular hcall cond) (inBlock_below hregular hcall body) _
  | .doWhile body cond _ =>
    doLoop_keeps (inBlock_below hregular hcall body) (evalBool_below hregular hcall cond) _
  | .forCount counter start bound direction body _ =>
    .bind (evalInt_below hregular hcall start) fun _ _ =>
      countLoop_below (evalInt_below hregular hcall bound) (execBody_below hregular hcall body) _
        counter direction _
  | .ret none _ => .pure trivial
  | .ret (some value) _ => .bind (eval_below hregular hcall value) fun _ _ => .pure trivial
  | .brk _ => .pure trivial
  | .cont _ => .pure trivial
  | .other _ _ _ => .throw

/-- The same of a block with a scope of its own. -/
theorem inBlock_below (hregular : base.Regular R) (hcall : CallsRetain base site) :
    ∀ b : Block, Keeps (Machine.RetainsBelow base F) (inBlock (execBody site b)) fun _ => True
  | .mk stmts _ _ => inBlock_keeps (execStmts_below hregular hcall stmts)

/-- The same of the statements of a block. -/
theorem execBody_below (hregular : base.Regular R) (hcall : CallsRetain base site) :
    ∀ b : Block, Keeps (Machine.RetainsBelow base F) (execBody site b) fun _ => True
  | .mk stmts _ _ => execStmts_below hregular hcall stmts

/-- The same of statements in a row. -/
theorem execStmts_below (hregular : base.Regular R) (hcall : CallsRetain base site) :
    ∀ ss : List Stmt, Keeps (Machine.RetainsBelow base F) (execStmts site ss) fun _ => True
  | [] => .pure trivial
  | s :: ss => .bind (exec_below hregular hcall s) fun c _ => by
      cases c with
      | normal => exact execStmts_below hregular hcall ss
      | brk => exact .pure trivial
      | cont => exact .pure trivial
      | ret v => exact .pure trivial

end

/-! ## Calls -/

/-- Making the value of a call from its completion does not change the machine. -/
theorem callResult_keeps_state (filename : Option String) (f : Function) (sp : Option Span)
    (c : Completion) : Keeps I (callResult filename f sp c) fun _ => True := by
  unfold callResult
  split
  · exact .pure trivial
  · split
    · exact .pure trivial
    · exact .throw
  · exact .throw

/-- A declared function runs in a frame of its own, however many calls may be open. -/
theorem callDeclared_retains (hregular : base.Regular R) (filename : Option String)
    (rounds : Nat) : ∀ depth : Nat,
      CallsRetain base ⟨filename, rounds, callDeclared filename rounds depth⟩
  | 0 => fun _ _ _ _ _ _ => .throw
  | depth + 1 => by
      intro f body args sp hnodup F
      have hcall := callDeclared_retains hregular filename rounds depth
      have hframe := inFrame_retains (F := F) (inBlock_below hregular hcall body) hnodup args
      have hall := hframe.bind fun c _ => callResult_keeps_state filename f sp c
      simp only [bind_assoc] at hall
      exact hall

end Run

/-- Evaluating an expression leaves all frames alone, and the global symbols up to the values of
variables that are not read-only. -/
theorem Program.eval_retains {R : Host → Host → Prop} {base : Environment}
    {F : List (List Environment)} (hregular : base.Regular R) (p : Program) (limits : Limits)
    (e : Expr) {m : Machine} (hm : m.Retains base F) :
    (Run.eval (p.runSite limits) e m).2.Retains base F :=
  Run.keeps_state (Run.eval_retains hregular
    (Run.callDeclared_retains hregular p.filename limits.rounds limits.calls) e) hm

end Pigeon

import Pigeon.Proofs.Execution.Call
import Pigeon.Proofs.Execution.Keep
import Pigeon.Proofs.Typing.Premise

/-!
# Variables are never void

A variable is *solid* if it has a value other than `void`. The rules give `void` to no variable and
to no argument, so a run of a typed program should keep all variables solid. It does so in a *firm*
setting, where a conditional expression is void if its second branch is: the rules look at its
first branch alone, and the value may come from either.

An operator never gives `void`, and neither does a variable. So `void` can only come from a call, and
`Ty.Permits` follows it from there to the place where the rules exclude it.
-/

namespace Pigeon

/-! ## Operators -/

/-- No unary operator gives `void`. -/
theorem UnOp.ty_ne_void_of_apply {op : UnOp} {v x : Value} {sp : Option Span}
    (h : op.apply v sp = .ok x) : x.ty ≠ .void := by
  unfold UnOp.apply at h
  split at h <;> cases h <;> nofun

namespace BinOp

variable {op : BinOp} {x : Value}

/-- No operator on integers gives `void`. -/
theorem ty_ne_void_of_applyInt {a b : Int64} {sp : Option Span}
    (h : op.applyInt a b sp = .ok (some x)) : x.ty ≠ .void := by
  unfold applyInt at h
  split at h
  case h_4 | h_5 =>
    split at h
    · cases h
    · cases h
      nofun
  all_goals
    cases h
    try nofun

/-- No operator on floats gives `void`. -/
theorem ty_ne_void_of_applyFloat {a b : Float} (h : op.applyFloat a b = some x) :
    x.ty ≠ .void := by
  unfold applyFloat at h
  split at h <;> cases h <;> nofun

/-- Joining texts does not give `void`. -/
theorem ty_ne_void_of_concat {l r : Value} (h : op.concat l r = some x) : x.ty ≠ .void := by
  unfold concat at h
  split at h <;> cases h
  nofun

/-- No meaning that the tags of the operands select gives `void`. -/
theorem ty_ne_void_of_applyTagged {l r : Value} {sp : Option Span}
    (h : op.applyTagged l r sp = .ok (some x)) : x.ty ≠ .void := by
  unfold applyTagged at h
  split at h
  · exact ty_ne_void_of_applyInt h
  · exact ty_ne_void_of_applyFloat (Except.ok.inj h)
  · exact ty_ne_void_of_applyFloat (Except.ok.inj h)
  · exact ty_ne_void_of_applyFloat (Except.ok.inj h)
  · split at h
    · cases h
      nofun
    · cases h
      nofun
    · exact ty_ne_void_of_concat (Except.ok.inj h)
  · exact ty_ne_void_of_concat (Except.ok.inj h)

/-- No binary operator gives `void`. -/
theorem ty_ne_void_of_apply {l r : Value} {sp : Option Span} (h : op.apply l r sp = .ok x) :
    x.ty ≠ .void := by
  unfold apply at h
  split at h
  · cases h
    nofun
  · cases h
    nofun
  · cases h
  · split at h
    · cases h
    · next hv =>
        cases h
        exact ty_ne_void_of_applyTagged hv
    · cases h

end BinOp

/-! ## Solid symbols -/

variable {w : Setting} {Γ : Context}

/-- The variable has a value other than `void`. -/
def Variable.Solid (v : Variable) : Prop := ∃ value, v.value = some value ∧ value.ty ≠ .void

/-- The value of a solid variable is not `void`. -/
theorem Variable.Solid.ty_ne_void {v : Variable} (h : v.Solid) {value : Value}
    (hvalue : v.value = some value) : value.ty ≠ .void := by
  obtain ⟨found, hfound, hne⟩ := h
  rw [hvalue] at hfound
  cases hfound
  exact hne

/-- A variable is solid, and a function is what the globals say. -/
def Setting.Solid (w : Setting) (x : String × Symbol) : Prop :=
  match x.2 with
  | .var v => v.Solid
  | .func f => w.globals x.1 = some (.func f.signature) ∧ w.Callable f

/-- Every variable of every scope that is alive is solid. -/
def Arena.Solid (a : Arena) : Prop := a.All fun x => ∀ v, x.2 = .var v → v.Solid

/-- Where all symbols are solid, all variables are. -/
theorem Arena.All.solid {a : Arena} (H : a.All w.Solid) : a.Solid := by
  refine H.mono ?_
  rintro ⟨name, _⟩ hx v rfl
  exact hx

/-- What is looked up in a solid variable is not void. -/
theorem Arena.Solid.lookup_ne_void {m : Machine} (H : m.arena.Solid) {name : String} {value : Value}
    (h : (Run.lookup name m).1 = .ok value) : value.ty ≠ .void := by
  have hlookup := Run.lookup_keeps name m H
  unfold Step.Yields at hlookup
  rcases hrun : Run.lookup name m with ⟨r, m'⟩
  rw [hrun] at h hlookup
  cases h
  obtain ⟨⟨v, hv, hvalue⟩, -⟩ := hlookup
  exact (hv v rfl).ty_ne_void hvalue

/-- No variable of the context is void. -/
def Context.Solid (Γ : Context) : Prop := ∀ block ∈ Γ, ∀ v ∈ block, v.ty ≠ .void

/-- The natives are registered, the program follows the rules, and where the second branch of a
conditional expression is void, the first one is. -/
structure Setting.Firm (w : Setting) : Prop where
  registered : w.natives.Registered
  wellTyped : w.program.WellTyped w.natives
  branches : ∀ (k : Nat) (Γ : Context) (c y n : Expr) (sp : Option Span) (t : Ty),
    Listed w.sites k ((Expr.ternary c y n sp).sites Γ) →
    HasType w.globals Γ y t → HasType w.globals Γ n .void → t = .void

/-- A block of variables that are not `void` keeps a context solid. -/
theorem Context.Solid.push (hΓ : Γ.Solid) {block : List Binding} (h : ∀ v ∈ block, v.ty ≠ .void) :
    Context.Solid (block :: Γ) :=
  List.forall_mem_cons.mpr ⟨h, hΓ⟩

/-- A new block has no variables yet. -/
theorem Context.Solid.enter (hΓ : Γ.Solid) : Context.Solid ([] :: Γ) :=
  hΓ.push (List.forall_mem_nil _)

theorem Context.solid_nil : Context.Solid [] := List.forall_mem_nil _

/-- The declaration of a variable that is not `void` keeps a context solid. -/
theorem Context.Solid.declare (hΓ : Γ.Solid) {v : Binding} (hv : v.ty ≠ .void) :
    (Context.declare v Γ).Solid := by
  cases Γ with
  | nil => exact hΓ
  | cons block outer =>
      obtain ⟨hblock, houter⟩ := List.forall_mem_cons.mp hΓ
      refine Context.Solid.push houter fun u hu => ?_
      rw [List.mem_append, List.mem_singleton] at hu
      rcases hu with hu | rfl
      · exact hblock u hu
      · exact hv

/-- The block of a counting loop declares an integer, so the context stays solid. -/
theorem Context.Solid.counting (hΓ : Γ.Solid) (counter : String) : (Γ.counting counter).Solid := by
  refine hΓ.push fun v hv => ?_
  rw [List.mem_singleton] at hv
  rw [hv]
  nofun

/-- The context after a statement has no void variable either. -/
theorem StmtTyped.solid {Δ : Globals} {ret : Option Ty} {loop : Bool} {Γ' : Context} {s : Stmt}
    (h : StmtTyped Δ ret loop Γ s Γ') (hΓ : Γ.Solid) : Γ'.Solid := by
  cases h with
  | declare _ ht _ => exact hΓ.declare ht
  | _ => exact hΓ

/-- No native variable is void. -/
theorem Natives.Registered.globals_ne_void {natives : Natives} (hn : natives.Registered)
    {p : Program} {name : String} {t : Ty} {readOnly : Bool}
    (h : p.globals natives name = some (.var t readOnly)) : t ≠ .void := by
  have hmem := mem_of_lookup h
  rw [Natives.entities, List.mem_append, List.mem_append, List.mem_map, List.mem_map,
    List.mem_filterMap] at hmem
  rcases hmem with (⟨v, hv, heq⟩ | ⟨f, -, heq⟩) | ⟨d, -, heq⟩
  · cases heq
    exact (hn.vars_fit v hv).1
  · cases heq
  · unfold FuncDecl.entity? at heq
    split at heq <;> cases heq

/-- A name stands for no void variable. -/
theorem Setting.Firm.resolve_ne_void (hw : w.Firm) (hΓ : Γ.Solid) {name : String} {t : Ty}
    {readOnly : Bool} (h : Context.resolve w.globals Γ name = some (t, readOnly)) :
    t ≠ .void := by
  unfold Context.resolve at h
  split at h
  · next v hfind =>
      cases h
      obtain ⟨block, hblock, hv⟩ := List.exists_of_findSome?_eq_some hfind
      exact hΓ block hblock v (List.mem_of_find?_eq_some hv)
  · split at h
    · next hglobal =>
        cases h
        exact hw.registered.globals_ne_void hglobal
    · cases h

/-! ## Expressions -/

/-- The value is void only if the type is. -/
def Ty.Permits (t : Ty) (v : Value) : Prop := v.ty = .void → t = .void

/-- A value other than `void` is permitted where any type is. -/
theorem Ty.Permits.of_ne_void {t : Ty} {v : Value} (h : v.ty ≠ .void) : t.Permits v :=
  fun hv => absurd hv h

/-- Calling a function of the program with values that are not void keeps all variables solid. -/
def Setting.CallsSolid (w : Setting) (call : Caller) : Prop :=
  ∀ (d : FuncDecl) (f : Function) (args : List Value) (sp : Option Span),
    d ∈ w.program.functions → d.WellTyped w.globals f → (∀ v ∈ args, v.ty ≠ .void) →
    Step.Keeps (Trace.Kept w.Solid) (call f d.body args sp) f.returns.Permits

/-- Arguments that are accepted are not void. -/
theorem Ty.AcceptAll.ne_void {ps types : List Ty} {vs : List Value} (h : Ty.AcceptAll ps types)
    (hvs : List.Forall₂ Ty.Permits types vs) : ∀ v ∈ vs, v.ty ≠ .void := by
  induction h generalizing vs with
  | nil =>
      cases hvs
      nofun
  | cons hp _ ih =>
      cases hvs with
      | cons hv hrest =>
          exact List.forall_mem_cons.mpr ⟨fun hvoid => Ty.ne_void_of_accepts hp (hv hvoid), ih hrest⟩

namespace Trace

open Step

variable {site : RunSite} {call : Caller} {ret : Option Ty} {P : String × Symbol → Prop}

/-- Asking for a Boolean changes no symbol. -/
theorem expectBool_keeps (v : Value) (sp : Option Span) :
    Keeps (Kept P) (Logged.lift (Run.expectBool v sp)) fun _ => True := by
  refine lift_keeps ?_
  cases v with
  | bool b => exact .pure trivial
  | _ => exact .throw

/-- Asking for an integer changes no symbol. -/
theorem expectInt_keeps (v : Value) (sp : Option Span) :
    Keeps (Kept P) (Logged.lift (Run.expectInt v sp)) fun _ => True := by
  refine lift_keeps ?_
  cases v with
  | int n => exact .pure trivial
  | _ => exact .throw

/-- What is looked up in a variable is not void. -/
theorem lookup_keeps (name : String) :
    Keeps (Kept w.Solid) (Logged.lift (Run.lookup name)) fun value => value.ty ≠ .void := by
  refine lift_keeps ((Run.lookup_keeps name).mono ?_)
  rintro value ⟨v, hv, hvalue⟩
  exact Variable.Solid.ty_ne_void hv hvalue

/-- An assignment of a value other than `void` keeps all symbols solid. -/
theorem assign_keeps (name : String) {value : Value} (hvalue : value.ty ≠ .void) :
    Keeps (Kept w.Solid) (Logged.lift (Run.assign name value)) fun _ => True :=
  lift_keeps (Run.assign_keeps fun _ _ => ⟨value, rfl, hvalue⟩)

/-- A call with no `void` among its arguments keeps all symbols solid, and gives `void` only if the
function has no results. -/
theorem callFunction_keeps (hcall : w.CallsSolid call) {f : Function} (hf : w.Callable f)
    {args : List Value} (hargs : ∀ v ∈ args, v.ty ≠ .void) (k : Nat) (spans : List (Option Span))
    (sp : Option Span) :
    Keeps (Kept w.Solid) (callFunction call k f args spans sp) f.returns.Permits := by
  unfold callFunction
  rcases hf with ⟨n, hn, rfl⟩ | ⟨d, hd, W⟩
  · -- whatever a native function gives is fitted to its result type
    refine .bind (observe_keeps _ _) fun _ _ => lift_keeps ?_
    refine (Run.callNative_keeps _ _ _ _).mono fun v hv hvoid => ?_
    rw [← hv, hvoid]
  · rw [(FuncDecl.toFunction_ok W.function).2.2]
    exact hcall d f args sp hd W hargs

mutual

/-- An expression keeps all variables solid, and is void only if its type is. -/
theorem eval_keeps (hw : w.Firm) (hcall : w.CallsSolid call) :
    ∀ (e : Expr) (t : Ty) (k : Nat), HasType w.globals Γ e t → Listed w.sites k (e.sites Γ) →
      Keeps (Kept w.Solid) (eval site call k e) t.Permits
  | .int _ _, _, _, _, _ => evaluated_keeps (.pure (.of_ne_void nofun))
  | .float _ _, _, _, _, _ => evaluated_keeps (.pure (.of_ne_void nofun))
  | .string _ _, _, _, _, _ => evaluated_keeps (.pure (.of_ne_void nofun))
  | .bool _ _, _, _, _, _ => evaluated_keeps (.pure (.of_ne_void nofun))
  | .var name _, _, _, _, _ =>
    evaluated_keeps (.bind (observe_keeps _ _) fun _ _ =>
      (lookup_keeps name).mono fun _ => .of_ne_void)
  | .paren e _, t, k, h, hk => by
      rw [Expr.sites_paren] at hk
      cases h with
      | paren he => exact evaluated_keeps (eval_keeps hw hcall e t _ he hk.tail)
  | .unary op e sp, t, k, h, hk => by
      rw [Expr.sites_unary] at hk
      cases h with
      | unary he _ =>
          refine evaluated_keeps (.bind (eval_keeps hw hcall e _ _ he hk.tail) fun v _ => ?_)
          exact lift_keeps (Run.ofExcept_keeps fun x hx =>
            .of_ne_void (UnOp.ty_ne_void_of_apply hx))
  | .binary op l r sp, t, k, h, hk => by
      rw [Expr.sites_binary] at hk
      have hr' := hk.tail.after_expr
      cases h with
      | binary hl hr _ _ _ =>
          refine evaluated_keeps (.bind (eval_keeps hw hcall l _ _ hl hk.tail.left) fun lv _ => ?_)
          refine .bind (eval_keeps hw hcall r _ _ hr hr') fun rv _ => ?_
          exact lift_keeps (Run.ofExcept_keeps fun x hx =>
            .of_ne_void (BinOp.ty_ne_void_of_apply hx))
  | .ternary c y n sp, t, k, h, hk => by
      have hbranches := hw.branches k Γ c y n sp t hk
      rw [Expr.sites_ternary] at hk
      have hrest := hk.tail.after_expr
      have hn' := hrest.after_expr
      cases h with
      | ternary hc hy hn =>
          refine evaluated_keeps (.bind (eval_keeps hw hcall c _ _ hc hk.tail.left) fun cv _ => ?_)
          refine .bind (expectBool_keeps cv c.span) fun b _ => ?_
          refine .bind (eval_keeps hw hcall y _ _ hy hrest.left) fun yv hyv => ?_
          refine .bind (eval_keeps hw hcall n _ _ hn hn') fun nv hnv => .pure ?_
          cases b with
          | true => exact hyv
          | false =>
              -- the value comes from the branch that the rules do not look at
              intro hvoid
              obtain rfl := hnv hvoid
              exact hbranches hy hn
  | .call name args sp, t, k, h, hk => by
      rw [Expr.sites_call] at hk
      cases h with
      | call hname hargs =>
          obtain ⟨types, htypes, haccepted⟩ := hargs.types
          refine evaluated_keeps (.bind (lift_keeps (Run.function_keeps site name sp)) ?_)
          rintro f ⟨hf, hcallable⟩
          refine .bind (evalAll_keeps hw hcall args types _ htypes hk.tail) fun vs hvs => ?_
          obtain rfl : f.returns = t := by
            rw [hname] at hf
            cases hf
            rfl
          exact callFunction_keeps hcall hcallable (haccepted.ne_void hvs) _ _ sp
  | .other _ _ _, _, _, h, _ => by cases h

/-- Expressions keep all variables solid, and each is void only if its type is. -/
theorem evalAll_keeps (hw : w.Firm) (hcall : w.CallsSolid call) :
    ∀ (es : List Expr) (types : List Ty) (k : Nat), List.Forall₂ (HasType w.globals Γ) es types →
      Listed w.sites k (Expr.sitesAll Γ es) →
      Keeps (Kept w.Solid) (evalAll site call k es) (List.Forall₂ Ty.Permits types)
  | [], types, k, h, hk => by
      cases h
      exact .pure .nil
  | e :: es, types, k, h, hk => by
      rw [Expr.sitesAll_cons] at hk
      have hrest := hk.after_expr
      cases h with
      | cons he hes =>
          refine .bind (eval_keeps hw hcall e _ _ he hk.left) fun v hv => ?_
          refine .bind (evalAll_keeps hw hcall es _ _ hes hrest) fun vs hvs => ?_
          exact .pure (.cons hv hvs)

end

/-- Evaluating a typed condition keeps all symbols solid. -/
theorem evalBool_keeps (hw : w.Firm) (hcall : w.CallsSolid call) {e : Expr} {t : Ty} {k : Nat}
    (h : HasType w.globals Γ e t) (hk : Listed w.sites k (e.sites Γ)) :
    Keeps (Kept w.Solid) (evalBool site call k e) fun _ => True :=
  .bind (eval_keeps hw hcall e t k h hk) fun v _ => expectBool_keeps v e.span

/-- Evaluating a typed bound keeps all symbols solid. -/
theorem evalInt_keeps (hw : w.Firm) (hcall : w.CallsSolid call) {e : Expr} {t : Ty} {k : Nat}
    (h : HasType w.globals Γ e t) (hk : Listed w.sites k (e.sites Γ)) :
    Keeps (Kept w.Solid) (evalInt site call k e) fun _ => True :=
  .bind (eval_keeps hw hcall e t k h hk) fun v _ => expectInt_keeps v e.span

end Trace

/-! ## Statements -/

/-- A function with the result type `ret` returns `void` only if this is its result type. -/
def Completion.Permitted (ret : Option Ty) : Completion → Prop
  | .ret v => ∃ t, ret = some t ∧ t.Permits v
  | _ => True

/-- A loop passes on what its body returns. -/
theorem Completion.Permitted.afterRound {σ : Type} {ret : Option Ty} {c : Completion} (next : σ)
    (h : c.Permitted ret) : Trace.Closes (·.Permitted ret) (Run.afterRound next c) := by
  cases c with
  | normal => trivial
  | brk => trivial
  | cont => trivial
  | ret v => exact h

namespace Trace

open Step

variable {site : RunSite} {call : Caller} {ret : Option Ty} {test : Trace Bool}
  {body : Trace Completion}

/-- A round of a loop keeps what its test and its body keep. -/
theorem whileRound_keeps {P : String × Symbol → Prop}
    (htest : Keeps (Kept P) test fun _ => True) (hbody : Keeps (Kept P) body (·.Permitted ret)) :
    Keeps (Kept P) (whileRound test body ()) (Closes (·.Permitted ret)) := by
  refine .bind htest fun b _ => ?_
  cases b with
  | false => exact .pure trivial
  | true => exact .bind hbody fun c hc => .pure (hc.afterRound ())

/-- A round of a loop that tests after its body keeps what both keep. -/
theorem doRound_keeps {P : String × Symbol → Prop}
    (hbody : Keeps (Kept P) body (·.Permitted ret)) (htest : Keeps (Kept P) test fun _ => True) :
    Keeps (Kept P) (doRound body test ()) (Closes (·.Permitted ret)) := by
  refine .bind hbody fun c hc => ?_
  have hround := hc.afterRound ()
  generalize Run.afterRound () c = round at hround ⊢
  cases round with
  | inl c' => exact .pure hround
  | inr u =>
      refine .bind htest fun b _ => ?_
      cases b with
      | false => exact .pure trivial
      | true => exact .pure trivial

/-- A round of a counting loop stores an integer into its counter, and keeps what its bound and body
keep. -/
theorem countRound_keeps {counter : String} {direction : Direction} {bound : Trace Int64}
    (hbound : Keeps (Kept w.Solid) bound fun _ => True)
    (hbody : Keeps (Kept w.Solid) body (·.Permitted ret)) (n : Int64) :
    Keeps (Kept w.Solid) (countRound counter direction bound body n)
      (Closes (·.Permitted ret)) := by
  refine .bind (lift_keeps (Run.declare_keeps ⟨.int n, rfl, nofun⟩)) fun _ _ => ?_
  refine .bind hbound fun last _ => ?_
  split
  · exact .pure trivial
  · refine .bind hbody fun c hc => ?_
    have hround := hc.afterRound (n + direction.step)
    generalize Run.afterRound (n + direction.step) c = round at hround ⊢
    cases round with
    | inl c' => exact .pure hround
    | inr next =>
        exact .bind (lift_keeps Run.exit_keeps) fun _ _ =>
          .bind (lift_keeps Run.enter_keeps) fun _ _ => .pure trivial

/-- An assignment that the rules allow gives no variable the value `void`. -/
theorem execAssign_keeps (hw : w.Firm) (hcall : w.CallsSolid call) (hΓ : Γ.Solid) {name : String}
    {op : AssignOp} {e : Expr} {sp : Option Span} {k : Nat} {loop : Bool} {Γ' : Context}
    (h : StmtTyped w.globals ret loop Γ (.assign name op e sp) Γ')
    (hk : Listed w.sites (k + 1) (e.sites Γ)) :
    Keeps (Kept w.Solid) (execAssign site call k name op e sp) fun _ => True := by
  unfold execAssign
  cases h with
  | assign hname he hop =>
      -- the value has the type of the variable, which no context lets be void
      refine .bind (eval_keeps hw hcall e _ _ he hk) fun v hv => ?_
      refine .bind (observe_keeps _ _) fun _ _ => ?_
      rw [hop]
      exact assign_keeps name fun hvoid => hw.resolve_ne_void hΓ hname (hv hvoid)
  | update hname he hop _ =>
      -- the value is the result of an operator
      refine .bind (eval_keeps hw hcall e _ _ he hk) fun v _ => ?_
      refine .bind (observe_keeps _ _) fun _ _ => ?_
      rw [hop]
      refine .bind (lookup_keeps name) fun old _ => ?_
      refine .bind (lift_keeps (Run.ofExcept_keeps fun x hx => BinOp.ty_ne_void_of_apply hx)) ?_
      exact fun new hnew => assign_keeps name hnew

mutual

/-- A statement that follows the rules keeps all variables solid. -/
theorem exec_keeps (hw : w.Firm) (hcall : w.CallsSolid call) :
    ∀ (s : Stmt) (loop : Bool) (Γ Γ₁ : Context) (k : Nat), Γ.Solid →
      StmtTyped w.globals ret loop Γ s Γ₁ → Listed w.sites k (s.sites w.globals Γ) →
      Keeps (Kept w.Solid) (exec site call k s) (·.Permitted ret)
  | .block b, loop, Γ, Γ₁, k, hΓ, h, hk => by
      rw [Stmt.sites] at hk
      cases h with
      | block hb => exact executed_keeps (execBlock_keeps hw hcall b loop Γ _ _ hΓ hb hk.tail)
  | .declare name e isConst sp, loop, Γ, Γ₁, k, hΓ, h, hk => by
      rw [Stmt.sites] at hk
      cases h with
      | declare he ht _ =>
          -- `void` is the type of no variable, so the value is not void either
          refine executed_keeps (.bind (eval_keeps hw hcall e _ _ he hk.tail) fun v hv => ?_)
          exact .bind (lift_keeps (Run.declare_keeps ⟨v, rfl, fun hvoid => ht (hv hvoid)⟩))
            fun _ _ => .pure trivial
  | .assign name op e sp, loop, Γ, Γ₁, k, hΓ, h, hk => by
      rw [Stmt.sites] at hk
      exact executed_keeps (.bind (execAssign_keeps hw hcall hΓ h hk.tail) fun _ _ => .pure trivial)
  | .call e sp, loop, Γ, Γ₁, k, hΓ, h, hk => by
      rw [Stmt.sites] at hk
      cases h with
      | call he =>
          exact executed_keeps (.bind (eval_keeps hw hcall e _ _ he hk.tail) fun _ _ =>
            .pure trivial)
  | .ifThen c y sp, loop, Γ, Γ₁, k, hΓ, h, hk => by
      rw [Stmt.sites] at hk
      have hy' := hk.tail.after_expr
      cases h with
      | ifThen hc hy =>
          refine executed_keeps (.bind (evalBool_keeps hw hcall hc hk.tail.left) fun b _ => ?_)
          cases b with
          | false => exact .pure trivial
          | true => exact execBlock_keeps hw hcall y loop Γ _ _ hΓ hy hy'
  | .ifThenElse c y n sp, loop, Γ, Γ₁, k, hΓ, h, hk => by
      rw [Stmt.sites] at hk
      have hy' := hk.tail.after_expr
      have hn' := hy'.after_block
      cases h with
      | ifThenElse hc hy hn =>
          refine executed_keeps (.bind (evalBool_keeps hw hcall hc hk.tail.left) fun b _ => ?_)
          cases b with
          | false => exact execBlock_keeps hw hcall n loop Γ _ _ hΓ hn hn'
          | true => exact execBlock_keeps hw hcall y loop Γ _ _ hΓ hy hy'.left
  | .whileDo c b sp, loop, Γ, Γ₁, k, hΓ, h, hk => by
      rw [Stmt.sites] at hk
      have hb' := hk.tail.after_expr
      cases h with
      | whileDo hc hb =>
          refine executed_keeps (iterate_keeps (fun _ => whileRound_keeps ?_ ?_) _ _)
          · exact evalBool_keeps hw hcall hc hk.tail.left
          · exact execBlock_keeps hw hcall b true Γ _ _ hΓ hb hb'
  | .doWhile b c sp, loop, Γ, Γ₁, k, hΓ, h, hk => by
      rw [Stmt.sites] at hk
      have hc' := hk.tail.after_block
      cases h with
      | doWhile hb hc =>
          refine executed_keeps (iterate_keeps (fun _ => doRound_keeps ?_ ?_) _ _)
          · exact execBlock_keeps hw hcall b true Γ _ _ hΓ hb hk.tail.left
          · exact evalBool_keeps hw hcall hc hc'
  | .forCount counter start bound direction b sp, loop, Γ, Γ₁, k, hΓ, h, hk => by
      rw [Stmt.sites] at hk
      have hbound' := hk.tail.after_expr
      have hb' := hbound'.after_expr
      cases h with
      | forCount hstart hbound hb =>
          refine executed_keeps (.bind (evalInt_keeps hw hcall hstart hk.tail.left) fun _ _ => ?_)
          refine inBlock_keeps (iterate_keeps (countRound_keeps ?_ ?_) _ _)
          · exact evalInt_keeps hw hcall hbound hbound'.left
          · exact execBody_keeps hw hcall b true _ _ _ (hΓ.counting counter) hb hb'
  | .ret none sp, loop, Γ, Γ₁, k, hΓ, h, hk => by
      -- it gives `void`, which the rules allow where this is the result type
      cases h with
      | retVoid hret => exact executed_keeps (.pure ⟨.void, hret, fun _ => rfl⟩)
  | .ret (some e) sp, loop, Γ, Γ₁, k, hΓ, h, hk => by
      rw [Stmt.sites] at hk
      cases h with
      | ret he _ hret =>
          exact executed_keeps (.bind (eval_keeps hw hcall e _ _ he hk.tail) fun v hv =>
            .pure ⟨_, hret, hv⟩)
  | .brk sp, _, _, _, _, _, _, _ => executed_keeps (.pure trivial)
  | .cont sp, _, _, _, _, _, _, _ => executed_keeps (.pure trivial)
  | .other _ _ _, _, _, _, _, _, h, _ => by cases h

/-- A block in a scope of its own keeps all variables solid. -/
theorem execBlock_keeps (hw : w.Firm) (hcall : w.CallsSolid call) :
    ∀ (b : Block) (loop : Bool) (Γ Γ₁ : Context) (k : Nat), Γ.Solid →
      StmtsTyped w.globals ret loop ([] :: Γ) b.stmts Γ₁ →
      Listed w.sites k (b.sites w.globals Γ ([] :: Γ)) →
      Keeps (Kept w.Solid) (execBlock site call k b) (·.Permitted ret)
  | .mk stmts _ _, loop, Γ, Γ₁, k, hΓ, h, hk => by
      rw [Block.sites] at hk
      exact .bind (observe_keeps _ _) fun _ _ =>
        inBlock_keeps (execStmts_keeps hw hcall stmts loop _ _ _ hΓ.enter h hk.tail)

/-- A block in the scope that is open keeps all variables solid. -/
theorem execBody_keeps (hw : w.Firm) (hcall : w.CallsSolid call) :
    ∀ (b : Block) (loop : Bool) (Γ Γ₁ : Context) (k : Nat), Γ.Solid →
      StmtsTyped w.globals ret loop Γ b.stmts Γ₁ → Listed w.sites k (b.sites w.globals Γ Γ) →
      Keeps (Kept w.Solid) (execBody site call k b) (·.Permitted ret)
  | .mk stmts _ _, loop, Γ, Γ₁, k, hΓ, h, hk => by
      rw [Block.sites] at hk
      exact .bind (observe_keeps _ _) fun _ _ =>
        execStmts_keeps hw hcall stmts loop _ _ _ hΓ h hk.tail

/-- Statements that follow the rules keep all variables solid. -/
theorem execStmts_keeps (hw : w.Firm) (hcall : w.CallsSolid call) :
    ∀ (ss : List Stmt) (loop : Bool) (Γ Γ₁ : Context) (k : Nat), Γ.Solid →
      StmtsTyped w.globals ret loop Γ ss Γ₁ → Listed w.sites k (Stmt.sitesAll w.globals Γ ss) →
      Keeps (Kept w.Solid) (execStmts site call k ss) (·.Permitted ret)
  | [], _, _, _, _, _, _, _ => .pure trivial
  | s :: ss, loop, Γ, Γ₁, k, hΓ, h, hk => by
      rw [Stmt.sitesAll] at hk
      have hrest := hk.after_stmt
      cases h with
      | cons hs hss =>
          rw [hs.after_eq] at hrest
          refine .bind (exec_keeps hw hcall s loop Γ _ k hΓ hs hk.left) fun c hc => ?_
          cases c with
          | normal => exact execStmts_keeps hw hcall ss loop _ Γ₁ _ (hs.solid hΓ) hss hrest
          | brk => exact .pure hc
          | cont => exact .pure hc
          | ret v => exact .pure hc

end

end Trace

/-! ## Calls and programs -/

/-- Parameters are bound to the arguments, none of which is void. -/
theorem Run.bindParams_keeps (f : Frame) :
    ∀ (ps : List Parameter) (vs : List Value), (∀ v ∈ vs, v.ty ≠ .void) →
      Step.Keeps (Machine.All w.Solid) (bindParams f ps vs) fun _ => True
  | [], _, _ => .pure trivial
  | _ :: _, [], _ => .pure trivial
  | _ :: ps, v :: vs, h => by
      obtain ⟨hv, hvs⟩ := List.forall_mem_cons.mp h
      exact .bind (declareIn_keeps f ⟨v, rfl, hv⟩) fun _ _ => bindParams_keeps f ps vs hvs

/-- A call is void only if this is the result type of the function. -/
theorem Run.callResult_keeps (filename : Option String) (f : Function) (sp : Option Span)
    {c : Completion} (hc : c.Permitted (some f.returns)) :
    Step.Keeps (Machine.All w.Solid) (callResult filename f sp c) f.returns.Permits := by
  cases c with
  | normal =>
      rw [callResult]
      split
      · next hvoid => exact .pure fun _ => hvoid
      · exact .throw
  | brk => exact .throw
  | cont => exact .throw
  | ret v =>
      obtain ⟨t, ht, hv⟩ := hc
      cases ht
      exact .pure hv

namespace Trace

open Step

/-- Calls keep all variables solid, whatever the number of calls that may be open. -/
theorem callDeclared_keeps (hw : w.Firm) (filename : Option String) (rounds : Nat) :
    ∀ depth, w.CallsSolid (callDeclared filename rounds (Item.bodyIndex · 0 w.program.items) depth)
  | 0 => fun _ _ _ _ _ _ _ => .throw
  | depth + 1 => by
      intro d f args sp hd W hargs
      obtain ⟨hname, -, -⟩ := FuncDecl.toFunction_ok W.function
      obtain ⟨Γ₁, htyped⟩ := W.body
      have hlisted := Setting.listed_body hw.wellTyped hd
      unfold FuncDecl.sites FuncDecl.paramBlock at hlisted
      rw [W.function, ← hname] at hlisted
      -- the body is checked in the context of the parameters, none of which is void
      have hparams : Context.Solid [f.params.map Parameter.binding] := by
        refine Context.solid_nil.push fun v hv => ?_
        obtain ⟨q, hq, rfl⟩ := List.mem_map.mp hv
        exact W.params_ne_void q hq
      refine .bind (lift_keeps Run.openFrame_keeps) fun frame _ => ?_
      refine .bind (lift_keeps (Run.bindParams_keeps frame f.params args hargs)) fun _ _ => ?_
      refine .bind (inFrame_keeps frame (execBlock_keeps hw
        (callDeclared_keeps hw filename rounds depth) d.body false _ Γ₁ _ hparams htyped hlisted)) ?_
      exact fun c hc => lift_keeps (Run.callResult_keeps filename f sp hc)

/-- The statements of a program at top level keep all variables solid. -/
theorem execItems_keeps {site : RunSite} {call : Caller} (hw : w.Firm)
    (hcall : w.CallsSolid call) :
    ∀ (items : List Item) (Γ Γ₁ : Context) (k : Nat), Γ.Solid →
      StmtsTyped w.globals none false Γ
        (items.filterMap fun | .func _ => none | .stmt s => some s) Γ₁ →
      Listed w.sites k (Item.sitesAll w.globals Γ items) →
      Keeps (Kept w.Solid) (execItems site call k items) fun _ => True
  | [], _, _, _, _, _, _ => .pure trivial
  | .func d :: rest, Γ, Γ₁, k, hΓ, h, hk => by
      rw [Item.sitesAll] at hk
      have hrest := hk.after_func
      exact execItems_keeps hw hcall rest Γ Γ₁ _ hΓ h hrest
  | .stmt s :: rest, Γ, Γ₁, k, hΓ, h, hk => by
      rw [Item.sitesAll] at hk
      have hrest := hk.after_stmt
      cases h with
      | cons hs hss =>
          rw [hs.after_eq] at hrest
          refine .bind (exec_keeps hw hcall s false Γ _ k hΓ hs hk.left) fun _ _ => ?_
          exact execItems_keeps hw hcall rest _ Γ₁ _ (hs.solid hΓ) hss hrest

end Trace

/-- A run of a typed program in a firm setting keeps all variables solid. -/
theorem Setting.Firm.traced_keeps (hw : w.Firm) (limits : Limits) :
    Step.Keeps (Trace.Kept w.Solid) (w.program.traced limits) fun _ => True := by
  obtain ⟨Γ₁, hstmts⟩ := hw.wellTyped.statements
  have hcall := Trace.callDeclared_keeps hw w.program.filename limits.rounds limits.calls
  refine .bind (Trace.lift_keeps Run.openFrame_keeps) fun frame _ => Trace.inFrame_keeps frame ?_
  exact Trace.execItems_keeps hw hcall w.program.items [[]] Γ₁ 0 Context.solid_nil.enter
    hstmts (List.prefix_refl _)

end Pigeon

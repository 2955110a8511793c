import Pigeon.Proofs.Execution.Safe
import Pigeon.Proofs.Typing.Predeclare

/-!
# Typed expressions are safe

An expression that has a type in the context where the machine stands is evaluated safely: its
value exists or the program fails at run time, the context stays, and in a strict setting the
value has the type of the expression. How a declared function is called is a parameter, as for the
machine, so the proof follows the tree alone.
-/

namespace Pigeon

open Blocks

variable {w : Setting} {Γ : Context}

/-- The step gives a value, which in a strict setting has the type `t`, and leaves the context as it
is. -/
def Setting.Gives (w : Setting) (Γ : Context) (x : Trace Value) (t : Ty) : Prop :=
  w.Runs Γ x fun v Γ' => Γ' = Γ ∧ (w.strict = true → v.ty = t)

/-- The values are as many as the types, and in a strict setting they have these types. -/
def Setting.Values (w : Setting) (types : List Ty) (vs : List Value) : Prop :=
  List.Forall₂ (fun t v => w.strict = true → v.ty = t) types vs

/-- A declared function that follows the rules can be called with values that its parameters
accept. -/
def Setting.Calls (w : Setting) (call : Caller) : Prop :=
  ∀ (d : FuncDecl) (f : Function) (args : List Value) (sp : Option Span) (Γ : Context),
    d ∈ w.program.functions → d.WellTyped w.globals f →
    List.Forall₂ (fun q (v : Value) => w.strict = true → q.ty.accepts v.ty = true) f.params args →
    w.Gives Γ (call f d.body args sp) f.returns

/-- In a strict setting the branches of every conditional expression have the same type. -/
def Setting.Even (w : Setting) : Prop :=
  w.strict = true → ∀ (k : Nat) (Γ : Context) (c y n : Expr) (sp : Option Span) (t u : Ty),
    Listed w.sites k ((Expr.ternary c y n sp).sites Γ) →
    HasType w.globals Γ y t → HasType w.globals Γ n u → t = u

/-! ## Variables and values of an expected type -/

/-- A value that is a Boolean in a strict setting may be demanded to be one. -/
theorem Setting.Runs.expectBool {v : Value} (h : w.strict = true → v.ty = .bool)
    (sp : Option Span) :
    w.Runs Γ (Logged.lift (Run.expectBool v sp)) fun _ Γ' => Γ' = Γ ∧ True := by
  cases v with
  | bool b => exact .pure ⟨rfl, trivial⟩
  | _ => exact .throw fun _ => .of_lenient fun hs => nomatch h hs

/-- A value that is an integer in a strict setting may be demanded to be one. -/
theorem Setting.Runs.expectInt {v : Value} (h : w.strict = true → v.ty = .int)
    (sp : Option Span) :
    w.Runs Γ (Logged.lift (Run.expectInt v sp)) fun _ Γ' => Γ' = Γ ∧ True := by
  cases v with
  | int n => exact .pure ⟨rfl, trivial⟩
  | _ => exact .throw fun _ => .of_lenient fun hs => nomatch h hs

/-- The value of a variable. -/
theorem Setting.Runs.lookup {name : String} {t : Ty} {readOnly : Bool}
    (h : Context.resolve w.globals Γ name = some (t, readOnly)) :
    w.Gives Γ (Logged.lift (Run.lookup name)) t := by
  refine .lift_ok fun m G f F hΓ S => ?_
  obtain ⟨value, heq, hvalue⟩ := Run.lookup_eq S hΓ h
  exact ⟨value, m, Γ, G, f, heq, rfl, hΓ, ⟨rfl, hvalue⟩, S⟩

/-! ## Operators -/

/-- An operator that the rules allow for the operand gives a value of the type that they have for
it. -/
theorem Setting.Gives.unary {op : UnOp} {u t : Ty} {v : Value} (hop : op.result u = .ok (some t))
    (hv : w.strict = true → v.ty = u) (sp : Option Span) :
    w.Gives Γ (Logged.lift (Run.ofExcept (op.apply v sp))) t := by
  refine .lift_ofExcept (fun a ha => ⟨rfl, fun hs => ?_⟩) fun e s he => ?_
  · rw [← hv hs] at hop
    obtain ⟨x, hx, hty⟩ := UnOp.apply_typed hop sp
    rw [ha] at hx
    cases hx
    exact hty
  · rcases UnOp.apply_cases hop v sp with ⟨x, hx⟩ | ⟨cause, hcause⟩
    · rw [he] at hx
      cases hx
    · rw [he] at hcause
      cases hcause
      refine .of_lenient fun hs => ?_
      rw [← hv hs] at hop
      obtain ⟨x, hx, -⟩ := UnOp.apply_typed hop sp
      rw [he] at hx
      cases hx

/-- The same of an operator between two operands. -/
theorem Setting.Gives.binary {op : BinOp} {u u' t : Ty} {l r : Value}
    (hop : op.result u u' = .ok (some t)) (hl : w.strict = true → l.ty = u)
    (hr : w.strict = true → r.ty = u') (sp : Option Span) :
    w.Gives Γ (Logged.lift (Run.ofExcept (op.apply l r sp))) t := by
  have htyped (hs : w.strict = true) := by
    rw [← hl hs, ← hr hs] at hop
    exact BinOp.apply_typed hop sp
  refine .lift_ofExcept (fun a ha => ⟨rfl, fun hs => ?_⟩) fun e s he => ?_
  · rcases htyped hs with ⟨x, hx, hty⟩ | ⟨cause, hcause, -⟩
    · rw [ha] at hx
      cases hx
      exact hty
    · rw [ha] at hcause
      cases hcause
  · rcases BinOp.apply_cases hop l r sp with ⟨x, hx⟩ | ⟨cause, hcause⟩
    · rw [he] at hx
      cases hx
    · -- operands of the types that the rules have for them do not mismatch
      rw [he] at hcause
      cases hcause
      refine .of_lenient fun hs => ?_
      rcases htyped hs with ⟨x, hx, -⟩ | ⟨cause', hcause', hmismatch⟩
      · rw [he] at hx
        cases hx
      · rw [he] at hcause'
        cases hcause'
        exact hmismatch

/-! ## Calls -/

/-- Native arguments are either all accepted, or one of them is refused at run time. -/
theorem Run.checkNativeArguments_cases (name : String) {ps : List Parameter} {vs : List Value}
    {spans : List (Option Span)} (hvs : vs.length = ps.length) (hspans : spans.length = ps.length)
    (m : Machine) :
    (Run.checkNativeArguments name ps vs spans m = (.ok (), m) ∧
        List.Forall₂ (fun q (v : Value) => q.ty.accepts v.ty = true) ps vs) ∨
      ((∃ cause sp, Run.checkNativeArguments name ps vs spans m = (.error (.runtime cause sp), m)) ∧
        ¬ List.Forall₂ (fun q (v : Value) => q.ty.accepts v.ty = true) ps vs) := by
  induction ps generalizing vs spans with
  | nil =>
      obtain rfl := List.eq_nil_of_length_eq_zero hvs
      exact .inl ⟨rfl, .nil⟩
  | cons q ps ih =>
      obtain ⟨v, vs, rfl⟩ := List.exists_cons_of_length_eq_add_one hvs
      obtain ⟨span, spans, rfl⟩ := List.exists_cons_of_length_eq_add_one hspans
      unfold Run.checkNativeArguments
      by_cases hq : q.ty.accepts v.ty = true
      · rw [if_pos hq]
        rcases ih (by simpa using hvs) (by simpa using hspans) with ⟨hok, hall⟩ | ⟨herror, hnot⟩
        · exact .inl ⟨hok, .cons hq hall⟩
        · refine .inr ⟨herror, fun h => ?_⟩
          cases h with
          | cons _ hall => exact hnot hall
      · rw [if_neg hq]
        refine .inr ⟨⟨_, _, rfl⟩, fun h => ?_⟩
        cases h with
        | cons hq' _ => exact hq hq'

/-- A native function sees and changes the host only. -/
theorem Run.callback_apply (c : Callback) (args : List Value) (m : Machine) :
    Run.callback c args m = ((c args m.host).1, { m with host := (c args m.host).2 }) := rfl

/-- Where the machine stands does not depend on the host. -/
theorem Setting.Stands.with_host {m : Machine} {G : Symbols} {f : Blocks} {F : List Blocks}
    (S : w.Stands m Γ G f F) (host : Host) : w.Stands { m with host := host } Γ G f F :=
  ⟨S.holds, S.globals, S.frames, S.fits, S.serves, S.tagged⟩

/-- Data that does not fit the result type is a failure. -/
theorem Run.nativeResult_error {f : Function} {p : Payload} {c : ConversionError}
    (h : p.toValue f.returns = .error c) (m : Machine) :
    ∃ e, Run.nativeResult f p m = (.error e, m) := by
  unfold Run.nativeResult
  rw [h]
  cases c with
  | overflow | tooManyDigits => exact ⟨_, rfl⟩
  | _ => exact ⟨_, rfl⟩

/-- The data that a native function has answered with is fitted to its result type. If this fails, the
function does not behave as it was declared. -/
theorem Setting.nativeResult_cases {n : NativeFunction} (hn : n ∈ w.natives.funcs) {f : Function}
    (hf : f.returns = n.returns) {p : Payload} (hp : n.Behaves → n.returns.Answered (.ok p))
    (m : Machine) :
    (∃ v, Run.nativeResult f p m = (.ok v, m) ∧ v.ty = n.returns) ∨
      ∃ e, Run.nativeResult f p m = (.error e, m) ∧ ∀ s, w.Allowed s e := by
  cases hv : p.toValue n.returns with
  | ok v =>
      refine .inl ⟨v, ?_, Payload.ty_of_toValue hv⟩
      simp only [Run.nativeResult, hf, hv]
      rfl
  | error c =>
      obtain ⟨e, he⟩ := Run.nativeResult_error (hf ▸ hv) m
      refine .inr ⟨e, he, fun s => .unruly hn fun h => ?_⟩
      cases hp h with
      | ok hv' =>
          rw [hv] at hv'
          cases hv'

/-- A native function is called safely. If the call fails for a value of another type in a strict
setting, it is the native function that has failed so. -/
theorem Setting.Gives.native {n : NativeFunction} (hn : n ∈ w.natives.funcs) {k : Nat}
    {name : String} {es : List Expr} {sp : Option Span}
    (hk : w.sites[k]? = some ⟨.expr (.call name es sp), Γ⟩) {args : List Value}
    {spans : List (Option Span)} (hspans : spans.length = args.length)
    (hargs : List.Forall₂ (fun t (v : Value) => w.strict = true → t.accepts v.ty = true) n.params
      args) :
    w.Gives Γ (Trace.observe k (.native n.name args) >>= fun _ => Logged.lift (Run.callNative
      ⟨n.name, n.returns, n.parameters, .native n.callback⟩ n.callback args spans)) n.returns := by
  have hmap : n.parameters.map (·.ty) = n.params := NativeFunction.map_ty_parameters n
  have hlength : args.length = n.parameters.length := by
    rw [← hargs.length_eq, ← hmap, List.length_map]
  refine .observe_lift ⟨name, es, sp, hk⟩ fun m log G f F S => ?_
  unfold Run.callNative
  rcases Run.checkNativeArguments_cases n.name hlength (hspans.trans hlength) m with
    ⟨hok, hall⟩ | ⟨⟨cause, sp, herror⟩, hnot⟩
  · rw [Step.bind_ok hok]
    have hall' : List.Forall₂ (fun p (v : Value) => Ty.accepts p v.ty = true) n.params args := by
      rw [← hmap, List.forall₂_map_left_iff]
      exact hall
    rw [Step.bind_apply, Run.callback_apply]
    rcases hrun : n.callback args m.host with ⟨result, host⟩
    have hbehaves (h : n.Behaves) : n.returns.Answered result := by
      have hcall := h args m.host hall'
      rw [hrun] at hcall
      exact hcall
    cases result with
    | ok payload =>
        have hresult := Setting.nativeResult_cases hn
          (f := ⟨n.name, n.returns, n.parameters, .native n.callback⟩) rfl hbehaves
          { m with host := host }
        rcases hresult with ⟨v, heq, hv⟩ | ⟨e, heq, hallowed⟩
        · exact .inl ⟨v, { m with host := host }, heq, ⟨rfl, fun _ => hv⟩, S.with_host host⟩
        · exact .inr ⟨e, { m with host := host }, heq, hallowed _, S.with_host host⟩
    | error e =>
        refine .inr ⟨e, { m with host := host }, rfl, ?_, S.with_host host⟩
        by_cases h : n.Behaves
        · cases hbehaves h with
          | failed =>
            exact .runtime fun _ _ => ⟨n, hn, _, args, List.getLast?_concat, rfl, hrun⟩
        · exact .unruly hn h
  · -- an argument can only be refused in a lenient setting, where it need not have its type
    rw [Step.bind_error herror]
    refine .inr ⟨_, m, rfl, .of_lenient fun hs => ?_, S⟩
    refine absurd ?_ hnot
    rw [← hmap, List.forall₂_map_left_iff] at hargs
    exact hargs.imp fun _ _ h => h hs

/-- A function that can be called is called safely. -/
theorem Setting.Gives.callFunction {call : Caller} (hcall : w.Calls call)
    {f : Function} (hf : w.Callable f) {args : List Value} {spans : List (Option Span)}
    (hspans : spans.length = args.length)
    (hargs : List.Forall₂ (fun t (v : Value) => w.strict = true → t.accepts v.ty = true)
      f.signature.params args) {k : Nat} {name : String} {es : List Expr} {sp : Option Span}
    (hk : w.sites[k]? = some ⟨.expr (.call name es sp), Γ⟩) :
    w.Gives Γ (Trace.callFunction call k f args spans sp) f.returns := by
  rcases hf with ⟨n, hn, rfl⟩ | ⟨d, hd, W⟩
  · have hparams : (Function.mk n.name n.returns n.parameters
        (.native n.callback)).signature.params = n.params := NativeFunction.map_ty_parameters n
    rw [hparams] at hargs
    exact .native hn hk hspans hargs
  · have hbody : f.body = .declared d.body := (FuncDecl.toFunction_ok W.function).2.2
    unfold Trace.callFunction
    rw [hbody]
    exact hcall d f args sp Γ hd W (List.forall₂_map_left_iff.mp hargs)

/-! ## Expressions -/

/-- An expression whose value is found safely is evaluated safely. -/
theorem Setting.Gives.evaluated {k : Nat} {e : Expr} {t : Ty} {x : Trace Value}
    (hk : w.sites[k]? = some ⟨.expr e, Γ⟩) (ht : e.typeIn w.globals Γ = some t)
    (h : w.Gives Γ x t) : w.Gives Γ (Trace.evaluated k e x) t := by
  refine .observe_bind hk (.keep_bind h ?_)
  intro v hv
  refine .observe_bind ⟨hk, fun hs => ?_⟩ (.pure ⟨rfl, hv⟩)
  rw [ht, hv hs]

/-- Arguments of types that the parameters accept are accepted in a strict setting. -/
theorem Setting.Values.accepted {ps types : List Ty} {vs : List Value} (hvs : w.Values types vs)
    (h : Ty.AcceptAll ps types) :
    List.Forall₂ (fun t (v : Value) => w.strict = true → t.accepts v.ty = true) ps vs := by
  induction h generalizing vs with
  | nil =>
      cases hvs
      exact .nil
  | cons hp _ ih =>
      cases hvs with
      | cons hv hrest =>
          refine .cons (fun hs => ?_) (ih hrest)
          rw [hv hs]
          exact hp

namespace Trace

variable {site : RunSite} {call : Caller}

mutual

-- The induction is on the tree. The number `k` of the node goes down with it, since what the run
-- reports of a node has to be true of the site with this number.

/-- An expression that has a type is evaluated safely. -/
theorem eval_gives (hw : w.Even) (hcall : w.Calls call) :
    ∀ (e : Expr) (t : Ty) (k : Nat), HasType w.globals Γ e t → Listed w.sites k (e.sites Γ) →
      w.Gives Γ (eval site call k e) t
  | .int _ _, t, k, h, hk => by
      cases h
      exact .evaluated hk.head rfl (.pure ⟨rfl, fun _ => rfl⟩)
  | .float _ _, t, k, h, hk => by
      cases h
      exact .evaluated hk.head rfl (.pure ⟨rfl, fun _ => rfl⟩)
  | .string _ _, t, k, h, hk => by
      cases h
      exact .evaluated hk.head rfl (.pure ⟨rfl, fun _ => rfl⟩)
  | .bool _ _, t, k, h, hk => by
      cases h
      exact .evaluated hk.head rfl (.pure ⟨rfl, fun _ => rfl⟩)
  | .var name sp, t, k, h, hk => by
      have ht := h.typeIn_eq
      cases h with
      | var hname =>
          exact .evaluated hk.head ht
            (.observe_bind ⟨_, _, _, hk.head, rfl, hname⟩ (.lookup hname))
  | .paren e sp, t, k, h, hk => by
      have ht := h.typeIn_eq
      rw [Expr.sites_paren] at hk
      cases h with
      | paren he =>
          exact .evaluated hk.head ht (eval_gives hw hcall e t _ he hk.tail)
  | .unary op e sp, t, k, h, hk => by
      have ht := h.typeIn_eq
      rw [Expr.sites_unary] at hk
      cases h with
      | unary he hop =>
          refine .evaluated hk.head ht (.keep_bind (eval_gives hw hcall e _ _ he hk.tail) ?_)
          intro v hv
          exact Setting.Gives.unary hop hv sp
  | .binary op l r sp, t, k, h, hk => by
      have ht := h.typeIn_eq
      rw [Expr.sites_binary] at hk
      have hr' := hk.tail.after_expr
      cases h with
      | binary hl hr _ _ hop =>
          refine .evaluated hk.head ht
            (.keep_bind (eval_gives hw hcall l _ _ hl hk.tail.left) ?_)
          intro lv hlv
          refine .keep_bind (eval_gives hw hcall r _ _ hr hr') ?_
          intro rv hrv
          exact Setting.Gives.binary hop hlv hrv sp
  | .ternary c y n sp, t, k, h, hk => by
      have ht := h.typeIn_eq
      have hsame := fun hs t u => hw hs k Γ c y n sp t u hk
      rw [Expr.sites_ternary] at hk
      have hrest := hk.tail.after_expr
      have hn' := hrest.after_expr
      cases h with
      | ternary hc hy hn =>
          refine .evaluated hk.head ht
            (.keep_bind (eval_gives hw hcall c _ _ hc hk.tail.left) ?_)
          intro cv hcv
          refine .keep_bind (.expectBool hcv c.span) ?_
          intro b _
          -- both branches are evaluated, whichever of them gives the value
          refine .keep_bind (eval_gives hw hcall y _ _ hy hrest.left) ?_
          intro yv hyv
          refine .keep_bind (eval_gives hw hcall n _ _ hn hn') ?_
          intro nv hnv
          refine .pure ⟨rfl, fun hs => ?_⟩
          cases b with
          | true => exact hyv hs
          | false =>
              -- the rules take the type of the first branch for that of the expression
              rw [hsame hs _ _ hy hn]
              exact hnv hs
  | .call name args sp, t, k, h, hk => by
      have ht := h.typeIn_eq
      rw [Expr.sites_call] at hk
      cases h with
      | @call _ _ _ params _ hname hargs =>
          obtain ⟨types, htypes, haccepted⟩ := hargs.types
          -- the machine finds a function of the signature that the rules have for the name
          have hfunction : w.Runs Γ (Logged.lift (Run.function site name sp)) fun fn Γ' =>
              Γ' = Γ ∧ fn.signature = ⟨t, params⟩ ∧ w.Callable fn := by
            refine .lift_ok fun m G f F hΓ S => ?_
            obtain ⟨fn, hfn, hsignature, hcallable⟩ := Run.function_eq S hname site sp
            exact ⟨fn, m, Γ, G, f, hfn, rfl, hΓ, ⟨rfl, hsignature, hcallable⟩, S⟩
          refine .evaluated hk.head ht (.keep_bind hfunction ?_)
          rintro fn ⟨hsignature, hcallable⟩
          refine .keep_bind (evalAll_runs hw hcall args types _ htypes hk.tail) ?_
          intro vs hvs
          have hreturns : fn.returns = t := congrArg Signature.returns hsignature
          have hlength : (args.map Expr.span).length = vs.length := by
            rw [List.length_map, htypes.length_eq, hvs.length_eq]
          rw [← hreturns]
          refine Setting.Gives.callFunction hcall hcallable hlength ?_ hk.head
          rw [hsignature]
          exact hvs.accepted haccepted
  | .other _ _ _, t, k, h, hk => by cases h

/-- Expressions that have types are evaluated safely. -/
theorem evalAll_runs (hw : w.Even) (hcall : w.Calls call) :
    ∀ (es : List Expr) (types : List Ty) (k : Nat), List.Forall₂ (HasType w.globals Γ) es types →
      Listed w.sites k (Expr.sitesAll Γ es) →
      w.Runs Γ (evalAll site call k es) fun vs Γ' => Γ' = Γ ∧ w.Values types vs
  | [], types, k, h, hk => by
      cases h
      exact .pure ⟨rfl, .nil⟩
  | e :: es, types, k, h, hk => by
      rw [Expr.sitesAll_cons] at hk
      have hrest := hk.after_expr
      cases h with
      | cons he hes =>
          refine .keep_bind (eval_gives hw hcall e _ _ he hk.left) ?_
          intro v hv
          refine .keep_bind (evalAll_runs hw hcall es _ _ hes hrest) ?_
          intro vs hvs
          exact .pure ⟨rfl, .cons hv hvs⟩

end

end Trace

end Pigeon

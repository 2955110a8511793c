import Pigeon.Proofs.Execution.Confined
import Pigeon.Proofs.Scope.View
import Pigeon.Proofs.Typing.Expanded

/-!
# Running updates and their expansions

An update reads its variable after it has evaluated its expression, and its expansion reads it
before. The two do the same, but for the places that failures name, if the variable has the same
value both times (`Run.exec_expands`). What a machine finds in the blocks of its current frame
depends on no other part of it (`Machine.Shows.lookup_congr`).
-/

namespace Pigeon

open Blocks Step

/-- The failure without its place. -/
def Failure.bare : Failure → Failure
  | .runtime cause _ => .runtime cause none
  | .defect d location => .defect d (location.map fun l => { l with span := none })
  | e => e

/-- The two failures differ only in their places. -/
def Failure.Like (e e' : Failure) : Prop := e.bare = e'.bare

/-- The current frame finds the variable in one of its own blocks. -/
def Machine.FindsLocal (m : Machine) (name : String) : Prop :=
  ∃ frame i, m.frames.head? = some frame ∧ frame.place m.arena name = .ok (.inl i)

instance (m : Machine) (name : String) : Decidable (m.FindsLocal name) :=
  match hframe : m.frames.head? with
  | none => isFalse fun ⟨_, _, h, _⟩ => nomatch hframe.symm.trans h
  | some frame =>
    match hplace : frame.place m.arena name with
    | .ok (.inl i) => isTrue ⟨frame, i, hframe, hplace⟩
    | .ok (.inr _) => isFalse fun ⟨_, _, h, h'⟩ => by
        cases hframe.symm.trans h
        cases hplace.symm.trans h'
    | .error _ => isFalse fun ⟨_, _, h, h'⟩ => by
        cases hframe.symm.trans h
        cases hplace.symm.trans h'

namespace Run

variable {α : Type} {site : RunSite} {sp sp' : Option Span}

/-- From any machine, the steps end with the same result, or with failures that differ only in their
places, and the machine is the same afterwards. -/
abbrev Matches (x y : Run α) : Prop := Step.Matches Eq Failure.Like Eq x y

theorem Matches.refl (x : Run α) : Matches x x := by
  rintro m _ rfl
  rcases x m with ⟨r, t⟩
  cases r with
  | ok a => exact .ok rfl rfl
  | error e => exact .error rfl rfl

theorem Matches.symm {x y : Run α} (h : Matches x y) : Matches y x := by
  rintro m _ rfl
  have hends := h m m rfl
  generalize x m = r, y m = r' at hends
  cases hends with
  | ok hab hst => exact .ok hab.symm hst.symm
  | error he hst => exact .error (Eq.symm he) hst.symm

theorem Matches.trans {x y z : Run α} (h : Matches x y) (h' : Matches y z) : Matches x z := by
  rintro m _ rfl
  have hends := h m m rfl
  have hends' := h' m m rfl
  generalize x m = r, y m = r', z m = r'' at hends hends'
  cases hends with
  | ok hab hst =>
      cases hends' with
      | ok hbc htu => exact .ok (hab.trans hbc) (hst.trans htu)
  | error he hst =>
      cases hends' with
      | error he' htu => exact .error (Eq.trans he he') (hst.trans htu)

/-! ## Runs without spans -/

/-- Asking for a Boolean matches, whatever its span. -/
theorem expectBool_matches (v : Value) : Matches (expectBool v sp) (expectBool v sp') := by
  cases v with
  | bool b => exact .pure rfl
  | _ => exact .throw rfl

/-- Looking up a function matches, whatever the span of the call. -/
theorem function_matches (name : String) :
    Matches (function site name sp) (function site name sp') := by
  refine Step.Matches.get.bind_eq fun m => (Matches.refl _).bind_eq fun f => ?_
  cases f with
  | some f => exact .pure rfl
  | none => exact .throw rfl

/-- Operations whose results differ only in the places of failures. -/
theorem ofExcept_matches {x y : Except Failure α}
    (h : x.mapError Failure.bare = y.mapError Failure.bare) :
    Matches (ofExcept x) (ofExcept y) := by
  cases x with
  | ok a =>
      cases y with
      | ok b =>
          cases h
          exact .pure rfl
      | error e => cases h
  | error e =>
      cases y with
      | ok b => cases h
      | error e' => exact .throw (Except.error.inj h)

/-- A unary operation matches, whatever its span. -/
theorem unary_matches (op : UnOp) (v : Value) :
    Matches (ofExcept (op.apply v sp)) (ofExcept (op.apply v sp')) := by
  refine ofExcept_matches ?_
  cases op with
  | other s => cases v <;> rfl
  | _ => cases v <;> rfl

/-- An operation on integers does the same, up to the span of its failure. -/
theorem applyInt_bare (op : BinOp) (a b : Int64) :
    (op.applyInt a b sp).mapError Failure.bare = (op.applyInt a b sp').mapError Failure.bare := by
  unfold BinOp.applyInt
  split
  case h_4 => split <;> rfl
  case h_5 => split <;> rfl
  all_goals rfl

/-- The meaning that the tags of the operands select does the same, up to the span of its failure.
-/
theorem applyTagged_bare (op : BinOp) (l r : Value) :
    (op.applyTagged l r sp).mapError Failure.bare =
      (op.applyTagged l r sp').mapError Failure.bare := by
  unfold BinOp.applyTagged
  split
  · exact applyInt_bare op _ _
  all_goals rfl

/-- A binary operation matches, whatever its span. -/
theorem binary_matches (op : BinOp) (l r : Value) :
    Matches (ofExcept (op.apply l r sp)) (ofExcept (op.apply l r sp')) := by
  refine ofExcept_matches ?_
  unfold BinOp.apply
  split
  · rfl
  · rfl
  · rfl
  · have htagged : (op.applyTagged l r sp).mapError Failure.bare =
        (op.applyTagged l r sp').mapError Failure.bare := applyTagged_bare op l r
    generalize op.applyTagged l r sp = x, op.applyTagged l r sp' = y at htagged
    cases x with
    | error e =>
        cases y with
        | error e' => exact congrArg Except.error (Except.error.inj htagged)
        | ok _ => cases htagged
    | ok found =>
        cases y with
        | error _ => cases htagged
        | ok found' =>
            cases htagged
            cases found <;> rfl

/-- Checking the arguments of a native call matches, whatever their spans. -/
theorem checkNativeArguments_matches (name : String) :
    ∀ (ps : List Parameter) (vs : List Value) {spans spans' : List (Option Span)},
      spans.length = spans'.length →
        Matches (checkNativeArguments name ps vs spans) (checkNativeArguments name ps vs spans')
  | [], _, _, _, _ => Matches.refl _
  | _ :: _, [], _, _, _ => Matches.refl _
  | _ :: _, _ :: _, [], [], _ => Matches.refl _
  | _ :: ps, _ :: vs, _ :: _, _ :: _, h =>
      .ite (checkNativeArguments_matches name ps vs (Nat.succ.inj h)) (.throw rfl)

/-- Expressions without their spans are as many as with them. -/
theorem length_bareAll (es : List Expr) : (Expr.bareAll es).length = es.length := by
  induction es with
  | nil => rfl
  | cons e es ih => exact congrArg (· + 1) ih

/-- Calls with the same arguments match, if those of declared functions do. -/
theorem callFunction_matches (hcall : ∀ f b vs sp sp', Matches (site.call f b vs sp)
    (site.call f b vs sp')) (f : Function) (vs : List Value) {spans spans' : List (Option Span)}
    (h : spans.length = spans'.length) :
    Matches (callFunction site f vs spans sp) (callFunction site f vs spans' sp') := by
  unfold callFunction
  split
  · exact (checkNativeArguments_matches f.name f.params vs h).bind_eq fun _ => Matches.refl _
  · exact hcall _ _ _ _ _

mutual

/-- Without its spans, an expression does the same. -/
theorem eval_bare (hcall : ∀ f b vs sp sp', Matches (site.call f b vs sp) (site.call f b vs sp')) :
    ∀ e : Expr, Matches (eval site e) (eval site e.bare)
  | .int _ _ | .float _ _ | .string _ _ | .bool _ _ => Matches.refl _
  | .var _ _ => Matches.refl _
  | .paren inner _ => eval_bare hcall inner
  | .unary op operand _ => (eval_bare hcall operand).bind_eq (unary_matches op)
  | .binary op left right _ => (eval_bare hcall left).bind_eq fun l =>
      (eval_bare hcall right).bind_eq fun r => binary_matches op l r
  | .ternary cond yes no _ => (eval_bare hcall cond).bind_eq fun v =>
      (expectBool_matches v).bind_eq fun _ => (eval_bare hcall yes).bind_eq fun _ =>
        (eval_bare hcall no).bind_eq fun _ => Matches.refl _
  | .call name args _ => (function_matches name).bind_eq fun f =>
      (evalAll_bare hcall args).bind_eq fun vs => callFunction_matches hcall f vs (by
        rw [List.length_map, List.length_map, length_bareAll])
  | .other _ _ _ => .throw rfl

/-- Expressions in a row have the same values without their spans. -/
theorem evalAll_bare
    (hcall : ∀ f b vs sp sp', Matches (site.call f b vs sp) (site.call f b vs sp')) :
    ∀ es : List Expr, Matches (evalAll site es) (evalAll site (Expr.bareAll es))
  | [] => Matches.refl _
  | e :: es =>
    (eval_bare hcall e).bind_eq fun _ => (evalAll_bare hcall es).bind_eq fun _ => Matches.refl _

end

/-- A call does the same wherever it stands. -/
theorem callDeclared_matches (filename : Option String) (rounds : Nat) :
    ∀ (depth : Nat) (f : Function) (b : Block) (vs : List Value) (sp sp' : Option Span),
      Matches (callDeclared filename rounds depth f b vs sp)
        (callDeclared filename rounds depth f b vs sp')
  | 0, _, _, _, _, _ => Matches.refl _
  | depth + 1, f, b, vs, sp, sp' => by
      refine (Matches.refl _).bind_eq fun fr => (Matches.refl _).bind_eq fun _ =>
        (Matches.refl _).bind_eq fun c => ?_
      unfold callResult
      split
      · exact Matches.refl _
      · exact .ite (Matches.refl _) (.throw rfl)
      · exact .throw rfl

/-- Expressions that differ only in their spans do the same. -/
theorem eval_matches (p : Program) (limits : Limits) {e e' : Expr} (h : e.bare = e'.bare) :
    Matches (eval (p.runSite limits) e) (eval (p.runSite limits) e') := by
  have hbare (e : Expr) : Matches (eval (p.runSite limits) e) (eval (p.runSite limits) e.bare) :=
    eval_bare (callDeclared_matches _ _ _) e
  exact (hbare e).trans (h ▸ (hbare e').symm)

/-- An update and its expansion do the same if the variable has the same value before and after the
evaluation of the expression. -/
theorem exec_expands (p : Program) (limits : Limits) {name : String} {s s' : Stmt}
    (h : Stmt.Expands name s s') {m : Machine} {value : Value}
    (hvalue : ∀ e, lookup name (eval (p.runSite limits) e m).2 =
      (.ok value, (eval (p.runSite limits) e m).2))
    (hbefore : lookup name m = (.ok value, m)) :
    Both Eq Failure.Like Eq (exec (p.runSite limits) s m) (exec (p.runSite limits) s' m) := by
  cases h with
  | @update op e e' sp sp₁ sp₂ sp₃ sp' hop hbare =>
      have hleft : exec (p.runSite limits) (.assign name (.update op) e sp) =
          eval (p.runSite limits) e >>= fun v => lookup name >>= fun old =>
            ofExcept (op.apply old v sp) >>= fun new => assign name new >>= fun _ =>
              pure .normal := by
        rw [exec, execAssign]
        simp only [AssignOp.binary?, bind_assoc]
      have hright : exec (p.runSite limits)
          (.assign name .set (.binary op (.var name sp₁) (.paren e' sp₂) sp₃) sp') m =
          (eval (p.runSite limits) e' >>= fun v => ofExcept (op.apply value v sp₃) >>= fun new =>
            assign name new >>= fun _ => pure .normal) m := by
        rw [exec, execAssign]
        simp only [AssignOp.binary?, eval, bind_assoc]
        rw [Step.bind_ok hbefore]
      rw [hleft, hright, Step.bind_apply, Step.bind_apply]
      have hends := eval_matches p limits hbare m m rfl
      have hafter := hvalue e
      generalize eval (p.runSite limits) e m = r, eval (p.runSite limits) e' m = r' at hends hafter
      cases hends with
      | @ok v _ t _ hv ht =>
          subst hv ht
          dsimp only at hafter ⊢
          rw [Step.bind_ok hafter]
          exact (binary_matches op value v).bind_eq (fun new => Matches.refl _) t t rfl
      | error he ht => exact .error he ht

end Run

/-! ## Variables of the current frame -/

/-- A name that a block has is a variable of the context. -/
theorem Context.Fits.exists_find? {strict : Bool} {Γ : Context} {f : Blocks} {name : String}
    (h : Context.Fits strict Γ f) {b : Handle × Symbols} (hb : b ∈ f)
    (hname : b.2.contains name = true) : ∃ v, Context.find? Γ name = some v := by
  rw [← Option.isSome_iff_exists]
  induction h with
  | nil => cases hb
  | @cons block b' _ rest hblock _ ih =>
      rw [Context.find?, List.findSome?_cons]
      split
      · rfl
      · next hnone =>
          rcases List.mem_cons.mp hb with rfl | hb
          · have hfresh := Binding.find?_none_of_forall₂ hblock hnone
            rw [← Symbols.contains_eq_false_iff, hname] at hfresh
            cases hfresh
          · exact ih hb

/-- What is found in a block does not depend on the global environment. -/
theorem Nest.find?_congr {name : String} {bs : List Environment}
    (h : ∃ b ∈ bs, b name ≠ none) (g g' : Environment) :
    Nest.find? g name bs = Nest.find? g' name bs := by
  induction bs with
  | nil =>
      obtain ⟨b, hb, -⟩ := h
      cases hb
  | cons b bs ih =>
      unfold Nest.find?
      cases hb : b name with
      | some s => rfl
      | none =>
          obtain ⟨b', hb', hne⟩ := h
          rcases List.mem_cons.mp hb' with rfl | hb'
          · exact absurd hb hne
          · exact ih ⟨b', hb', hne⟩

/-- A machine with the same frames gives the same value for a name that is found in a block. -/
theorem Machine.Shows.lookup_congr {m t : Machine} {g g' : Environment} {bs : List Environment}
    {F : List (List Environment)} (S : m.Shows ⟨g, bs :: F⟩) (T : t.Shows ⟨g', bs :: F⟩)
    {name : String} (h : ∃ b ∈ bs, b name ≠ none) {value : Value}
    (hvalue : Run.lookup name m = (.ok value, m)) : Run.lookup name t = (.ok value, t) := by
  have hm := (Run.lookup_performs name).result_eq m
  have ht := (Run.lookup_performs name).result_eq t
  have hstep : ((⟨g, bs :: F⟩ : Nest).step (.onFrame 0 (.lookup name))).1 =
      ((⟨g', bs :: F⟩ : Nest).step (.onFrame 0 (.lookup name))).1 := by
    have hresolve : Nest.resolveVariable g bs name = Nest.resolveVariable g' bs name := by
      unfold Nest.resolveVariable Nest.resolve
      rw [Nest.find?_congr h g g']
    unfold Nest.step
    simp only [List.getElem?_cons_zero, Nest.onFrame, hresolve]
    cases Nest.resolveVariable g' bs name with
    | error e => rfl
    | ok v => rcases v with ⟨_, _, _, _ | _⟩ <;> rfl
  rw [(S.onFrame _).1, hstep, ← (T.onFrame _).1, ← ht, hvalue] at hm
  refine Prod.ext ?_ (Run.lookup_snd name t)
  cases hresult : (Run.lookup name t).1 with
  | error e =>
      rw [hresult] at hm
      cases hm
  | ok v =>
      rw [hresult] at hm
      cases hm
      rfl

end Pigeon

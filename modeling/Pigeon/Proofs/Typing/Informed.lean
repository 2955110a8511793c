import Pigeon.Proofs.Execution.Keep
import Pigeon.Proofs.Typing.Quiet

/-!
# Unknown types are reported

A type can be unknown for two reasons. Either a mistake was found in the expression itself, or the
expression reads a variable whose type is unknown. An ill-typed declaration leaves such a variable in
any scope, and a block further down may read it. So what the checker keeps is that all variables of
all scopes have types as long as nothing was reported (`Checker.Informed`).

`Check.Informs P x Q` is the triple for this invariant. Both `P` and `Q` are meant as long as
nothing is reported, so a report proves any `Q` (`Informs.report`).
-/

namespace Pigeon

/-- Every variable of every scope that is alive has a type. -/
def Arena.Typed (a : Arena) : Prop :=
  a.All fun x => ∀ v, x.2 = .var v → v.ty ≠ none

/-- A variable of an unknown type comes with a report. -/
def Checker.Informed (c : Checker) : Prop :=
  c.diagnostics = [] → c.arena.Typed

namespace Check

variable {α β : Type} {P P' : Prop} {Q Q' : α → Prop} {R : β → Prop} {x : Check α}

/-- The step keeps the checker informed, takes no report back and records no types. If nothing has
been reported when it ends, and `P` holds if nothing was reported before, then its result satisfies
`Q`. -/
def Informs (P : Prop) (x : Check α) (Q : α → Prop) : Prop :=
  ∀ c, c.Informed → (c.diagnostics = [] → P) →
    Step.Yields x c (fun a t => t.types = c.types ∧ c.diagnostics <+: t.diagnostics ∧ t.Informed ∧
      (t.diagnostics = [] → Q a)) fun _ _ => True

namespace Informs

/-- A value that is given has the property if it follows from what is known. -/
theorem pure {a : α} (h : P → Q a) : Informs P (pure a) Q :=
  fun _ hc hP => ⟨rfl, List.prefix_rfl, hc, fun hd => h (hP hd)⟩

theorem throw {e : Failure} : Informs P (throw e) Q := fun _ _ _ => trivial

/-- A checker that has reported nothing knows the types of all variables. -/
theorem get : Informs P get fun c => c.arena.Typed :=
  fun _ hc _ => ⟨rfl, List.prefix_rfl, hc, hc⟩

/-- After a report, nothing more is claimed. -/
theorem report (site : CheckSite) (sp : Option Span) (issue : Issue) :
    Informs P (Check.report site sp issue) fun _ => False := by
  intro c _ _
  have hne : c.diagnostics ++ [issue.diagnostic site.filename sp] ≠ [] := by simp
  exact ⟨rfl, List.prefix_append _ _, fun hd => absurd hd hne, fun hd => absurd hd hne⟩

/-- What is assumed may be strengthened, and what is known of the result weakened. -/
theorem mono (h : Informs P' x Q') (hP : P → P') (hQ : ∀ a, Q' a → Q a) : Informs P x Q := by
  intro c hc hp
  refine (h c hc fun hd => hP (hp hd)).mono (fun a t ht => ?_) fun _ _ _ => trivial
  exact ⟨ht.1, ht.2.1, ht.2.2.1, fun hd => hQ a (ht.2.2.2 hd)⟩

/-- Two steps in a row inform if both do. What is known before still holds for the second one, as
nothing reported by then means that nothing was reported before. -/
theorem bind {f : α → Check β} (h : Informs P x Q) (hf : ∀ a, Informs (P ∧ Q a) (f a) R) :
    Informs P (x >>= f) R := by
  intro c hc hP
  refine (h c hc hP).bind fun a t ht => ?_
  obtain ⟨htypes, hgrows, hinformed, hresult⟩ := ht
  have hboth : t.diagnostics = [] → P ∧ Q a := fun hd =>
    ⟨hP (List.prefix_nil.mp (hd ▸ hgrows)), hresult hd⟩
  refine (hf a t hinformed hboth).mono (fun b u hu => ?_) fun _ _ _ => trivial
  exact ⟨hu.1.trans htypes, hgrows.trans hu.2.1, hu.2.2⟩

/-- A choice informs if both branches do, each where its condition holds. -/
theorem ite {p : Prop} [Decidable p] {y : Check α} (hx : p → Informs P x Q)
    (hy : ¬p → Informs P y Q) : Informs P (if p then x else y) Q := by
  split
  · exact hx ‹p›
  · exact hy ‹¬p›

end Informs

/-- After a report nothing is claimed of the results. -/
theorem report_informs (site : CheckSite) (sp : Option Span) (issue : Issue) :
    Informs P (report site sp issue) fun _ => True :=
  (Informs.report site sp issue).mono id fun _ _ => trivial

/-! ## Steps that infer -/

/-- If a name is not found then a report has been made, so without a report it was found. -/
theorem orReport_informs (site : CheckSite) (sp : Option Span) (issue : ScopeError → Issue)
    (found : Except Failure Variable) :
    Informs P (orReport site sp issue found) fun v => ∃ w, v = some w ∧ found = .ok w := by
  unfold orReport
  split
  · next v => exact .pure fun _ => ⟨v, rfl, rfl⟩
  · split
    · exact .throw
    · exact .bind (.report _ _ _) fun _ => .pure fun h => h.2.elim
  · exact .throw

/-- Looking up the meaning of an operator reports nothing and records nothing. -/
theorem ofOperator_informs (y : Except UnknownOperator α) :
    Informs P (ofOperator y) fun _ => True := by
  unfold ofOperator
  split
  · exact .pure fun _ => trivial
  · exact .throw

/-- A variable that is found has a type, unless something was reported. -/
theorem variableType_informs (site : CheckSite) (name : String) (sp : Option Span) :
    Informs P (variableType site name sp) (· ≠ none) := by
  refine .bind .get fun c => .bind (orReport_informs _ _ _ _) fun v => .pure fun h => ?_
  obtain ⟨⟨-, htyped⟩, w, rfl, hfound⟩ := h
  obtain ⟨⟨k, w'⟩, hlocate, heq⟩ := exists_of_bind_eq_ok hfound
  cases heq
  exact Frame.locateVariable_all htyped hlocate w' rfl

/-- A unary operation has no type only if there is a report or its operand has none. -/
theorem unaryType_informs (site : CheckSite) (op : UnOp) (t : Option Ty) (sp : Option Span) :
    Informs (t ≠ none) (unaryType site op t sp) (· ≠ none) := by
  unfold unaryType
  cases t with
  | none => exact .pure fun h => absurd rfl h
  | some t =>
      refine .bind (ofOperator_informs _) fun r => ?_
      cases r with
      | none => exact .bind (.report _ _ _) fun _ => .pure fun h => h.2.elim
      | some r => exact .pure fun _ => Option.some_ne_none r

/-- A binary operation has no type only if there is a report or one of its operands has none. -/
theorem binaryType_informs (site : CheckSite) (op : BinOp) (l r : Option Ty) (sp : Option Span) :
    Informs (l ≠ none ∧ r ≠ none) (binaryType site op l r sp) (· ≠ none) := by
  unfold binaryType
  cases l with
  | none => exact .pure fun h => absurd rfl h.1
  | some l =>
      cases r with
      | none => exact .pure fun h => absurd rfl h.2
      | some r =>
          show Informs _ (if _ then _ else _) _
          refine .ite (fun _ => .bind (.report _ _ _) fun _ => .pure fun h => h.2.elim) fun _ =>
            .bind (ofOperator_informs _) fun t => ?_
          cases t with
          | none => exact .bind (.report _ _ _) fun _ => .pure fun h => h.2.elim
          | some t => exact .pure fun _ => Option.some_ne_none t

/-- Checking a condition records no type. -/
theorem checkCondition_informs (site : CheckSite) (place : ConditionPlace) (found : Option Ty)
    (sp : Option Span) : Informs P (checkCondition site place found sp) fun _ => True := by
  unfold checkCondition
  split
  · exact .pure fun _ => trivial
  · exact .pure fun _ => trivial
  · exact report_informs _ _ _

/-- Checking a bound records no type. -/
theorem checkCounter_informs (site : CheckSite) (issue : Ty → Issue) (found : Option Ty)
    (sp : Option Span) : Informs P (checkCounter site issue found sp) fun _ => True := by
  unfold checkCounter
  split
  · exact .pure fun _ => trivial
  · exact .pure fun _ => trivial
  · exact report_informs _ _ _

/-- Checking arguments records no type. -/
theorem checkArguments_informs (site : CheckSite) (function : String) (i : Nat)
    (params : List Parameter) (args : List (Option Span × Option Ty)) :
    Informs P (checkArguments site function i params args) fun _ => True := by
  induction args generalizing i params P with
  | nil => exact .pure fun _ => trivial
  | cons arg args ih =>
      obtain ⟨sp, found⟩ := arg
      have hfirst : Informs P (checkArgument site function i params.head? sp found)
          fun _ => True := by
        unfold checkArgument
        split
        · exact .pure fun _ => trivial
        · refine .ite (fun _ => report_informs _ _ _) fun _ => ?_
          split
          · exact .pure fun _ => trivial
          · exact .ite (fun _ => .pure fun _ => trivial) fun _ => report_informs _ _ _
      rw [checkArguments_cons]
      exact .bind hfirst fun _ => ih _ _

/-- A call has no type only if there is a report. -/
theorem callType_informs (site : CheckSite) (name : String)
    (args : List (Option Span × Option Ty)) (sp : Option Span) :
    Informs P (callType site name args sp) (· ≠ none) := by
  unfold callType
  refine .bind .get fun c => ?_
  split
  · exact .throw
  · exact .bind (.report _ _ _) fun _ => .pure fun h => h.2.elim
  · exact .bind (.report _ _ _) fun _ => .pure fun h => h.2.elim
  · have hargs {P : Prop} (f : Function) : Informs P
        (checkArguments site name 0 f.params args >>= fun _ => Pure.pure (some f.returns))
        (· ≠ none) :=
      .bind (checkArguments_informs _ _ _ _ _) fun _ => .pure fun _ => Option.some_ne_none _
    exact .ite (fun _ => .bind (report_informs _ _ _) fun _ => hargs _) fun _ => hargs _

/-! ## Steps that declare, and steps on scopes -/

/-- What is declared while nothing was reported has a type. -/
theorem declare_informs (v : Variable) : Informs (v.ty ≠ none) (declare v) fun _ => True := by
  intro c hc hv
  unfold declare
  refine .bind_ok (Step.get_apply c) ?_
  split
  · next a hdeclare =>
      obtain ⟨h, -, heq⟩ := exists_of_bind_eq_ok hdeclare
      cases heq
      refine ⟨rfl, List.prefix_rfl, fun hd => (hc hd).store h fun w hw => ?_, fun _ => trivial⟩
      cases hw
      exact hv hd
  · exact ⟨rfl, List.prefix_rfl, hc, fun _ => trivial⟩
  · trivial

/-- The counter of a loop is an integer. -/
theorem declareCounter_informs (name : String) :
    Informs P (declareCounter name) fun _ => True := by
  intro c hc hP
  unfold declareCounter
  refine .bind_ok (Step.get_apply c) ?_
  split
  · next a hdeclare =>
      obtain ⟨h, -, heq⟩ := exists_of_bind_eq_ok hdeclare
      cases heq
      refine ⟨rfl, List.prefix_rfl, fun hd => (hc hd).store h fun w hw => ?_, fun _ => trivial⟩
      cases hw
      exact Option.some_ne_none _
  · trivial

/-- A declaration leaves a variable of an unknown type only if it reports so, or if the type of the
initializer is unknown. -/
theorem declareFound_informs (site : CheckSite) (name : String) (value : Expr) (isConst : Bool)
    (sp : Option Span) (found : Option Ty) :
    Informs (found ≠ none) (declareFound site name value isConst sp found) fun _ => True := by
  unfold declareFound
  have hdeclare {P : Prop} (ty : Option Ty) (h : P → ty ≠ none) :
      Informs P (declare { name := name, ty := ty, readOnly := isConst } >>= fun new =>
        if !new then report site sp (.duplicateVariable name) else pure ()) fun _ => True :=
    .bind ((declare_informs _).mono h fun _ _ => trivial) fun _ =>
      .ite (fun _ => report_informs _ _ _) fun _ => .pure fun _ => trivial
  refine .ite (fun _ => .bind (.report _ _ _) fun _ => hdeclare _ fun h => h.2.elim) fun hvoid => ?_
  refine hdeclare _ fun h => ?_
  rw [if_neg hvoid]
  exact h

/-- Declaring parameters keeps the checker informed, as all of them have types. -/
theorem declareParams_informs (params : List Parameter) :
    Informs P (declareParams params) fun _ => True := by
  induction params generalizing P with
  | nil => exact .pure fun _ => trivial
  | cons p params ih =>
      exact .bind ((declare_informs _).mono (fun _ => Option.some_ne_none p.ty) fun _ h => h)
        fun _ => ih

/-- What follows the typing of an assigned value records no type. -/
theorem assignFound_informs (site : CheckSite) (name : String) (op : AssignOp) (sp : Option Span)
    (target found : Option Ty) :
    Informs P (assignFound site name op sp target found) fun _ => True := by
  unfold assignFound
  split
  · unfold checkAssignedType
    split
    · exact .ite (fun _ => report_informs _ _ _) fun _ => .pure fun _ => trivial
    · refine .bind (ofOperator_informs _) fun r => ?_
      cases r with
      | none => exact report_informs _ _ _
      | some r => exact .ite (fun _ => report_informs _ _ _) fun _ => .pure fun _ => trivial
  · exact .pure fun _ => trivial

/-- Checking a return records no type. -/
theorem checkReturn_informs (site : CheckSite) (value : Option (Option Span × Option Ty))
    (sp : Option Span) : Informs P (checkReturn site value sp) fun _ => True := by
  unfold checkReturn
  split
  · exact report_informs _ _ _
  · exact .ite (fun _ => report_informs _ _ _) fun _ => .pure fun _ => trivial
  · refine .ite (fun _ => report_informs _ _ _) fun _ => ?_
    split
    · exact .pure fun _ => trivial
    · exact .ite (fun _ => report_informs _ _ _) fun _ => .pure fun _ => trivial

/-- A new block has no variable, so none without a type. -/
theorem enter_informs : Informs P enter fun _ => True := by
  intro c hc _
  unfold enter
  refine .bind_ok (Step.get_apply c) ?_
  split
  · next f a henter =>
      obtain ⟨k, -, heq⟩ := exists_of_bind_eq_ok henter
      cases heq
      exact ⟨rfl, List.prefix_rfl, fun hd => (hc hd).newScope _, fun _ => trivial⟩
  · trivial

/-- Leaving a block takes variables away and adds none. -/
theorem exit_informs : Informs P exit fun _ => True := by
  intro c hc _
  have hexit : c.diagnostics = [] → (c.frame.exit c.arena).2.2.Typed := fun hd =>
    Frame.exit_all (hc hd)
  unfold exit
  refine .bind_ok (Step.get_apply c) ?_
  generalize c.frame.exit c.arena = closed at hexit ⊢
  obtain ⟨r, f, a⟩ := closed
  cases r with
  | ok u => exact ⟨rfl, List.prefix_rfl, hexit, fun _ => trivial⟩
  | error e => trivial

/-- Closing a frame takes variables away and adds none. -/
theorem close_informs : Informs P close fun _ => True := by
  intro c hc _
  have hclose : c.diagnostics = [] → (Frame.releaseAll c.frame.blocks c.arena).2.2.Typed :=
    fun hd => Frame.releaseAll_all (hc hd)
  unfold close Frame.close
  refine .bind_ok (Step.get_apply c) ?_
  generalize Frame.releaseAll c.frame.blocks c.arena = closed at hclose ⊢
  obtain ⟨r, f, a⟩ := closed
  cases r with
  | ok u => exact ⟨rfl, List.prefix_rfl, hclose, fun _ => trivial⟩
  | error e => trivial

/-- A new frame has no variable. -/
theorem openFrame_informs (g : Handle) : Informs P (openFrame g) fun _ => True :=
  fun _ hc _ => ⟨rfl, List.prefix_rfl, fun hd => (hc hd).newScope _, fun _ => trivial⟩

end Check

end Pigeon

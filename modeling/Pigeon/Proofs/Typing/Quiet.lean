import Pigeon.Proofs.Step
import Pigeon.Typing.Program

/-!
# Checks that report nothing

A diagnostic that was reported is never taken back (`Check.Grows`). So a check that ends without a
diagnostic has reported none in any of its parts (`Check.Quiet`), which is what lets the rules be
read off a check that was quiet.
-/

namespace Pigeon.Check

variable {α β : Type}

/-- The step takes no diagnostic back. -/
def Grows (x : Check α) : Prop :=
  ∀ c, c.diagnostics <+: (x c).2.diagnostics

/-- The step reports nothing in this state. -/
def Quiet (x : Check α) (c : Checker) : Prop :=
  (x c).2.diagnostics = c.diagnostics

namespace Grows

/-- A step that leaves the diagnostics as they are takes none back. -/
theorem of_eq {x : Check α} (h : ∀ c, (x c).2.diagnostics = c.diagnostics) : Grows x := by
  intro c
  have hprefix : c.diagnostics <+: c.diagnostics := List.prefix_rfl
  exact (h c).symm ▸ hprefix

/-- Giving a value reports nothing. -/
theorem pure (a : α) : Grows (pure a) := of_eq fun _ => rfl

/-- Failing reports nothing. -/
theorem throw (e : Failure) : Grows (throw e : Check α) := of_eq fun _ => rfl

/-- Reading the state reports nothing. -/
theorem get : Grows (get : Check Checker) := of_eq fun _ => rfl

/-- A report adds its diagnostic after those there are. -/
theorem report (site : CheckSite) (sp : Option Span) (issue : Issue) :
    Grows (Check.report site sp issue) :=
  fun _ => List.prefix_append _ _

/-- Two steps in a row take nothing back if neither does, also when the first one fails. -/
theorem bind {x : Check α} {f : α → Check β} (hx : Grows x) (hf : ∀ a, Grows (f a)) :
    Grows (x >>= f) := by
  intro c
  have h := hx c
  rw [Step.bind_apply]
  rcases hc : x c with ⟨r, c'⟩
  rw [hc] at h
  cases r with
  | ok a => exact h.trans (hf a c')
  | error e => exact h

/-- A choice takes nothing back if neither branch does. -/
theorem ite {p : Prop} [Decidable p] {x y : Check α} (hx : Grows x) (hy : Grows y) :
    Grows (if p then x else y) := by
  split
  · exact hx
  · exact hy

/-- The clean-up determines the state after it. -/
theorem andFinally_state (x : Check α) (y : Check Unit) (c : Checker) :
    (Check.andFinally x y c).2 = (y (x c).2).2 := by
  unfold Check.andFinally
  rcases hx : x c with ⟨r, c'⟩
  rcases hy : y c' with ⟨r', c''⟩
  cases r' <;> simp [hy]

/-- A step with a clean-up takes nothing back if neither part does. -/
theorem andFinally {x : Check α} {y : Check Unit} (hx : Grows x) (hy : Grows y) :
    Grows (Check.andFinally x y) := by
  intro c
  have h := (hx c).trans (hy (x c).2)
  rw [← andFinally_state] at h
  exact h

end Grows

/-- In a quiet sequence both parts are quiet. -/
theorem Quiet.bind {x : Check α} {f : α → Check β} {c : Checker} (hx : Grows x)
    (hf : ∀ a, Grows (f a)) (h : Quiet (x >>= f) c) :
    Quiet x c ∧ ∀ a c', x c = (.ok a, c') → Quiet (f a) c' := by
  unfold Quiet at h ⊢
  have hx' := hx c
  rw [Step.bind_apply] at h
  rcases hc : x c with ⟨r, c'⟩
  rw [hc] at h hx'
  cases r with
  | error e => exact ⟨h, fun a c'' he => by cases he⟩
  | ok a =>
      have hf' := hf a c'
      have hlen : c'.diagnostics.length ≤ c.diagnostics.length := by
        have := hf'.length_le
        rw [h] at this
        exact this
      have hc' : c'.diagnostics = c.diagnostics := (hx'.eq_of_length_le hlen).symm
      refine ⟨hc', fun a' c'' he => ?_⟩
      cases he
      rw [hc']
      exact h

/-- A quiet step with a quiet clean-up after it. -/
theorem Quiet.andFinally {x : Check α} {y : Check Unit} {c : Checker} (hx : Grows x)
    (hy : Grows y) (h : Quiet (Check.andFinally x y) c) : Quiet x c := by
  have hx' := hx c
  have hy' := hy (x c).2
  unfold Quiet at h ⊢
  rw [Grows.andFinally_state] at h
  have hlen : (x c).2.diagnostics.length ≤ c.diagnostics.length := by
    have := hy'.length_le
    rw [h] at this
    exact this
  exact (hx'.eq_of_length_le hlen).symm

/-! ## The primitive steps -/

/-- Giving out a number for a node touches no diagnostic. -/
theorem reserve_grows : Grows reserve := .of_eq fun _ => rfl

/-- Opening a block takes no diagnostic back. -/
theorem enter_grows : Grows enter := by
  refine .of_eq fun c => ?_
  unfold enter
  rw [Step.bind_ok (Step.get_apply c)]
  cases c.frame.enter c.arena <;> rfl

/-- Leaving a block takes no diagnostic back. -/
theorem exit_grows : Grows exit := by
  refine .of_eq fun c => ?_
  unfold exit
  rw [Step.bind_ok (Step.get_apply c)]
  rcases c.frame.exit c.arena with ⟨r, f, a⟩
  cases r <;> rfl

/-- Closing the frame takes no diagnostic back. -/
theorem close_grows : Grows close := by
  refine .of_eq fun c => ?_
  unfold close
  rw [Step.bind_ok (Step.get_apply c)]
  rcases c.frame.close c.arena with ⟨r, f, a⟩
  cases r <;> rfl

/-- A declaration reports nothing itself, whether the name is taken or not. -/
theorem declare_grows (v : Variable) : Grows (declare v) := by
  refine .of_eq fun c => ?_
  unfold declare
  rw [Step.bind_ok (Step.get_apply c)]
  cases c.frame.declare c.arena v with
  | ok a => rfl
  | error e =>
      cases e with
      | scope e => cases e <;> rfl
      | _ => rfl

/-- The declaration of a counter reports nothing either. -/
theorem declareCounter_grows (name : String) : Grows (declareCounter name) := by
  refine .of_eq fun c => ?_
  unfold declareCounter
  rw [Step.bind_ok (Step.get_apply c)]
  cases c.frame.declare c.arena { name := name, ty := some .int } <;> rfl

/-- A step run in a block of its own takes nothing back if it does not alone. -/
theorem inBlock_grows {x : Check α} (hx : Grows x) : Grows (inBlock x) :=
  .bind enter_grows fun _ => .andFinally hx exit_grows

/-- A step run in a frame of its own takes nothing back if it does not alone. -/
theorem inFrame_grows {x : Check α} (g : Handle) (hx : Grows x) : Grows (inFrame g x) :=
  .bind (.of_eq fun _ => rfl) fun _ =>
    .andFinally hx (.bind close_grows fun _ => .of_eq fun _ => rfl)

/-- Writing a type down beside its node touches no diagnostic. -/
theorem annotated_grows {x : Check (Option Ty)} (hx : Grows x) : Grows (annotated x) :=
  .bind reserve_grows fun _ => .bind hx fun _ => .bind (.of_eq fun _ => rfl) fun _ => .pure _

/-- A name that is not found is reported after what was reported before. -/
theorem orReport_grows (site : CheckSite) (sp : Option Span) (issue : ScopeError → Issue)
    (found : Except Failure Variable) : Grows (orReport site sp issue found) := by
  unfold orReport
  split
  · exact .pure _
  · split
    · exact .throw _
    · exact .bind (.report _ _ _) fun _ => .pure _
  · exact .throw _

/-- An operator without a meaning is a failure and no diagnostic. -/
theorem ofOperator_grows (x : Except UnknownOperator α) : Grows (ofOperator x) := by
  unfold ofOperator
  split
  · exact .pure _
  · exact .throw _

/-- Looking up the type of a name adds its report at most. -/
theorem variableType_grows (site : CheckSite) (name : String) (sp : Option Span) :
    Grows (variableType site name sp) :=
  .bind .get fun _ => .bind (orReport_grows _ _ _ _) fun _ => .pure _

/-- Typing a unary operation adds its report at most. -/
theorem unaryType_grows (site : CheckSite) (op : UnOp) (t : Option Ty) (sp : Option Span) :
    Grows (unaryType site op t sp) := by
  unfold unaryType
  cases t with
  | none => exact .pure _
  | some t =>
      refine .bind (ofOperator_grows _) fun r => ?_
      cases r with
      | none => exact .bind (.report _ _ _) fun _ => .pure _
      | some r => exact .pure _

/-- Typing a binary operation adds its report at most. -/
theorem binaryType_grows (site : CheckSite) (op : BinOp) (l r : Option Ty) (sp : Option Span) :
    Grows (binaryType site op l r sp) := by
  unfold binaryType
  cases l with
  | none => exact .pure _
  | some l =>
      cases r with
      | none => exact .pure _
      | some r =>
          show Grows (if _ then _ else _)
          refine .ite (.bind (.report _ _ _) fun _ => .pure _)
            (.bind (ofOperator_grows _) fun t => ?_)
          cases t with
          | none => exact .bind (.report _ _ _) fun _ => .pure _
          | some t => exact .pure _

/-- Checking a condition adds its report at most. -/
theorem checkCondition_grows (site : CheckSite) (place : ConditionPlace) (found : Option Ty)
    (sp : Option Span) : Grows (checkCondition site place found sp) := by
  unfold checkCondition
  split
  · exact .pure _
  · exact .pure _
  · exact .report _ _ _

/-- Checking a bound of a counting loop adds its report at most. -/
theorem checkCounter_grows (site : CheckSite) (issue : Ty → Issue) (found : Option Ty)
    (sp : Option Span) : Grows (checkCounter site issue found sp) := by
  unfold checkCounter
  split
  · exact .pure _
  · exact .pure _
  · exact .report _ _ _

/-- The check of one argument against its parameter, if it has one. -/
def checkArgument (site : CheckSite) (function : String) (i : Nat) (param : Option Parameter)
    (sp : Option Span) : Option Ty → Check Unit
  | none => pure ()
  | some t =>
    if t = .void then Check.report site sp (.voidArgument function i)
    else
      match param with
      | none => pure ()
      | some p =>
        if p.ty.accepts t then pure ()
        else Check.report site sp (.argumentType function i t p.ty)

/-- The arguments of a call are checked one by one. -/
theorem checkArguments_cons (site : CheckSite) (function : String) (i : Nat)
    (params : List Parameter) (sp : Option Span) (found : Option Ty)
    (args : List (Option Span × Option Ty)) :
    checkArguments site function i params ((sp, found) :: args) =
      checkArgument site function i params.head? sp found >>= fun _ =>
        checkArguments site function (i + 1) params.tail args := by
  cases found with
  | none => rfl
  | some t =>
      cases params with
      | nil => cases t <;> rfl
      | cons p params =>
          unfold checkArgument
          cases hp : p.ty.accepts t <;> cases t <;> simp [checkArguments, hp]

/-- Checking one argument adds its report at most. -/
theorem checkArgument_grows (site : CheckSite) (function : String) (i : Nat)
    (param : Option Parameter) (sp : Option Span) (found : Option Ty) :
    Grows (checkArgument site function i param sp found) := by
  cases found with
  | none => exact .pure _
  | some t =>
      refine .ite (.report _ _ _) ?_
      cases param with
      | none => exact .pure _
      | some p => exact .ite (.pure _) (.report _ _ _)

/-- Checking the arguments of a call adds one report at most for each of them. -/
theorem checkArguments_grows (site : CheckSite) (function : String) (i : Nat)
    (params : List Parameter) (args : List (Option Span × Option Ty)) :
    Grows (checkArguments site function i params args) := by
  induction args generalizing i params with
  | nil => exact .pure _
  | cons arg args ih =>
      obtain ⟨sp, found⟩ := arg
      rw [checkArguments_cons]
      exact .bind (checkArgument_grows _ _ _ _ _ _) fun _ => ih _ _

/-- Typing a call adds the reports about its name and its arguments. -/
theorem callType_grows (site : CheckSite) (name : String) (args : List (Option Span × Option Ty))
    (sp : Option Span) : Grows (callType site name args sp) := by
  unfold callType
  refine .bind .get fun c => ?_
  split
  · exact .throw _
  · exact .bind (.report _ _ _) fun _ => .pure _
  · exact .bind (.report _ _ _) fun _ => .pure _
  · split
    · exact .bind (.report _ _ _) fun _ => .bind (checkArguments_grows _ _ _ _ _) fun _ => .pure _
    · exact .bind (checkArguments_grows _ _ _ _ _) fun _ => .pure _

/-- Comparing the two types of an assignment adds its report at most. -/
theorem checkAssignedType_grows (site : CheckSite) (name : String) (op : AssignOp) (t v : Ty)
    (sp : Option Span) : Grows (checkAssignedType site name op t v sp) := by
  unfold checkAssignedType
  split
  · exact .ite (.report _ _ _) (.pure _)
  · refine .bind (ofOperator_grows _) fun r => ?_
    cases r with
    | none => exact .report _ _ _
    | some r => exact .ite (.report _ _ _) (.pure _)

/-- Checking a return adds its report at most. -/
theorem checkReturn_grows (site : CheckSite) (value : Option (Option Span × Option Ty))
    (sp : Option Span) : Grows (checkReturn site value sp) := by
  unfold checkReturn
  split
  · exact .report _ _ _
  · exact .ite (.report _ _ _) (.pure _)
  · refine .ite (.report _ _ _) ?_
    split
    · exact .pure _
    · exact .ite (.report _ _ _) (.pure _)

/-- Declaring parameters one after another takes no diagnostic back. -/
theorem declareParams_grows (params : List Parameter) : Grows (declareParams params) := by
  induction params with
  | nil => exact .pure _
  | cons p params ih => exact .bind (declare_grows _) fun _ => ih

/-! ## The walk -/

mutual

/-- Typing an expression only adds diagnostics, by induction on the expression. -/
theorem infer_grows (site : CheckSite) : ∀ e : Expr, Grows (infer site e)
  | .int _ _ => annotated_grows (.pure _)
  | .float _ _ => annotated_grows (.pure _)
  | .string _ _ => annotated_grows (.pure _)
  | .bool _ _ => annotated_grows (.pure _)
  | .var _ _ => annotated_grows (variableType_grows _ _ _)
  | .paren inner _ => annotated_grows (infer_grows site inner)
  | .unary _ operand _ =>
    annotated_grows (.bind (infer_grows site operand) fun _ => unaryType_grows _ _ _ _)
  | .binary _ left right _ =>
    annotated_grows (.bind (infer_grows site left) fun _ =>
      .bind (infer_grows site right) fun _ => binaryType_grows _ _ _ _ _)
  | .ternary cond yes no _ =>
    annotated_grows (.bind (infer_grows site cond) fun _ =>
      .bind (checkCondition_grows _ _ _ _) fun _ => .bind (infer_grows site yes) fun _ =>
        .bind (infer_grows site no) fun _ => .pure _)
  | .call _ args _ =>
    annotated_grows (.bind (inferAll_grows site args) fun _ => callType_grows _ _ _ _)
  | .other _ _ _ => .throw _

/-- Typing expressions one after another only adds diagnostics. -/
theorem inferAll_grows (site : CheckSite) : ∀ es : List Expr, Grows (inferAll site es)
  | [] => .pure _
  | e :: es => .bind (infer_grows site e) fun _ => .bind (inferAll_grows site es) fun _ => .pure _

end

/-- The check of a declaration once the type of the initializer is found. -/
def declareFound (site : CheckSite) (name : String) (value : Expr) (isConst : Bool)
    (sp : Option Span) (found : Option Ty) : Check Unit := do
  if found = some .void then report site value.span (.voidInitializer name)
  let ty := if found = some .void then none else found
  if !(← declare { name := name, ty := ty, readOnly := isConst }) then
    report site sp (.duplicateVariable name)

/-- What follows the typing of an initial value only adds diagnostics. -/
theorem declareFound_grows (site : CheckSite) (name : String) (value : Expr) (isConst : Bool)
    (sp : Option Span) (found : Option Ty) :
    Grows (declareFound site name value isConst sp found) := by
  unfold declareFound
  have hdeclare (v : Variable) :
      Grows (declare v >>= fun new => if !new then report site sp (.duplicateVariable name)
        else pure ()) :=
    .bind (declare_grows v) fun _ => .ite (.report _ _ _) (.pure _)
  exact .ite (.bind (.report _ _ _) fun _ => hdeclare _) (hdeclare _)

/-- The check of an assignment once the types of both sides are found. -/
def assignFound (site : CheckSite) (name : String) (op : AssignOp) (sp : Option Span)
    (target found : Option Ty) : Check Unit :=
  match target, found with
  | some t, some v => checkAssignedType site name op t v sp
  | _, _ => return

/-- What follows the typing of an assigned value only adds diagnostics. -/
theorem assignFound_grows (site : CheckSite) (name : String) (op : AssignOp) (sp : Option Span)
    (target found : Option Ty) : Grows (assignFound site name op sp target found) := by
  unfold assignFound
  split
  · exact checkAssignedType_grows _ _ _ _ _ _
  · exact .pure _

/-- Checking a declaration only adds diagnostics. -/
theorem checkDeclaration_grows (site : CheckSite) (name : String) (value : Expr) (isConst : Bool)
    (sp : Option Span) : Grows (checkDeclaration site name value isConst sp) :=
  .bind (infer_grows site value) fun _ => declareFound_grows _ _ _ _ _ _

/-- Checking an assignment only adds diagnostics. -/
theorem checkAssignment_grows (site : CheckSite) (name : String) (op : AssignOp) (value : Expr)
    (sp : Option Span) : Grows (checkAssignment site name op value sp) :=
  .bind .get fun _ => .bind (orReport_grows _ _ _ _) fun _ => .bind (infer_grows site value)
    fun _ => assignFound_grows _ _ _ _ _ _

mutual

/-- Checking a statement only adds diagnostics, by induction on the statement. -/
theorem checkStmt_grows (site : CheckSite) : ∀ s : Stmt, Grows (checkStmt site s)
  | .block body => inBlock_grows (checkBody_grows site body)
  | .declare _ _ _ _ => .bind (checkDeclaration_grows _ _ _ _ _) fun _ => .pure _
  | .assign _ _ _ _ => .bind (checkAssignment_grows _ _ _ _ _) fun _ => .pure _
  | .call call _ => .bind (infer_grows site call) fun _ => .pure _
  | .ifThen cond yes _ =>
    .bind (infer_grows site cond) fun _ => .bind (checkCondition_grows _ _ _ _) fun _ =>
      .bind (inBlock_grows (checkBody_grows site yes)) fun _ => .pure _
  | .ifThenElse cond yes no _ =>
    .bind (infer_grows site cond) fun _ => .bind (checkCondition_grows _ _ _ _) fun _ =>
      .bind (inBlock_grows (checkBody_grows site yes)) fun _ =>
        .bind (inBlock_grows (checkBody_grows site no)) fun _ => .pure _
  | .whileDo cond body _ =>
    .bind (infer_grows site cond) fun _ => .bind (checkCondition_grows _ _ _ _) fun _ =>
      .bind (inBlock_grows (checkBody_grows _ body)) fun _ => .pure _
  | .doWhile body cond _ =>
    .bind (inBlock_grows (checkBody_grows _ body)) fun _ => .bind (infer_grows site cond) fun _ =>
      .bind (checkCondition_grows _ _ _ _) fun _ => .pure _
  | .forCount _ start bound _ body _ =>
    .bind (infer_grows site start) fun _ => .bind (checkCounter_grows _ _ _ _) fun _ =>
      inBlock_grows (.bind (declareCounter_grows _) fun _ => .bind (infer_grows site bound) fun _ =>
        .bind (checkCounter_grows _ _ _ _) fun _ => .bind (checkBody_grows _ body) fun _ => .pure _)
  | .ret none _ => .bind (checkReturn_grows _ _ _) fun _ => .pure _
  | .ret (some value) _ =>
    .bind (infer_grows site value) fun _ => .bind (checkReturn_grows _ _ _) fun _ => .pure _
  | .brk _ => .ite (.bind (.report _ _ _) fun _ => .pure _) (.pure _)
  | .cont _ => .ite (.bind (.report _ _ _) fun _ => .pure _) (.pure _)
  | .other _ _ _ => .throw _

/-- Checking the statements of a block only adds diagnostics. -/
theorem checkBody_grows (site : CheckSite) : ∀ b : Block, Grows (checkBody site b)
  | .mk stmts _ _ => checkStmts_grows site stmts

/-- Checking statements one after another only adds diagnostics. -/
theorem checkStmts_grows (site : CheckSite) : ∀ ss : List Stmt, Grows (checkStmts site ss)
  | [] => .pure _
  | s :: ss =>
    .bind (checkStmt_grows site s) fun _ => .bind (checkStmts_grows site ss) fun _ => .pure _

end

/-- Checking a function only adds diagnostics. -/
theorem checkFunction_grows (site : CheckSite) (d : FuncDecl) : Grows (checkFunction site d) := by
  unfold checkFunction
  cases d.toFunction with
  | error e => exact .throw e
  | ok f =>
      exact inFrame_grows _ (.bind (declareParams_grows _) fun _ =>
        .bind (inBlock_grows (checkBody_grows _ d.body)) fun _ => .ite (.report _ _ _) (.pure _))

/-- Checking the items of a program one after another only adds diagnostics. -/
theorem checkItems_grows (site : CheckSite) : ∀ items : List Item, Grows (checkItems site items)
  | [] => .pure _
  | .func d :: rest => .bind (checkFunction_grows site d) fun _ => checkItems_grows site rest
  | .stmt s :: rest => .bind (checkStmt_grows site s) fun _ => checkItems_grows site rest

end Pigeon.Check

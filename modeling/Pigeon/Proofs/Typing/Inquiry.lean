import Pigeon.Proofs.Typing.Informed
import Pigeon.Proofs.Typing.Total
import Pigeon.Proofs.Typing.Walk

/-!
# What the checker finds for each expression

The checker with a log of verdicts: whenever the inference for an expression ends, the log gets what
was found, which may be nothing, and the diagnostics at that moment. Without its log the inquiry is
the check.

The main result is `Inquiry.checkItems_tells`: nothing is found only where something has been
reported, and the verdicts are the recorded types, one for each expression.
-/

namespace Pigeon

/-- How the inference for an expression has ended. -/
structure Verdict where
  expr : Expr
  /-- The place of the entry among the recorded types. -/
  place : Nat
  found : Option Ty
  /-- What the check had reported by then. -/
  diagnostics : List Diagnostic

/-- The entry that a verdict belongs to. -/
def Verdict.entry (v : Verdict) : (Expr × Option Ty) × Nat := ((v.expr, v.found), v.place)

/-- A step of the checker that logs its verdicts. -/
abbrev Inquiry (α : Type) := Logged Verdict Checker α

namespace Inquiry

open Logged

/-- Runs a step inside a new block. -/
def inBlock {α : Type} (body : Inquiry α) : Inquiry α := do
  lift Check.enter
  andFinally body Check.exit

/-- Runs a step inside a new frame, and then goes back to the frame before. -/
def inFrame {α : Type} (g : Handle) (body : Inquiry α) : Inquiry α := do
  let outer ← lift (Check.openFrame g)
  andFinally body do
    Check.close
    modify fun s => { s with frame := outer }

/-- Fills the entry of an expression with the type that is found, and logs the verdict. -/
def annotated (e : Expr) (body : Inquiry (Option Ty)) : Inquiry (Option Ty) := do
  let slot ← lift Check.reserve
  let found ← body
  lift (modify fun s => { s with types := s.types.setIfInBounds slot found })
  note fun c => ⟨e, slot, found, c.diagnostics⟩
  return found

mutual

/-- The type of an expression. -/
def infer (site : CheckSite) : Expr → Inquiry (Option Ty)
  | .int n sp => annotated (.int n sp) (return some .int)
  | .float x sp => annotated (.float x sp) (return some .float)
  | .string s sp => annotated (.string s sp) (return some .string)
  | .bool b sp => annotated (.bool b sp) (return some .bool)
  | .var name sp => annotated (.var name sp) (lift (Check.variableType site name sp))
  | .paren inner sp => annotated (.paren inner sp) (infer site inner)
  | .unary op operand sp => annotated (.unary op operand sp) do
    let t ← infer site operand
    lift (Check.unaryType site op t sp)
  | .binary op left right sp => annotated (.binary op left right sp) do
    let l ← infer site left
    let r ← infer site right
    lift (Check.binaryType site op l r sp)
  | .ternary cond yes no sp => annotated (.ternary cond yes no sp) do
    let c ← infer site cond
    lift (Check.checkCondition site .ternaryCondition c cond.span)
    let y ← infer site yes
    let n ← infer site no
    return y.or n
  | .call name args sp => annotated (.call name args sp) do
    let types ← inferAll site args
    lift (Check.callType site name types sp)
  | .other kind _ sp => throw (.defect (.unexpectedExpression kind) (some ⟨site.filename, sp⟩))

/-- The spans and the types of a list of expressions. -/
def inferAll (site : CheckSite) : List Expr → Inquiry (List (Option Span × Option Ty))
  | [] => return []
  | e :: es => do
    let t ← infer site e
    return (e.span, t) :: (← inferAll site es)

end

/-- Checks a declaration. -/
def checkDeclaration (site : CheckSite) (name : String) (value : Expr) (isConst : Bool)
    (sp : Option Span) : Inquiry Unit := do
  let found ← infer site value
  lift (Check.declareFound site name value isConst sp found)

/-- Checks an assignment. -/
def checkAssignment (site : CheckSite) (name : String) (op : AssignOp) (value : Expr)
    (sp : Option Span) : Inquiry Unit := do
  let c ← lift get
  let target ← lift (Check.orReport site sp .unassignable (c.frame.checkAssignable c.arena name))
  let found ← infer site value
  lift (Check.assignFound site name op sp (target.bind (·.ty)) found)

mutual

/-- Checks a statement; true if every path through it returns. -/
def checkStmt (site : CheckSite) : Stmt → Inquiry Bool
  | .block body => inBlock (checkBody site body)
  | .declare name value isConst sp => do
    checkDeclaration site name value isConst sp
    return false
  | .assign name op value sp => do
    checkAssignment site name op value sp
    return false
  | .call call _ => do
    let _ ← infer site call
    return false
  | .ifThen cond yes _ => do
    let c ← infer site cond
    lift (Check.checkCondition site .ifCondition c cond.span)
    let _ ← inBlock (checkBody site yes)
    return false
  | .ifThenElse cond yes no _ => do
    let c ← infer site cond
    lift (Check.checkCondition site .ifCondition c cond.span)
    let yesReturns ← inBlock (checkBody site yes)
    let noReturns ← inBlock (checkBody site no)
    return yesReturns && noReturns
  | .whileDo cond body _ => do
    let c ← infer site cond
    lift (Check.checkCondition site .whileCondition c cond.span)
    let _ ← inBlock (checkBody { site with inLoop := true } body)
    return false
  | .doWhile body cond _ => do
    let _ ← inBlock (checkBody { site with inLoop := true } body)
    let c ← infer site cond
    lift (Check.checkCondition site .doWhileCondition c cond.span)
    return false
  | .forCount counter start bound _ body _ => do
    let first ← infer site start
    lift (Check.checkCounter site .forStart first start.span)
    inBlock do
      lift (Check.declareCounter counter)
      let last ← infer site bound
      lift (Check.checkCounter site .forBound last bound.span)
      let _ ← checkBody { site with inLoop := true } body
      return false
  | .ret none sp => do
    lift (Check.checkReturn site none sp)
    return true
  | .ret (some value) sp => do
    let found ← infer site value
    lift (Check.checkReturn site (some (value.span, found)) sp)
    return true
  | .brk sp => lift (Check.checkStmt site (.brk sp))
  | .cont sp => lift (Check.checkStmt site (.cont sp))
  | .other kind _ sp => throw (.defect (.unexpectedStatement kind) (some ⟨site.filename, sp⟩))

/-- Checks the statements of a block in the scope that is open. -/
def checkBody (site : CheckSite) : Block → Inquiry Bool
  | .mk stmts _ _ => checkStmts site stmts

/-- Checks a list of statements. -/
def checkStmts (site : CheckSite) : List Stmt → Inquiry Bool
  | [] => return false
  | s :: ss => do
    let returns ← checkStmt site s
    let moreReturn ← checkStmts site ss
    return returns || moreReturn

end

/-- Checks the body of a function in a frame of its own. -/
def checkFunction (site : CheckSite) (d : FuncDecl) : Inquiry Unit := do
  match d.toFunction with
  | .error e => throw e
  | .ok f =>
    let site := { site with function := some (d.name, f.returns), inLoop := false }
    inFrame site.globals do
      lift (Check.declareParams f.params)
      let returns ← inBlock (checkBody site d.body)
      lift do
        if f.returns ≠ .void && !returns then
          Check.report site d.span (.missingReturn d.name f.returns)

/-- Checks the items of a program in source order. -/
def checkItems (site : CheckSite) : List Item → Inquiry Unit
  | [] => return
  | .func d :: rest => do
    checkFunction site d
    checkItems site rest
  | .stmt s :: rest => do
    let _ ← checkStmt site s
    checkItems site rest

end Inquiry

/-! ## Recorded verdicts -/

/-- Between the states `c` and `t`, the checker has recorded the types of the expressions `es` with
the verdicts `new`. -/
structure Verdict.Record (es : List Expr) (c t : Checker) (new : List Verdict) : Prop where
  /-- What was reported at the moment of a verdict has not been taken back. -/
  reported : ∀ v ∈ new, v.diagnostics <+: t.diagnostics
  /-- Where no type was found, something had been reported. -/
  warned : ∀ v ∈ new, v.found = none → v.diagnostics ≠ []
  /-- There is one new entry for each expression, and one verdict for each entry. -/
  filed : ∃ added : List (Option Ty), added.length = es.length ∧
    t.types.toList = c.types.toList ++ added ∧
    (new.map Verdict.entry).Perm ((es.zip added).zipIdx c.types.size)

namespace Verdict.Record

variable {es es' : List Expr} {c t u : Checker} {new new' : List Verdict}

theorem nil (h : t.types = c.types) : Record [] c t [] := by
  refine ⟨nofun, nofun, [], rfl, ?_, .nil⟩
  rw [h, List.append_nil]

/-- The records of two steps, one after the other. -/
theorem append (h : Record es c t new) (h' : Record es' t u new')
    (hgrows : t.diagnostics <+: u.diagnostics) : Record (es ++ es') c u (new ++ new') := by
  obtain ⟨added, hlength, htypes, hperm⟩ := h.filed
  obtain ⟨added', hlength', htypes', hperm'⟩ := h'.filed
  have hsize : t.types.size = c.types.size + (es.zip added).length := by
    rw [← Array.length_toList, htypes, List.length_append, Array.length_toList, List.length_zip,
      hlength, Nat.min_self]
  refine ⟨?_, ?_, added ++ added', ?_, ?_, ?_⟩
  · exact List.forall_mem_append.mpr ⟨fun v hv => (h.reported v hv).trans hgrows, h'.reported⟩
  · exact List.forall_mem_append.mpr ⟨h.warned, h'.warned⟩
  · rw [List.length_append, List.length_append, hlength, hlength']
  · rw [htypes', htypes, List.append_assoc]
  · rw [List.zip_append hlength.symm, List.zipIdx_append, List.map_append, ← hsize]
    exact hperm.append hperm'

/-- The verdict for an expression comes after the verdicts for its parts, but its entry is in front
of theirs. -/
theorem annotated {e : Expr} {found : Option Ty}
    (h : Record es { c with types := c.types.push none } t new)
    (hfound : t.diagnostics = [] → found ≠ none) :
    Record (e :: es) c { t with types := t.types.setIfInBounds c.types.size found }
      (new ++ [⟨e, c.types.size, found, t.diagnostics⟩]) := by
  obtain ⟨added, hlength, htypes, hperm⟩ := h.filed
  refine ⟨?_, ?_, found :: added, ?_, ?_, ?_⟩
  · exact List.forall_mem_append.mpr ⟨h.reported, List.forall_mem_singleton.mpr List.prefix_rfl⟩
  · exact List.forall_mem_append.mpr ⟨h.warned,
      List.forall_mem_singleton.mpr fun hnone hd => hfound hd hnone⟩
  · rw [List.length_cons, List.length_cons, hlength]
  · rw [Array.toList_setIfInBounds, htypes, Array.toList_push, List.append_assoc,
      ← Array.length_toList, List.set_append_right _ _ le_rfl, Nat.sub_self]
    rfl
  · rw [Array.size_push] at hperm
    rw [List.map_append]
    exact (List.perm_append_comm).trans (hperm.cons _)

end Verdict.Record

namespace Inquiry

open Logged

variable {α β : Type} {P : Prop} {Q : α → Prop} {R : β → Prop} {x : Inquiry α} {y : Check α}
  {es es' : List Expr}

/-- Without its log, the inquiry `x` is the check `y`. It keeps the checker informed and records the
types of the expressions `es`. If nothing has been reported when it ends, and `P` holds if nothing
was reported before, then its result satisfies `Q`. -/
structure Tells (P : Prop) (x : Inquiry α) (y : Check α) (es : List Expr) (Q : α → Prop) :
    Prop where
  erases : Erases x y
  ends : ∀ c log, c.Informed → (c.diagnostics = [] → P) →
    Step.Yields x (c, log) (fun a t => (∃ new, t.2 = log ++ new ∧ Verdict.Record es c t.1 new) ∧
      c.diagnostics <+: t.1.diagnostics ∧ t.1.Informed ∧ (t.1.diagnostics = [] → Q a))
      fun _ _ => True

namespace Tells

/-- A step of the checker that informs asks about no expression. -/
theorem lift (h : Check.Informs P y Q) : Tells P (Logged.lift y) y [] Q := by
  refine ⟨.lift y, fun c log hc hP => lift_yields ((h c hc hP).mono (fun a t ht => ?_) ?_)⟩
  · exact ⟨⟨[], (List.append_nil log).symm, .nil ht.1⟩, ht.2⟩
  · exact fun _ _ _ => trivial

theorem pure {a : α} (h : P → Q a) : Tells P (pure a) (pure a) [] Q := lift (.pure h)

/-- Of a step that fails nothing is claimed. -/
theorem throw {e : Failure} : Tells P (throw e : Inquiry α) (throw e) es Q :=
  ⟨.throw e, fun _ _ _ _ => trivial⟩

/-- Two steps in a row ask about the expressions of the first one and then about those of the second
one. -/
theorem bind {f : α → Inquiry β} {g : α → Check β} (h : Tells P x y es Q)
    (hf : ∀ a, Tells (P ∧ Q a) (f a) (g a) es' R) : Tells P (x >>= f) (y >>= g) (es ++ es') R := by
  refine ⟨h.erases.bind fun a => (hf a).erases, fun c log hc hP => ?_⟩
  refine (h.ends c log hc hP).bind fun a t ht => ?_
  obtain ⟨⟨new, hlog, hrecord⟩, hgrows, hinformed, hresult⟩ := ht
  have hboth : t.1.diagnostics = [] → P ∧ Q a := fun hd =>
    ⟨hP (List.prefix_nil.mp (hd ▸ hgrows)), hresult hd⟩
  refine ((hf a).ends t.1 t.2 hinformed hboth).mono (fun b u hu => ?_) fun _ _ _ => trivial
  obtain ⟨⟨new', hlog', hrecord'⟩, hgrows', hends⟩ := hu
  refine ⟨⟨new ++ new', ?_, hrecord.append hrecord' hgrows'⟩, hgrows.trans hgrows', hends⟩
  rw [hlog', hlog, List.append_assoc]

/-- The rule for sequences whose second part records nothing. -/
theorem last {f : α → Inquiry β} {g : α → Check β} (h : Tells P x y es Q)
    (hf : ∀ a, Tells (P ∧ Q a) (f a) (g a) [] R) : Tells P (x >>= f) (y >>= g) es R :=
  List.append_nil es ▸ h.bind hf

/-- The rule for sequences whose first part records nothing. -/
theorem first {f : α → Inquiry β} {g : α → Check β} (h : Check.Informs P y Q)
    (hf : ∀ a, Tells (P ∧ Q a) (f a) (g a) es R) : Tells P (Logged.lift y >>= f) (y >>= g) es R :=
  (lift h).bind hf

theorem of_eq (h : Tells P x y es Q) (hes : es = es') : Tells P x y es' Q := hes ▸ h

/-- A clean-up asks about no expression. -/
theorem andFinally {cleanUp : Check Unit} (h : Tells P x y es Q)
    (hcleanUp : Check.Informs True cleanUp fun _ => True) :
    Tells P (Logged.andFinally x cleanUp) (Check.andFinally y cleanUp) es Q := by
  refine ⟨Check.andFinally_erases h.erases cleanUp, fun c log hc hP => ?_⟩
  refine andFinally_yields (h.ends c log hc hP) fun a t ht => ?_
  obtain ⟨⟨new, hlog, hrecord⟩, hgrows, hinformed, hresult⟩ := ht
  refine (hcleanUp t.1 hinformed fun _ => trivial).mono (fun _ u hu => ?_) fun _ _ _ => trivial
  obtain ⟨htypes, hgrows', hinformed', -⟩ := hu
  have hall := hrecord.append (.nil htypes) hgrows'
  rw [List.append_nil, List.append_nil] at hall
  exact ⟨⟨new, hlog, hall⟩, hgrows.trans hgrows', hinformed', fun hd =>
    hresult (List.prefix_nil.mp (hd ▸ hgrows'))⟩

/-- A block asks about the expressions of its body. -/
theorem inBlock (h : Tells (P ∧ True) x y es Q) :
    Tells P (Inquiry.inBlock x) (Check.inBlock y) es Q :=
  .first Check.enter_informs fun _ => h.andFinally Check.exit_informs

/-- A frame of its own changes nothing about what is asked. -/
theorem inFrame (g : Handle) (h : Tells (P ∧ True) x y es Q) :
    Tells P (Inquiry.inFrame g x) (Check.inFrame g y) es Q :=
  .first (Check.openFrame_informs g) fun _ => h.andFinally <|
    .bind Check.close_informs fun _ _ hc _ => ⟨rfl, List.prefix_rfl, hc, fun _ => trivial⟩

/-- The entry of an expression is reserved before its parts are looked at, and filled afterwards. -/
theorem annotated {x : Inquiry (Option Ty)} {y : Check (Option Ty)} (e : Expr)
    (h : Tells P x y es (· ≠ none)) :
    Tells P (Inquiry.annotated e x) (Check.annotated y) (e :: es) (· ≠ none) := by
  refine ⟨.bind (.lift _) fun _ => .bind h.erases fun _ => .bind (.lift _) fun _ =>
    .note (.pure _), fun c log hc hP => ?_⟩
  unfold Inquiry.annotated
  refine .bind_ok (t := ({ c with types := c.types.push none }, log)) rfl ?_
  refine (h.ends { c with types := c.types.push none } log hc hP).bind fun found t ht => ?_
  obtain ⟨⟨new, hlog, hrecord⟩, hgrows, hinformed, hresult⟩ := ht
  refine ⟨⟨_, ?_, hrecord.annotated hresult⟩, hgrows, hinformed, hresult⟩
  show t.2 ++ _ = _
  rw [hlog, List.append_assoc]

end Tells

/-! ## The inquiry into a program -/

/- Unless something was reported, the types of the parts of an expression are known when its own
type is looked for. So only a variable needs what the checker keeps. -/
mutual

/-- Typing an expression asks about each of its nodes in order, and has an answer unless there is a
report. -/
theorem infer_tells {P : Prop} (site : CheckSite) :
    ∀ e : Expr, Tells P (infer site e) (Check.infer site e) e.preorder (· ≠ none)
  | .int _ _ => .annotated _ (.pure fun _ => Option.some_ne_none _)
  | .float _ _ => .annotated _ (.pure fun _ => Option.some_ne_none _)
  | .string _ _ => .annotated _ (.pure fun _ => Option.some_ne_none _)
  | .bool _ _ => .annotated _ (.pure fun _ => Option.some_ne_none _)
  | .var _ _ => .annotated _ (.lift (Check.variableType_informs _ _ _))
  | .paren inner _ => .annotated _ (infer_tells site inner)
  | .unary _ operand _ =>
    .annotated _ (.last (infer_tells site operand) fun _ =>
      .lift ((Check.unaryType_informs _ _ _ _).mono (fun h => h.2) fun _ h => h))
  | .binary _ left right _ =>
    .annotated _ (.bind (infer_tells site left) fun _ => .last (infer_tells site right) fun _ =>
      .lift ((Check.binaryType_informs _ _ _ _ _).mono (fun h => ⟨h.1.2, h.2⟩) fun _ h => h))
  | .ternary cond yes no _ =>
    .annotated _ (.of_eq (.bind (infer_tells site cond) fun _ =>
      .first (Check.checkCondition_informs _ _ _ _) fun _ => .bind (infer_tells site yes) fun _ =>
        .last (infer_tells site no) fun _ => .pure fun h ho =>
          h.1.2 (Option.or_eq_none_iff.mp ho).1) (List.append_assoc _ _ _).symm)
  | .call _ args _ =>
    .annotated _ (.last (inferAll_tells site args) fun _ => .lift (Check.callType_informs _ _ _ _))
  | .other _ _ _ => .throw

/-- The same of expressions in a row. -/
theorem inferAll_tells {P : Prop} (site : CheckSite) : ∀ es : List Expr,
    Tells P (inferAll site es) (Check.inferAll site es) (Expr.preorderAll es) fun _ => True
  | [] => .pure fun _ => trivial
  | e :: es => .bind (infer_tells site e) fun _ =>
    .last (inferAll_tells site es) fun _ => .pure fun _ => trivial

end

/-- Checking a declaration asks about its initial value. -/
theorem checkDeclaration_tells {P : Prop} (site : CheckSite) (name : String) (value : Expr)
    (isConst : Bool) (sp : Option Span) :
    Tells P (checkDeclaration site name value isConst sp)
      (Check.checkDeclaration site name value isConst sp) value.preorder fun _ => True :=
  .last (infer_tells site value) fun _ =>
    .lift ((Check.declareFound_informs _ _ _ _ _ _).mono (fun h => h.2) fun _ h => h)

/-- Checking an assignment asks about its value. -/
theorem checkAssignment_tells {P : Prop} (site : CheckSite) (name : String) (op : AssignOp)
    (value : Expr) (sp : Option Span) :
    Tells P (checkAssignment site name op value sp)
      (Check.checkAssignment site name op value sp) value.preorder fun _ => True :=
  .first .get fun _ => .first (Check.orReport_informs _ _ _ _) fun _ =>
    .last (infer_tells site value) fun _ => .lift (Check.assignFound_informs _ _ _ _ _ _)

mutual

/-- Checking a statement asks about its expressions in order, by induction on the statement. -/
theorem checkStmt_tells {P : Prop} (site : CheckSite) :
    ∀ s : Stmt, Tells P (checkStmt site s) (Check.checkStmt site s) s.exprs fun _ => True
  | .block body => .inBlock (checkBody_tells site body)
  | .declare _ _ _ _ => .last (checkDeclaration_tells _ _ _ _ _) fun _ => .pure fun _ => trivial
  | .assign _ _ _ _ => .last (checkAssignment_tells _ _ _ _ _) fun _ => .pure fun _ => trivial
  | .call call _ => .last (infer_tells site call) fun _ => .pure fun _ => trivial
  | .ifThen cond yes _ =>
    .bind (infer_tells site cond) fun _ => .first (Check.checkCondition_informs _ _ _ _) fun _ =>
      .last (.inBlock (checkBody_tells site yes)) fun _ => .pure fun _ => trivial
  | .ifThenElse cond yes no _ =>
    .of_eq (.bind (infer_tells site cond) fun _ =>
      .first (Check.checkCondition_informs _ _ _ _) fun _ =>
        .bind (.inBlock (checkBody_tells site yes)) fun _ =>
          .last (.inBlock (checkBody_tells site no)) fun _ => .pure fun _ => trivial)
      (List.append_assoc _ _ _).symm
  | .whileDo cond body _ =>
    .bind (infer_tells site cond) fun _ => .first (Check.checkCondition_informs _ _ _ _) fun _ =>
      .last (.inBlock (checkBody_tells _ body)) fun _ => .pure fun _ => trivial
  | .doWhile body cond _ =>
    .bind (.inBlock (checkBody_tells _ body)) fun _ => .last (infer_tells site cond) fun _ =>
      .first (Check.checkCondition_informs _ _ _ _) fun _ => .pure fun _ => trivial
  | .forCount _ start bound _ body _ =>
    .of_eq (.bind (infer_tells site start) fun _ =>
      .first (Check.checkCounter_informs _ _ _ _) fun _ => .inBlock <|
        .first (Check.declareCounter_informs _) fun _ => .bind (infer_tells site bound) fun _ =>
          .first (Check.checkCounter_informs _ _ _ _) fun _ =>
            .last (checkBody_tells _ body) fun _ => .pure fun _ => trivial)
      (List.append_assoc _ _ _).symm
  | .ret none _ => .first (Check.checkReturn_informs _ _ _) fun _ => .pure fun _ => trivial
  | .ret (some value) _ =>
    .last (infer_tells site value) fun _ =>
      .first (Check.checkReturn_informs _ _ _) fun _ => .pure fun _ => trivial
  | .brk _ => .lift (.ite (fun _ => .bind (.report _ _ _) fun _ => .pure fun _ => trivial)
      fun _ => .pure fun _ => trivial)
  | .cont _ => .lift (.ite (fun _ => .bind (.report _ _ _) fun _ => .pure fun _ => trivial)
      fun _ => .pure fun _ => trivial)
  | .other _ _ _ => .throw

/-- The same of the statements of a block. -/
theorem checkBody_tells {P : Prop} (site : CheckSite) :
    ∀ b : Block, Tells P (checkBody site b) (Check.checkBody site b) b.exprs fun _ => True
  | .mk stmts _ _ => checkStmts_tells site stmts

/-- The same of statements in a row. -/
theorem checkStmts_tells {P : Prop} (site : CheckSite) : ∀ ss : List Stmt,
    Tells P (checkStmts site ss) (Check.checkStmts site ss) (Stmt.exprsAll ss) fun _ => True
  | [] => .pure fun _ => trivial
  | s :: ss => .bind (checkStmt_tells site s) fun _ =>
    .last (checkStmts_tells site ss) fun _ => .pure fun _ => trivial

end

/-- Checking a function asks about the expressions of its body. -/
theorem checkFunction_tells {P : Prop} (site : CheckSite) (d : FuncDecl) :
    Tells P (checkFunction site d) (Check.checkFunction site d) d.body.exprs fun _ => True := by
  unfold checkFunction Check.checkFunction
  cases d.toFunction with
  | error e => exact .throw
  | ok f =>
      refine .inFrame _ (.first (Check.declareParams_informs _) fun _ =>
        .last (.inBlock (checkBody_tells _ d.body)) fun _ => .lift ?_)
      exact .ite (fun _ => Check.report_informs _ _ _) fun _ => .pure fun _ => trivial

/-- The inquiry into the items of a program. -/
theorem checkItems_tells {P : Prop} (site : CheckSite) : ∀ items : List Item,
    Tells P (checkItems site items) (Check.checkItems site items) (items.flatMap Item.exprs)
      fun _ => True
  | [] => .pure fun _ => trivial
  | .func d :: rest => .bind (checkFunction_tells site d) fun _ => checkItems_tells site rest
  | .stmt s :: rest => .bind (checkStmt_tells site s) fun _ => checkItems_tells site rest

end Inquiry

/-- The verdicts of the check of a program, in the order in which they are reached. -/
def Program.verdicts (p : Program) (g : Handle) (a : Arena) : List Verdict :=
  let (frame, arena) := Frame.openIn a g
  let site : CheckSite := { filename := p.filename, globals := g }
  (Logged.andFinally (Inquiry.checkItems site p.items) Check.close
    ({ arena := arena, frame := frame, diagnostics := [], types := #[] }, [])).2.2

/-- Let every global variable have a type, and let the check of a program end without a failure.
Then nothing is found only where the check has reported something, and the verdicts are the recorded
types, one for each expression of the program. -/
theorem Program.verdicts_record {p : Program} {g : Handle} {a : Arena} (ha : a.Typed)
    (hok : (p.check g a).result = .ok ()) :
    (∀ v ∈ p.verdicts g a, v.diagnostics <+: (p.check g a).diagnostics ∧
      (v.found = none → v.diagnostics ≠ [])) ∧
    (p.check g a).types.size = p.exprs.length ∧
    ((p.verdicts g a).map Verdict.entry).Perm (p.exprs.zip (p.check g a).types.toList).zipIdx := by
  let site : CheckSite := { filename := p.filename, globals := g }
  let opened := Frame.openIn a g
  let c : Checker := { arena := opened.2, frame := opened.1, diagnostics := [], types := #[] }
  have hc : c.Informed := fun _ => ha.newScope _
  have htells :=
    (Inquiry.checkItems_tells (P := True) site p.items).andFinally Check.close_informs
  have hends := htells.ends c [] hc fun _ => trivial
  have herases := htells.erases c []
  have hcheck : p.check g a =
      let ended := Check.andFinally (Check.checkItems site p.items) Check.close c
      ⟨ended.1, ended.2.diagnostics, ended.2.types, ended.2.arena⟩ := rfl
  have hverdicts : p.verdicts g a =
      (Logged.andFinally (Inquiry.checkItems site p.items) Check.close (c, [])).2.2 := rfl
  rw [← herases] at hcheck
  rw [hverdicts, hcheck]
  rw [hcheck] at hok
  unfold Step.Yields at hends
  generalize Logged.andFinally (Inquiry.checkItems site p.items) Check.close (c, []) = ended at *
  obtain ⟨r, t, log⟩ := ended
  obtain rfl : r = .ok () := hok
  obtain ⟨⟨new, hlog, hrecord⟩, -⟩ := hends
  obtain rfl : log = new := hlog
  obtain ⟨added, hlength, htypes, hperm⟩ := hrecord.filed
  obtain rfl : t.types.toList = added := htypes
  exact ⟨fun v hv => ⟨hrecord.reported v hv, hrecord.warned v hv⟩, hlength, hperm⟩

/-- A check that ends without a failure and without a report has found all types. -/
theorem Program.types_ne_none {p : Program} {g : Handle} {a : Arena} (ha : a.Typed)
    (hok : (p.check g a).result = .ok ()) (hquiet : (p.check g a).diagnostics = []) :
    ∀ t ∈ (p.check g a).types, t ≠ none := by
  obtain ⟨hverdicts, hsize, hperm⟩ := Program.verdicts_record ha hok
  intro t ht
  obtain ⟨i, hi, rfl⟩ := Array.getElem_of_mem ht
  -- the verdict for the entry
  have hentry : ((p.exprs[i], (p.check g a).types[i]), i) ∈
      (p.exprs.zip (p.check g a).types.toList).zipIdx := by
    rw [List.mk_mem_zipIdx_iff_getElem?, List.getElem?_zip_eq_some]
    refine ⟨List.getElem?_eq_getElem (hsize ▸ hi), ?_⟩
    rw [Array.getElem?_toList, Array.getElem?_eq_getElem hi]
  obtain ⟨v, hv, heq⟩ := List.mem_map.mp (hperm.mem_iff.mpr hentry)
  have hfound : v.found = (p.check g a).types[i] := congrArg (fun x => x.1.2) heq
  rw [← hfound]
  intro hnone
  obtain ⟨hreported, hwarned⟩ := hverdicts v hv
  exact hwarned hnone (List.prefix_nil.mp (hquiet ▸ hreported))

end Pigeon

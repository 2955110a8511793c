import Pigeon.Proofs.Tree.Flatten
import Pigeon.Proofs.Typing.Premise

/-!
# Updates and their expansions

An update `x op= e` is short for `x = x op (e)`. The checker has a rule of its own for updates, which
compares the type of the variable with that of `e`, and it accepts an update exactly if it accepts
the expansion (`Check.accepts_iff_of_expands`). This holds in every state of the checker.

The two statements stand at different places and have different nodes. So a check is compared here
with the same check of an expression without spans: the two report equally often and find the same
types, but not with the same places and not in the same entries.
-/

namespace Pigeon

/-- The second statement is the expansion of the first one, which updates the variable. Nothing is
said of the places at which the two and their parts stand. -/
inductive Stmt.Expands (name : String) : Stmt → Stmt → Prop
  | update {op e e' sp sp₁ sp₂ sp₃ sp'} : AssignOp.update op ∈ AssignOp.all → e.bare = e'.bare →
      Expands name (.assign name (.update op) e sp)
        (.assign name .set (.binary op (.var name sp₁) (.paren e' sp₂) sp₃) sp')

/-- The two checkers have the same scopes and have reported equally often. -/
structure Checker.Agrees (c c' : Checker) : Prop where
  arena : c.arena = c'.arena
  frame : c.frame = c'.frame
  reports : c.diagnostics.length = c'.diagnostics.length

namespace Check

open Step

variable {α β : Type} {site : CheckSite} {sp sp' : Option Span}

/-- From checkers that agree, the steps end with related results, or both fail, and the checkers
agree afterwards. -/
abbrev Matches (R : α → β → Prop) (x : Check α) (y : Check β) : Prop :=
  Step.Matches Checker.Agrees (fun _ _ => True) R x y

/-- The step ends without a report. -/
def Accepts (x : Check α) (c : Checker) : Prop := (x c).1.isOk = true ∧ Quiet x c

instance (x : Check α) (c : Checker) : Decidable (x.Accepts c) :=
  inferInstanceAs (Decidable (_ ∧ (x c).2.diagnostics = c.diagnostics))

/-! ## Checks without spans -/

theorem Matches.symm {x y : Check α} (h : Matches Eq x y) : Matches Eq y x := by
  intro c c' A
  have hends := h c' c ⟨A.arena.symm, A.frame.symm, A.reports.symm⟩
  generalize x c' = r, y c = r' at hends
  cases hends with
  | ok hab B => exact .ok hab.symm ⟨B.arena.symm, B.frame.symm, B.reports.symm⟩
  | error _ B => exact .error trivial ⟨B.arena.symm, B.frame.symm, B.reports.symm⟩

/-- Two reports of one issue about different texts match, as only their spans differ. -/
theorem report_matches (issue : Issue) : Matches Eq (report site sp issue) (report site sp' issue) :=
  fun c c' A => .ok rfl ⟨A.arena, A.frame, by simp [A.reports]⟩

/-- It does not matter whether a type gets an entry. -/
theorem annotated_left {x y : Check (Option Ty)} (h : Matches Eq x y) :
    Matches Eq (annotated x) y := by
  intro c c' A
  have hreserve : reserve c = (.ok c.types.size, { c with types := c.types.push none }) := rfl
  have hends := h { c with types := c.types.push none } c' ⟨A.arena, A.frame, A.reports⟩
  unfold annotated
  rw [Step.bind_ok hreserve, Step.bind_apply]
  generalize x _ = r, y c' = r' at hends
  cases hends with
  | ok hab B => exact .ok hab ⟨B.arena, B.frame, B.reports⟩
  | error _ B => exact .error trivial ⟨B.arena, B.frame, B.reports⟩

/-- Writing down a type after matching steps matches. -/
theorem annotated_matches {x y : Check (Option Ty)} (h : Matches Eq x y) :
    Matches Eq (annotated x) (annotated y) :=
  annotated_left (annotated_left h.symm).symm

/-- Looking a name up matches, wherever its report points to. -/
theorem orReport_matches (issue : ScopeError → Issue) (found : Except Failure Variable) :
    Matches Eq (orReport site sp issue found) (orReport site sp' issue found) := by
  unfold orReport
  split
  · exact .pure rfl
  · split
    · exact .throw trivial
    · exact (report_matches _).bind_eq fun _ => .pure rfl
  · exact .throw trivial

theorem ofOperator_matches (x : Except UnknownOperator α) :
    Matches Eq (ofOperator x) (ofOperator x) := by
  unfold ofOperator
  split
  · exact .pure rfl
  · exact .throw trivial

/-- Typing a name matches, whatever its span. -/
theorem variableType_matches (name : String) :
    Matches Eq (variableType site name sp) (variableType site name sp') := by
  refine Step.Matches.get.bind fun c c' A => ?_
  rw [A.arena, A.frame]
  exact (orReport_matches _ _).bind_eq fun _ => .pure rfl

/-- Typing a unary operation matches, whatever its span. -/
theorem unaryType_matches (op : UnOp) (t : Option Ty) :
    Matches Eq (unaryType site op t sp) (unaryType site op t sp') := by
  unfold unaryType
  cases t with
  | none => exact .pure rfl
  | some t =>
      refine (ofOperator_matches _).bind_eq fun r => ?_
      cases r with
      | none => exact (report_matches _).bind_eq fun _ => .pure rfl
      | some r => exact .pure rfl

/-- Typing a binary operation matches, whatever its span. -/
theorem binaryType_matches (op : BinOp) (l r : Option Ty) :
    Matches Eq (binaryType site op l r sp) (binaryType site op l r sp') := by
  unfold binaryType
  cases l with
  | none => exact .pure rfl
  | some l =>
      cases r with
      | none => exact .pure rfl
      | some r =>
          refine .ite ((report_matches _).bind_eq fun _ => .pure rfl)
            ((ofOperator_matches _).bind_eq fun t => ?_)
          cases t with
          | none => exact (report_matches _).bind_eq fun _ => .pure rfl
          | some t => exact .pure rfl

/-- Checking a condition matches, whatever its span. -/
theorem checkCondition_matches (place : ConditionPlace) (found : Option Ty) :
    Matches Eq (checkCondition site place found sp) (checkCondition site place found sp') := by
  unfold checkCondition
  split
  · exact .pure rfl
  · exact .pure rfl
  · exact report_matches _

/-- Checking an argument matches, whatever its span. -/
theorem checkArgument_matches (function : String) (i : Nat) (param : Option Parameter)
    (found : Option Ty) : Matches Eq (checkArgument site function i param sp found)
      (checkArgument site function i param sp' found) := by
  unfold checkArgument
  split
  · exact .pure rfl
  · split
    · exact report_matches _
    · split
      · exact .pure rfl
      · split
        · exact .pure rfl
        · exact report_matches _

/-- Arguments with the same types at different places. -/
abbrev SameTypes (args args' : List (Option Span × Option Ty)) : Prop :=
  List.Forall₂ (fun a b => a.2 = b.2) args args'

/-- Checking arguments of the same types matches. -/
theorem checkArguments_matches (function : String) (i : Nat) (params : List Parameter)
    {args args' : List (Option Span × Option Ty)} (h : SameTypes args args') :
    Matches Eq (checkArguments site function i params args)
      (checkArguments site function i params args') := by
  induction h generalizing i params with
  | nil => exact .pure rfl
  | @cons a b args args' hab _ ih =>
      obtain ⟨sp, found⟩ := a
      obtain ⟨sp', found'⟩ := b
      obtain rfl : found = found' := hab
      rw [checkArguments_cons, checkArguments_cons]
      exact (checkArgument_matches _ _ _ _).bind_eq fun _ => ih _ _

/-- Typing calls with arguments of the same types matches. -/
theorem callType_matches (name : String) {args args' : List (Option Span × Option Ty)}
    (h : SameTypes args args') :
    Matches Eq (callType site name args sp) (callType site name args' sp') := by
  refine Step.Matches.get.bind fun c c' A => ?_
  rw [A.arena, h.length_eq]
  split
  · exact .throw trivial
  · exact (report_matches _).bind_eq fun _ => .pure rfl
  · exact (report_matches _).bind_eq fun _ => .pure rfl
  · split
    · exact (report_matches _).bind_eq fun _ =>
        (checkArguments_matches _ _ _ h).bind_eq fun _ => .pure rfl
    · exact (checkArguments_matches _ _ _ h).bind_eq fun _ => .pure rfl

mutual

/-- Without its spans, an expression has the same type, and it is reported on equally often. -/
theorem infer_bare : ∀ e : Expr, Matches Eq (infer site e) (infer site e.bare)
  | .int _ _ | .float _ _ | .string _ _ | .bool _ _ => annotated_matches (.pure rfl)
  | .var name _ => annotated_matches (variableType_matches name)
  | .paren inner _ => annotated_matches (infer_bare inner)
  | .unary op operand _ =>
      annotated_matches ((infer_bare operand).bind_eq (unaryType_matches op))
  | .binary op left right _ => annotated_matches ((infer_bare left).bind_eq fun l =>
      (infer_bare right).bind_eq fun r => binaryType_matches op l r)
  | .ternary cond yes no _ => annotated_matches ((infer_bare cond).bind_eq fun c =>
      (checkCondition_matches _ c).bind_eq fun _ => (infer_bare yes).bind_eq fun _ =>
        (infer_bare no).bind_eq fun _ => .pure rfl)
  | .call name args _ => annotated_matches ((inferAll_bare args).bind fun _ _ h =>
      callType_matches name h)
  | .other _ _ _ => .throw trivial

/-- Expressions in a row are typed as they are without their spans. -/
theorem inferAll_bare :
    ∀ es : List Expr, Matches SameTypes (inferAll site es) (inferAll site (Expr.bareAll es))
  | [] => .pure .nil
  | e :: es => (infer_bare e).bind_eq fun _ => (inferAll_bare es).bind fun _ _ h =>
      .pure (.cons rfl h)

end

/-! ## Acceptance -/

/-- Checks that match accept the same. -/
theorem Matches.accepts_iff {x y : Check α} (h : Matches Eq x y) (hx : Grows x) (hy : Grows y)
    (c : Checker) : x.Accepts c ↔ y.Accepts c := by
  have hquiet {z : Check α} (hz : Grows z) :
      Quiet z c ↔ (z c).2.diagnostics.length = c.diagnostics.length :=
    ⟨congrArg List.length, fun hlen => ((hz c).eq_of_length hlen.symm).symm⟩
  unfold Accepts
  rw [hquiet hx, hquiet hy]
  have hends := h c c ⟨rfl, rfl, rfl⟩
  generalize x c = r, y c = r' at hends
  cases hends with
  | ok hab B =>
      dsimp only
      rw [B.reports]
      rfl
  | error _ _ => exact ⟨fun h => (nomatch h.1), fun h => (nomatch h.1)⟩

/-- A sequence accepts if both parts do. -/
theorem accepts_bind {x : Check α} {f : α → Check β} {c : Checker} (hx : Grows x)
    (hf : ∀ a, Grows (f a)) : (x >>= f).Accepts c ↔
      ∃ a c', x c = (.ok a, c') ∧ c'.diagnostics = c.diagnostics ∧ (f a).Accepts c' := by
  constructor
  · rintro ⟨hok, hquiet⟩
    obtain ⟨hxq, hfq⟩ := hquiet.bind hx hf
    rw [Step.bind_apply] at hok
    rcases hc : x c with ⟨r, c'⟩
    rw [hc] at hok
    cases r with
    | error e => cases hok
    | ok a =>
        unfold Quiet at hxq
        rw [hc] at hxq
        exact ⟨a, c', rfl, hxq, hok, hfq a c' hc⟩
  · rintro ⟨a, c', hc, hd, hok, hquiet⟩
    unfold Accepts Quiet at *
    rw [Step.bind_ok hc]
    exact ⟨hok, hquiet.trans hd⟩

/-- As far as the types are known, the operator gives a result of the type of its left operand. -/
def Combines (op : BinOp) : Option Ty → Option Ty → Prop
  | some t, some u => op.result t u = .ok (some t)
  | _, _ => True

variable {op : BinOp} {name : String} {target found : Option Ty} {c : Checker}

/-- A step that ends in the state where it began has reported nothing. -/
theorem accepts_of_eq {x : Check α} {a : α} (h : x c = (.ok a, c)) : x.Accepts c := by
  unfold Accepts Quiet
  rw [h]
  exact ⟨rfl, rfl⟩

/-- An update is accepted if the operator keeps the type of the variable. -/
theorem accepts_update (hop : op.Plain) :
    (assignFound site name (.update op) sp target found).Accepts c ↔ Combines op target found := by
  cases target with
  | none => exact iff_of_true (accepts_of_eq rfl) trivial
  | some t =>
  cases found with
  | none => exact iff_of_true (accepts_of_eq rfl) trivial
  | some u =>
  constructor
  · rintro ⟨-, hquiet⟩
    have hplain : (AssignOp.update op).Plain := fun binary h => Option.some.inj h ▸ hop
    obtain ⟨h, -⟩ | ⟨binary, h, hresult⟩ := checkAssignedType_quiet hplain hquiet
    · cases h
    · cases h
      exact hresult
  · intro h
    have heq : checkAssignedType site name (.update op) t u sp c = (.ok (), c) :=
      checkAssignedType_update rfl h
    exact accepts_of_eq heq

/-- The operators of updates are the five of arithmetic. -/
theorem mem_all_cases (hop : AssignOp.update op ∈ AssignOp.all) :
    op = .add ∨ op = .sub ∨ op = .mul ∨ op = .div ∨ op = .mod := by
  simpa [AssignOp.all] using hop

/-- The operators of updates are operators of the language. -/
theorem plain_of_mem (hop : AssignOp.update op ∈ AssignOp.all) : op.Plain := by
  rcases mem_all_cases hop with rfl | rfl | rfl | rfl | rfl <;> exact nofun

/-- A void operand gives no result. -/
theorem ne_void_of_result (hop : AssignOp.update op ∈ AssignOp.all) {t u r : Ty}
    (h : op.result t u = .ok (some r)) : t ≠ .void ∧ u ≠ .void := by
  constructor
  · rintro rfl
    rcases mem_all_cases hop with rfl | rfl | rfl | rfl | rfl <;> cases h
  · rintro rfl
    rcases mem_all_cases hop with rfl | rfl | rfl | rfl | rfl <;> cases t <;> cases h

/-- An arithmetic operation with an operand of an unknown type has an unknown type. -/
theorem binaryType_unknown (hop : AssignOp.update op ∈ AssignOp.all)
    (h : target = none ∨ found = none) :
    binaryType site op target found sp c = (.ok none, c) := by
  have hbool : op.yieldsBool = false := by
    rcases mem_all_cases hop with rfl | rfl | rfl | rfl | rfl <;> rfl
  unfold binaryType
  rw [hbool]
  obtain rfl | rfl := h
  · rfl
  · cases target <;> rfl

/-- The expansion is accepted as well if the operator keeps the type of the variable. -/
theorem accepts_expansion (hop : AssignOp.update op ∈ AssignOp.all) :
    (binaryType site op target found sp >>= assignFound site name .set sp' target).Accepts c ↔
      Combines op target found := by
  cases target with
  | none =>
      refine iff_of_true (accepts_of_eq (a := ()) ?_) trivial
      rw [Step.bind_ok (binaryType_unknown hop (.inl rfl))]
      rfl
  | some t =>
  cases found with
  | none =>
      refine iff_of_true (accepts_of_eq (a := ()) ?_) trivial
      rw [Step.bind_ok (binaryType_unknown hop (.inr rfl))]
      rfl
  | some u =>
  -- the operator is accepted, and its result is the type of the variable
  constructor
  · rintro ⟨-, hquiet⟩
    obtain ⟨hbinary, hassign⟩ :=
      hquiet.bind (binaryType_grows _ _ _ _ _) fun _ => assignFound_grows _ _ _ _ _ _
    obtain ⟨ht, hu, r, hresult⟩ := binaryType_quiet (plain_of_mem hop) hbinary
    have hquiet' := hassign _ _ (binaryType_typed ht hu hresult)
    have hset : AssignOp.set.Plain := by
      intro _ h
      cases h
    obtain ⟨-, rfl⟩ | ⟨binary, h, -⟩ := checkAssignedType_quiet hset hquiet'
    · exact hresult
    · cases h
  · intro h
    obtain ⟨ht, hu⟩ := ne_void_of_result hop h
    refine accepts_of_eq (a := ()) ?_
    rw [Step.bind_ok (binaryType_typed ht hu h)]
    have hset : checkAssignedType site name .set t t sp' c = (.ok (), c) :=
      checkAssignedType_set rfl
    exact hset

/-- What is done with the result does not count for whether a step reports. -/
theorem accepts_seq {x : Check α} {b : β} : (x >>= fun _ => pure b).Accepts c ↔ x.Accepts c := by
  unfold Accepts Quiet
  rw [Step.bind_apply]
  rcases x c with ⟨r, c'⟩
  cases r <;> rfl

/-- Comparing the types of an assignment matches, whatever its span. -/
theorem checkAssignedType_matches {assign : AssignOp} (t u : Ty) :
    Matches Eq (checkAssignedType site name assign t u sp)
      (checkAssignedType site name assign t u sp') := by
  unfold checkAssignedType
  split
  · exact .ite (report_matches _) (.pure rfl)
  · refine (ofOperator_matches _).bind_eq fun r => ?_
    cases r with
    | none => exact report_matches _
    | some r => exact .ite (report_matches _) (.pure rfl)

/-- What follows the typing of an assigned value matches, whatever its span. -/
theorem assignFound_matches {assign : AssignOp} (target found : Option Ty) :
    Matches Eq (assignFound site name assign sp target found)
      (assignFound site name assign sp' target found) := by
  unfold assignFound
  split
  · exact checkAssignedType_matches _ _
  · exact .pure rfl

/-- A look-up that fails is not accepted. -/
theorem not_accepts_orReport {issue : ScopeError → Issue} {e : Failure} :
    ¬ (orReport site sp issue (.error e)).Accepts c := by
  intro h
  cases e with
  | scope e =>
      cases e with
      | duplicateGlobal _ | duplicate _ => exact nomatch h.1
      | unknown _ | notAVariable _ | readOnly _ => exact not_quiet_report (.pure _) h.2
  | _ => exact nomatch h.1

/-- What follows a look-up is accepted if the look-up succeeds and the rest is accepted. -/
theorem accepts_orReport {issue : ScopeError → Issue} {looked : Except Failure Variable}
    {f : Option Variable → Check β} (hf : ∀ v, Grows (f v)) :
    (orReport site sp issue looked >>= f).Accepts c ↔
      ∃ v, looked = .ok v ∧ (f (some v)).Accepts c := by
  rw [accepts_bind (orReport_grows _ _ _ _) hf]
  cases looked with
  | ok v =>
      constructor
      · rintro ⟨_, _, hc, -, haccepts⟩
        cases hc
        exact ⟨v, rfl, haccepts⟩
      · rintro ⟨_, hv, haccepts⟩
        cases hv
        exact ⟨some v, c, rfl, rfl, haccepts⟩
  | error e =>
      refine iff_of_false ?_ fun ⟨_, hv, _⟩ => nomatch hv
      rintro ⟨a, c', hc, hd, -⟩
      have haccepts : (orReport site sp issue (.error e)).Accepts c := by
        unfold Accepts Quiet
        rw [hc]
        exact ⟨rfl, hd⟩
      exact not_accepts_orReport haccepts

/-- An assignment is checked in three parts: its target, its value, and the types of both. -/
theorem checkAssignment_eq (assign : AssignOp) (value : Expr) :
    checkAssignment site name assign value sp c =
      (orReport site sp .unassignable (c.frame.checkAssignable c.arena name) >>= fun target =>
        infer site value >>= assignFound site name assign sp (target.bind (·.ty))) c := by
  unfold checkAssignment
  rw [Step.bind_ok (Step.get_apply c)]
  rfl

/-- An assignment is accepted if the variable can be assigned to and the types are accepted. The type
of the value may be found by any check that matches that of the value. -/
theorem accepts_assign {x : Check (Option Ty)} {value : Expr} {assign : AssignOp} (hx : Grows x)
    (h : Matches Eq (infer site value) x) (sp' : Option Span) :
    (checkStmt site (.assign name assign value sp)).Accepts c ↔
      ∃ v, c.frame.checkAssignable c.arena name = .ok v ∧
        (x >>= assignFound site name assign sp' v.ty).Accepts c := by
  have hstmt : (checkStmt site (.assign name assign value sp)).Accepts c ↔
      (orReport site sp .unassignable (c.frame.checkAssignable c.arena name) >>= fun target =>
        infer site value >>= assignFound site name assign sp (target.bind (·.ty))).Accepts c := by
    have hseq : checkStmt site (.assign name assign value sp) =
        checkAssignment site name assign value sp >>= fun _ => pure false := rfl
    rw [hseq, accepts_seq]
    unfold Accepts Quiet
    rw [checkAssignment_eq]
  have hassign (sp : Option Span) (target found : Option Ty) :=
    assignFound_grows site name assign sp target found
  have hvalue (target : Option Ty) := Grows.bind (infer_grows site value) (hassign sp target)
  rw [hstmt, accepts_orReport fun _ => hvalue _]
  refine exists_congr fun v => and_congr_right fun _ => ?_
  have hmatches : Matches Eq (infer site value >>= assignFound site name assign sp v.ty)
      (x >>= assignFound site name assign sp' v.ty) := h.bind_eq (assignFound_matches v.ty)
  exact hmatches.accepts_iff (hvalue v.ty) (.bind hx (hassign sp' v.ty)) c

/-- The types in an expansion are found in the order variable, value, result. -/
theorem infer_expansion_matches {e e' : Expr} (h : e.bare = e'.bare) (sp₁ sp₂ sp₃ : Option Span) :
    Matches Eq (infer site (.binary op (.var name sp₁) (.paren e' sp₂) sp₃))
      (variableType site name none >>= fun l => infer site e.bare >>= fun r =>
        binaryType site op l r none) :=
  annotated_left ((annotated_left (variableType_matches name)).bind_eq fun l =>
    (annotated_left (h ▸ infer_bare e')).bind_eq fun r => binaryType_matches op l r)

/-- A variable that can be assigned to can be read. -/
theorem variableType_of_checkAssignable {v : Variable}
    (hv : c.frame.checkAssignable c.arena name = .ok v) :
    variableType site name sp c = (.ok v.ty, c) := by
  obtain ⟨⟨k, u⟩, hassignable, heq⟩ := exists_of_bind_eq_ok hv
  cases heq
  obtain ⟨⟨k', u'⟩, hlocate, hwrite⟩ := exists_of_bind_eq_ok hassignable
  dsimp only at hwrite
  split at hwrite
  · cases hwrite
  · cases hwrite
    unfold variableType
    rw [Step.bind_ok (Step.get_apply c), Frame.resolveVariable, hlocate]
    rfl

/-- The checker accepts an update exactly if it accepts the expansion. -/
theorem accepts_iff_of_expands {s s' : Stmt} (h : Stmt.Expands name s s') :
    (checkStmt site s).Accepts c ↔ (checkStmt site s').Accepts c := by
  cases h with
  | @update op e e' sp sp₁ sp₂ sp₃ sp' hop hbare =>
      have hgrows := infer_grows site e.bare
      have hbinary (l r : Option Ty) := binaryType_grows site op l r none
      have hassign (assign : AssignOp) (target found : Option Ty) :=
        assignFound_grows site name assign none target found
      rw [accepts_assign hgrows (infer_bare e) none,
        accepts_assign (.bind (variableType_grows _ _ _) fun l => .bind hgrows (hbinary l))
          (infer_expansion_matches hbare sp₁ sp₂ sp₃) none]
      refine exists_congr fun v => and_congr_right fun hv => ?_
      -- the variable is read first, and its type is that of the target
      have hread : ((variableType site name none >>= fun l => infer site e.bare >>= fun r =>
            binaryType site op l r none) >>= assignFound site name .set none v.ty).Accepts c ↔
          (infer site e.bare >>= fun r => binaryType site op v.ty r none >>=
            assignFound site name .set none v.ty).Accepts c := by
        unfold Accepts Quiet
        rw [bind_assoc, Step.bind_ok (variableType_of_checkAssignable hv), bind_assoc]
      rw [hread, accepts_bind hgrows (hassign _ _),
        accepts_bind hgrows fun r => .bind (hbinary _ r) (hassign _ _)]
      simp only [accepts_update (plain_of_mem hop), accepts_expansion hop]

end Check

end Pigeon

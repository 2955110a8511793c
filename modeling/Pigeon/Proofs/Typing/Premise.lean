import Pigeon.Proofs.Tree.Plain
import Pigeon.Proofs.Typing.Quiet
import Pigeon.Proofs.Typing.Standing

/-!
# The premises of the rules

Each primitive check of the checker decides a premise of a typing rule. It has two lemmas: what it
does in a state that stands in the context `Γ` where the premise holds (`_typed`), and that the
premise holds where it reports nothing (`_quiet`).
-/

namespace Pigeon

/-- No parameter accepts an argument without a value. -/
theorem Ty.ne_void_of_accepts {p t : Ty} (h : p.accepts t = true) : t ≠ .void := by
  rintro rfl
  simp [Ty.accepts] at h

namespace Check

variable {c : Checker} {g : Handle} {G : Symbols} {Δ : Globals} {hs : List Handle} {Γ : Context}
  {F : List Blocks} {site : CheckSite} {sp : Option Span}

/-- A report is not quiet, whatever follows it. -/
theorem not_quiet_report {α : Type} {issue : Issue} {k : Unit → Check α} (hk : Grows (k ())) :
    ¬ Quiet (report site sp issue >>= k) c := by
  intro h
  have hreport := (Quiet.bind (.report site sp issue) (fun _ => hk) h).1
  have hlen := congrArg List.length (show c.diagnostics ++ [_] = c.diagnostics from hreport)
  simp at hlen

/-- A report alone is not quiet. -/
theorem not_quiet_report_only {issue : Issue} : ¬ Quiet (report site sp issue) c := by
  intro h
  have hlen := congrArg List.length (show c.diagnostics ++ [_] = c.diagnostics from h)
  simp at hlen

/-! ## Expressions -/

/-- A name of the context is typed as the context says, with no report. -/
theorem variableType_typed (S : c.Stands g G hs Γ F) (M : G.Means Δ) (hΓ : Γ ≠ [])
    {name : String} {t : Ty} {readOnly : Bool}
    (h : Context.resolve Δ Γ name = some (t, readOnly)) :
    variableType site name sp c = (.ok (some t), c) := by
  obtain ⟨k, v, hloc, hty, -⟩ := S.locateVariable_eq M hΓ h
  unfold variableType
  rw [Step.bind_ok (Step.get_apply c), Frame.resolveVariable, hloc]
  show (Except.ok v.ty, c) = _
  rw [hty]

/-- Where typing a name reports nothing, the context has a type for it. -/
theorem variableType_quiet (S : c.Stands g G hs Γ F) (M : G.Means Δ) (hΓ : Γ ≠ [])
    {name : String} (h : Quiet (variableType site name sp) c) :
    ∃ t readOnly, Context.resolve Δ Γ name = some (t, readOnly) := by
  cases hr : Context.resolve Δ Γ name with
  | some r => exact ⟨r.1, r.2, rfl⟩
  | none =>
      unfold Quiet variableType at h
      rw [Step.bind_ok (Step.get_apply c), Frame.resolveVariable] at h
      rcases S.locateVariable_error M hΓ hr with hloc | hloc
      all_goals
        rw [hloc] at h
        exact absurd h (not_quiet_report (.bind (.pure _) fun _ => .pure _))

/-- An operator that has a result on the type of its operand is typed with it. -/
theorem unaryType_typed {op : UnOp} {u t : Ty} (h : op.result u = .ok (some t)) :
    unaryType site op (some u) sp c = (.ok (some t), c) := by
  unfold unaryType ofOperator
  simp only [h]
  rfl

/-- Where typing a unary operation reports nothing, the operator has a result. -/
theorem unaryType_quiet {op : UnOp} (hop : op.Plain) {u : Ty}
    (h : Quiet (unaryType site op (some u) sp) c) : ∃ t, op.result u = .ok (some t) := by
  obtain ⟨r, hr⟩ := hop.result_ok u
  cases r with
  | some t => exact ⟨t, hr⟩
  | none =>
      unfold unaryType ofOperator at h
      simp only [hr] at h
      exact absurd h (not_quiet_report (.pure _))

/-- An operator that has a result on the types of two operands with values is typed with it. -/
theorem binaryType_typed {op : BinOp} {u v t : Ty} (hu : u ≠ .void) (hv : v ≠ .void)
    (h : op.result u v = .ok (some t)) :
    binaryType site op (some u) (some v) sp c = (.ok (some t), c) := by
  have hvoid : (decide (u = .void) || decide (v = .void)) = false := by simp [hu, hv]
  unfold binaryType ofOperator
  simp only [hvoid, h]
  rfl

/-- Where typing a binary operation reports nothing, both operands have values and the operator has
a result. -/
theorem binaryType_quiet {op : BinOp} (hop : op.Plain) {u v : Ty}
    (h : Quiet (binaryType site op (some u) (some v) sp) c) :
    u ≠ .void ∧ v ≠ .void ∧ ∃ t, op.result u v = .ok (some t) := by
  unfold binaryType ofOperator at h
  by_cases hvoid : (decide (u = .void) || decide (v = .void)) = true
  · simp only [hvoid, if_true] at h
    exact absurd h (not_quiet_report (.pure _))
  · obtain ⟨r, hr⟩ := hop.result_ok u v
    cases r with
    | some t => exact ⟨by simp_all, by simp_all, t, hr⟩
    | none =>
        simp only [hvoid, hr] at h
        exact absurd h (not_quiet_report (.pure _))

/-- Where checking a condition reports nothing, it is a Boolean. -/
theorem checkCondition_quiet {place : ConditionPlace} {t : Ty}
    (h : Quiet (checkCondition site place (some t) sp) c) : t = .bool := by
  cases t with
  | bool => rfl
  | _ => exact absurd h not_quiet_report_only

/-- Where checking a bound reports nothing, it is an integer. -/
theorem checkCounter_quiet {issue : Ty → Issue} {t : Ty}
    (h : Quiet (checkCounter site issue (some t) sp) c) : t = .int := by
  cases t with
  | int => rfl
  | _ => exact absurd h not_quiet_report_only

/-- An argument that its parameter accepts passes without a report. -/
theorem checkArgument_typed {function : String} {i : Nat} {p : Parameter} {t : Ty}
    (h : p.ty.accepts t = true) :
    checkArgument site function i (some p) sp (some t) c = (.ok (), c) := by
  unfold checkArgument
  simp only [Ty.ne_void_of_accepts h, if_false, h, if_true]
  rfl

/-- Where checking an argument reports nothing, its parameter accepts it. -/
theorem checkArgument_quiet {function : String} {i : Nat} {p : Parameter} {t : Ty}
    (h : Quiet (checkArgument site function i (some p) sp (some t)) c) :
    p.ty.accepts t = true := by
  unfold checkArgument at h
  by_cases hvoid : t = .void
  · simp only [hvoid, if_true] at h
    exact absurd h not_quiet_report_only
  · cases ha : p.ty.accepts t with
    | true => rfl
    | false =>
        simp only [hvoid, if_false, ha, Bool.false_eq_true] at h
        exact absurd h not_quiet_report_only

/-- Arguments that their parameters accept pass without a report. -/
theorem checkArguments_typed {function : String} {i : Nat} {params : List Parameter}
    {args : List (Option Span × Option Ty)} {types : List Ty}
    (htypes : args.map (·.2) = types.map some) (h : Ty.AcceptAll (params.map (·.ty)) types) :
    checkArguments site function i params args c = (.ok (), c) := by
  induction args generalizing i params types with
  | nil => rfl
  | cons arg args ih =>
      obtain ⟨sp, found⟩ := arg
      cases types with
      | nil => simp at htypes
      | cons t types =>
          cases params with
          | nil => cases h
          | cons p params =>
              simp only [List.map_cons, List.cons.injEq] at htypes
              obtain ⟨rfl, htypes⟩ := htypes
              cases h with
              | cons hp hps =>
                  rw [checkArguments_cons, List.head?_cons, List.tail_cons,
                    Step.bind_ok (checkArgument_typed hp)]
                  exact ih htypes hps

/-- Where checking as many arguments as there are parameters reports nothing, each parameter accepts
its argument. -/
theorem checkArguments_quiet {function : String} {i : Nat} {params : List Parameter}
    {args : List (Option Span × Option Ty)} {types : List Ty}
    (htypes : args.map (·.2) = types.map some) (hlen : params.length = args.length)
    (h : Quiet (checkArguments site function i params args) c) :
    Ty.AcceptAll (params.map (·.ty)) types := by
  induction args generalizing i params types with
  | nil =>
      obtain rfl : params = [] := List.eq_nil_of_length_eq_zero hlen
      cases types with
      | nil => exact .nil
      | cons t types => simp at htypes
  | cons arg args ih =>
      obtain ⟨sp, found⟩ := arg
      cases types with
      | nil => simp at htypes
      | cons t types =>
          cases params with
          | nil => simp at hlen
          | cons p params =>
              simp only [List.map_cons, List.cons.injEq] at htypes
              obtain ⟨rfl, htypes⟩ := htypes
              rw [checkArguments_cons] at h
              obtain ⟨hfirst, hrest⟩ := Quiet.bind (checkArgument_grows _ _ _ _ _ _)
                (fun _ => checkArguments_grows _ _ _ _ _) h
              have hp := checkArgument_quiet hfirst
              exact .cons hp (ih htypes (by simpa using hlen) (hrest () c (checkArgument_typed hp)))

/-- A call of a global function with arguments that it accepts has the type of its results. -/
theorem callType_typed (S : c.Stands g G hs Γ F) (M : G.Means Δ) (hg : site.globals = g)
    {name : String} {t : Ty} {params types : List Ty} {args : List (Option Span × Option Ty)}
    (hname : Δ name = some (.func ⟨t, params⟩)) (htypes : args.map (·.2) = types.map some)
    (h : Ty.AcceptAll params types) : callType site name args sp c = (.ok (some t), c) := by
  obtain ⟨f, hf, hsig⟩ := M.find?_func hname
  obtain ⟨rfl, rfl⟩ : f.returns = t ∧ f.params.map (·.ty) = params := by
    simpa [Function.signature] using hsig
  have hlen : f.params.length = args.length := by
    have h1 := h.length_eq
    have h2 := congrArg List.length htypes
    simp only [List.length_map] at h1 h2
    omega
  unfold callType
  rw [Step.bind_ok (Step.get_apply c), hg, S.holds.global? name, hf]
  simp only [hlen, ne_eq, not_true_eq_false, if_false]
  rw [Step.bind_ok (checkArguments_typed htypes h)]
  rfl

/-- Where typing a call reports nothing, there is a global function of that name and it accepts the
arguments. -/
theorem callType_quiet (S : c.Stands g G hs Γ F) (M : G.Means Δ) (hg : site.globals = g)
    {name : String} {types : List Ty} {args : List (Option Span × Option Ty)}
    (htypes : args.map (·.2) = types.map some) (h : Quiet (callType site name args sp) c) :
    ∃ t params, Δ name = some (.func ⟨t, params⟩) ∧ Ty.AcceptAll params types := by
  unfold Quiet callType at h
  rw [Step.bind_ok (Step.get_apply c), hg, S.holds.global? name] at h
  cases hΔ : Δ name with
  | none =>
      rw [M.find?_none hΔ] at h
      exact absurd h (not_quiet_report (.pure _))
  | some x =>
      cases x with
      | var t readOnly =>
          obtain ⟨v, hv, -⟩ := M.find?_var hΔ
          rw [hv] at h
          exact absurd h (not_quiet_report (.pure _))
      | func signature =>
          obtain ⟨f, hf, rfl⟩ := M.find?_func hΔ
          rw [hf] at h
          by_cases hlen : f.params.length = args.length
          · simp only [hlen, ne_eq, not_true_eq_false, if_false] at h
            have hargs := (Quiet.bind (checkArguments_grows _ _ _ _ _) (fun _ => .pure _) h).1
            exact ⟨_, _, rfl, checkArguments_quiet htypes hlen hargs⟩
          · simp only [ne_eq, hlen, not_false_eq_true, if_true] at h
            exact absurd h
              (not_quiet_report (.bind (checkArguments_grows _ _ _ _ _) fun _ => .pure _))

/-! ## Statements -/

/-- A name that is fresh in a context is not among the symbols of its innermost block. -/
theorem Fresh.find?_eq_none {block : List Binding} {name : String}
    (h : Context.Fresh (block :: Γ) name) :
    Symbols.find? (Binding.symbols block) name = none := by
  rw [Binding.find?_symbols, Option.map_eq_none_iff, List.find?_eq_none]
  intro v hv
  simpa using h v hv

/-- A frame takes a name that is new in its innermost block. -/
theorem frame_declare_typed {h : Handle} {block : List Binding}
    (S : c.Stands g G (h :: hs) (block :: Γ) F) (v : Binding)
    (hfresh : Context.Fresh (block :: Γ) v.name) :
    ∃ a, c.frame.declare c.arena { name := v.name, ty := some v.ty, readOnly := v.readOnly } =
        .ok a ∧
      Checker.Stands { c with arena := a } g G (h :: hs) ((block ++ [v]) :: Γ) F := by
  have hnone := Fresh.find?_eq_none hfresh
  have hnew := (Symbols.contains_eq_false_iff _ _).mpr hnone
  have hstore := S.holds.store_top v.name v.symbol
  rw [Symbols.insert_of_find?_eq_none _ hnone, ← Binding.symbols_append] at hstore
  refine ⟨c.arena.store h v.name v.symbol, ?_, hstore, S.blocks, S.length⟩
  rw [Frame.declare, Frame.checkDeclarable_eq S.frame_blocks S.holds, hnew]
  rfl

/-- A declaration of a name that is new in the innermost block. -/
theorem declare_typed {h : Handle} {block : List Binding}
    (S : c.Stands g G (h :: hs) (block :: Γ) F) (v : Binding)
    (hfresh : Context.Fresh (block :: Γ) v.name) :
    ∃ a, declare { name := v.name, ty := some v.ty, readOnly := v.readOnly } c =
        (.ok true, { c with arena := a }) ∧
      Checker.Stands { c with arena := a } g G (h :: hs) ((block ++ [v]) :: Γ) F := by
  obtain ⟨a, heq, S'⟩ := frame_declare_typed S v hfresh
  refine ⟨a, ?_, S'⟩
  unfold declare
  rw [Step.bind_ok (Step.get_apply c), heq]
  rfl

/-- The name of a counter is new in the block of its loop. -/
theorem declareCounter_typed {h : Handle} (S : c.Stands g G (h :: hs) ([] :: Γ) F)
    (name : String) :
    ∃ a, declareCounter name c = (.ok (), { c with arena := a }) ∧
      Checker.Stands { c with arena := a } g G (h :: hs) ([⟨name, .int, false⟩] :: Γ) F := by
  obtain ⟨a, heq, S'⟩ := frame_declare_typed S ⟨name, .int, false⟩ (by simp [Context.Fresh])
  refine ⟨a, ?_, S'⟩
  unfold declareCounter
  rw [Step.bind_ok (Step.get_apply c), heq]
  rfl

/-- A declaration of a name that the innermost block has already. -/
theorem declare_taken {h : Handle} {block : List Binding}
    (S : c.Stands g G (h :: hs) (block :: Γ) F) {v : Variable}
    (hfresh : ¬ Context.Fresh (block :: Γ) v.name) : declare v c = (.ok false, c) := by
  have htaken : Symbols.contains (Binding.symbols block) v.name = true := by
    rw [← Bool.not_eq_false, Symbols.contains_eq_false_iff, Binding.find?_symbols,
      Option.map_eq_none_iff, List.find?_eq_none]
    intro hnone
    exact hfresh fun w hw => by simpa using hnone w hw
  unfold declare
  rw [Step.bind_ok (Step.get_apply c), Frame.declare,
    Frame.checkDeclarable_eq S.frame_blocks S.holds, htaken]
  rfl

/-- A fresh name is declared with its type, and the context has it from then on. -/
theorem declareFound_typed {h : Handle} {block : List Binding}
    (S : c.Stands g G (h :: hs) (block :: Γ) F) {name : String} {t : Ty} (ht : t ≠ .void)
    (hfresh : Context.Fresh (block :: Γ) name) (value : Expr) (isConst : Bool) :
    ∃ a, declareFound site name value isConst sp (some t) c = (.ok (), { c with arena := a }) ∧
      Checker.Stands { c with arena := a } g G (h :: hs) ((block ++ [⟨name, t, isConst⟩]) :: Γ)
        F := by
  obtain ⟨a, heq, hS⟩ := declare_typed S ⟨name, t, isConst⟩ hfresh
  refine ⟨a, ?_, hS⟩
  unfold declareFound
  simp only [Option.some.injEq, ht, if_false]
  rw [Step.bind_ok heq]
  rfl

/-- Where a declaration reports nothing, its name was fresh and its value has a type other than
`void`. -/
theorem declareFound_quiet {h : Handle} {block : List Binding}
    (S : c.Stands g G (h :: hs) (block :: Γ) F) {name : String} {t : Ty} {value : Expr}
    {isConst : Bool} (hq : Quiet (declareFound site name value isConst sp (some t)) c) :
    t ≠ .void ∧ Context.Fresh (block :: Γ) name := by
  have hgrows (v : Variable) :
      Grows (declare v >>= fun new => if !new then report site sp (.duplicateVariable name)
        else pure ()) :=
    .bind (declare_grows v) fun _ => .ite (.report _ _ _) (.pure _)
  unfold declareFound at hq
  by_cases ht : t = .void
  · simp only [ht, if_true] at hq
    exact absurd hq (not_quiet_report (hgrows _))
  · refine ⟨ht, ?_⟩
    simp only [Option.some.injEq, ht, if_false] at hq
    by_contra hfresh
    have hlast := (Quiet.bind (declare_grows _) (fun _ => .ite (.report _ _ _) (.pure _)) hq).2
      false c (declare_taken S hfresh)
    exact not_quiet_report_only hlast

/-- A variable that is not read-only passes the check for assignments. -/
theorem checkAssignable_typed (site : CheckSite) (sp : Option Span) (S : c.Stands g G hs Γ F)
    (M : G.Means Δ) (hΓ : Γ ≠ []) {name : String} {t : Ty}
    (h : Context.resolve Δ Γ name = some (t, false)) :
    ∃ v, orReport site sp .unassignable (c.frame.checkAssignable c.arena name) c =
      (.ok (some v), c) ∧ v.ty = some t := by
  obtain ⟨k, v, hloc, hty, hro⟩ := S.locateVariable_eq M hΓ h
  refine ⟨v, ?_, hty⟩
  have hfound : c.frame.checkAssignable c.arena name = .ok v := by
    rw [Frame.checkAssignable, Frame.locateAssignable, hloc]
    show (if v.readOnly = true then _ else _ : Except Failure (Handle × Variable)) >>= _ = _
    rw [hro]
    rfl
  rw [hfound]
  rfl

/-- Where the check of an assigned name reports nothing, the context has a variable for it that is
not read-only. -/
theorem checkAssignable_quiet (S : c.Stands g G hs Γ F) (M : G.Means Δ) (hΓ : Γ ≠ [])
    {name : String}
    (hq : Quiet (orReport site sp .unassignable (c.frame.checkAssignable c.arena name)) c) :
    ∃ t, Context.resolve Δ Γ name = some (t, false) := by
  rw [Frame.checkAssignable, Frame.locateAssignable] at hq
  cases hr : Context.resolve Δ Γ name with
  | none =>
      rcases S.locateVariable_error M hΓ hr with hloc | hloc
      all_goals
        rw [hloc] at hq
        exact absurd hq (not_quiet_report (.pure _))
  | some r =>
      obtain ⟨t, readOnly⟩ := r
      obtain ⟨k, v, hloc, -, hro⟩ := S.locateVariable_eq M hΓ hr
      cases readOnly with
      | false => exact ⟨t, rfl⟩
      | true =>
          rw [hloc] at hq
          change Quiet (orReport site sp .unassignable
            ((if v.readOnly = true then throw _ else _ : Except Failure (Handle × Variable)) >>= _))
              c at hq
          rw [hro] at hq
          exact absurd hq (not_quiet_report (.pure _))

/-- A plain assignment of a value of the type of the variable passes without a report. -/
theorem checkAssignedType_set {name : String} {op : AssignOp} {t : Ty} (hop : op.binary? = none) :
    checkAssignedType site name op t t sp c = (.ok (), c) := by
  unfold checkAssignedType
  rw [hop]
  simp

/-- An update passes without a report if its operator gives the type of the variable. -/
theorem checkAssignedType_update {name : String} {op : AssignOp} {binary : BinOp} {t u : Ty}
    (hop : op.binary? = some binary) (h : binary.result t u = .ok (some t)) :
    checkAssignedType site name op t u sp c = (.ok (), c) := by
  unfold checkAssignedType ofOperator
  simp only [hop, h]
  rw [Step.bind_ok (Step.pure_apply _ _)]
  simp

/-- Where comparing the types reports nothing, they are equal, or the operator gives the type of the
variable. -/
theorem checkAssignedType_quiet {name : String} {op : AssignOp} (hplain : op.Plain) {t u : Ty}
    (hq : Quiet (checkAssignedType site name op t u sp) c) :
    (op.binary? = none ∧ u = t) ∨
      ∃ binary, op.binary? = some binary ∧ binary.result t u = .ok (some t) := by
  unfold checkAssignedType ofOperator at hq
  cases hop : op.binary? with
  | none =>
      simp only [hop] at hq
      by_cases hut : u = t
      · exact Or.inl ⟨rfl, hut⟩
      · simp only [ne_eq, hut, not_false_eq_true, if_true] at hq
        exact absurd hq not_quiet_report_only
  | some binary =>
      obtain ⟨r, hr⟩ := (hplain binary hop).result_ok t u
      simp only [hop, hr] at hq
      unfold Quiet at hq
      rw [Step.bind_ok (Step.pure_apply _ _)] at hq
      cases r with
      | none => exact absurd hq not_quiet_report_only
      | some r =>
          by_cases hrt : r = t
          · exact Or.inr ⟨binary, rfl, by rw [hr, hrt]⟩
          · simp only [ne_eq, hrt, not_false_eq_true, if_true] at hq
            exact absurd hq not_quiet_report_only

/-- A return without a value passes in a function without a result. -/
theorem checkReturn_none {name : String} (h : site.function = some (name, .void)) :
    checkReturn site none sp c = (.ok (), c) := by
  unfold checkReturn
  rw [h]
  simp

/-- A return with a value of the type of the function passes. -/
theorem checkReturn_some {name : String} {t : Ty} (h : site.function = some (name, t))
    (ht : t ≠ .void) (valueSpan : Option Span) :
    checkReturn site (some (valueSpan, some t)) sp c = (.ok (), c) := by
  unfold checkReturn
  simp [h, ht]

/-- Where a return without a value reports nothing, it is in a function without a result. -/
theorem checkReturn_none_quiet (hq : Quiet (checkReturn site none sp) c) :
    ∃ name, site.function = some (name, .void) := by
  unfold checkReturn at hq
  cases hf : site.function with
  | none =>
      simp only [hf] at hq
      exact absurd hq not_quiet_report_only
  | some f =>
      obtain ⟨name, t⟩ := f
      simp only [hf] at hq
      by_cases ht : t = .void
      · exact ⟨name, by rw [ht]⟩
      · simp only [ne_eq, ht, not_false_eq_true, if_true] at hq
        exact absurd hq not_quiet_report_only

/-- Where a return with a value reports nothing, it is in a function with results of that type. -/
theorem checkReturn_some_quiet {valueSpan : Option Span} {t : Ty}
    (hq : Quiet (checkReturn site (some (valueSpan, some t)) sp) c) :
    ∃ name, site.function = some (name, t) ∧ t ≠ .void := by
  unfold checkReturn at hq
  cases hf : site.function with
  | none =>
      simp only [hf] at hq
      exact absurd hq not_quiet_report_only
  | some f =>
      obtain ⟨name, u⟩ := f
      simp only [hf] at hq
      by_cases hu : u = .void
      · simp only [hu, if_true] at hq
        exact absurd hq not_quiet_report_only
      · by_cases ht : t = u
        · exact ⟨name, by rw [ht], ht ▸ hu⟩
        · simp only [hu, if_false, ne_eq, ht, not_false_eq_true, if_true] at hq
          exact absurd hq not_quiet_report_only

/-! ## Blocks -/

/-- Entering a block puts an empty one onto the context. -/
theorem enter_typed (S : c.Stands g G hs Γ F) (hΓ : Γ ≠ []) :
    ∃ h c', enter c = (.ok (), c') ∧ c'.Stands g G (h :: hs) ([] :: Γ) F ∧
      c'.diagnostics = c.diagnostics ∧ c'.types = c.types := by
  have henter := Frame.enter_eq (a := c.arena) (g := g) S.frame_blocks (S.blocks_ne_nil hΓ)
  have hnew := S.holds.newScope
  generalize c.arena.newScope (some (Blocks.top g (Context.blocks hs Γ))) = r at henter hnew
  obtain ⟨h, a⟩ := r
  refine ⟨h, { c with frame := { c.frame with blocks := h :: c.frame.blocks }, arena := a }, ?_,
    ⟨hnew, ?_, ?_⟩, rfl, rfl⟩
  · unfold enter
    rw [Step.bind_ok (Step.get_apply c), henter]
    rfl
  · show h :: c.frame.blocks = h :: hs
    rw [S.blocks]
  · simp [S.length]

/-- Leaving a block takes the innermost one off the context. -/
theorem exit_typed {h : Handle} {block : List Binding} (S : c.Stands g G (h :: hs) (block :: Γ) F)
    (hΓ : Γ ≠ []) :
    ∃ c', exit c = (.ok (), c') ∧ c'.Stands g G hs Γ F ∧ c'.diagnostics = c.diagnostics ∧
      c'.types = c.types := by
  have hlen : hs.length = Γ.length := by simpa using S.length
  have hne : Context.blocks hs Γ ≠ [] := by
    cases Γ with
    | nil => exact absurd rfl hΓ
    | cons b Γ =>
        cases hs with
        | nil => simp at hlen
        | cons h hs => simp
  have hexit := Frame.exit_eq (f := Context.blocks hs Γ) S.frame_blocks hne S.holds
  rw [Context.handles_blocks hlen] at hexit
  refine ⟨{ c with frame := { c.frame with blocks := hs }, arena := c.arena.vacate h }, ?_,
    ⟨S.holds.vacate.2, rfl, hlen⟩, rfl, rfl⟩
  unfold exit
  rw [Step.bind_ok (Step.get_apply c), hexit]
  rfl

end Check

end Pigeon

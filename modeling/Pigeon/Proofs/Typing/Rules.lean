import Mathlib.Data.List.Nodup
import Pigeon.Native.Registry
import Pigeon.Typing.Signature

/-!
# The typing rules

The rules of the language as a relation, without unknown types and without fallbacks. A *context*
lists the open blocks of a frame, the innermost first, and in each block the variables in the order
of their declaration. The *globals* say what a name means outside all blocks.

* `HasType Δ Γ e t`: the expression `e` has the type `t`.
* `StmtTyped Δ ret loop Γ s Γ'`: the statement `s` may stand in the context `Γ`, and leaves the
  context `Γ'` for the statements after it. Here `ret` is the result type of the function around it,
  if there is one, and `loop` says whether it stands inside a loop.
* `Stmt.Returns s`: every path through `s` ends in a `return`.
* `Program.WellTyped natives p`: the program `p` follows the rules on a host with these natives.
-/

namespace Pigeon

/-- The result type and the types of the parameters of a function. -/
structure Signature where
  returns : Ty
  params : List Ty
  deriving DecidableEq

/-- What a name means outside all blocks. -/
inductive Entity where
  | var (ty : Ty) (readOnly : Bool)
  | func (signature : Signature)
  deriving DecidableEq

/-- The meaning of the global names. -/
abbrev Globals := String → Option Entity

/-- A variable of a block. -/
structure Binding where
  name : String
  ty : Ty
  readOnly : Bool := false
  deriving DecidableEq

/-- The variables of the open blocks, the innermost block first. -/
abbrev Context := List (List Binding)

namespace Context

/-- The innermost variable of a name. -/
def find? (Γ : Context) (name : String) : Option Binding :=
  Γ.findSome? fun block => block.find? (·.name = name)

/-- The type of the variable that a name stands for, and whether it is read-only. A variable of a
block hides a global one. -/
def resolve (Δ : Globals) (Γ : Context) (name : String) : Option (Ty × Bool) :=
  match find? Γ name with
  | some v => some (v.ty, v.readOnly)
  | none =>
    match Δ name with
    | some (.var ty readOnly) => some (ty, readOnly)
    | _ => none

/-- The innermost block has no variable of this name. -/
def Fresh (Γ : Context) (name : String) : Prop :=
  ∀ v ∈ Γ.headD [], v.name ≠ name

/-- The context after a declaration in the innermost block. -/
def declare (v : Binding) : Context → Context
  | [] => []
  | block :: outer => (block ++ [v]) :: outer

end Context

/-! ## Expressions -/

mutual

/-- The type of an expression. The type of a conditional expression is that of its first branch. -/
inductive HasType (Δ : Globals) (Γ : Context) : Expr → Ty → Prop
  | int {n sp} : HasType Δ Γ (.int n sp) .int
  | float {x sp} : HasType Δ Γ (.float x sp) .float
  | string {s sp} : HasType Δ Γ (.string s sp) .string
  | bool {b sp} : HasType Δ Γ (.bool b sp) .bool
  | var {name t readOnly sp} : Context.resolve Δ Γ name = some (t, readOnly) →
      HasType Δ Γ (.var name sp) t
  | paren {e t sp} : HasType Δ Γ e t → HasType Δ Γ (.paren e sp) t
  | unary {op e u t sp} : HasType Δ Γ e u → op.result u = .ok (some t) →
      HasType Δ Γ (.unary op e sp) t
  | binary {op l r u v t sp} : HasType Δ Γ l u → HasType Δ Γ r v → u ≠ .void → v ≠ .void →
      op.result u v = .ok (some t) → HasType Δ Γ (.binary op l r sp) t
  | ternary {c y n t u sp} : HasType Δ Γ c .bool → HasType Δ Γ y t → HasType Δ Γ n u →
      HasType Δ Γ (.ternary c y n sp) t
  | call {name args t params sp} : Δ name = some (.func ⟨t, params⟩) →
      ArgumentsFit Δ Γ args params → HasType Δ Γ (.call name args sp) t

/-- There are as many arguments as parameters, and each is accepted by its parameter. -/
inductive ArgumentsFit (Δ : Globals) (Γ : Context) : List Expr → List Ty → Prop
  | nil : ArgumentsFit Δ Γ [] []
  | cons {e es t p ps} : HasType Δ Γ e t → p.accepts t = true → ArgumentsFit Δ Γ es ps →
      ArgumentsFit Δ Γ (e :: es) (p :: ps)

end

/-- The types of the arguments are accepted by the types of the parameters, one by one. -/
abbrev Ty.AcceptAll (params args : List Ty) : Prop :=
  List.Forall₂ (fun p t => p.accepts t = true) params args

/-- Arguments fit if they have types that the parameters accept. -/
theorem ArgumentsFit.types {Δ : Globals} {Γ : Context} {es : List Expr} {ps : List Ty}
    (h : ArgumentsFit Δ Γ es ps) :
    ∃ types, List.Forall₂ (HasType Δ Γ) es types ∧ Ty.AcceptAll ps types := by
  induction es generalizing ps with
  | nil =>
      cases h
      exact ⟨[], .nil, .nil⟩
  | cons e es ih =>
      cases h with
      | cons he hp hes =>
          obtain ⟨types, htypes, haccepted⟩ := ih hes
          exact ⟨_ :: types, .cons he htypes, .cons hp haccepted⟩

theorem ArgumentsFit.of_types {Δ : Globals} {Γ : Context} {es : List Expr} {ps types : List Ty}
    (htypes : List.Forall₂ (HasType Δ Γ) es types) (haccepted : Ty.AcceptAll ps types) :
    ArgumentsFit Δ Γ es ps := by
  induction htypes generalizing ps with
  | nil =>
      cases haccepted
      exact .nil
  | cons he _ ih =>
      cases haccepted with
      | cons hp hps => exact .cons he hp (ih hps)

/-! ## Statements -/

mutual

/-- A statement may stand in a context, and leaves a context for the statements after it. -/
inductive StmtTyped (Δ : Globals) (ret : Option Ty) : Bool → Context → Stmt → Context → Prop
  | block {loop Γ Γ' b} : StmtsTyped Δ ret loop ([] :: Γ) b.stmts Γ' →
      StmtTyped Δ ret loop Γ (.block b) Γ
  | declare {loop Γ name e isConst sp t} : HasType Δ Γ e t → t ≠ .void → Context.Fresh Γ name →
      StmtTyped Δ ret loop Γ (.declare name e isConst sp) (Context.declare ⟨name, t, isConst⟩ Γ)
  | assign {loop Γ name op e sp t} : Context.resolve Δ Γ name = some (t, false) → HasType Δ Γ e t →
      op.binary? = none → StmtTyped Δ ret loop Γ (.assign name op e sp) Γ
  | update {loop Γ name op e sp t u binary} : Context.resolve Δ Γ name = some (t, false) →
      HasType Δ Γ e u → op.binary? = some binary → binary.result t u = .ok (some t) →
      StmtTyped Δ ret loop Γ (.assign name op e sp) Γ
  | call {loop Γ e sp t} : HasType Δ Γ e t → StmtTyped Δ ret loop Γ (.call e sp) Γ
  | ifThen {loop Γ Γ₁ c y sp} : HasType Δ Γ c .bool →
      StmtsTyped Δ ret loop ([] :: Γ) y.stmts Γ₁ → StmtTyped Δ ret loop Γ (.ifThen c y sp) Γ
  | ifThenElse {loop Γ Γ₁ Γ₂ c y n sp} : HasType Δ Γ c .bool →
      StmtsTyped Δ ret loop ([] :: Γ) y.stmts Γ₁ → StmtsTyped Δ ret loop ([] :: Γ) n.stmts Γ₂ →
      StmtTyped Δ ret loop Γ (.ifThenElse c y n sp) Γ
  | whileDo {loop Γ Γ₁ c b sp} : HasType Δ Γ c .bool →
      StmtsTyped Δ ret true ([] :: Γ) b.stmts Γ₁ → StmtTyped Δ ret loop Γ (.whileDo c b sp) Γ
  | doWhile {loop Γ Γ₁ c b sp} : StmtsTyped Δ ret true ([] :: Γ) b.stmts Γ₁ →
      HasType Δ Γ c .bool → StmtTyped Δ ret loop Γ (.doWhile b c sp) Γ
  /-- The counter, the bound and what the body declares share one block. -/
  | forCount {loop Γ Γ₁ counter start bound direction b sp} : HasType Δ Γ start .int →
      HasType Δ ([⟨counter, .int, false⟩] :: Γ) bound .int →
      StmtsTyped Δ ret true ([⟨counter, .int, false⟩] :: Γ) b.stmts Γ₁ →
      StmtTyped Δ ret loop Γ (.forCount counter start bound direction b sp) Γ
  | retVoid {loop Γ sp} : ret = some .void → StmtTyped Δ ret loop Γ (.ret none sp) Γ
  | ret {loop Γ e sp t} : HasType Δ Γ e t → t ≠ .void → ret = some t →
      StmtTyped Δ ret loop Γ (.ret (some e) sp) Γ
  | brk {Γ sp} : StmtTyped Δ ret true Γ (.brk sp) Γ
  | cont {Γ sp} : StmtTyped Δ ret true Γ (.cont sp) Γ

/-- Statements may stand one after the other. -/
inductive StmtsTyped (Δ : Globals) (ret : Option Ty) : Bool → Context → List Stmt → Context → Prop
  | nil {loop Γ} : StmtsTyped Δ ret loop Γ [] Γ
  | cons {loop Γ Γ₁ Γ₂ s ss} : StmtTyped Δ ret loop Γ s Γ₁ → StmtsTyped Δ ret loop Γ₁ ss Γ₂ →
      StmtsTyped Δ ret loop Γ (s :: ss) Γ₂

end

mutual

/-- Every path through the statement ends in a `return`. -/
inductive Stmt.Returns : Stmt → Prop
  | ret {value sp} : Stmt.Returns (.ret value sp)
  | block {b} : Stmt.SomeReturns b.stmts → Stmt.Returns (.block b)
  | ifThenElse {c y n sp} : Stmt.SomeReturns y.stmts → Stmt.SomeReturns n.stmts →
      Stmt.Returns (.ifThenElse c y n sp)

/-- Every path through one of the statements ends in a `return`. -/
inductive Stmt.SomeReturns : List Stmt → Prop
  | here {s ss} : Stmt.Returns s → Stmt.SomeReturns (s :: ss)
  | later {s ss} : Stmt.SomeReturns ss → Stmt.SomeReturns (s :: ss)

end

/-! ## Programs -/

/-- A parameter as a variable of the outermost block of a call. -/
def Parameter.binding (q : Parameter) : Binding := ⟨q.name, q.ty, false⟩

/-- The types of the result and of the parameters of a function. -/
def Function.signature (f : Function) : Signature := ⟨f.returns, f.params.map (·.ty)⟩

/-- The natives under their names: variables first, then functions. -/
def Natives.entities (n : Natives) : List (String × Entity) :=
  n.vars.map (fun v => (v.name, .var v.ty v.readOnly)) ++
    n.funcs.map (fun f => (f.name, .func ⟨f.returns, f.params⟩))

/-- A declared function under its name, if the types of its declaration are spelled correctly. -/
def FuncDecl.entity? (d : FuncDecl) : Option (String × Entity) :=
  match d.toFunction with
  | .ok f => some (d.name, .func f.signature)
  | .error _ => none

/-- The meaning of the global names of a program on a host. -/
def Program.globals (natives : Natives) (p : Program) : Globals :=
  fun name => (natives.entities ++ p.functions.filterMap FuncDecl.entity?).lookup name

theorem Program.mem_functions {p : Program} {d : FuncDecl} :
    d ∈ p.functions ↔ .func d ∈ p.items := by
  unfold Program.functions
  rw [List.mem_filterMap]
  constructor
  · rintro ⟨item, hitem, heq⟩
    cases item with
    | func d' =>
        cases heq
        exact hitem
    | stmt s => cases heq
  · intro hd
    exact ⟨.func d, hd, rfl⟩

/-- A function declaration follows the rules. -/
structure FuncDecl.WellTyped (Δ : Globals) (d : FuncDecl) (f : Function) : Prop where
  function : d.toFunction = .ok f
  params_nodup : (f.params.map (·.name)).Nodup
  params_ne_void : ∀ q ∈ f.params, q.ty ≠ .void
  body : ∃ Γ, StmtsTyped Δ (some f.returns) false [[], f.params.map Parameter.binding] d.body.stmts Γ
  returns : f.returns ≠ .void → Stmt.SomeReturns d.body.stmts

/-- A program follows the rules on a host with the given natives. -/
structure Program.WellTyped (natives : Natives) (p : Program) : Prop where
  names_nodup : (p.functions.map (·.name)).Nodup
  names_not_native : ∀ d ∈ p.functions, d.name ∉ natives.names
  functions : ∀ d ∈ p.functions, ∃ f, d.WellTyped (p.globals natives) f
  statements : ∃ Γ, StmtsTyped (p.globals natives) none false [[]] p.statements Γ

end Pigeon

import Pigeon.Proofs.Typing.Rules

/-!
# The nodes of a program and their contexts

The expressions, statements and blocks of a program are numbered in the order in which the checker
meets them: a node before its parts, and the parts in source order. `Program.nodes` is the list of
all nodes in that order, so the number of a node is its place in the list. Among the expressions
alone the order is that of `Program.exprs`.

A *site* is a node together with the context in which the rules want it to stand. `Program.sites`
lists the sites of all nodes. The context after a declaration depends on the type of the
initializer, which is the only type that the initializer can have (`Expr.typeIn`).
-/

namespace Pigeon

/-! ## Nodes -/

/-- A part of a program that can be checked and run. -/
inductive Node where
  | expr (e : Expr)
  | stmt (s : Stmt)
  | block (b : Block)

/-- The expression at a node, if it is one. -/
def Node.expr? : Node → Option Expr
  | expr e => some e
  | _ => none

/-- The nodes of an expression. -/
def Expr.nodes (e : Expr) : List Node := e.preorder.map .expr

/-- The nodes of a list of expressions. -/
def Expr.nodesAll (es : List Expr) : List Node := (Expr.preorderAll es).map .expr

mutual

/-- The nodes of a statement. -/
def Stmt.nodes : Stmt → List Node
  | .block b => .stmt (.block b) :: b.nodes
  | .declare name value isConst sp => .stmt (.declare name value isConst sp) :: value.nodes
  | .assign name op value sp => .stmt (.assign name op value sp) :: value.nodes
  | .call call sp => .stmt (.call call sp) :: call.nodes
  | .ifThen c y sp => .stmt (.ifThen c y sp) :: (c.nodes ++ y.nodes)
  | .ifThenElse c y n sp => .stmt (.ifThenElse c y n sp) :: (c.nodes ++ (y.nodes ++ n.nodes))
  | .whileDo c b sp => .stmt (.whileDo c b sp) :: (c.nodes ++ b.nodes)
  | .doWhile b c sp => .stmt (.doWhile b c sp) :: (b.nodes ++ c.nodes)
  | .forCount counter start bound direction b sp =>
    .stmt (.forCount counter start bound direction b sp) ::
      (start.nodes ++ (bound.nodes ++ b.nodes))
  | .ret (some value) sp => .stmt (.ret (some value) sp) :: value.nodes
  | .ret none sp => [.stmt (.ret none sp)]
  | .brk sp => [.stmt (.brk sp)]
  | .cont sp => [.stmt (.cont sp)]
  | .other kind fields sp =>
    .stmt (.other kind fields sp) :: (Outline.node kind fields sp).exprs.map .expr

/-- The nodes of a block. -/
def Block.nodes : Block → List Node
  | .mk stmts braced sp => .block (.mk stmts braced sp) :: Stmt.nodesAll stmts

/-- The nodes of a list of statements. -/
def Stmt.nodesAll : List Stmt → List Node
  | [] => []
  | s :: ss => s.nodes ++ Stmt.nodesAll ss

end

/-- The nodes of an item. -/
def Item.nodes : Item → List Node
  | .func d => d.body.nodes
  | .stmt s => s.nodes

/-- The nodes of a program, in the order in which they are checked. -/
def Program.nodes (p : Program) : List Node := p.items.flatMap Item.nodes

/-- The number of expressions before the node with a given number. -/
def Program.exprIndex (p : Program) (k : Nat) : Nat :=
  ((p.nodes.take k).filterMap Node.expr?).length

/-- The nodes of an expression are expressions, in the order in which they are checked. -/
theorem Expr.filterMap_expr?_nodes (e : Expr) : e.nodes.filterMap Node.expr? = e.preorder := by
  rw [Expr.nodes, List.filterMap_map]
  exact List.filterMap_some

mutual

/-- The expressions among the nodes of a statement are its expressions. -/
theorem Stmt.filterMap_expr?_nodes : ∀ s : Stmt, s.nodes.filterMap Node.expr? = s.exprs
  | .block b => by
      rw [Stmt.nodes, Stmt.exprs, ← Block.filterMap_expr?_nodes b]
      rfl
  | .declare _ value _ _ => by
      rw [Stmt.nodes, Stmt.exprs, ← value.filterMap_expr?_nodes]
      rfl
  | .assign _ _ value _ => by
      rw [Stmt.nodes, Stmt.exprs, ← value.filterMap_expr?_nodes]
      rfl
  | .call call _ => by
      rw [Stmt.nodes, Stmt.exprs, ← call.filterMap_expr?_nodes]
      rfl
  | .ifThen c y _ => by
      rw [Stmt.nodes, Stmt.exprs, ← c.filterMap_expr?_nodes, ← Block.filterMap_expr?_nodes y,
        ← List.filterMap_append]
      rfl
  | .ifThenElse c y n _ => by
      rw [Stmt.nodes, Stmt.exprs, ← c.filterMap_expr?_nodes, ← Block.filterMap_expr?_nodes y,
        ← Block.filterMap_expr?_nodes n, List.append_assoc, ← List.filterMap_append,
        ← List.filterMap_append]
      rfl
  | .whileDo c b _ => by
      rw [Stmt.nodes, Stmt.exprs, ← c.filterMap_expr?_nodes, ← Block.filterMap_expr?_nodes b,
        ← List.filterMap_append]
      rfl
  | .doWhile b c _ => by
      rw [Stmt.nodes, Stmt.exprs, ← c.filterMap_expr?_nodes, ← Block.filterMap_expr?_nodes b,
        ← List.filterMap_append]
      rfl
  | .forCount _ start bound _ b _ => by
      rw [Stmt.nodes, Stmt.exprs, ← start.filterMap_expr?_nodes, ← bound.filterMap_expr?_nodes,
        ← Block.filterMap_expr?_nodes b, List.append_assoc, ← List.filterMap_append,
        ← List.filterMap_append]
      rfl
  | .ret (some value) _ => by
      rw [Stmt.nodes, Stmt.exprs, ← value.filterMap_expr?_nodes]
      rfl
  | .ret none _ => rfl
  | .brk _ => rfl
  | .cont _ => rfl
  | .other kind fields sp => by
      rw [Stmt.nodes, Stmt.exprs]
      show List.filterMap _ (List.map _ _) = _
      rw [List.filterMap_map]
      exact List.filterMap_some

/-- The expressions among the nodes of a block are its expressions, in order. -/
theorem Block.filterMap_expr?_nodes : ∀ b : Block, b.nodes.filterMap Node.expr? = b.exprs
  | .mk stmts _ _ => by
      rw [Block.nodes, Block.exprs, ← Stmt.filterMap_expr?_nodesAll stmts]
      rfl

/-- The same of a list of statements. -/
theorem Stmt.filterMap_expr?_nodesAll :
    ∀ ss : List Stmt, (Stmt.nodesAll ss).filterMap Node.expr? = Stmt.exprsAll ss
  | [] => rfl
  | s :: ss => by
      rw [Stmt.nodesAll, Stmt.exprsAll, List.filterMap_append, Stmt.filterMap_expr?_nodes s,
        Stmt.filterMap_expr?_nodesAll ss]

end

/-- The expressions among the nodes of a program are its expressions, in the same order. -/
theorem Program.filterMap_expr?_nodes (p : Program) :
    p.nodes.filterMap Node.expr? = p.exprs := by
  unfold Program.nodes Program.exprs
  rw [List.filterMap_flatMap]
  refine List.flatMap_congr fun item _ => ?_
  cases item with
  | func d => exact d.body.filterMap_expr?_nodes
  | stmt s => exact s.filterMap_expr?_nodes

/-! ## The type of an expression -/

/-- The only type that an expression can have. -/
def Expr.typeIn (Δ : Globals) (Γ : Context) : Expr → Option Ty
  | .int _ _ => some .int
  | .float _ _ => some .float
  | .string _ _ => some .string
  | .bool _ _ => some .bool
  | .var name _ => (Context.resolve Δ Γ name).map (·.1)
  | .paren e _ => e.typeIn Δ Γ
  | .unary op e _ => (e.typeIn Δ Γ).bind fun u => (op.result u).toOption.join
  | .binary op l r _ =>
    (l.typeIn Δ Γ).bind fun u => (r.typeIn Δ Γ).bind fun v => (op.result u v).toOption.join
  | .ternary _ y _ _ => y.typeIn Δ Γ
  | .call name _ _ =>
    match Δ name with
    | some (.func signature) => some signature.returns
    | _ => none
  | .other _ _ _ => none

/-- The rules give an expression no other type. -/
theorem HasType.typeIn_eq {Δ : Globals} {Γ : Context} :
    ∀ {e : Expr} {t : Ty}, HasType Δ Γ e t → e.typeIn Δ Γ = some t
  | .int _ _, _, .int => rfl
  | .float _ _, _, .float => rfl
  | .string _ _, _, .string => rfl
  | .bool _ _, _, .bool => rfl
  | .var name _, t, .var h => by rw [Expr.typeIn, h]; rfl
  | .paren _ _, _, .paren h => h.typeIn_eq
  | .unary op e _, t, .unary he hop => by
      rw [Expr.typeIn, he.typeIn_eq, Option.bind_some, hop]
      rfl
  | .binary op l r _, t, .binary hl hr _ _ hop => by
      rw [Expr.typeIn, hl.typeIn_eq, hr.typeIn_eq, Option.bind_some, Option.bind_some, hop]
      rfl
  | .ternary _ y _ _, _, .ternary _ hy _ => hy.typeIn_eq
  | .call name _ _, _, .call hname _ => by rw [Expr.typeIn, hname]
termination_by structural e => e

/-- The context after a statement. -/
def Stmt.after (Δ : Globals) (Γ : Context) : Stmt → Context
  | .declare name value isConst _ =>
    Context.declare ⟨name, (value.typeIn Δ Γ).getD .void, isConst⟩ Γ
  | _ => Γ

/-- The rules leave no other context after a statement. -/
theorem StmtTyped.after_eq {Δ : Globals} {ret : Option Ty} {loop : Bool} {Γ Γ' : Context} {s : Stmt}
    (h : StmtTyped Δ ret loop Γ s Γ') : s.after Δ Γ = Γ' := by
  cases h with
  | declare he _ _ => rw [Stmt.after, he.typeIn_eq, Option.getD_some]
  | _ => rfl

/-! ## Sites -/

/-- A node and the context in which it stands. -/
structure Site where
  node : Node
  context : Context

/-- The sites of an expression, all of which stand in one context. -/
def Expr.sites (Γ : Context) (e : Expr) : List Site := e.nodes.map (⟨·, Γ⟩)

/-- The sites of a list of expressions. -/
def Expr.sitesAll (Γ : Context) (es : List Expr) : List Site := (Expr.nodesAll es).map (⟨·, Γ⟩)

/-- The block of a counted loop before its first statement. -/
def Context.counting (counter : String) (Γ : Context) : Context := [⟨counter, .int, false⟩] :: Γ

mutual

/-- The sites of a statement. -/
def Stmt.sites (Δ : Globals) (Γ : Context) : Stmt → List Site
  | .block b => ⟨.stmt (.block b), Γ⟩ :: b.sites Δ Γ ([] :: Γ)
  | .declare name value isConst sp =>
    ⟨.stmt (.declare name value isConst sp), Γ⟩ :: value.sites Γ
  | .assign name op value sp => ⟨.stmt (.assign name op value sp), Γ⟩ :: value.sites Γ
  | .call call sp => ⟨.stmt (.call call sp), Γ⟩ :: call.sites Γ
  | .ifThen c y sp => ⟨.stmt (.ifThen c y sp), Γ⟩ :: (c.sites Γ ++ y.sites Δ Γ ([] :: Γ))
  | .ifThenElse c y n sp =>
    ⟨.stmt (.ifThenElse c y n sp), Γ⟩ ::
      (c.sites Γ ++ (y.sites Δ Γ ([] :: Γ) ++ n.sites Δ Γ ([] :: Γ)))
  | .whileDo c b sp => ⟨.stmt (.whileDo c b sp), Γ⟩ :: (c.sites Γ ++ b.sites Δ Γ ([] :: Γ))
  | .doWhile b c sp => ⟨.stmt (.doWhile b c sp), Γ⟩ :: (b.sites Δ Γ ([] :: Γ) ++ c.sites Γ)
  | .forCount counter start bound direction b sp =>
    ⟨.stmt (.forCount counter start bound direction b sp), Γ⟩ ::
      (start.sites Γ ++ (bound.sites (Γ.counting counter) ++
        b.sites Δ (Γ.counting counter) (Γ.counting counter)))
  | .ret (some value) sp => ⟨.stmt (.ret (some value) sp), Γ⟩ :: value.sites Γ
  | .ret none sp => [⟨.stmt (.ret none sp), Γ⟩]
  | .brk sp => [⟨.stmt (.brk sp), Γ⟩]
  | .cont sp => [⟨.stmt (.cont sp), Γ⟩]
  | .other kind fields sp =>
    ⟨.stmt (.other kind fields sp), Γ⟩ ::
      ((Outline.node kind fields sp).exprs.map fun e => ⟨.expr e, Γ⟩)

/-- The sites of a block that stands in the context `Γ` and whose statements begin in `inner`. -/
def Block.sites (Δ : Globals) (Γ inner : Context) : Block → List Site
  | .mk stmts braced sp => ⟨.block (.mk stmts braced sp), Γ⟩ :: Stmt.sitesAll Δ inner stmts

/-- The sites of a list of statements. -/
def Stmt.sitesAll (Δ : Globals) (Γ : Context) : List Stmt → List Site
  | [] => []
  | s :: ss => s.sites Δ Γ ++ Stmt.sitesAll Δ (s.after Δ Γ) ss

end

/-- The parameters of a declaration as a block. -/
def FuncDecl.paramBlock (d : FuncDecl) : List Binding :=
  match d.toFunction with
  | .ok f => f.params.map Parameter.binding
  | .error _ => []

/-- The sites of the body of a declaration. -/
def FuncDecl.sites (Δ : Globals) (d : FuncDecl) : List Site :=
  d.body.sites Δ [d.paramBlock] [[], d.paramBlock]

/-- The sites of items, where the statements among them begin in the context `Γ`. -/
def Item.sitesAll (Δ : Globals) (Γ : Context) : List Item → List Site
  | [] => []
  | .func d :: rest => d.sites Δ ++ Item.sitesAll Δ Γ rest
  | .stmt s :: rest => s.sites Δ Γ ++ Item.sitesAll Δ (s.after Δ Γ) rest

/-- The sites of a program. -/
def Program.sites (natives : Natives) (p : Program) : List Site :=
  Item.sitesAll (p.globals natives) [[]] p.items

/-! ## The sites of an expression -/

theorem Expr.sites_paren (Γ : Context) (e : Expr) (sp : Option Span) :
    (Expr.paren e sp).sites Γ = ⟨.expr (.paren e sp), Γ⟩ :: e.sites Γ := rfl

theorem Expr.sites_unary (Γ : Context) (op : UnOp) (e : Expr) (sp : Option Span) :
    (Expr.unary op e sp).sites Γ = ⟨.expr (.unary op e sp), Γ⟩ :: e.sites Γ := rfl

/-- An operation stands before its operands, all in one context. -/
theorem Expr.sites_binary (Γ : Context) (op : BinOp) (l r : Expr) (sp : Option Span) :
    (Expr.binary op l r sp).sites Γ =
      ⟨.expr (.binary op l r sp), Γ⟩ :: (l.sites Γ ++ r.sites Γ) := by
  simp [Expr.sites, Expr.nodes, Expr.preorder]

/-- A conditional expression stands before its three parts, all in one context. -/
theorem Expr.sites_ternary (Γ : Context) (c y n : Expr) (sp : Option Span) :
    (Expr.ternary c y n sp).sites Γ =
      ⟨.expr (.ternary c y n sp), Γ⟩ :: (c.sites Γ ++ (y.sites Γ ++ n.sites Γ)) := by
  simp [Expr.sites, Expr.nodes, Expr.preorder]

/-- A call stands before its arguments, all in one context. -/
theorem Expr.sites_call (Γ : Context) (name : String) (args : List Expr) (sp : Option Span) :
    (Expr.call name args sp).sites Γ = ⟨.expr (.call name args sp), Γ⟩ :: Expr.sitesAll Γ args := by
  simp [Expr.sites, Expr.sitesAll, Expr.nodes, Expr.nodesAll, Expr.preorder]

theorem Expr.sitesAll_cons (Γ : Context) (e : Expr) (es : List Expr) :
    Expr.sitesAll Γ (e :: es) = e.sites Γ ++ Expr.sitesAll Γ es := by
  simp [Expr.sites, Expr.sitesAll, Expr.nodes, Expr.nodesAll, Expr.preorderAll]

/-! ## The nodes of the sites -/

/-- The sites of an expression are those of its nodes, in order. -/
@[simp] theorem Expr.map_node_sites (Γ : Context) (e : Expr) :
    (e.sites Γ).map Site.node = e.nodes := by
  rw [Expr.sites, List.map_map]
  exact List.map_id _

mutual

/-- The sites of a statement are those of its nodes, in order. -/
@[simp] theorem Stmt.map_node_sites (Δ : Globals) :
    ∀ (s : Stmt) (Γ : Context), (s.sites Δ Γ).map Site.node = s.nodes
  | .block b, Γ => by simp [Stmt.sites, Stmt.nodes, Block.map_node_sites Δ b]
  | .declare _ _ _ _, Γ => by simp [Stmt.sites, Stmt.nodes]
  | .assign _ _ _ _, Γ => by simp [Stmt.sites, Stmt.nodes]
  | .call _ _, Γ => by simp [Stmt.sites, Stmt.nodes]
  | .ifThen _ y _, Γ => by simp [Stmt.sites, Stmt.nodes, Block.map_node_sites Δ y]
  | .ifThenElse _ y n _, Γ => by
      simp [Stmt.sites, Stmt.nodes, Block.map_node_sites Δ y, Block.map_node_sites Δ n]
  | .whileDo _ b _, Γ => by simp [Stmt.sites, Stmt.nodes, Block.map_node_sites Δ b]
  | .doWhile b _ _, Γ => by simp [Stmt.sites, Stmt.nodes, Block.map_node_sites Δ b]
  | .forCount _ _ _ _ b _, Γ => by simp [Stmt.sites, Stmt.nodes, Block.map_node_sites Δ b]
  | .ret (some _) _, Γ => by simp [Stmt.sites, Stmt.nodes]
  | .ret none _, Γ => by simp [Stmt.sites, Stmt.nodes]
  | .brk _, Γ => by simp [Stmt.sites, Stmt.nodes]
  | .cont _, Γ => by simp [Stmt.sites, Stmt.nodes]
  | .other _ _ _, Γ => by simp [Stmt.sites, Stmt.nodes]

/-- The sites of a block are those of its nodes, whatever the contexts are. -/
@[simp] theorem Block.map_node_sites (Δ : Globals) :
    ∀ (b : Block) (Γ inner : Context), (b.sites Δ Γ inner).map Site.node = b.nodes
  | .mk stmts _ _, Γ, inner => by
      simp [Block.sites, Block.nodes, Stmt.map_node_sitesAll Δ stmts]

/-- The same of statements in a row, though the contexts change from one to the next. -/
@[simp] theorem Stmt.map_node_sitesAll (Δ : Globals) :
    ∀ (ss : List Stmt) (Γ : Context), (Stmt.sitesAll Δ Γ ss).map Site.node = Stmt.nodesAll ss
  | [], _ => rfl
  | s :: ss, Γ => by
      rw [Stmt.sitesAll, Stmt.nodesAll, List.map_append, Stmt.map_node_sites Δ s,
        Stmt.map_node_sitesAll Δ ss]

end

/-- The same of the items of a program. -/
theorem Item.map_node_sitesAll (Δ : Globals) (items : List Item) (Γ : Context) :
    (Item.sitesAll Δ Γ items).map Site.node = items.flatMap Item.nodes := by
  induction items generalizing Γ with
  | nil => rfl
  | cons item rest ih =>
      cases item with
      | func d =>
          rw [Item.sitesAll, List.map_append, FuncDecl.sites, Block.map_node_sites, ih]
          rfl
      | stmt s =>
          rw [Item.sitesAll, List.map_append, Stmt.map_node_sites, ih]
          rfl

/-- The nodes of the sites of a program are its nodes. -/
theorem Program.map_node_sites (natives : Natives) (p : Program) :
    (p.sites natives).map Site.node = p.nodes :=
  Item.map_node_sitesAll _ _ _

/-- An expression has as many sites as nodes. -/
theorem Expr.length_sites (Γ : Context) (e : Expr) : (e.sites Γ).length = e.nodes.length := by
  rw [← Expr.map_node_sites Γ e, List.length_map]

/-- A statement has as many sites as nodes. -/
theorem Stmt.length_sites (Δ : Globals) (s : Stmt) (Γ : Context) :
    (s.sites Δ Γ).length = s.nodes.length := by
  rw [← Stmt.map_node_sites Δ s Γ, List.length_map]

/-- A block has as many sites as nodes. -/
theorem Block.length_sites (Δ : Globals) (b : Block) (Γ inner : Context) :
    (b.sites Δ Γ inner).length = b.nodes.length := by
  rw [← Block.map_node_sites Δ b Γ inner, List.length_map]

/-! ## Places in a list -/

/-- The list `part` stands in the list `all` from the place `k` on. -/
def Listed {α : Type} (all : List α) (k : Nat) (part : List α) : Prop := part <+: all.drop k

namespace Listed

variable {α : Type} {all part rest : List α} {k : Nat} {a : α}

/-- The first entry of a part lies at the offset of the part. -/
theorem head (h : Listed all k (a :: part)) : all[k]? = some a := by
  obtain ⟨more, hmore⟩ := h
  rw [← Nat.add_zero k, ← List.getElem?_drop, ← hmore]
  rfl

/-- The first of two parts lies at the same offset as both. -/
theorem left (h : Listed all k (part ++ rest)) : Listed all k part :=
  (List.prefix_append part rest).trans h

/-- The second of two parts lies after the first one. -/
theorem right (h : Listed all k (part ++ rest)) : Listed all (k + part.length) rest := by
  obtain ⟨more, hmore⟩ := h
  refine ⟨more, ?_⟩
  rw [← List.drop_drop, ← hmore, List.append_assoc, List.drop_left]

/-- What follows the first entry of a part lies one place further. -/
theorem tail (h : Listed all k (a :: part)) : Listed all (k + 1) part := by
  have happend : Listed all k ([a] ++ part) := h
  exact happend.right

end Listed

/-! ## Sites that follow those of a node

A run counts the nodes that it passes, so the sites behind those of a node are found at the number
of its first site, plus the number of its nodes. -/

namespace Listed

variable {all rest : List Site} {k : Nat} {Δ : Globals} {Γ : Context}

/-- What follows the sites of an expression lies behind as many places as it has nodes. -/
theorem after_expr {e : Expr} (h : Listed all k (e.sites Γ ++ rest)) :
    Listed all (k + e.nodes.length) rest := by
  rw [← Expr.length_sites Γ e]
  exact h.right

/-- The same of what follows the sites of a statement. -/
theorem after_stmt {s : Stmt} (h : Listed all k (s.sites Δ Γ ++ rest)) :
    Listed all (k + s.nodes.length) rest := by
  rw [← Stmt.length_sites Δ s Γ]
  exact h.right

/-- The same of what follows the sites of a block. -/
theorem after_block {b : Block} {inner : Context} (h : Listed all k (b.sites Δ Γ inner ++ rest)) :
    Listed all (k + b.nodes.length) rest := by
  rw [← Block.length_sites Δ b Γ inner]
  exact h.right

/-- The same of what follows the sites of a function. -/
theorem after_func {d : FuncDecl} (h : Listed all k (d.sites Δ ++ rest)) :
    Listed all (k + d.body.nodes.length) rest :=
  h.after_block

end Listed

end Pigeon

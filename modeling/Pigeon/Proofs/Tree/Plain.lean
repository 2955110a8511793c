import Pigeon.Typing.Signature

/-!
# Plain trees

A tree that was built by hand can hold operators and nodes that the language does not have, and type
names that stand for no type. A tree without them is *plain*. Every tree that was read from source
text is plain.
-/

namespace Pigeon

/-- The operator belongs to the language. -/
def UnOp.Plain (op : UnOp) : Prop := ∀ symbol, op ≠ .other symbol

/-- The operator belongs to the language. -/
def BinOp.Plain (op : BinOp) : Prop := ∀ symbol, op ≠ .other symbol

/-- The operator that an assignment applies belongs to the language. -/
def AssignOp.Plain (op : AssignOp) : Prop := ∀ binary, op.binary? = some binary → binary.Plain

/-- A plain operator has an answer for every type, if only that there is no result. -/
theorem UnOp.Plain.result_ok {op : UnOp} (h : op.Plain) (t : Ty) : ∃ r, op.result t = .ok r := by
  cases op with
  | other s => exact absurd rfl (h s)
  | _ => exact ⟨_, rfl⟩

/-- The same of operators between two operands. -/
theorem BinOp.Plain.result_ok {op : BinOp} (h : op.Plain) (l r : Ty) :
    ∃ t, op.result l r = .ok t := by
  cases op with
  | other s => exact absurd rfl (h s)
  | _ => exact ⟨_, rfl⟩

mutual

/-- The expression is plain. -/
def Expr.Plain : Expr → Prop
  | .int _ _ | .float _ _ | .string _ _ | .bool _ _ | .var _ _ => True
  | .paren e _ => e.Plain
  | .unary op e _ => op.Plain ∧ e.Plain
  | .binary op l r _ => op.Plain ∧ l.Plain ∧ r.Plain
  | .ternary c y n _ => c.Plain ∧ y.Plain ∧ n.Plain
  | .call _ args _ => Expr.PlainAll args
  | .other _ _ _ => False

/-- All expressions of a list are plain. -/
def Expr.PlainAll : List Expr → Prop
  | [] => True
  | e :: es => e.Plain ∧ Expr.PlainAll es

end

mutual

/-- The statement is plain. -/
def Stmt.Plain : Stmt → Prop
  | .block b => b.Plain
  | .declare _ value _ _ => value.Plain
  | .assign _ op value _ => op.Plain ∧ value.Plain
  | .call call _ => call.Plain
  | .ifThen c y _ => c.Plain ∧ y.Plain
  | .ifThenElse c y n _ => c.Plain ∧ y.Plain ∧ n.Plain
  | .whileDo c b _ => c.Plain ∧ b.Plain
  | .doWhile b c _ => b.Plain ∧ c.Plain
  | .forCount _ start bound _ b _ => start.Plain ∧ bound.Plain ∧ b.Plain
  | .ret (some value) _ => value.Plain
  | .ret none _ | .brk _ | .cont _ => True
  | .other _ _ _ => False

/-- All statements of a block are plain. -/
def Block.Plain : Block → Prop
  | .mk stmts _ _ => Stmt.PlainAll stmts

/-- All statements of a list are plain. -/
def Stmt.PlainAll : List Stmt → Prop
  | [] => True
  | s :: ss => s.Plain ∧ Stmt.PlainAll ss

end

/-- The types of a function declaration are spelled correctly, and its body is plain. -/
def FuncDecl.Plain (d : FuncDecl) : Prop := (∃ f, d.toFunction = .ok f) ∧ d.body.Plain

/-- The item is plain. -/
def Item.Plain : Item → Prop
  | .func d => d.Plain
  | .stmt s => s.Plain

/-- All items of the program are plain. -/
def Program.Plain (p : Program) : Prop := ∀ item ∈ p.items, item.Plain

end Pigeon

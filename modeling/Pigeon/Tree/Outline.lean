import Pigeon.Tree
import Pigeon.Value

/-!
# Outlines of trees

The outline of each kind of node, with the fields in their order.
-/

namespace Pigeon

namespace OutlineField

/-- A field that holds text. -/
def text (name value : String) : OutlineField :=
  .mk name (.leaf (Text.quoted value))

/-- A field that holds a truth value. -/
def flag (name : String) (value : Bool) : OutlineField :=
  .mk name (.leaf (if value then "True" else "False"))

end OutlineField

open OutlineField (text flag)

mutual

/-- The outline of an expression. -/
def Expr.outline : Expr → Outline
  | .int value s => .node "IntLiteral" [.mk "value" (.leaf (toString value))] s
  | .float value s => .node "FloatLiteral" [.mk "value" (.leaf (Value.floatText value))] s
  | .string value s => .node "StringLiteral" [text "value" value] s
  | .bool value s => .node "BoolLiteral" [flag "value" value] s
  | .var name s => .node "VarRef" [text "name" name] s
  | .paren inner s => .node "ParenExpr" [.mk "inner" inner.outline] s
  | .unary op operand s =>
    .node "UnaryOp" [text "op" op.symbol, .mk "operand" operand.outline] s
  | .binary op left right s =>
    .node "BinaryOp"
      [text "op" op.symbol, .mk "left" left.outline, .mk "right" right.outline] s
  | .ternary cond yes no s =>
    .node "TernaryOp"
      [.mk "cond" cond.outline, .mk "then_expr" yes.outline, .mk "else_expr" no.outline] s
  | .call name args s =>
    .node "CallExpr" [text "name" name, .mk "args" (.list (Expr.outlines args))] s
  | .other kind fields s => .node kind fields s

/-- The outlines of a list of expressions. -/
def Expr.outlines : List Expr → List Outline
  | [] => []
  | e :: es => e.outline :: Expr.outlines es

end

mutual

/-- The outline of a statement. -/
def Stmt.outline : Stmt → Outline
  | .block body => body.outline
  | .declare name value isConst s =>
    .node "VarDecl" [text "name" name, .mk "value" value.outline, flag "is_const" isConst] s
  | .assign name op value s =>
    .node "AssignStmt" [text "name" name, text "op" op.symbol, .mk "value" value.outline] s
  | .call call s => .node "CallStmt" [.mk "call" call.outline] s
  | .ifThen cond yes s =>
    .node "IfStmt" [.mk "cond" cond.outline, .mk "then_block" yes.outline] s
  | .ifThenElse cond yes no s =>
    .node "IfStmt"
      [.mk "cond" cond.outline, .mk "then_block" yes.outline, .mk "else_block" no.outline] s
  | .whileDo cond body s =>
    .node "WhileStmt" [.mk "cond" cond.outline, .mk "body" body.outline] s
  | .doWhile body cond s =>
    .node "DoWhileStmt" [.mk "body" body.outline, .mk "cond" cond.outline] s
  | .forCount counter start bound direction body s =>
    .node "ForStmt"
      [text "counter" counter, .mk "start" start.outline, .mk "bound" bound.outline,
        text "direction" direction.word, .mk "body" body.outline] s
  | .ret (some value) s => .node "ReturnStmt" [.mk "value" value.outline] s
  | .ret none s => .node "ReturnStmt" [] s
  | .brk s => .node "BreakStmt" [] s
  | .cont s => .node "ContinueStmt" [] s
  | .other kind fields s => .node kind fields s

/-- The outline of a block. -/
def Block.outline : Block → Outline
  | .mk stmts braced s =>
    .node "Block" [.mk "stmts" (.list (Stmt.outlines stmts)), flag "braced" braced] s

/-- The outlines of a list of statements. -/
def Stmt.outlines : List Stmt → List Outline
  | [] => []
  | s :: ss => s.outline :: Stmt.outlines ss

end

/-- The outline of a parameter. -/
def Param.outline (p : Param) : Outline :=
  .node "Param" [text "name" p.name, text "type_name" p.typeName] p.span

/-- The outline of a function declaration. -/
def FuncDecl.outline (d : FuncDecl) : Outline :=
  .node "FuncDecl"
    [text "name" d.name, .mk "params" (.list (d.params.map Param.outline)),
      text "return_type" d.returnType, .mk "body" d.body.outline] d.span

/-- The outline of an item. -/
def Item.outline : Item → Outline
  | .func decl => decl.outline
  | .stmt s => s.outline

/-- The outline of a program. -/
def Program.outline (p : Program) : Outline :=
  .node "Program" [.mk "items" (.list (p.items.map Item.outline))] p.span

/-- The lines that show a program. -/
def Program.lines (p : Program) (spans : Bool) : List String :=
  p.outline.lines spans 0

end Pigeon

import Pigeon.Operator
import Pigeon.Outline

/-!
# Syntax trees

Expressions, statements, function declarations and programs. Every node may carry the span of the
source text that it was read from. A tree that was built by hand can hold a node of a kind that has
no meaning in its place. Such an *other* node is known by its outline alone, and nothing can be done
with it.
-/

namespace Pigeon

/-- An expression. -/
inductive Expr where
  | int (value : Int) (span : Option Span)
  | float (value : Float) (span : Option Span)
  | string (value : String) (span : Option Span)
  | bool (value : Bool) (span : Option Span)
  | var (name : String) (span : Option Span)
  | paren (inner : Expr) (span : Option Span)
  | unary (op : UnOp) (operand : Expr) (span : Option Span)
  | binary (op : BinOp) (left right : Expr) (span : Option Span)
  | ternary (cond yes no : Expr) (span : Option Span)
  | call (name : String) (args : List Expr) (span : Option Span)
  | other (kind : String) (fields : List OutlineField) (span : Option Span)

mutual

/-- A statement. -/
inductive Stmt where
  | block (body : Block)
  | declare (name : String) (value : Expr) (isConst : Bool) (span : Option Span)
  | assign (name : String) (op : AssignOp) (value : Expr) (span : Option Span)
  | call (call : Expr) (span : Option Span)
  | ifThen (cond : Expr) (yes : Block) (span : Option Span)
  | ifThenElse (cond : Expr) (yes no : Block) (span : Option Span)
  | whileDo (cond : Expr) (body : Block) (span : Option Span)
  | doWhile (body : Block) (cond : Expr) (span : Option Span)
  | forCount (counter : String) (start bound : Expr) (direction : Direction) (body : Block)
      (span : Option Span)
  | ret (value : Option Expr) (span : Option Span)
  | brk (span : Option Span)
  | cont (span : Option Span)
  | other (kind : String) (fields : List OutlineField) (span : Option Span)

/-- The body of a statement or of a function: statements between braces, or a single statement
without braces. -/
inductive Block where
  | mk (stmts : List Stmt) (braced : Bool) (span : Option Span)

end

/-- A parameter of a function declaration. -/
structure Param where
  name : String
  typeName : String
  span : Option Span

/-- A function declaration. -/
structure FuncDecl where
  name : String
  params : List Param
  returnType : String
  body : Block
  span : Option Span

/-- A function declaration or a statement at top level. -/
inductive Item where
  | func (decl : FuncDecl)
  | stmt (stmt : Stmt)

/-- A program and the name of the file that it was read from. -/
structure Program where
  items : List Item
  span : Option Span
  filename : Option String

namespace Expr

/-- The span of an expression. -/
def span : Expr → Option Span
  | int _ s | float _ s | string _ s | bool _ s | var _ s | paren _ s | unary _ _ s
  | binary _ _ _ s | ternary _ _ _ s | call _ _ s | other _ _ s => s

/-- The name of the kind of an expression. -/
def kindName : Expr → String
  | int .. => "IntLiteral"
  | float .. => "FloatLiteral"
  | string .. => "StringLiteral"
  | bool .. => "BoolLiteral"
  | var .. => "VarRef"
  | paren .. => "ParenExpr"
  | unary .. => "UnaryOp"
  | binary .. => "BinaryOp"
  | ternary .. => "TernaryOp"
  | call .. => "CallExpr"
  | other kind _ _ => kind

/-- The names of the kinds of expressions, with that of an expression without a form. -/
def kindNames : List String :=
  ["IntLiteral", "FloatLiteral", "StringLiteral", "BoolLiteral", "VarRef", "ParenExpr", "UnaryOp",
    "BinaryOp", "TernaryOp", "CallExpr", "Expr"]

end Expr

mutual

/-- All nodes inside an outline whose kind is one of expressions, each before its own parts. -/
def Outline.exprs : Outline → List Expr
  | .leaf _ => []
  | .list items => Outline.exprsAll items
  | .node kind fields span =>
    (if Expr.kindNames.contains kind then [.other kind fields span] else []) ++
      OutlineField.exprs fields

/-- All expressions inside a list of outlines. -/
def Outline.exprsAll : List Outline → List Expr
  | [] => []
  | o :: os => o.exprs ++ Outline.exprsAll os

/-- All expressions inside the fields of a node. -/
def OutlineField.exprs : List OutlineField → List Expr
  | [] => []
  | .mk _ content :: fields => content.exprs ++ OutlineField.exprs fields

end

namespace Expr

mutual

/-- An expression and all expressions inside it, each before its own parts. -/
def preorder : Expr → List Expr
  | e@(paren inner _) => e :: inner.preorder
  | e@(unary _ operand _) => e :: operand.preorder
  | e@(binary _ left right _) => e :: left.preorder ++ right.preorder
  | e@(ternary cond yes no _) => e :: cond.preorder ++ yes.preorder ++ no.preorder
  | e@(call _ args _) => e :: preorderAll args
  | other kind fields span => (Outline.node kind fields span).exprs
  | e => [e]

/-- All expressions inside a list of expressions. -/
def preorderAll : List Expr → List Expr
  | [] => []
  | e :: es => e.preorder ++ preorderAll es

end

end Expr

namespace Block

/-- The statements of a block. -/
def stmts : Block → List Stmt
  | mk stmts _ _ => stmts

/-- The span of a block. -/
def span : Block → Option Span
  | mk _ _ s => s

end Block

namespace Stmt

/-- The span of a statement. -/
def span : Stmt → Option Span
  | block b => b.span
  | declare _ _ _ s | assign _ _ _ s | call _ s | ifThen _ _ s | ifThenElse _ _ _ s
  | whileDo _ _ s | doWhile _ _ s | forCount _ _ _ _ _ s | ret _ s | brk s | cont s
  | other _ _ s => s

end Stmt

mutual

/-- All expressions inside a statement, in the order of its parts. -/
def Stmt.exprs : Stmt → List Expr
  | .block body => body.exprs
  | .declare _ value _ _ => value.preorder
  | .assign _ _ value _ => value.preorder
  | .call call _ => call.preorder
  | .ifThen cond yes _ => cond.preorder ++ yes.exprs
  | .ifThenElse cond yes no _ => cond.preorder ++ yes.exprs ++ no.exprs
  | .whileDo cond body _ => cond.preorder ++ body.exprs
  | .doWhile body cond _ => body.exprs ++ cond.preorder
  | .forCount _ start bound _ body _ => start.preorder ++ bound.preorder ++ body.exprs
  | .ret (some value) _ => value.preorder
  | .ret none _ | .brk _ | .cont _ => []
  | .other kind fields span => (Outline.node kind fields span).exprs

/-- All expressions inside a block. -/
def Block.exprs : Block → List Expr
  | .mk stmts _ _ => Stmt.exprsAll stmts

/-- All expressions inside a list of statements. -/
def Stmt.exprsAll : List Stmt → List Expr
  | [] => []
  | s :: ss => s.exprs ++ Stmt.exprsAll ss

end

namespace Program

/-- The function declarations, in source order. -/
def functions (p : Program) : List FuncDecl :=
  p.items.filterMap fun
    | .func decl => some decl
    | .stmt _ => none

/-- The statements at top level, in source order. -/
def statements (p : Program) : List Stmt :=
  p.items.filterMap fun
    | .func _ => none
    | .stmt s => some s

/-- All expressions inside a program, each before its own parts. -/
def exprs (p : Program) : List Expr :=
  p.items.flatMap fun
    | .func decl => decl.body.exprs
    | .stmt s => s.exprs

end Program

end Pigeon

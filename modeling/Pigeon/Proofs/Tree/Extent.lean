import Pigeon.Proofs.Tree.Flatten
import Pigeon.Tree.Outline

/-!
# Where the nodes of a tree stand

The tokens of a tree spell its terminals one by one, so which of them belong to a node is known from
the tree alone: as many come before them as terminals come before those of the node. An *extent*
says this of a node, together with the span that the node carries.
-/

namespace Pigeon

/-! ## Extents -/

/-- A node in the tokens of a tree, and the span that it carries. -/
structure Extent where
  /-- How many tokens come before the node. -/
  first : Nat
  terminals : List Terminal
  span : Option Span

mutual

/-- The spans of all nodes in an outline, that of a node before those of its parts. -/
def Outline.spans : Outline → List (Option Span)
  | .leaf _ => []
  | .list items => Outline.spansAll items
  | .node _ fields span => span :: OutlineField.spansAll fields

/-- The spans of all nodes in a list of outlines. -/
def Outline.spansAll : List Outline → List (Option Span)
  | [] => []
  | o :: os => o.spans ++ Outline.spansAll os

/-- The spans of all nodes in the fields of a node. -/
def OutlineField.spansAll : List OutlineField → List (Option Span)
  | [] => []
  | .mk _ content :: fields => content.spans ++ OutlineField.spansAll fields

end

mutual

/-- The extents of an expression and of all nodes inside it, if it begins at the token `start`. -/
def Expr.extents (start : Nat) : Expr → List Extent
  | e@(.int _ s) | e@(.float _ s) | e@(.string _ s) | e@(.bool _ s) | e@(.var _ s) =>
    [⟨start, e.flatten, s⟩]
  | e@(.paren inner s) | e@(.unary _ inner s) => ⟨start, e.flatten, s⟩ :: inner.extents (start + 1)
  | e@(.binary _ left right s) =>
    ⟨start, e.flatten, s⟩ :: left.extents start ++
      right.extents (start + left.flatten.length + 1)
  | e@(.ternary cond yes no s) =>
    ⟨start, e.flatten, s⟩ :: cond.extents start ++
      yes.extents (start + cond.flatten.length + 1) ++
      no.extents (start + cond.flatten.length + 1 + yes.flatten.length + 1)
  | e@(.call _ args s) => ⟨start, e.flatten, s⟩ :: Expr.extentsArgs (start + 2) args
  | .other kind fields s => (Outline.node kind fields s).spans.map (⟨start, [], ·⟩)

/-- The extents of arguments, with commas between them. -/
def Expr.extentsArgs (start : Nat) : List Expr → List Extent
  | [] => []
  | e :: es => e.extents start ++ Expr.extentsArgs (start + e.flatten.length + 1) es

end

mutual

/-- The extents of a statement and of all nodes inside it. -/
def Stmt.extents (start : Nat) : Stmt → List Extent
  | .block body => body.extents start
  | s@(.declare _ value _ sp) => ⟨start, s.flatten, sp⟩ :: value.extents (start + 3)
  | s@(.assign _ _ value sp) => ⟨start, s.flatten, sp⟩ :: value.extents (start + 2)
  | s@(.call call sp) => ⟨start, s.flatten, sp⟩ :: call.extents start
  | s@(.ifThen cond yes sp) =>
    ⟨start, s.flatten, sp⟩ :: cond.extents (start + 1) ++
      yes.extents (start + 1 + cond.flatten.length)
  | s@(.ifThenElse cond yes no sp) =>
    ⟨start, s.flatten, sp⟩ :: cond.extents (start + 1) ++
      yes.extents (start + 1 + cond.flatten.length) ++
      no.extents (start + 1 + cond.flatten.length + yes.flatten.length + 1)
  | s@(.whileDo cond body sp) =>
    ⟨start, s.flatten, sp⟩ :: cond.extents (start + 1) ++
      body.extents (start + 1 + cond.flatten.length)
  | s@(.doWhile body cond sp) =>
    ⟨start, s.flatten, sp⟩ :: body.extents (start + 1) ++
      cond.extents (start + 1 + body.flatten.length + 1)
  | s@(.forCount _ first bound _ body sp) =>
    ⟨start, s.flatten, sp⟩ :: first.extents (start + 3) ++
      bound.extents (start + 3 + first.flatten.length + 1) ++
      body.extents (start + 3 + first.flatten.length + 1 + bound.flatten.length)
  | s@(.ret none sp) | s@(.brk sp) | s@(.cont sp) => [⟨start, s.flatten, sp⟩]
  | s@(.ret (some value) sp) => ⟨start, s.flatten, sp⟩ :: value.extents (start + 1)
  | .other kind fields sp => (Outline.node kind fields sp).spans.map (⟨start, [], ·⟩)

/-- The extents of a body and of all nodes inside it. -/
def Block.extents (start : Nat) : Block → List Extent
  | b@(.mk stmts true sp) => ⟨start, b.flatten, sp⟩ :: Stmt.extentsAll (start + 1) stmts
  | b@(.mk stmts false sp) => ⟨start, b.flatten, sp⟩ :: Stmt.extentsAll start stmts

/-- The extents of statements that follow each other. -/
def Stmt.extentsAll (start : Nat) : List Stmt → List Extent
  | [] => []
  | s :: ss => s.extents start ++ Stmt.extentsAll (start + s.flatten.length) ss

end

/-- The extents of parameters, with commas between them. -/
def Param.extentsAll (start : Nat) : List Param → List Extent
  | [] => []
  | p :: ps => ⟨start, [.type p.typeName, .name p.name], p.span⟩ :: Param.extentsAll (start + 3) ps

/-- The extents of a function declaration and of all nodes inside it. -/
def FuncDecl.extents (start : Nat) (d : FuncDecl) : List Extent :=
  ⟨start, d.flatten, d.span⟩ :: Param.extentsAll (start + 3) d.params ++
    d.body.extents (start + 3 + (Param.flattenAll d.params).length + 1)

/-- The extents of an item and of all nodes inside it. -/
def Item.extents (start : Nat) : Item → List Extent
  | .func d => d.extents start
  | .stmt s => s.extents start

/-- The extents of items that follow each other. -/
def Item.extentsAll (start : Nat) : List Item → List Extent
  | [] => []
  | i :: items => i.extents start ++ Item.extentsAll (start + i.flatten.length) items

/-- The extents of a program and of all nodes inside it. -/
def Program.extents (p : Program) : List Extent :=
  ⟨0, p.flatten, p.span⟩ :: Item.extentsAll 0 p.items

/-! ## Every node has an extent -/

mutual

/-- The extents of an expression have the spans of its nodes, in order. -/
theorem Expr.map_span_extents (start : Nat) :
    ∀ e : Expr, (e.extents start).map (·.span) = e.outline.spans
  | .int _ _ | .float _ _ | .string _ _ | .bool _ _ | .var _ _ => rfl
  | .paren inner _ | .unary _ inner _ => by
      simp [Expr.extents, Expr.outline, Outline.spans, OutlineField.spansAll, OutlineField.text,
        Expr.map_span_extents _ inner]
  | .binary _ left right _ => by
      simp [Expr.extents, Expr.outline, Outline.spans, OutlineField.spansAll, OutlineField.text,
        Expr.map_span_extents _ left, Expr.map_span_extents _ right]
  | .ternary cond yes no _ => by
      simp [Expr.extents, Expr.outline, Outline.spans, OutlineField.spansAll,
        Expr.map_span_extents _ cond, Expr.map_span_extents _ yes, Expr.map_span_extents _ no]
  | .call _ args _ => by
      simp [Expr.extents, Expr.outline, Outline.spans, OutlineField.spansAll, OutlineField.text,
        Expr.map_span_extentsArgs _ args]
  | .other _ _ _ => by simp [Expr.extents, Expr.outline, Function.comp_def]

/-- The same of arguments. -/
theorem Expr.map_span_extentsArgs (start : Nat) :
    ∀ es : List Expr, (Expr.extentsArgs start es).map (·.span) =
      Outline.spansAll (Expr.outlines es)
  | [] => rfl
  | e :: es => by
      simp [Expr.extentsArgs, Expr.outlines, Outline.spansAll, Expr.map_span_extents _ e,
        Expr.map_span_extentsArgs _ es]

end

mutual

/-- The extents of a statement have the spans of its nodes, in order. -/
theorem Stmt.map_span_extents (start : Nat) :
    ∀ s : Stmt, (s.extents start).map (·.span) = s.outline.spans
  | .block body => by
      rw [Stmt.extents, Stmt.outline, Block.map_span_extents _ body]
  | .declare _ value _ _ | .assign _ _ value _ | .call value _ | .ret (some value) _ => by
      simp [Stmt.extents, Stmt.outline, Outline.spans, OutlineField.spansAll, OutlineField.text,
        OutlineField.flag, Expr.map_span_extents _ value]
  | .ifThen cond body _ | .whileDo cond body _ | .doWhile body cond _ => by
      simp [Stmt.extents, Stmt.outline, Outline.spans, OutlineField.spansAll,
        Expr.map_span_extents _ cond, Block.map_span_extents _ body]
  | .ifThenElse cond yes no _ => by
      simp [Stmt.extents, Stmt.outline, Outline.spans, OutlineField.spansAll,
        Expr.map_span_extents _ cond, Block.map_span_extents _ yes, Block.map_span_extents _ no]
  | .forCount _ first bound _ body _ => by
      simp [Stmt.extents, Stmt.outline, Outline.spans, OutlineField.spansAll, OutlineField.text,
        Expr.map_span_extents _ first, Expr.map_span_extents _ bound,
        Block.map_span_extents _ body]
  | .ret none _ | .brk _ | .cont _ => rfl
  | .other _ _ _ => by simp [Stmt.extents, Stmt.outline, Function.comp_def]

/-- The same of bodies. -/
theorem Block.map_span_extents (start : Nat) :
    ∀ b : Block, (b.extents start).map (·.span) = b.outline.spans
  | .mk stmts true _ | .mk stmts false _ => by
      simp [Block.extents, Block.outline, Outline.spans, OutlineField.spansAll, OutlineField.flag,
        Stmt.map_span_extentsAll _ stmts]

/-- The same of statements in a row. -/
theorem Stmt.map_span_extentsAll (start : Nat) :
    ∀ ss : List Stmt, (Stmt.extentsAll start ss).map (·.span) = Outline.spansAll (Stmt.outlines ss)
  | [] => rfl
  | s :: ss => by
      simp [Stmt.extentsAll, Stmt.outlines, Outline.spansAll, Stmt.map_span_extents _ s,
        Stmt.map_span_extentsAll _ ss]

end

/-- The same of parameters. -/
theorem Param.map_span_extentsAll (start : Nat) (ps : List Param) :
    (Param.extentsAll start ps).map (·.span) = Outline.spansAll (ps.map Param.outline) := by
  induction ps generalizing start with
  | nil => rfl
  | cons p ps ih =>
      simp [Param.extentsAll, Param.outline, Outline.spansAll, Outline.spans,
        OutlineField.spansAll, OutlineField.text, ih]

/-- The same of functions. -/
theorem FuncDecl.map_span_extents (start : Nat) (d : FuncDecl) :
    (d.extents start).map (·.span) = d.outline.spans := by
  simp [FuncDecl.extents, FuncDecl.outline, Outline.spans, OutlineField.spansAll,
    OutlineField.text, Param.map_span_extentsAll, Block.map_span_extents]

/-- The same of the items of a program. -/
theorem Item.map_span_extentsAll (start : Nat) (items : List Item) :
    (Item.extentsAll start items).map (·.span) = Outline.spansAll (items.map Item.outline) := by
  induction items generalizing start with
  | nil => rfl
  | cons i items ih =>
      have hitem : (i.extents start).map (·.span) = i.outline.spans := by
        cases i with
        | func d => exact d.map_span_extents start
        | stmt s => exact s.map_span_extents start
      simp [Item.extentsAll, Outline.spansAll, hitem, ih]

/-- Every node of a program has an extent, with the span of the node. -/
theorem Program.map_span_extents (p : Program) :
    p.extents.map (·.span) = p.outline.spans := by
  simp [Program.extents, Program.outline, Outline.spans, OutlineField.spansAll,
    Item.map_span_extentsAll]

end Pigeon

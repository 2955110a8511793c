import Pigeon.Proofs.Tree.Sketch
import Pigeon.Tree.Outline

/-!
# Standard trees

A tree is *standard* if it has no other nodes than those of the language, and if its operators are
those that their symbols stand for. What the sketch of a standard tree shows can be read back
(`Program.sketch_legible`).
-/

namespace Pigeon

variable {F : Float → Prop} {spans : Bool}

/-! ## Standard trees -/

mutual

/-- The expression is standard, and its floats satisfy `F`. -/
def Expr.Standard (F : Float → Prop) : Expr → Prop
  | .int _ _ | .string _ _ | .bool _ _ | .var _ _ => True
  | .float x _ => F x
  | .paren e _ => e.Standard F
  | .unary op e _ => op = .ofSymbol op.symbol ∧ e.Standard F
  | .binary op l r _ => op = .ofSymbol op.symbol ∧ l.Standard F ∧ r.Standard F
  | .ternary c y n _ => c.Standard F ∧ y.Standard F ∧ n.Standard F
  | .call _ args _ => Expr.StandardAll F args
  | .other _ _ _ => False

/-- All expressions of a list are standard. -/
def Expr.StandardAll (F : Float → Prop) : List Expr → Prop
  | [] => True
  | e :: es => e.Standard F ∧ Expr.StandardAll F es

end

mutual

/-- The statement is standard, and its floats satisfy `F`. -/
def Stmt.Standard (F : Float → Prop) : Stmt → Prop
  | .block _ => False
  | .declare _ e _ _ => e.Standard F
  | .assign _ op e _ => op = .ofSymbol op.symbol ∧ e.Standard F
  | .call e _ => e.Standard F
  | .ifThen c y _ => c.Standard F ∧ y.Standard F
  | .ifThenElse c y n _ => c.Standard F ∧ y.Standard F ∧ n.Standard F
  | .whileDo c b _ => c.Standard F ∧ b.Standard F
  | .doWhile b c _ => b.Standard F ∧ c.Standard F
  | .forCount _ start bound d b _ =>
    start.Standard F ∧ bound.Standard F ∧ d = .ofWord d.word ∧ b.Standard F
  | .ret none _ | .brk _ | .cont _ => True
  | .ret (some e) _ => e.Standard F
  | .other _ _ _ => False

/-- The body is standard, and its floats satisfy `F`. -/
def Block.Standard (F : Float → Prop) : Block → Prop
  | .mk ss _ _ => Stmt.StandardAll F ss

/-- All statements of a list are standard. -/
def Stmt.StandardAll (F : Float → Prop) : List Stmt → Prop
  | [] => True
  | s :: ss => s.Standard F ∧ Stmt.StandardAll F ss

end

/-- The item is standard, and its floats satisfy `F`. -/
def Item.Standard (F : Float → Prop) : Item → Prop
  | .func d => d.body.Standard F
  | .stmt s => s.Standard F

/-! ## Fields in sketches -/

namespace OutlineField

variable (name value : String) (b : Bool) (fields : List OutlineField)

/-- A text is shown as an attribute, quoted. -/
@[simp]
theorem attributes_text :
    attributes (.text name value :: fields) = ⟨name, Text.quoted value⟩ :: attributes fields := rfl

/-- A flag is shown as an attribute. -/
@[simp]
theorem attributes_flag : attributes (.flag name b :: fields) =
    ⟨name, if b then "True" else "False"⟩ :: attributes fields := rfl

/-- A text is not shown as a part. -/
@[simp]
theorem sketchParts_text :
    sketchParts spans (.text name value :: fields) = sketchParts spans fields := rfl

/-- A flag is not shown as a part. -/
@[simp]
theorem sketchParts_flag :
    sketchParts spans (.flag name b :: fields) = sketchParts spans fields := rfl

/-- An expression is not shown as an attribute. -/
@[simp]
theorem attributes_expr (e : Expr) :
    attributes (.mk name e.outline :: fields) = attributes fields := by
  cases e <;> rfl

/-- An expression is shown as a part, by its sketch. -/
@[simp]
theorem sketchParts_expr (e : Expr) : sketchParts spans (.mk name e.outline :: fields) =
    .mk name (e.outline.sketch spans) :: sketchParts spans fields := by
  cases e <;> rfl

/-- A block is not shown as an attribute. -/
@[simp]
theorem attributes_block (b : Block) :
    attributes (.mk name b.outline :: fields) = attributes fields := by
  cases b
  rfl

/-- A block is shown as a part, by its sketch. -/
@[simp]
theorem sketchParts_block (b : Block) : sketchParts spans (.mk name b.outline :: fields) =
    .mk name (b.outline.sketch spans) :: sketchParts spans fields := by
  cases b
  rfl

@[simp]
theorem attributes_list (os : List Outline) :
    attributes (.mk name (.list os) :: fields) = attributes fields := rfl

variable {name fields}

/-- A list of nodes is known from the parts that it is the first of, if it is known how many parts
follow. -/
theorem sketchParts_list_inj {os os' : List Outline} {fields' : List OutlineField}
    (hlength : (sketchParts spans fields).length = (sketchParts spans fields').length)
    (h : sketchParts spans (.mk name (.list os) :: fields) =
      sketchParts spans (.mk name (.list os') :: fields')) :
    Outline.sketchAll spans os = Outline.sketchAll spans os' ∧
      sketchParts spans fields = sketchParts spans fields' := by
  cases os with
  | nil =>
      cases os' with
      | nil => exact ⟨rfl, h⟩
      | cons o' os' =>
          have hmore := congrArg List.length h
          simp only [sketchParts, List.length_cons] at hmore
          omega
  | cons o os =>
      cases os' with
      | nil =>
          have hmore := congrArg List.length h
          simp only [sketchParts, List.length_cons] at hmore
          omega
      | cons o' os' =>
          simp only [sketchParts, List.cons.injEq, SketchPart.mk.injEq, true_and] at h
          exact h

end OutlineField

/-! ## Sketches of standard trees are legible -/

/-- Legible sketches in a row are legible. -/
theorem Sketch.AllLegible.append {ss ts : List Sketch} (hs : AllLegible ss) (ht : AllLegible ts) :
    AllLegible (ss ++ ts) := by
  induction ss with
  | nil => exact ht
  | cons s ss ih => exact ⟨hs.1, ih hs.2⟩

/-- What the fields of a node show is legible. -/
structure OutlineField.Legible (spans : Bool) (fields : List OutlineField) : Prop where
  attributes : ∀ a ∈ attributes fields, a.Legible
  parts : Sketch.PartsLegible (sketchParts spans fields)

namespace OutlineField.Legible

variable {name : String} {fields : List OutlineField}

theorem nil : Legible spans [] := ⟨nofun, trivial⟩

/-- A text under a name that is a word is legible, as it is quoted. -/
theorem text (hname : Text.IsWord name) {value : String} (h : Legible spans fields) :
    Legible spans (.text name value :: fields) := by
  refine ⟨List.forall_mem_cons.mpr ⟨⟨hname, ?_⟩, h.attributes⟩, h.parts⟩
  rw [Text.quoted, String.toList_ofList]
  exact .quoted _

/-- A flag under a name that is a word is legible. -/
theorem flag (hname : Text.IsWord name) {b : Bool} (h : Legible spans fields) :
    Legible spans (.flag name b :: fields) := by
  have hall : ∀ c ∈ (if b then "True" else "False").toList, c ∉ [',', ')', '\'', '"', '\n'] := by
    cases b with
    | false => exact List.all_iff_forall_prop.mp (by decide)
    | true => exact List.all_iff_forall_prop.mp (by decide)
  exact ⟨List.forall_mem_cons.mpr ⟨⟨hname, .bare hall⟩, h.attributes⟩, h.parts⟩

/-- A numeral is legible, as it has no other characters than numerals have. -/
theorem number (hname : Text.IsWord name) {shown : String}
    (hshown : shown.toList ⊆ Text.numberChars) (h : Legible spans fields) :
    Legible spans (.mk name (.leaf shown) :: fields) := by
  have hall : ∀ c ∈ Text.numberChars, c ∉ [',', ')', '\'', '"', '\n'] :=
    List.all_iff_forall_prop.mp (by decide)
  exact ⟨List.forall_mem_cons.mpr ⟨⟨hname, .bare fun c hc => hall c (hshown hc)⟩, h.attributes⟩,
    h.parts⟩

/-- An expression is legible as a field if its sketch is. -/
theorem expr (hname : Text.IsWord name) {e : Expr}
    (he : Sketch.AllLegible (e.outline.sketch spans)) (h : Legible spans fields) :
    Legible spans (.mk name e.outline :: fields) := by
  refine ⟨by simpa using h.attributes, ?_⟩
  rw [sketchParts_expr]
  exact ⟨hname, he, h.parts⟩

/-- A block is legible as a field if its sketch is. -/
theorem block (hname : Text.IsWord name) {b : Block}
    (hb : Sketch.AllLegible (b.outline.sketch spans)) (h : Legible spans fields) :
    Legible spans (.mk name b.outline :: fields) := by
  refine ⟨by simpa using h.attributes, ?_⟩
  rw [sketchParts_block]
  exact ⟨hname, hb, h.parts⟩

/-- A list of nodes may be empty, when it is not shown. -/
theorem list (hname : Text.IsWord name) {os : List Outline}
    (hos : Sketch.AllLegible (Outline.sketchAll spans os)) (h : Legible spans fields) :
    Legible spans (.mk name (.list os) :: fields) := by
  refine ⟨h.attributes, ?_⟩
  cases os with
  | nil => exact h.parts
  | cons o os => exact ⟨hname, hos, h.parts⟩

/-- A node with legible fields is legible. -/
theorem node {kind : String} (hkind : Text.IsWord kind) {span : Option Span}
    (h : Legible spans fields) :
    Sketch.AllLegible ((Outline.node kind fields span).sketch spans) :=
  ⟨⟨hkind, h.attributes, h.parts⟩, trivial⟩

end OutlineField.Legible

open OutlineField.Legible (nil text flag number expr block list node)

mutual

/-- The sketch of a standard expression is legible, by induction on the expression. -/
theorem Expr.sketch_legible (spans : Bool) : ∀ {e : Expr}, e.Standard F →
    Sketch.AllLegible (e.outline.sketch spans)
  | .int n _, _ => node (by decide) (number (by decide) (Text.toString_subset n) nil)
  | .float x _, _ =>
    node (by decide) (number (by decide) (Decimal.Layout.text_subset _ x) nil)
  | .string _ _, _ => node (by decide) (text (by decide) nil)
  | .bool _ _, _ => node (by decide) (flag (by decide) nil)
  | .var _ _, _ => node (by decide) (text (by decide) nil)
  | .paren _ _, h => node (by decide) (expr (by decide) (Expr.sketch_legible spans h) nil)
  | .unary _ _ _, ⟨_, h⟩ =>
    node (by decide) (text (by decide) (expr (by decide) (Expr.sketch_legible spans h) nil))
  | .binary _ _ _ _, ⟨_, hl, hr⟩ =>
    node (by decide) (text (by decide) (expr (by decide) (Expr.sketch_legible spans hl)
      (expr (by decide) (Expr.sketch_legible spans hr) nil)))
  | .ternary _ _ _ _, ⟨hc, hy, hn⟩ =>
    node (by decide) (expr (by decide) (Expr.sketch_legible spans hc)
      (expr (by decide) (Expr.sketch_legible spans hy)
        (expr (by decide) (Expr.sketch_legible spans hn) nil)))
  | .call _ _ _, h =>
    node (by decide) (text (by decide) (list (by decide) (Expr.sketchAll_legible spans h) nil))

/-- The sketches of standard expressions in a row are legible. -/
theorem Expr.sketchAll_legible (spans : Bool) : ∀ {es : List Expr}, Expr.StandardAll F es →
    Sketch.AllLegible (Outline.sketchAll spans (Expr.outlines es))
  | [], _ => trivial
  | _ :: _, ⟨h, hs⟩ => (Expr.sketch_legible spans h).append (Expr.sketchAll_legible spans hs)

end

mutual

/-- The sketch of a standard statement is legible, by induction on the statement. -/
theorem Stmt.sketch_legible (spans : Bool) : ∀ {s : Stmt}, s.Standard F →
    Sketch.AllLegible (s.outline.sketch spans)
  | .declare _ _ _ _, h =>
    node (by decide) (text (by decide) (expr (by decide) (Expr.sketch_legible spans h)
      (flag (by decide) nil)))
  | .assign _ _ _ _, ⟨_, h⟩ =>
    node (by decide) (text (by decide) (text (by decide)
      (expr (by decide) (Expr.sketch_legible spans h) nil)))
  | .call _ _, h => node (by decide) (expr (by decide) (Expr.sketch_legible spans h) nil)
  | .ifThen _ _ _, ⟨hc, hy⟩ =>
    node (by decide) (expr (by decide) (Expr.sketch_legible spans hc)
      (block (by decide) (Block.sketch_legible spans hy) nil))
  | .ifThenElse _ _ _ _, ⟨hc, hy, hn⟩ =>
    node (by decide) (expr (by decide) (Expr.sketch_legible spans hc)
      (block (by decide) (Block.sketch_legible spans hy)
        (block (by decide) (Block.sketch_legible spans hn) nil)))
  | .whileDo _ _ _, ⟨hc, hb⟩ =>
    node (by decide) (expr (by decide) (Expr.sketch_legible spans hc)
      (block (by decide) (Block.sketch_legible spans hb) nil))
  | .doWhile _ _ _, ⟨hb, hc⟩ =>
    node (by decide) (block (by decide) (Block.sketch_legible spans hb)
      (expr (by decide) (Expr.sketch_legible spans hc) nil))
  | .forCount _ _ _ _ _ _, ⟨hstart, hbound, _, hb⟩ =>
    node (by decide) (text (by decide) (expr (by decide) (Expr.sketch_legible spans hstart)
      (expr (by decide) (Expr.sketch_legible spans hbound) (text (by decide)
        (block (by decide) (Block.sketch_legible spans hb) nil)))))
  | .ret none _, _ => node (by decide) nil
  | .ret (some _) _, h => node (by decide) (expr (by decide) (Expr.sketch_legible spans h) nil)
  | .brk _, _ => node (by decide) nil
  | .cont _, _ => node (by decide) nil

/-- The sketch of a standard block is legible. -/
theorem Block.sketch_legible (spans : Bool) : ∀ {b : Block}, b.Standard F →
    Sketch.AllLegible (b.outline.sketch spans)
  | .mk _ _ _, h =>
    node (by decide) (list (by decide) (Stmt.sketchAll_legible spans h) (flag (by decide) nil))

/-- The sketches of standard statements in a row are legible. -/
theorem Stmt.sketchAll_legible (spans : Bool) : ∀ {ss : List Stmt}, Stmt.StandardAll F ss →
    Sketch.AllLegible (Outline.sketchAll spans (Stmt.outlines ss))
  | [], _ => trivial
  | _ :: _, ⟨h, hs⟩ => (Stmt.sketch_legible spans h).append (Stmt.sketchAll_legible spans hs)

end

/-- Parameters are shown by two texts each, so they are always legible. -/
theorem Param.sketchAll_legible (spans : Bool) (ps : List Param) :
    Sketch.AllLegible (Outline.sketchAll spans (ps.map Param.outline)) := by
  induction ps with
  | nil => trivial
  | cons p ps ih => exact (node (by decide) (text (by decide) (text (by decide) nil))).append ih

/-- The sketch of a function with a standard body is legible. -/
theorem FuncDecl.sketch_legible (spans : Bool) {d : FuncDecl} (h : d.body.Standard F) :
    Sketch.AllLegible (d.outline.sketch spans) :=
  node (by decide) (text (by decide) (list (by decide) (Param.sketchAll_legible spans d.params)
    (text (by decide) (block (by decide) (Block.sketch_legible spans h) nil))))

/-- The sketches of standard items in a row are legible. -/
theorem Item.sketchAll_legible (spans : Bool) {items : List Item}
    (h : ∀ item ∈ items, item.Standard F) :
    Sketch.AllLegible (Outline.sketchAll spans (items.map Item.outline)) := by
  induction items with
  | nil => trivial
  | cons item items ih =>
      have hitem := h item List.mem_cons_self
      refine Sketch.AllLegible.append ?_ (ih fun item hmem => h item (List.mem_cons_of_mem _ hmem))
      cases item with
      | func d => exact d.sketch_legible spans hitem
      | stmt s => exact Stmt.sketch_legible spans hitem

/-- The sketch of a program with standard items is legible. -/
theorem Program.sketch_legible (spans : Bool) {p : Program}
    (h : ∀ item ∈ p.items, item.Standard F) :
    Sketch.AllLegible (p.outline.sketch spans) :=
  node (by decide) (list (by decide) (Item.sketchAll_legible spans h) nil)

end Pigeon

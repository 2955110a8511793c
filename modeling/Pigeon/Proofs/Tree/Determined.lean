import Pigeon.Proofs.Tree.Flatten
import Pigeon.Proofs.Tree.Standard

/-!
# Standard trees are known from their sketches

Two standard trees with the same sketch are equal, up to the spans that the sketch leaves out. Their
floats are known from their texts by assumption. The induction is on the first tree. As the sketches
agree, so do the kinds of the two nodes, and the parts of the nodes one by one.
-/

namespace Pigeon

variable {F G : Float → Prop} {spans : Bool}

/-! ## Texts, nodes and spans -/

/-- The quoted text determines the text. -/
@[simp]
theorem Text.quoted_inj {s t : String} : quoted s = quoted t ↔ s = t := by
  refine ⟨fun h => ?_, congrArg quoted⟩
  have hchars : quoteChars s.toList ++ [] = quoteChars t.toList ++ [] := by
    rw [List.append_nil, List.append_nil]
    exact String.ofList_injective h
  exact String.toList_inj.mp (quoteChars_append_inj hchars).1

/-- The text of a truth value determines it. -/
@[simp]
theorem OutlineField.flag_inj {a b : Bool} :
    (if a then "True" else "False") = (if b then "True" else "False") ↔ a = b := by
  cases a <;> cases b <;> decide

/-- The sketch of a node determines its kind, what it shows of its fields, and its span unless spans
are left out. -/
theorem Outline.sketch_node_inj {kind kind' : String} {fields fields' : List OutlineField}
    {span span' : Option Span}
    (h : (node kind fields span).sketch spans = (node kind' fields' span').sketch spans) :
    kind = kind' ∧ OutlineField.attributes fields = OutlineField.attributes fields' ∧
      (spans = true → span = span') ∧
      OutlineField.sketchParts spans fields = OutlineField.sketchParts spans fields' := by
  simp only [sketch, List.cons.injEq, Sketch.mk.injEq, and_true] at h
  obtain ⟨hkind, has, hspan, hparts⟩ := h
  refine ⟨hkind, has, fun hs => ?_, hparts⟩
  rwa [if_pos hs, if_pos hs] at hspan

/-- Something is shown of a list that begins with a single node. -/
theorem Outline.sketchAll_cons_ne_nil {o : Outline} (h : (o.sketch spans).length = 1)
    (os : List Outline) : sketchAll spans (o :: os) ≠ [] :=
  List.append_ne_nil_of_left_ne_nil (List.ne_nil_of_length_pos (by omega)) _

/-- An expression is shown as one node. -/
theorem Expr.length_sketch (spans : Bool) (e : Expr) : (e.outline.sketch spans).length = 1 := by
  cases e <;> rfl

/-- The kind of a statement in its outline. -/
def Stmt.kindName : Stmt → String
  | .block _ => "Block"
  | .declare .. => "VarDecl"
  | .assign .. => "AssignStmt"
  | .call .. => "CallStmt"
  | .ifThen .. | .ifThenElse .. => "IfStmt"
  | .whileDo .. => "WhileStmt"
  | .doWhile .. => "DoWhileStmt"
  | .forCount .. => "ForStmt"
  | .ret .. => "ReturnStmt"
  | .brk _ => "BreakStmt"
  | .cont _ => "ContinueStmt"
  | .other kind _ _ => kind

/-- The outline of a statement is a node of its kind with its span. -/
theorem Stmt.exists_outline_eq (s : Stmt) :
    ∃ fields, s.outline = .node s.kindName fields s.span := by
  cases s with
  | block b => cases b; exact ⟨_, rfl⟩
  | ret value sp => cases value <;> exact ⟨_, rfl⟩
  | _ => exact ⟨_, rfl⟩

/-- A statement is shown as one node. -/
theorem Stmt.length_sketch (spans : Bool) (s : Stmt) : (s.outline.sketch spans).length = 1 := by
  obtain ⟨fields, hs⟩ := s.exists_outline_eq
  rw [hs]
  rfl

/-- The kind of a statement can be read off its sketch. -/
theorem Stmt.kindName_of_sketch {s : Stmt} {kind : String} {fields : List OutlineField}
    {sp : Option Span} (h : s.outline.sketch spans = (Outline.node kind fields sp).sketch spans) :
    s.kindName = kind := by
  obtain ⟨_, hs⟩ := s.exists_outline_eq
  rw [hs] at h
  exact (Outline.sketch_node_inj h).1

/-- Two trees are equal up to spans, and equal altogether where spans are kept. -/
def Agree {α : Type} (spans : Bool) (bare : α → α) (x y : α) : Prop :=
  bare x = bare y ∧ (spans = true → x = y)

/-- Trees in a row agree if the first ones do and the others do. -/
theorem Agree.cons {α : Type} {bare : α → α} {bareAll : List α → List α} {x y : α}
    {xs ys : List α} (hcons : ∀ x xs, bareAll (x :: xs) = bare x :: bareAll xs)
    (h : Agree spans bare x y) (hs : Agree spans bareAll xs ys) :
    Agree spans bareAll (x :: xs) (y :: ys) :=
  ⟨by rw [hcons, hcons, h.1, hs.1], fun hspans => by rw [h.2 hspans, hs.2 hspans]⟩

/-- Floats of the two kinds are known from their texts. -/
def FloatsKnown (F G : Float → Prop) : Prop :=
  ∀ x y, F x → G y → Value.floatText x = Value.floatText y → x = y

/-! ## Expressions, statements and bodies -/

mutual

/-- Standard expressions with one sketch agree, by induction on the first of them. -/
theorem Expr.agree_of_sketch (hFG : FloatsKnown F G) : ∀ (e e' : Expr),
    e.Standard F → e'.Standard G →
    e.outline.sketch spans = e'.outline.sketch spans → Agree spans Expr.bare e e'
  | .int n sp, e', _, h', heq => by
      cases e' with
      | int n' sp' =>
          obtain ⟨-, has, hsp, -⟩ := Outline.sketch_node_inj heq
          obtain rfl : n = n' := Text.toString_inj (congrArg Attribute.shown (List.cons.inj has).1)
          exact ⟨rfl, fun hs => by rw [hsp hs]⟩
      | other => exact absurd h' id
      | _ => exact absurd (Outline.sketch_node_inj heq).1 (by decide)
  | .float x sp, e', h, h', heq => by
      cases e' with
      | float y sp' =>
          obtain ⟨-, has, hsp, -⟩ := Outline.sketch_node_inj heq
          obtain rfl : x = y := hFG x y h h' (by simpa [OutlineField.attributes] using has)
          exact ⟨rfl, fun hs => by rw [hsp hs]⟩
      | other => exact absurd h' id
      | _ => exact absurd (Outline.sketch_node_inj heq).1 (by decide)
  | .string s sp, e', _, h', heq => by
      cases e' with
      | string s' sp' =>
          obtain ⟨-, has, hsp, -⟩ := Outline.sketch_node_inj heq
          obtain rfl : s = s' := by simpa [OutlineField.attributes] using has
          exact ⟨rfl, fun hs => by rw [hsp hs]⟩
      | other => exact absurd h' id
      | _ => exact absurd (Outline.sketch_node_inj heq).1 (by decide)
  | .bool b sp, e', _, h', heq => by
      cases e' with
      | bool b' sp' =>
          obtain ⟨-, has, hsp, -⟩ := Outline.sketch_node_inj heq
          obtain rfl : b = b' := by simpa [OutlineField.attributes] using has
          exact ⟨rfl, fun hs => by rw [hsp hs]⟩
      | other => exact absurd h' id
      | _ => exact absurd (Outline.sketch_node_inj heq).1 (by decide)
  | .var name sp, e', _, h', heq => by
      cases e' with
      | var name' sp' =>
          obtain ⟨-, has, hsp, -⟩ := Outline.sketch_node_inj heq
          obtain rfl : name = name' := by simpa [OutlineField.attributes] using has
          exact ⟨rfl, fun hs => by rw [hsp hs]⟩
      | other => exact absurd h' id
      | _ => exact absurd (Outline.sketch_node_inj heq).1 (by decide)
  | .paren e sp, e', h, h', heq => by
      cases e' with
      | paren e' sp' =>
          obtain ⟨-, -, hsp, hps⟩ := Outline.sketch_node_inj heq
          obtain ⟨hbare, hsame⟩ := Expr.agree_of_sketch hFG e e' h h' (by simpa using hps)
          exact ⟨by rw [Expr.bare, Expr.bare, hbare], fun hs => by rw [hsame hs, hsp hs]⟩
      | other => exact absurd h' id
      | _ => exact absurd (Outline.sketch_node_inj heq).1 (by decide)
  | .unary op e sp, e', ⟨hop, h⟩, h', heq => by
      cases e' with
      | unary op' e' sp' =>
          -- the sketch shows the symbol only, which stands for one operator
          obtain ⟨-, has, hsp, hps⟩ := Outline.sketch_node_inj heq
          have hsymbol : op.symbol = op'.symbol := by simpa using has
          obtain rfl : op = op' := by rw [hop, hsymbol, ← h'.1]
          obtain ⟨hbare, hsame⟩ := Expr.agree_of_sketch hFG e e' h h'.2 (by simpa using hps)
          exact ⟨by rw [Expr.bare, Expr.bare, hbare], fun hs => by rw [hsame hs, hsp hs]⟩
      | other => exact absurd h' id
      | _ => exact absurd (Outline.sketch_node_inj heq).1 (by decide)
  | .binary op l r sp, e', ⟨hop, hl, hr⟩, h', heq => by
      cases e' with
      | binary op' l' r' sp' =>
          obtain ⟨-, has, hsp, hps⟩ := Outline.sketch_node_inj heq
          have hsymbol : op.symbol = op'.symbol := by simpa using has
          obtain rfl : op = op' := by rw [hop, hsymbol, ← h'.1]
          obtain ⟨hpl, hpr⟩ : l.outline.sketch spans = l'.outline.sketch spans ∧
              r.outline.sketch spans = r'.outline.sketch spans := by simpa using hps
          obtain ⟨hl, hl'⟩ := Expr.agree_of_sketch hFG l l' hl h'.2.1 hpl
          obtain ⟨hr, hr'⟩ := Expr.agree_of_sketch hFG r r' hr h'.2.2 hpr
          exact ⟨by rw [Expr.bare, Expr.bare, hl, hr], fun hs => by rw [hl' hs, hr' hs, hsp hs]⟩
      | other => exact absurd h' id
      | _ => exact absurd (Outline.sketch_node_inj heq).1 (by decide)
  | .ternary c y n sp, e', ⟨hc, hy, hn⟩, h', heq => by
      cases e' with
      | ternary c' y' n' sp' =>
          obtain ⟨-, -, hsp, hps⟩ := Outline.sketch_node_inj heq
          obtain ⟨hpc, hpy, hpn⟩ : c.outline.sketch spans = c'.outline.sketch spans ∧
              y.outline.sketch spans = y'.outline.sketch spans ∧
              n.outline.sketch spans = n'.outline.sketch spans := by simpa using hps
          obtain ⟨hc, hc'⟩ := Expr.agree_of_sketch hFG c c' hc h'.1 hpc
          obtain ⟨hy, hy'⟩ := Expr.agree_of_sketch hFG y y' hy h'.2.1 hpy
          obtain ⟨hn, hn'⟩ := Expr.agree_of_sketch hFG n n' hn h'.2.2 hpn
          exact ⟨by rw [Expr.bare, Expr.bare, hc, hy, hn],
            fun hs => by rw [hc' hs, hy' hs, hn' hs, hsp hs]⟩
      | other => exact absurd h' id
      | _ => exact absurd (Outline.sketch_node_inj heq).1 (by decide)
  | .call name args sp, e', h, h', heq => by
      cases e' with
      | call name' args' sp' =>
          obtain ⟨-, has, hsp, hps⟩ := Outline.sketch_node_inj heq
          obtain rfl : name = name' := by simpa [OutlineField.attributes] using has
          obtain ⟨hargs, -⟩ := OutlineField.sketchParts_list_inj rfl hps
          obtain ⟨hbare, hsame⟩ := Expr.agree_of_sketchAll hFG args args' h h' hargs
          exact ⟨by rw [Expr.bare, Expr.bare, hbare], fun hs => by rw [hsame hs, hsp hs]⟩
      | other => exact absurd h' id
      | _ => exact absurd (Outline.sketch_node_inj heq).1 (by decide)

/-- The same of expressions in a row. -/
theorem Expr.agree_of_sketchAll (hFG : FloatsKnown F G) : ∀ (es es' : List Expr),
    Expr.StandardAll F es → Expr.StandardAll G es' →
    Outline.sketchAll spans (Expr.outlines es) = Outline.sketchAll spans (Expr.outlines es') →
    Agree spans Expr.bareAll es es'
  | [], [], _, _, _ => ⟨rfl, fun _ => rfl⟩
  | [], e' :: _, _, _, heq =>
      absurd heq.symm (Outline.sketchAll_cons_ne_nil (e'.length_sketch spans) _)
  | e :: _, [], _, _, heq =>
      absurd heq (Outline.sketchAll_cons_ne_nil (e.length_sketch spans) _)
  | e :: es, e' :: es', ⟨h, hs⟩, ⟨h', hs'⟩, heq => by
      obtain ⟨hone, hmore⟩ := List.append_inj heq
        ((e.length_sketch spans).trans (e'.length_sketch spans).symm)
      exact .cons (fun _ _ => rfl) (Expr.agree_of_sketch hFG e e' h h' hone)
        (Expr.agree_of_sketchAll hFG es es' hs hs' hmore)

end

mutual

/-- Standard statements with one sketch agree, by induction on the first of them. -/
theorem Stmt.agree_of_sketch (hFG : FloatsKnown F G) : ∀ (s s' : Stmt),
    s.Standard F → s'.Standard G →
    s.outline.sketch spans = s'.outline.sketch spans → Agree spans Stmt.bare s s'
  | .declare name e isConst sp, s', h, h', heq => by
      cases s' with
      | declare name' e' isConst' sp' =>
          obtain ⟨-, has, hsp, hps⟩ := Outline.sketch_node_inj heq
          obtain ⟨rfl, rfl⟩ : name = name' ∧ isConst = isConst' := by
            simpa [OutlineField.attributes] using has
          obtain ⟨hbare, hsame⟩ := Expr.agree_of_sketch hFG e e' h h' (by simpa using hps)
          exact ⟨by rw [Stmt.bare, Stmt.bare, hbare], fun hs => by rw [hsame hs, hsp hs]⟩
      | block | other => exact absurd h' id
      | _ => exact absurd (Stmt.kindName_of_sketch heq.symm) (by simp [Stmt.kindName])
  | .assign name op e sp, s', ⟨hop, h⟩, h', heq => by
      cases s' with
      | assign name' op' e' sp' =>
          obtain ⟨-, has, hsp, hps⟩ := Outline.sketch_node_inj heq
          obtain ⟨rfl, hsymbol⟩ : name = name' ∧ op.symbol = op'.symbol := by
            simpa [OutlineField.attributes] using has
          obtain rfl : op = op' := by rw [hop, hsymbol, ← h'.1]
          obtain ⟨hbare, hsame⟩ := Expr.agree_of_sketch hFG e e' h h'.2 (by simpa using hps)
          exact ⟨by rw [Stmt.bare, Stmt.bare, hbare], fun hs => by rw [hsame hs, hsp hs]⟩
      | block | other => exact absurd h' id
      | _ => exact absurd (Stmt.kindName_of_sketch heq.symm) (by simp [Stmt.kindName])
  | .call e sp, s', h, h', heq => by
      cases s' with
      | call e' sp' =>
          obtain ⟨-, -, hsp, hps⟩ := Outline.sketch_node_inj heq
          obtain ⟨hbare, hsame⟩ := Expr.agree_of_sketch hFG e e' h h' (by simpa using hps)
          exact ⟨by rw [Stmt.bare, Stmt.bare, hbare], fun hs => by rw [hsame hs, hsp hs]⟩
      | block | other => exact absurd h' id
      | _ => exact absurd (Stmt.kindName_of_sketch heq.symm) (by simp [Stmt.kindName])
  | .ifThen c y sp, s', ⟨hc, hy⟩, h', heq => by
      cases s' with
      | ifThen c' y' sp' =>
          obtain ⟨-, -, hsp, hps⟩ := Outline.sketch_node_inj heq
          obtain ⟨hpc, hpy⟩ : c.outline.sketch spans = c'.outline.sketch spans ∧
              y.outline.sketch spans = y'.outline.sketch spans := by simpa using hps
          obtain ⟨hc, hc'⟩ := Expr.agree_of_sketch hFG c c' hc h'.1 hpc
          obtain ⟨hy, hy'⟩ := Block.agree_of_sketch hFG y y' hy h'.2 hpy
          exact ⟨by rw [Stmt.bare, Stmt.bare, hc, hy], fun hs => by rw [hc' hs, hy' hs, hsp hs]⟩
      | ifThenElse c' y' n' sp' =>
          -- of one kind, but with different numbers of parts
          obtain ⟨-, -, -, hps⟩ := Outline.sketch_node_inj heq
          exact absurd hps (by simp)
      | block | other => exact absurd h' id
      | _ => exact absurd (Stmt.kindName_of_sketch heq.symm) (by simp [Stmt.kindName])
  | .ifThenElse c y n sp, s', ⟨hc, hy, hn⟩, h', heq => by
      cases s' with
      | ifThenElse c' y' n' sp' =>
          obtain ⟨-, -, hsp, hps⟩ := Outline.sketch_node_inj heq
          obtain ⟨hpc, hpy, hpn⟩ : c.outline.sketch spans = c'.outline.sketch spans ∧
              y.outline.sketch spans = y'.outline.sketch spans ∧
              n.outline.sketch spans = n'.outline.sketch spans := by simpa using hps
          obtain ⟨hc, hc'⟩ := Expr.agree_of_sketch hFG c c' hc h'.1 hpc
          obtain ⟨hy, hy'⟩ := Block.agree_of_sketch hFG y y' hy h'.2.1 hpy
          obtain ⟨hn, hn'⟩ := Block.agree_of_sketch hFG n n' hn h'.2.2 hpn
          exact ⟨by rw [Stmt.bare, Stmt.bare, hc, hy, hn],
            fun hs => by rw [hc' hs, hy' hs, hn' hs, hsp hs]⟩
      | ifThen c' y' sp' =>
          obtain ⟨-, -, -, hps⟩ := Outline.sketch_node_inj heq
          exact absurd hps (by simp)
      | block | other => exact absurd h' id
      | _ => exact absurd (Stmt.kindName_of_sketch heq.symm) (by simp [Stmt.kindName])
  | .whileDo c b sp, s', ⟨hc, hb⟩, h', heq => by
      cases s' with
      | whileDo c' b' sp' =>
          obtain ⟨-, -, hsp, hps⟩ := Outline.sketch_node_inj heq
          obtain ⟨hpc, hpb⟩ : c.outline.sketch spans = c'.outline.sketch spans ∧
              b.outline.sketch spans = b'.outline.sketch spans := by simpa using hps
          obtain ⟨hc, hc'⟩ := Expr.agree_of_sketch hFG c c' hc h'.1 hpc
          obtain ⟨hb, hb'⟩ := Block.agree_of_sketch hFG b b' hb h'.2 hpb
          exact ⟨by rw [Stmt.bare, Stmt.bare, hc, hb], fun hs => by rw [hc' hs, hb' hs, hsp hs]⟩
      | block | other => exact absurd h' id
      | _ => exact absurd (Stmt.kindName_of_sketch heq.symm) (by simp [Stmt.kindName])
  | .doWhile b c sp, s', ⟨hb, hc⟩, h', heq => by
      cases s' with
      | doWhile b' c' sp' =>
          obtain ⟨-, -, hsp, hps⟩ := Outline.sketch_node_inj heq
          obtain ⟨hpb, hpc⟩ : b.outline.sketch spans = b'.outline.sketch spans ∧
              c.outline.sketch spans = c'.outline.sketch spans := by simpa using hps
          obtain ⟨hb, hb'⟩ := Block.agree_of_sketch hFG b b' hb h'.1 hpb
          obtain ⟨hc, hc'⟩ := Expr.agree_of_sketch hFG c c' hc h'.2 hpc
          exact ⟨by rw [Stmt.bare, Stmt.bare, hb, hc], fun hs => by rw [hb' hs, hc' hs, hsp hs]⟩
      | block | other => exact absurd h' id
      | _ => exact absurd (Stmt.kindName_of_sketch heq.symm) (by simp [Stmt.kindName])
  | .forCount name a z d b sp, s', ⟨ha, hz, hd, hb⟩, h', heq => by
      cases s' with
      | forCount name' a' z' d' b' sp' =>
          obtain ⟨-, has, hsp, hps⟩ := Outline.sketch_node_inj heq
          obtain ⟨rfl, hword⟩ : name = name' ∧ d.word = d'.word := by
            simpa [OutlineField.attributes] using has
          obtain ⟨ha', hz', hd', hb'⟩ := h'
          obtain rfl : d = d' := by rw [hd, hword, ← hd']
          obtain ⟨hpa, hpz, hpb⟩ : a.outline.sketch spans = a'.outline.sketch spans ∧
              z.outline.sketch spans = z'.outline.sketch spans ∧
              b.outline.sketch spans = b'.outline.sketch spans := by simpa using hps
          obtain ⟨ha, ha'⟩ := Expr.agree_of_sketch hFG a a' ha ha' hpa
          obtain ⟨hz, hz'⟩ := Expr.agree_of_sketch hFG z z' hz hz' hpz
          obtain ⟨hb, hb'⟩ := Block.agree_of_sketch hFG b b' hb hb' hpb
          exact ⟨by rw [Stmt.bare, Stmt.bare, ha, hz, hb],
            fun hs => by rw [ha' hs, hz' hs, hb' hs, hsp hs]⟩
      | block | other => exact absurd h' id
      | _ => exact absurd (Stmt.kindName_of_sketch heq.symm) (by simp [Stmt.kindName])
  | .ret none sp, s', _, h', heq => by
      cases s' with
      | ret value' sp' =>
          cases value' with
          | none =>
              obtain ⟨-, -, hsp, -⟩ := Outline.sketch_node_inj heq
              exact ⟨rfl, fun hs => by rw [hsp hs]⟩
          | some e' =>
              obtain ⟨-, -, -, hps⟩ := Outline.sketch_node_inj heq
              exact absurd hps (by simp [OutlineField.sketchParts])
      | block | other => exact absurd h' id
      | _ => exact absurd (Outline.sketch_node_inj heq).1 (by decide)
  | .ret (some e) sp, s', h, h', heq => by
      cases s' with
      | ret value' sp' =>
          cases value' with
          | none =>
              obtain ⟨-, -, -, hps⟩ := Outline.sketch_node_inj heq
              exact absurd hps (by simp [OutlineField.sketchParts])
          | some e' =>
              obtain ⟨-, -, hsp, hps⟩ := Outline.sketch_node_inj heq
              obtain ⟨hbare, hsame⟩ := Expr.agree_of_sketch hFG e e' h h' (by simpa using hps)
              exact ⟨by rw [Stmt.bare, Stmt.bare, hbare], fun hs => by rw [hsame hs, hsp hs]⟩
      | block | other => exact absurd h' id
      | _ => exact absurd (Outline.sketch_node_inj heq).1 (by decide)
  | .brk sp, s', _, h', heq => by
      cases s' with
      | brk sp' =>
          obtain ⟨-, -, hsp, -⟩ := Outline.sketch_node_inj heq
          exact ⟨rfl, fun hs => by rw [hsp hs]⟩
      | block | other => exact absurd h' id
      | _ => exact absurd (Stmt.kindName_of_sketch heq.symm) (by simp [Stmt.kindName])
  | .cont sp, s', _, h', heq => by
      cases s' with
      | cont sp' =>
          obtain ⟨-, -, hsp, -⟩ := Outline.sketch_node_inj heq
          exact ⟨rfl, fun hs => by rw [hsp hs]⟩
      | block | other => exact absurd h' id
      | _ => exact absurd (Stmt.kindName_of_sketch heq.symm) (by simp [Stmt.kindName])

/-- The same of blocks. -/
theorem Block.agree_of_sketch (hFG : FloatsKnown F G) : ∀ (b b' : Block),
    b.Standard F → b'.Standard G →
    b.outline.sketch spans = b'.outline.sketch spans → Agree spans Block.bare b b'
  | .mk ss braced sp, .mk ss' braced' sp', h, h', heq => by
      obtain ⟨-, has, hsp, hps⟩ := Outline.sketch_node_inj heq
      obtain rfl : braced = braced' := by simpa [OutlineField.attributes] using has
      obtain ⟨hss, -⟩ := OutlineField.sketchParts_list_inj rfl hps
      obtain ⟨hbare, hsame⟩ := Stmt.agree_of_sketchAll hFG ss ss' h h' hss
      exact ⟨by rw [Block.bare, Block.bare, hbare], fun hs => by rw [hsame hs, hsp hs]⟩

/-- The same of statements in a row. -/
theorem Stmt.agree_of_sketchAll (hFG : FloatsKnown F G) : ∀ (ss ss' : List Stmt),
    Stmt.StandardAll F ss → Stmt.StandardAll G ss' →
    Outline.sketchAll spans (Stmt.outlines ss) = Outline.sketchAll spans (Stmt.outlines ss') →
    Agree spans Stmt.bareAll ss ss'
  | [], [], _, _, _ => ⟨rfl, fun _ => rfl⟩
  | [], s' :: _, _, _, heq =>
      absurd heq.symm (Outline.sketchAll_cons_ne_nil (s'.length_sketch spans) _)
  | s :: _, [], _, _, heq =>
      absurd heq (Outline.sketchAll_cons_ne_nil (s.length_sketch spans) _)
  | s :: ss, s' :: ss', ⟨h, hs⟩, ⟨h', hs'⟩, heq => by
      obtain ⟨hone, hmore⟩ := List.append_inj heq
        ((s.length_sketch spans).trans (s'.length_sketch spans).symm)
      exact .cons (fun _ _ => rfl) (Stmt.agree_of_sketch hFG s s' h h' hone)
        (Stmt.agree_of_sketchAll hFG ss ss' hs hs' hmore)

end

/-! ## Programs are known from their sketches -/

/-- Lists of trees that are shown as one node each are known from their sketches, if their members
are. -/
theorem Agree.of_sketchAll {α : Type} {outline : α → Outline} {bare : α → α} {xs ys : List α}
    (hsingle : ∀ x, ((outline x).sketch spans).length = 1)
    (hone : ∀ x ∈ xs, ∀ y ∈ ys, (outline x).sketch spans = (outline y).sketch spans →
      Agree spans bare x y)
    (heq : Outline.sketchAll spans (xs.map outline) = Outline.sketchAll spans (ys.map outline)) :
    Agree spans (List.map bare) xs ys := by
  induction xs generalizing ys with
  | nil =>
      cases ys with
      | nil => exact ⟨rfl, fun _ => rfl⟩
      | cons y ys => exact absurd heq.symm (Outline.sketchAll_cons_ne_nil (hsingle y) _)
  | cons x xs ih =>
      cases ys with
      | nil => exact absurd heq (Outline.sketchAll_cons_ne_nil (hsingle x) _)
      | cons y ys =>
          obtain ⟨hfirst, hmore⟩ := List.append_inj heq ((hsingle x).trans (hsingle y).symm)
          exact .cons (fun _ _ => rfl) (hone x List.mem_cons_self y List.mem_cons_self hfirst)
            (ih (fun x hx y hy => hone x (List.mem_cons_of_mem _ hx) y (List.mem_cons_of_mem _ hy))
              hmore)

/-- Parameters with one sketch agree. -/
theorem Param.agree_of_sketch (p p' : Param)
    (heq : p.outline.sketch spans = p'.outline.sketch spans) : Agree spans Param.bare p p' := by
  obtain ⟨name, typeName, sp⟩ := p
  obtain ⟨name', typeName', sp'⟩ := p'
  obtain ⟨-, has, hsp, -⟩ := Outline.sketch_node_inj heq
  obtain ⟨rfl, rfl⟩ : name = name' ∧ typeName = typeName' := by
    simpa [OutlineField.attributes] using has
  exact ⟨rfl, fun hs => congrArg (Param.mk name typeName) (hsp hs)⟩

/-- Functions with standard bodies and one sketch agree. -/
theorem FuncDecl.agree_of_sketch (hFG : FloatsKnown F G) (d d' : FuncDecl)
    (h : d.body.Standard F) (h' : d'.body.Standard G)
    (heq : d.outline.sketch spans = d'.outline.sketch spans) : Agree spans FuncDecl.bare d d' := by
  obtain ⟨name, params, returnType, body, sp⟩ := d
  obtain ⟨name', params', returnType', body', sp'⟩ := d'
  obtain ⟨-, has, hsp, hps⟩ := Outline.sketch_node_inj heq
  obtain ⟨rfl, rfl⟩ : name = name' ∧ returnType = returnType' := by
    simpa [OutlineField.attributes] using has
  -- parameters are a part if there are any, and the body is always one
  rw [OutlineField.sketchParts_text, OutlineField.sketchParts_text] at hps
  obtain ⟨hparams, hrest⟩ := OutlineField.sketchParts_list_inj (by simp) hps
  obtain ⟨hbares, hsames⟩ := Agree.of_sketchAll (fun _ => rfl)
    (fun p _ p' _ => Param.agree_of_sketch p p') hparams
  obtain ⟨hbare, hsame⟩ := Block.agree_of_sketch hFG body body' h h' (by simpa using hrest)
  refine ⟨by simp only [FuncDecl.bare, hbares, hbare], fun hs => ?_⟩
  rw [FuncDecl.mk.injEq]
  exact ⟨rfl, hsames hs, rfl, hsame hs, hsp hs⟩

/-- No statement is shown as a function declaration. -/
theorem Stmt.sketch_ne_func {s : Stmt} (h : s.Standard F) (d : FuncDecl) :
    s.outline.sketch spans ≠ d.outline.sketch spans := by
  intro heq
  have hkind := Stmt.kindName_of_sketch heq
  cases s with
  | block | other => exact h
  | _ => simp [Stmt.kindName] at hkind

/-- Standard items with one sketch agree, as a function is no statement. -/
theorem Item.agree_of_sketch (hFG : FloatsKnown F G) (x y : Item) (h : x.Standard F)
    (h' : y.Standard G) (heq : x.outline.sketch spans = y.outline.sketch spans) :
    Agree spans Item.bare x y := by
  cases x with
  | func d =>
      cases y with
      | func d' =>
          obtain ⟨hbare, hsame⟩ := FuncDecl.agree_of_sketch hFG d d' h h' heq
          exact ⟨by rw [Item.bare, Item.bare, hbare], fun hs => by rw [hsame hs]⟩
      | stmt s => exact absurd heq.symm (Stmt.sketch_ne_func h' d)
  | stmt s =>
      cases y with
      | func d => exact absurd heq (Stmt.sketch_ne_func h d)
      | stmt s' =>
          obtain ⟨hbare, hsame⟩ := Stmt.agree_of_sketch hFG s s' h h' heq
          exact ⟨by rw [Item.bare, Item.bare, hbare], fun hs => by rw [hsame hs]⟩

/-- An item is shown as one node. -/
theorem Item.length_sketch (spans : Bool) (item : Item) :
    (item.outline.sketch spans).length = 1 := by
  cases item with
  | func d => rfl
  | stmt s => exact s.length_sketch spans

/-- Programs with standard items are known from their sketches: up to spans from those without
spans, and altogether from those with spans. -/
theorem Program.agree_of_sketch (hFG : FloatsKnown F G) {p q : Program}
    (hp : ∀ item ∈ p.items, item.Standard F) (hq : ∀ item ∈ q.items, item.Standard G)
    (heq : p.outline.sketch spans = q.outline.sketch spans) :
    Agree spans (List.map Item.bare) p.items q.items ∧ (spans = true → p.span = q.span) := by
  obtain ⟨-, -, hsp, hps⟩ := Outline.sketch_node_inj heq
  obtain ⟨hitems, -⟩ := OutlineField.sketchParts_list_inj rfl hps
  exact ⟨.of_sketchAll (Item.length_sketch spans) (fun x hx y hy =>
    Item.agree_of_sketch hFG x y (hp x hx) (hq y hy)) hitems, hsp⟩

end Pigeon

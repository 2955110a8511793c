import Pigeon.Proofs.Grammar.Delimited
import Pigeon.Proofs.Tree.Determined

/-!
# Programs are known from their printed trees

What the tokens are read as is a standard tree, so the printed tree of a program determines it. From
the text without spans the program is known up to its spans, from the text with spans altogether.
Names and strings may have any characters.
-/

namespace Pigeon

open Token (exists_cut_of_scan)

variable {F : Float → Prop}

/-! ## Floats of a tree -/

/-- All floats among the expressions satisfy `F`. -/
def Expr.FloatsIn (F : Float → Prop) (es : List Expr) : Prop := ∀ x s, Expr.float x s ∈ es → F x

namespace Expr.FloatsIn

@[simp]
theorem nil : FloatsIn F [] := nofun

/-- The floats of two lists are those of the first and those of the second one. -/
@[simp]
theorem append {es es' : List Expr} :
    FloatsIn F (es ++ es') ↔ FloatsIn F es ∧ FloatsIn F es' := by
  simp only [FloatsIn, List.mem_append]
  exact ⟨fun h => ⟨fun x s hx => h x s (.inl hx), fun x s hx => h x s (.inr hx)⟩,
    fun h x s hx => hx.elim (h.1 x s) (h.2 x s)⟩

/-- The floats of a list are that of its first expression, if it is one, and those of the others. -/
@[simp]
theorem cons {e : Expr} {es : List Expr} :
    FloatsIn F (e :: es) ↔ (∀ x s, e = .float x s → F x) ∧ FloatsIn F es := by
  simp only [FloatsIn, List.mem_cons]
  exact ⟨fun h => ⟨fun x s hx => h x s (.inl hx.symm), fun x s hx => h x s (.inr hx)⟩,
    fun h x s hx => hx.elim (fun hx => h.1 x s hx.symm) (h.2 x s)⟩

end Expr.FloatsIn

/-! ## What is read is standard -/

namespace Grammar

mutual

/-- Expressions that are read are standard, if their floats satisfy what is asked of them. -/
theorem ReadsExpr.standard : ∀ {p : Phrase} {w : List Token} {e : Expr}, ReadsExpr p w e →
    Expr.FloatsIn F e.preorder → e.Standard F
  | _, _, _, .plain h, hF => h.standard hF
  | _, _, _, .ternary hc _ hy _ hn, hF => by
      simp only [Expr.preorder, List.cons_append, Expr.FloatsIn.cons, Expr.FloatsIn.append] at hF
      exact ⟨hc.standard hF.2.1.1, hy.standard hF.2.1.2, hn.standard hF.2.2⟩
  | _, _, _, .tighter h, hF => h.standard hF
  | _, _, _, .binary hl _ hr, hF => by
      simp only [Expr.preorder, List.cons_append, Expr.FloatsIn.cons, Expr.FloatsIn.append] at hF
      exact ⟨by simp, hl.standard hF.2.1, hr.standard hF.2.2⟩
  | _, _, _, .tightest h, hF => h.standard hF
  | _, _, _, .unary _ h, hF => by
      rw [Expr.preorder, Expr.FloatsIn.cons] at hF
      exact ⟨by simp, h.standard hF.2⟩
  | _, _, _, .unsigned h, hF => h.standard hF
  | _, _, _, .int _ _, _ => trivial
  | _, _, _, .float _ _, hF => hF _ _ List.mem_cons_self
  | _, _, _, .string _, _ => trivial
  | _, _, _, .true _, _ => trivial
  | _, _, _, .false _, _ => trivial
  | _, _, _, .var _, _ => trivial
  | _, _, _, .paren _ h _, hF => by
      rw [Expr.preorder, Expr.FloatsIn.cons] at hF
      exact h.standard hF.2
  | _, _, _, .called h, hF => h.standard hF
  | _, _, _, .callNoArgs _ _ _, _ => trivial
  | _, _, _, .callArgs _ _ h _, hF => by
      rw [Expr.preorder, Expr.FloatsIn.cons] at hF
      exact h.standard hF.2

/-- The same of arguments. -/
theorem ReadsArgs.standard : ∀ {w : List Token} {es : List Expr}, ReadsArgs w es →
    Expr.FloatsIn F (Expr.preorderAll es) → Expr.StandardAll F es
  | _, _, .one h, hF => by
      simp only [Expr.preorderAll, Expr.FloatsIn.append] at hF
      exact ⟨h.standard hF.1, trivial⟩
  | _, _, .more h _ hs, hF => by
      rw [Expr.preorderAll, Expr.FloatsIn.append] at hF
      exact ⟨h.standard hF.1, hs.standard hF.2⟩

end

mutual

/-- The same of statements. -/
theorem ReadsStmt.standard : ∀ {w : List Token} {s : Stmt}, ReadsStmt w s →
    Expr.FloatsIn F s.exprs → s.Standard F
  | _, _, .declare _ _ _ h _, hF => h.standard hF
  | _, _, .assign _ _ h _, hF => ⟨by simp, h.standard hF⟩
  | _, _, .call h _, hF => h.standard hF
  | _, _, .ifThen _ hc hy, hF => by
      rw [Stmt.exprs, Expr.FloatsIn.append] at hF
      exact ⟨hc.standard hF.1, hy.standard hF.2⟩
  | _, _, .ifThenElse _ hc hy _ _ hn, hF => by
      rw [Stmt.exprs, Expr.FloatsIn.append, Expr.FloatsIn.append] at hF
      exact ⟨hc.standard hF.1.1, hy.standard hF.1.2, hn.standard hF.2⟩
  | _, _, .whileDo _ hc hb, hF => by
      rw [Stmt.exprs, Expr.FloatsIn.append] at hF
      exact ⟨hc.standard hF.1, hb.standard hF.2⟩
  | _, _, .doWhile _ hb _ hc _, hF => by
      rw [Stmt.exprs, Expr.FloatsIn.append] at hF
      exact ⟨hb.standard hF.1, hc.standard hF.2⟩
  | _, _, .forCount _ _ _ ha _ hz hb, hF => by
      rw [Stmt.exprs, Expr.FloatsIn.append, Expr.FloatsIn.append] at hF
      exact ⟨ha.standard hF.1.1, hz.standard hF.1.2, by simp, hb.standard hF.2⟩
  | _, _, .brk _ _, _ => trivial
  | _, _, .cont _ _, _ => trivial
  | _, _, .ret _ _, _ => trivial
  | _, _, .retValue _ h _, hF => h.standard hF

/-- The same of bodies. -/
theorem ReadsBlock.standard : ∀ {w : List Token} {b : Block}, ReadsBlock w b →
    Expr.FloatsIn F b.exprs → b.Standard F
  | _, _, .braced _ h _, hF => h.standard hF
  | _, _, .single h, hF => by
      simp only [Block.exprs, Stmt.exprsAll, List.append_nil] at hF
      exact ⟨h.standard hF, trivial⟩

/-- The same of statements in a row. -/
theorem ReadsStmts.standard : ∀ {w : List Token} {ss : List Stmt}, ReadsStmts w ss →
    Expr.FloatsIn F (Stmt.exprsAll ss) → Stmt.StandardAll F ss
  | _, _, .nil, _ => trivial
  | _, _, .cons h hs, hF => by
      rw [Stmt.exprsAll, Expr.FloatsIn.append] at hF
      exact ⟨h.standard hF.1, hs.standard hF.2⟩

end

/-- The same of the bodies of functions. -/
theorem ReadsFunc.standard {w : List Token} {d : FuncDecl} (h : ReadsFunc w d)
    (hF : Expr.FloatsIn F d.body.exprs) : d.body.Standard F := by
  cases h with
  | noParams _ _ _ _ hb => exact hb.standard hF
  | params _ _ _ _ _ hb => exact hb.standard hF

/-- Tokens are read as standard items. -/
theorem ReadsItems.standard {w : List Token} {items : List Item} (h : ReadsItems w items)
    {span : Option Span} {filename : Option String}
    (hF : Expr.FloatsIn F (Program.exprs ⟨items, span, filename⟩)) :
    ∀ item ∈ items, item.Standard F := by
  induction h with
  | nil => nofun
  | func hd _ ih =>
      rw [Program.exprs, List.flatMap_cons, Expr.FloatsIn.append] at hF
      exact List.forall_mem_cons.mpr ⟨hd.standard hF.1, ih hF.2⟩
  | stmt hs _ ih =>
      rw [Program.exprs, List.flatMap_cons, Expr.FloatsIn.append] at hF
      exact List.forall_mem_cons.mpr ⟨hs.standard hF.1, ih hF.2⟩

end Grammar

/-! ## Programs -/

namespace Program

variable {source source' : String} {filename filename' : Option String}
  {tokens tokens' : List Token} {p q : Program} {spans : Bool}

/-- The floats in a program, in source order. -/
def floats (p : Program) : List Float :=
  p.exprs.filterMap fun
    | .float x _ => some x
    | _ => none

/-- A float among the expressions of a program is one of its floats. -/
theorem mem_floats {x : Float} {s : Option Span} (h : .float x s ∈ p.exprs) : x ∈ p.floats :=
  List.mem_filterMap.mpr ⟨_, h, rfl⟩

/-- Programs with standard items and the same text have the same sketch. -/
theorem sketch_eq_of_text_eq {G : Float → Prop} (hp : ∀ item ∈ p.items, item.Standard F)
    (hq : ∀ item ∈ q.items, item.Standard G)
    (h : "\n".intercalate (p.lines spans) = "\n".intercalate (q.lines spans)) :
    p.outline.sketch spans = q.outline.sketch spans := by
  have htext : ∀ p : Program, ("\n".intercalate (p.lines spans)).toList =
      ['\n'].intercalate (Sketch.linesAll 0 (p.outline.sketch spans)) := by
    intro p
    rw [String.toList_intercalate]
    exact congrArg (['\n'].intercalate ·) (Outline.map_toList_lines spans p.outline 0)
  have hchars := congrArg String.toList h
  rw [htext, htext] at hchars
  obtain ⟨hsketch, -⟩ := p.sketch_legible spans hp
  obtain ⟨hsketch', -⟩ := q.sketch_legible spans hq
  refine congrArg ([·]) (Sketch.eq_of_text_eq hsketch hsketch' ?_)
  simpa [Sketch.linesAll, outline, Outline.sketch] using hchars

/-- Let source texts be read as two programs, and let the floats in them be known from their texts.
If the printed trees without spans are the same, so are the programs, up to spans. If those with
spans are the same, so are the spans. -/
theorem eq_of_printed_eq (hscan : Token.scan source = .ok tokens)
    (hread : ofTokens tokens filename = .ok p) (hscan' : Token.scan source' = .ok tokens')
    (hread' : ofTokens tokens' filename' = .ok q)
    (hfloat : ∀ x ∈ p.floats, ∀ y ∈ q.floats, Value.floatText x = Value.floatText y → x = y) :
    ("\n".intercalate (p.lines false) = "\n".intercalate (q.lines false) →
      p.bareItems = q.bareItems) ∧
    ("\n".intercalate (p.lines true) = "\n".intercalate (q.lines true) →
      p.items = q.items ∧ p.span = q.span) := by
  have hstandard : ∀ {source : String} {filename : Option String} {tokens : List Token}
      {p : Program}, Token.scan source = .ok tokens → ofTokens tokens filename = .ok p →
      ∀ item ∈ p.items, item.Standard (· ∈ p.floats) := by
    intro source filename tokens p hscan hread
    obtain ⟨pieces, last, C, rfl⟩ := exists_cut_of_scan hscan
    exact (reads_of_ofTokens rfl C.ne_eof hread).1.standard fun _ _ => mem_floats
  have hp := hstandard hscan hread
  have hq := hstandard hscan' hread'
  have hknown : FloatsKnown (· ∈ p.floats) (· ∈ q.floats) := fun x y hx => hfloat x hx y
  refine ⟨fun h => ?_, fun h => ?_⟩
  · exact (agree_of_sketch hknown hp hq (sketch_eq_of_text_eq hp hq h)).1.1
  · obtain ⟨⟨-, hitems⟩, hspan⟩ := agree_of_sketch hknown hp hq (sketch_eq_of_text_eq hp hq h)
    exact ⟨hitems rfl, hspan rfl⟩

/-- A call with a quote and a line feed in a string. -/
def callTokens : List Token :=
  [⟨.ident, "f", ⟨1, 1⟩⟩, ⟨.lparen, "(", ⟨1, 2⟩⟩, ⟨.string, "it's\n", ⟨1, 3⟩⟩,
    ⟨.comma, ",", ⟨1, 11⟩⟩, ⟨.float, "0.5", ⟨1, 13⟩⟩, ⟨.rparen, ")", ⟨1, 16⟩⟩,
    ⟨.semi, ";", ⟨1, 17⟩⟩, ⟨.eof, "", ⟨1, 18⟩⟩]

/-- The call over two lines, with one more digit. -/
def foldedTokens : List Token :=
  [⟨.ident, "f", ⟨1, 1⟩⟩, ⟨.lparen, "(", ⟨1, 2⟩⟩, ⟨.string, "it's\n", ⟨1, 3⟩⟩,
    ⟨.comma, ",", ⟨1, 11⟩⟩, ⟨.float, "0.50", ⟨2, 1⟩⟩, ⟨.rparen, ")", ⟨2, 5⟩⟩,
    ⟨.semi, ";", ⟨2, 6⟩⟩, ⟨.eof, "", ⟨2, 7⟩⟩]

/-- The tree of both, without spans. -/
def callText : String :=
  "Program\n  items:\n    CallStmt\n      call:\n        CallExpr(name='f')\n" ++
    "          args:\n            StringLiteral(value=\"it's\\n\")\n" ++
    "            FloatLiteral(value=0.5)"

/-- The same call in two layouts is printed as the same tree. -/
theorem eq_of_printed_eq_folded :
    Token.scan "f(\"it's\\n\", 0.5);" = .ok callTokens ∧
      Token.scan "f(\"it's\\n\",\n0.50);" = .ok foldedTokens ∧
      ∃ p q, ofTokens callTokens none = .ok p ∧ ofTokens foldedTokens none = .ok q ∧
        "\n".intercalate (p.lines false) = callText ∧
        "\n".intercalate (q.lines false) = callText ∧ p.bareItems = q.bareItems := by
  have hscan : Token.scan "f(\"it's\\n\", 0.5);" = .ok callTokens := by decide +kernel
  have hscan' : Token.scan "f(\"it's\\n\",\n0.50);" = .ok foldedTokens := by decide +kernel
  have hprinted : (ofTokens callTokens none).map
      (fun p => ("\n".intercalate (p.lines false), p.floats)) = .ok (callText, [0.5]) := by
    decide +kernel
  have hprinted' : (ofTokens foldedTokens none).map
      (fun p => ("\n".intercalate (p.lines false), p.floats)) = .ok (callText, [0.5]) := by
    decide +kernel
  obtain ⟨p, hread, hp⟩ := exists_of_map_eq_ok hprinted
  obtain ⟨q, hread', hq⟩ := exists_of_map_eq_ok hprinted'
  obtain ⟨htext, hfloats⟩ := Prod.mk.inj hp
  obtain ⟨htext', hfloats'⟩ := Prod.mk.inj hq
  have hfloat : ∀ x ∈ p.floats, ∀ y ∈ q.floats,
      Value.floatText x = Value.floatText y → x = y := by
    rw [hfloats, hfloats']
    simp
  have heq := (eq_of_printed_eq hscan hread hscan' hread' hfloat).1 (htext.trans htext'.symm)
  exact ⟨hscan, hscan', p, q, hread, hread', htext, htext', heq⟩

end Program

end Pigeon

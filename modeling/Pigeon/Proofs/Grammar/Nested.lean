import Pigeon.Proofs.Grammar.Delimited

/-!
# Spans nest

The tokens of a source text stand one behind the other, since no text of a token is longer than what
is written for it. A node has the span of its tokens, and its children share these out from left to
right. So the spans of the children lie in that of the node and do not overlap.
-/

namespace Pigeon

open Grammar Token

/-! ## The order of positions -/

namespace Position

/-- Earlier lines come first, and in one line earlier columns. -/
instance : Preorder Position where
  le p q := p.line < q.line ∨ p.line = q.line ∧ p.column ≤ q.column
  le_refl p := Or.inr ⟨rfl, Int.le_refl _⟩
  le_trans p q r := by omega

theorem le_def {p q : Position} :
    p ≤ q ↔ p.line < q.line ∨ p.line = q.line ∧ p.column ≤ q.column := Iff.rfl

/-- Reading characters never moves back. -/
theorem le_after (p : Position) (cs : List Char) : p ≤ p.after cs := by
  induction cs generalizing p with
  | nil => exact le_refl p
  | cons c cs ih =>
      refine le_trans ?_ (ih (p.next c))
      simp only [next, le_def]
      split
      · exact Or.inl (by simp only; omega)
      · exact Or.inr ⟨rfl, by simp only; omega⟩

/-- More characters lead further. -/
theorem behind_le_append (cs ds : List Char) : behind cs ≤ behind (cs ++ ds) := by
  rw [← first_after, ← first_after, after_append]
  exact le_after _ ds

end Position

/-! ## The order of tokens -/

namespace Token

/-- A token ends no earlier than it begins. -/
theorem position_le_stop (t : Token) : t.position ≤ t.stop :=
  Or.inr ⟨rfl, by simp only [Token.stop]; omega⟩

/-- Each token ends no later than those behind it begin. -/
def Ordered (w : List Token) : Prop :=
  w.Pairwise fun t t' => t.stop ≤ t'.position

namespace Ordered

variable {w w' : List Token}

/-- The first of two parts of tokens in order is in order. -/
theorem left (h : Ordered (w ++ w')) : Ordered w := (List.pairwise_append.mp h).1

/-- The second of two parts of tokens in order is in order. -/
theorem right (h : Ordered (w ++ w')) : Ordered w' := (List.pairwise_append.mp h).2.1

/-- Each token of the first part ends before each token of the second one begins. -/
theorem stop_le (h : Ordered (w ++ w')) {t t' : Token} (ht : t ∈ w) (ht' : t' ∈ w') :
    t.stop ≤ t'.position :=
  (List.pairwise_append.mp h).2.2 t ht t' ht'

/-- The first token begins no later than any token. -/
theorem head_le {f t : Token} (h : Ordered (f :: w)) (ht : t ∈ f :: w) :
    f.position ≤ t.position := by
  rcases List.mem_cons.mp ht with rfl | ht
  · exact le_refl _
  · exact f.position_le_stop.trans ((List.pairwise_cons.mp h).1 t ht)

/-- The last token ends no earlier than any token. -/
theorem le_last {z t : Token} (h : Ordered (w ++ [z])) (ht : t ∈ w ++ [z]) : t.stop ≤ z.stop := by
  rcases List.mem_append.mp ht with ht | ht
  · exact (h.stop_le ht (List.mem_singleton_self z)).trans z.position_le_stop
  · obtain rfl := List.mem_singleton.mp ht
    exact le_refl _

end Ordered

/-- The text of a token is at most as long as what is written for it. -/
theorem Lexes.length_le {kind : TokenKind} {text spelling rest : List Char}
    (h : Lexes kind text spelling rest) : text.length ≤ spelling.length := by
  cases h with
  | word | int | float | symbol => exact Nat.le_refl _
  | string hbody =>
      have hle := hbody.length_le
      simp only [List.length_cons, List.length_append, List.length_nil]
      omega

/-- A token ends no later than the place behind its piece of the source. -/
theorem Cut.stop_le {source last : List Char} {l r : List Piece} {x : Piece}
    (C : Cut source (l ++ x :: r) last) : x.token.stop ≤ .behind (Piece.chars (l ++ [x])) := by
  obtain ⟨-, hlexes, hposition⟩ := C.piece l x r rfl
  have hchars : Piece.chars (l ++ [x]) = Piece.chars l ++ x.before ++ x.spelling := by
    simp [Piece.chars]
  rw [hchars, Position.behind_append hlexes.newline_not_mem, ← hposition]
  have hlen := hlexes.length_le
  rw [String.length_toList] at hlen
  refine Or.inr ⟨rfl, ?_⟩
  simp only [Token.stop]
  omega

/-- The tokens of a source text are in order, and those behind a piece of it begin behind that
piece. -/
theorem Cut.ordered_behind {source last : List Char} {pieces : List Piece}
    (C : Cut source pieces last) {l r : List Piece} (hsplit : pieces = l ++ r) :
    Ordered (r.map (·.token)) ∧ ∀ x ∈ r, .behind (Piece.chars l) ≤ x.token.position := by
  induction r generalizing l with
  | nil => exact ⟨.nil, by simp⟩
  | cons x r ih =>
      subst hsplit
      obtain ⟨hordered, hbehind⟩ := ih (List.append_cons l x r)
      obtain ⟨-, -, hposition⟩ := C.piece l x r rfl
      have hstart : .behind (Piece.chars l) ≤ x.token.position := by
        rw [hposition]
        exact Position.behind_le_append _ _
      have hnext : ∀ y ∈ r, x.token.stop ≤ y.token.position := fun y hy =>
        C.stop_le.trans (hbehind y hy)
      constructor
      · refine List.Pairwise.cons (fun t ht => ?_) hordered
        obtain ⟨y, hy, rfl⟩ := List.mem_map.mp ht
        exact hnext y hy
      · rintro y (_ | ⟨_, hy⟩)
        · exact hstart
        · exact hstart.trans (x.token.position_le_stop.trans (hnext y hy))

end Token

/-! ## Families -/

/-- The span of a node, and the spans of its children in their order. -/
structure Family where
  node : Option Span
  children : List (Option Span)
  deriving DecidableEq

mutual

/-- The spans of the topmost nodes of an outline. -/
@[simp]
def Outline.tops : Outline → List (Option Span)
  | .leaf _ => []
  | .list items => Outline.topsAll items
  | .node _ _ span => [span]

/-- The spans of the topmost nodes of a list of outlines. -/
@[simp]
def Outline.topsAll : List Outline → List (Option Span)
  | [] => []
  | o :: os => o.tops ++ Outline.topsAll os

end

/-- The spans of the children of a node with the given fields. -/
@[simp]
def OutlineField.tops : List OutlineField → List (Option Span)
  | [] => []
  | .mk _ content :: fields => content.tops ++ OutlineField.tops fields

mutual

/-- All nodes in an outline, each with its children. -/
@[simp]
def Outline.families : Outline → List Family
  | .leaf _ => []
  | .list items => Outline.familiesAll items
  | .node _ fields span => ⟨span, OutlineField.tops fields⟩ :: OutlineField.families fields

/-- All nodes in a list of outlines, each with its children. -/
@[simp]
def Outline.familiesAll : List Outline → List Family
  | [] => []
  | o :: os => o.families ++ Outline.familiesAll os

/-- All nodes in the fields of a node, each with its children. -/
@[simp]
def OutlineField.families : List OutlineField → List Family
  | [] => []
  | .mk _ content :: fields => content.families ++ OutlineField.families fields

end

mutual

/-- The families of an outline are those of all of its nodes. -/
theorem Outline.map_node_families : ∀ o : Outline, o.families.map (·.node) = o.spans
  | .leaf _ => rfl
  | .list items => Outline.map_node_familiesAll items
  | .node _ fields span => congrArg (span :: ·) (OutlineField.map_node_families fields)

/-- The families of outlines are those of their nodes, in order. -/
theorem Outline.map_node_familiesAll : ∀ os : List Outline,
    (Outline.familiesAll os).map (·.node) = Outline.spansAll os
  | [] => rfl
  | o :: os => by
      rw [Outline.familiesAll, Outline.spansAll, List.map_append, o.map_node_families,
        Outline.map_node_familiesAll os]

/-- The families in fields are those of the nodes in them, in order. -/
theorem OutlineField.map_node_families : ∀ fields : List OutlineField,
    (OutlineField.families fields).map (·.node) = OutlineField.spansAll fields
  | [] => rfl
  | .mk _ content :: fields => by
      rw [OutlineField.families, OutlineField.spansAll, List.map_append, content.map_node_families,
        OutlineField.map_node_families fields]

end

section Plain

variable (name value : String) (flag : Bool) (fields : List OutlineField)

@[simp]
theorem OutlineField.tops_text : tops (.text name value :: fields) = tops fields := rfl

@[simp]
theorem OutlineField.tops_flag : tops (.flag name flag :: fields) = tops fields := rfl

@[simp]
theorem OutlineField.families_text : families (.text name value :: fields) = families fields := rfl

@[simp]
theorem OutlineField.families_flag : families (.flag name flag :: fields) = families fields := rfl

end Plain

/-- All spans are known. That of the node starts no later than it ends, those of the children lie
within it, and each of them ends no later than those behind it start. -/
def Family.Nested (f : Family) : Prop :=
  ∃ (s : Span) (ts : List Span), f = ⟨some s, ts.map some⟩ ∧ s.start ≤ s.stop ∧
    (∀ t ∈ ts, s.start ≤ t.start ∧ t.stop ≤ s.stop) ∧ ts.Pairwise fun t t' => t.stop ≤ t'.start

/-! ## Nodes among tokens -/

/-- If the tokens are in order then the topmost nodes stand among them from left to right, each from
a token to a token, and the families nest. -/
def Token.Hold (w : List Token) (tops : List (Option Span)) (families : List Family) : Prop :=
  Ordered w →
    (∃ ts : List Span, tops = ts.map some ∧ (ts.Pairwise fun t t' => t.stop ≤ t'.start) ∧
      ∀ t ∈ ts, ∃ a ∈ w, ∃ b ∈ w, t.start = a.position ∧ t.stop = b.stop) ∧
    ∀ f ∈ families, f.Nested

namespace Token.Hold

variable {w w' : List Token} {tops tops' : List (Option Span)} {families families' : List Family}

/-- Where there is no node, every list of tokens holds what there is. -/
theorem none (w : List Token) : Hold w [] [] :=
  fun _ => ⟨⟨[], rfl, .nil, by simp⟩, by simp⟩

/-- What two lists of tokens hold, they hold when one follows the other. -/
theorem append (h : Hold w tops families) (h' : Hold w' tops' families') :
    Hold (w ++ w') (tops ++ tops') (families ++ families') := by
  intro hw
  obtain ⟨⟨ts, rfl, hapart, hfrom⟩, hnested⟩ := h hw.left
  obtain ⟨⟨ts', rfl, hapart', hfrom'⟩, hnested'⟩ := h' hw.right
  constructor
  · refine ⟨ts ++ ts', List.map_append.symm, List.pairwise_append.mpr ⟨hapart, hapart', ?_⟩, ?_⟩
    · intro t ht t' ht'
      obtain ⟨-, -, b, hb, -, hstop⟩ := hfrom t ht
      obtain ⟨a, ha, -, -, hstart, -⟩ := hfrom' t' ht'
      rw [hstop, hstart]
      exact hw.stop_le hb ha
    · intro t ht
      rcases List.mem_append.mp ht with ht | ht
      · obtain ⟨a, ha, b, hb, heq⟩ := hfrom t ht
        exact ⟨a, List.mem_append_left _ ha, b, List.mem_append_left _ hb, heq⟩
      · obtain ⟨a, ha, b, hb, heq⟩ := hfrom' t ht
        exact ⟨a, List.mem_append_right _ ha, b, List.mem_append_right _ hb, heq⟩
  · intro f hf
    exact (List.mem_append.mp hf).elim (hnested f) (hnested' f)

/-- Tokens in front. -/
theorem behind (l : List Token) (h : Hold w tops families) : Hold (l ++ w) tops families :=
  (Hold.none l).append h

/-- Tokens at the end. -/
theorem before (r : List Token) (h : Hold w tops families) : Hold (w ++ r) tops families := by
  simpa using h.append (Hold.none r)

/-- What holds the children of a node holds the node, if its span is that of the tokens. -/
theorem node (hw : w ≠ []) (h : Hold w tops families) :
    Hold w [spanOf w] (⟨spanOf w, tops⟩ :: families) := by
  intro hordered
  obtain ⟨⟨ts, rfl, hapart, hfrom⟩, hnested⟩ := h hordered
  obtain ⟨f, w₁, rfl⟩ := List.exists_cons_of_ne_nil hw
  obtain ⟨w₂, z, hz⟩ : ∃ w₂ z, f :: w₁ = w₂ ++ [z] :=
    ⟨_, _, (List.dropLast_append_getLast hw).symm⟩
  have hlast : w₁.getLastD f = z := by
    rw [← List.getLastD_cons (a := f), hz, List.getLastD_concat]
  rw [spanOf_cons, hlast]
  have hf : f ∈ f :: w₁ := List.mem_cons_self
  have hzmem : z ∈ f :: w₁ := by simp [hz]
  have hstop : ∀ t ∈ f :: w₁, t.stop ≤ z.stop := fun t ht => by
    rw [hz] at hordered ht
    exact hordered.le_last ht
  refine ⟨⟨[⟨f.position, z.stop⟩], rfl, List.pairwise_singleton _ _, ?_⟩, ?_⟩
  · intro t ht
    obtain rfl := List.mem_singleton.mp ht
    exact ⟨f, hf, z, hzmem, rfl, rfl⟩
  · rintro g (_ | ⟨_, hg⟩)
    · refine ⟨_, ts, rfl, f.position_le_stop.trans (hstop f hf), fun t ht => ?_, hapart⟩
      obtain ⟨a, ha, b, hb, hstart, hend⟩ := hfrom t ht
      rw [hstart, hend]
      exact ⟨hordered.head_le ha, hstop b hb⟩
    · exact hnested g hg

/-- A node without children. -/
theorem single (hw : w ≠ []) : Hold w [spanOf w] [⟨spanOf w, []⟩] := (Hold.none w).node hw

end Token.Hold

/-! ## Readings -/

namespace Grammar

mutual

/-- The tokens of an expression hold its nodes, by induction on how it is read. -/
theorem ReadsExpr.hold : ∀ {p : Phrase} {w : List Token} {e : Expr}, ReadsExpr p w e →
    Hold w e.outline.tops e.outline.families
  | _, _, _, .plain h => h.hold
  | _, _, _, @ReadsExpr.ternary _ _ _ _ _ _ q k hc _ hy _ hn => by
      have hparts := (hc.hold.append (hy.hold.behind [q])).append (hn.hold.behind [k])
      exact .node (by simp) (by simpa using hparts)
  | _, _, _, .tighter h => h.hold
  | _, _, _, @ReadsExpr.binary _ _ _ _ _ _ t hl _ hr => by
      have hparts := hl.hold.append (hr.hold.behind [t])
      exact .node (by simp) (by simpa using hparts)
  | _, _, _, .tightest h => h.hold
  | _, _, _, @ReadsExpr.unary _ _ t _ h => .node (by simp) (by simpa using h.hold.behind [t])
  | _, _, _, .unsigned h => h.hold
  | _, _, _, .int _ _ => .single (by simp)
  | _, _, _, .float _ _ => .single (by simp)
  | _, _, _, .string _ => .single (by simp)
  | _, _, _, .true _ => .single (by simp)
  | _, _, _, .false _ => .single (by simp)
  | _, _, _, .var _ => .single (by simp)
  | _, _, _, @ReadsExpr.paren _ _ l r _ h _ =>
    .node (by simp) (by simpa using (h.hold.behind [l]).before [r])
  | _, _, _, .called h => h.hold
  | _, _, _, .callNoArgs _ _ _ => .single (by simp)
  | _, _, _, @ReadsExpr.callArgs _ _ t l r _ _ hs _ =>
    .node (by simp) (by simpa using (hs.hold.behind [t, l]).before [r])

/-- The tokens of arguments hold their nodes. -/
theorem ReadsArgs.hold : ∀ {w : List Token} {es : List Expr}, ReadsArgs w es →
    Hold w (Outline.topsAll (Expr.outlines es)) (Outline.familiesAll (Expr.outlines es))
  | _, _, .one h => by simpa [Expr.outlines] using h.hold
  | _, _, @ReadsArgs.more _ _ _ _ t h _ hs => by
      simpa [Expr.outlines] using h.hold.append (hs.hold.behind [t])

end

mutual

/-- The tokens of a statement hold its nodes, by induction on how it is read. -/
theorem ReadsStmt.hold : ∀ {w : List Token} {s : Stmt}, ReadsStmt w s →
    Hold w s.outline.tops s.outline.families
  | _, _, @ReadsStmt.declare _ _ k t a z _ _ _ h _ =>
    .node (by simp) (by simpa using (h.hold.behind [k, t, a]).before [z])
  | _, _, @ReadsStmt.assign _ _ t a z _ _ h _ =>
    .node (by simp) (by simpa using (h.hold.behind [t, a]).before [z])
  | _, _, @ReadsStmt.call _ _ z h _ => .node (by simp) (by simpa using h.hold.before [z])
  | _, _, @ReadsStmt.ifThen _ _ _ _ i _ hc hy =>
    .node (by simp) (by simpa using (hc.hold.append hy.hold).behind [i])
  | _, _, @ReadsStmt.ifThenElse _ _ _ _ _ _ i t _ hc hy _ _ hn => by
      have hparts := ((hc.hold.append hy.hold).append (hn.hold.behind [t])).behind [i]
      exact .node (by simp) (by simpa using hparts)
  | _, _, @ReadsStmt.whileDo _ _ _ _ i _ hc hb =>
    .node (by simp) (by simpa using (hc.hold.append hb.hold).behind [i])
  | _, _, @ReadsStmt.doWhile _ _ _ _ i t z _ hb _ hc _ => by
      have hparts := ((hb.hold.append (hc.hold.behind [t])).behind [i]).before [z]
      exact .node (by simp) (by simpa using hparts)
  | _, _, @ReadsStmt.forCount _ _ _ _ _ _ i t s d _ _ _ ha _ hz hb => by
      have hparts := ((ha.hold.append (hz.hold.behind [d])).append hb.hold).behind [i, t, s]
      exact .node (by simp) (by simpa using hparts)
  | _, _, .brk _ _ => .single (by simp)
  | _, _, .cont _ _ => .single (by simp)
  | _, _, .ret _ _ => .single (by simp)
  | _, _, @ReadsStmt.retValue _ _ i z _ h _ =>
    .node (by simp) (by simpa using (h.hold.behind [i]).before [z])

/-- The tokens of a body hold its nodes, with braces or without. -/
theorem ReadsBlock.hold : ∀ {w : List Token} {b : Block}, ReadsBlock w b →
    Hold w b.outline.tops b.outline.families
  | _, _, @ReadsBlock.braced _ _ l r _ hs _ =>
    .node (by simp) (by simpa using (hs.hold.behind [l]).before [r])
  | _, _, .single hs => .node hs.tokens_ne_nil (by simpa [Stmt.outlines] using hs.hold)

/-- The tokens of statements in a row hold their nodes. -/
theorem ReadsStmts.hold : ∀ {w : List Token} {ss : List Stmt}, ReadsStmts w ss →
    Hold w (Outline.topsAll (Stmt.outlines ss)) (Outline.familiesAll (Stmt.outlines ss))
  | _, _, .nil => .none []
  | _, _, .cons h hs => by simpa [Stmt.outlines] using h.hold.append hs.hold

end

/-- The tokens of parameters hold their nodes. The span of a parameter ends with its name. -/
theorem ReadsParams.hold {w : List Token} {ps : List Param} (h : ReadsParams w ps) :
    Hold w (Outline.topsAll (ps.map Param.outline)) (Outline.familiesAll (ps.map Param.outline)) := by
  induction h with
  | @one k t _ _ => simpa [Param.outline] using Hold.single (w := [k, t]) (by simp)
  | @more w ps k t c _ _ _ _ ih =>
      simpa [Param.outline] using (Hold.single (w := [k, t]) (by simp)).append (ih.behind [c])

/-- The tokens of a function hold its nodes. -/
theorem ReadsFunc.hold {w : List Token} {d : FuncDecl} (h : ReadsFunc w d) :
    Hold w d.outline.tops d.outline.families := by
  cases h with
  | @noParams b be k t l r _ _ _ _ hb =>
      exact .node (by simp) (by simpa using hb.hold.behind [k, t, l, r])
  | @params w b ps be k t l r _ _ _ hps _ hb =>
      have hparts := (hps.hold.append (hb.hold.behind [r])).behind [k, t, l]
      exact .node (by simp) (by simpa using hparts)

/-- The nodes of items share out the tokens that were read. -/
theorem ReadsItems.hold {w : List Token} {items : List Item} (h : ReadsItems w items) :
    Hold w (Outline.topsAll (items.map Item.outline))
      (Outline.familiesAll (items.map Item.outline)) := by
  induction h with
  | nil => exact .none []
  | func hd _ ih => simpa [Item.outline] using hd.hold.append ih
  | stmt hs _ ih => simpa [Item.outline] using hs.hold.append ih

end Grammar

/-! ## Programs -/

namespace Program

variable {source : String} {filename : Option String} {tokens : List Token} {p : Program}

/-- Let source text be read as a program. The span of every node starts no later than it ends. The
spans of its children, in source order, lie within it, and each ends no later than those behind it
start. -/
theorem spans_nest (hscan : Token.scan source = .ok tokens)
    (hread : ofTokens tokens filename = .ok p) :
    p.outline.families.map (·.node) = p.outline.spans ∧ ∀ f ∈ p.outline.families, f.Nested := by
  refine ⟨p.outline.map_node_families, ?_⟩
  obtain ⟨pieces, last, C, rfl⟩ := exists_cut_of_scan hscan
  obtain ⟨hitems, hspan⟩ := reads_of_ofTokens rfl C.ne_eof hread
  have hordered : Ordered (pieces.map (·.token)) := (C.ordered_behind (l := []) rfl).1
  -- without tokens the program has the span of the end of file
  obtain ⟨u, hu, hne, hspanOf, hhold⟩ : ∃ u, Ordered u ∧ u ≠ [] ∧ spanOf u = p.span ∧
      Hold u (Outline.topsAll (p.items.map Item.outline))
        (Outline.familiesAll (p.items.map Item.outline)) := by
    have hhold := hitems.hold
    generalize pieces.map (·.token) = w at *
    cases w with
    | nil => exact ⟨[_], List.pairwise_singleton _ _, by simp, hspan.symm, hhold.before [_]⟩
    | cons t w =>
        refine ⟨t :: w, hordered, by simp, ?_, hhold⟩
        rw [hspan, spanOf_cons, List.headD_cons, List.getLastD_cons]
  have hprogram := (hhold.node hne hu).2
  rw [hspanOf] at hprogram
  simpa [Program.outline] using hprogram

/-- A function with parameters and a body without braces, over two lines. -/
def nestedSource : String := "int f(int a, string b)\n  return g(\"x\\n\", -a);"

/-- Its tokens. -/
def nestedTokens : List Token :=
  [⟨.type, "int", ⟨1, 1⟩⟩, ⟨.ident, "f", ⟨1, 5⟩⟩, ⟨.lparen, "(", ⟨1, 6⟩⟩, ⟨.type, "int", ⟨1, 7⟩⟩,
    ⟨.ident, "a", ⟨1, 11⟩⟩, ⟨.comma, ",", ⟨1, 12⟩⟩, ⟨.type, "string", ⟨1, 14⟩⟩,
    ⟨.ident, "b", ⟨1, 21⟩⟩, ⟨.rparen, ")", ⟨1, 22⟩⟩, ⟨.kwReturn, "return", ⟨2, 3⟩⟩,
    ⟨.ident, "g", ⟨2, 10⟩⟩, ⟨.lparen, "(", ⟨2, 11⟩⟩, ⟨.string, "x\n", ⟨2, 12⟩⟩,
    ⟨.comma, ",", ⟨2, 17⟩⟩, ⟨.minus, "-", ⟨2, 19⟩⟩, ⟨.ident, "a", ⟨2, 20⟩⟩,
    ⟨.rparen, ")", ⟨2, 21⟩⟩, ⟨.semi, ";", ⟨2, 22⟩⟩, ⟨.eof, "", ⟨2, 23⟩⟩]

/-- Its nodes with their children. -/
def nestedFamilies : List Family :=
  let whole : Span := ⟨⟨1, 1⟩, ⟨2, 23⟩⟩
  let body : Span := ⟨⟨2, 3⟩, ⟨2, 23⟩⟩
  [⟨whole, [whole]⟩, ⟨whole, [some ⟨⟨1, 7⟩, ⟨1, 12⟩⟩, some ⟨⟨1, 14⟩, ⟨1, 22⟩⟩, body]⟩,
    ⟨some ⟨⟨1, 7⟩, ⟨1, 12⟩⟩, []⟩, ⟨some ⟨⟨1, 14⟩, ⟨1, 22⟩⟩, []⟩, ⟨body, [body]⟩,
    ⟨body, [some ⟨⟨2, 10⟩, ⟨2, 22⟩⟩]⟩,
    ⟨some ⟨⟨2, 10⟩, ⟨2, 22⟩⟩, [some ⟨⟨2, 12⟩, ⟨2, 14⟩⟩, some ⟨⟨2, 19⟩, ⟨2, 21⟩⟩]⟩,
    ⟨some ⟨⟨2, 12⟩, ⟨2, 14⟩⟩, []⟩, ⟨some ⟨⟨2, 19⟩, ⟨2, 21⟩⟩, [some ⟨⟨2, 20⟩, ⟨2, 21⟩⟩]⟩,
    ⟨some ⟨⟨2, 20⟩, ⟨2, 21⟩⟩, []⟩]

/-- Parameters, a body and arguments stand one behind the other inside the nodes around them. -/
theorem spans_nest_function :
    Token.scan nestedSource = .ok nestedTokens ∧
      ∃ p, ofTokens nestedTokens none = .ok p ∧ p.outline.families = nestedFamilies ∧
        ∀ f ∈ nestedFamilies, f.Nested := by
  have hscan : Token.scan nestedSource = .ok nestedTokens := by decide +kernel
  have hfamilies : (ofTokens nestedTokens none).map (·.outline.families) = .ok nestedFamilies := by
    decide +kernel
  obtain ⟨p, hread, hfamilies⟩ := exists_of_map_eq_ok hfamilies
  obtain ⟨-, hnested⟩ := spans_nest hscan hread
  exact ⟨hscan, p, hread, hfamilies, hfamilies ▸ hnested⟩

end Program

end Pigeon

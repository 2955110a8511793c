import Pigeon.Proofs.Tree.Flatten

/-!
# Which tree the tokens are read as

The rules of the grammar once more, now over tokens and with the tree that each rule builds. The
rule for an `if` with an `else` asks that the body before the `else` does not claim it, so tokens
are read as one tree only.

What is read is derivable (`ReadsItems.derives`), and its tokens spell the terminals of the tree
(`ReadsItems.spells`).
-/

namespace Pigeon

/-- The span from the first of some tokens to the last one. -/
def Token.spanOf (w : List Token) : Option Span :=
  match w.head?, w.getLast? with
  | some first, some last => some ⟨first.position, last.stop⟩
  | _, _ => none

/-- The span of tokens goes from the first to the end of the last. -/
theorem Token.spanOf_cons (t : Token) (w : List Token) :
    spanOf (t :: w) = some ⟨t.position, (w.getLastD t).stop⟩ := by
  rw [spanOf, List.head?_cons, List.getLast?_cons, List.getLastD_eq_getLast?]

/-- The text of the token is a numeral if its kind is that of a number. -/
def Token.Converts (t : Token) : Prop :=
  (t.kind = .int → ∃ n, Numeral.readInt t.text = .ok n) ∧
    (t.kind = .float → ∃ x, Numeral.readFloat t.text = .ok x)

/-- The end of file is no number. -/
theorem Token.converts_of_eof {t : Token} (h : t.kind = .eof) : t.Converts := by
  simp [Token.Converts, h]

namespace Grammar

open Token

mutual

/-- The tokens are read as an expression, which is a phrase of the given kind. -/
inductive ReadsExpr : Phrase → List Token → Expr → Prop
  | plain {w e} : ReadsExpr (.level precedence) w e → ReadsExpr .expr w e
  | ternary {c y n ce ye ne} {q k : Token} : ReadsExpr (.level precedence) c ce →
      q.kind = .question → ReadsExpr .expr y ye → k.kind = .colon → ReadsExpr .expr n ne →
      ReadsExpr .expr (c ++ q :: y ++ k :: n)
        (.ternary ce ye ne (spanOf (c ++ q :: y ++ k :: n)))
  | tighter {kinds levels w e} : ReadsExpr (.level levels) w e →
      ReadsExpr (.level (kinds :: levels)) w e
  | binary {kinds levels l r le re} {t : Token} : ReadsExpr (.level (kinds :: levels)) l le →
      t.kind ∈ kinds → ReadsExpr (.level levels) r re →
      ReadsExpr (.level (kinds :: levels)) (l ++ t :: r)
        (.binary (.ofSymbol t.text) le re (spanOf (l ++ t :: r)))
  | tightest {w e} : ReadsExpr .unary w e → ReadsExpr (.level []) w e
  | unary {w e} {t : Token} : t.kind ∈ unaryOperators → ReadsExpr .unary w e →
      ReadsExpr .unary (t :: w) (.unary (.ofSymbol t.text) e (spanOf (t :: w)))
  | unsigned {w e} : ReadsExpr .primary w e → ReadsExpr .unary w e
  | int {t : Token} {n} : t.kind = .int → Numeral.readInt t.text = .ok n →
      ReadsExpr .primary [t] (.int n (spanOf [t]))
  | float {t : Token} {x} : t.kind = .float → Numeral.readFloat t.text = .ok x →
      ReadsExpr .primary [t] (.float x (spanOf [t]))
  | string {t : Token} : t.kind = .string → ReadsExpr .primary [t] (.string t.text (spanOf [t]))
  | true {t : Token} : t.kind = .kwTrue → ReadsExpr .primary [t] (.bool true (spanOf [t]))
  | false {t : Token} : t.kind = .kwFalse → ReadsExpr .primary [t] (.bool false (spanOf [t]))
  | var {t : Token} : t.kind = .ident → ReadsExpr .primary [t] (.var t.text (spanOf [t]))
  | paren {w e} {l r : Token} : l.kind = .lparen → ReadsExpr .expr w e → r.kind = .rparen →
      ReadsExpr .primary (l :: w ++ [r]) (.paren e (spanOf (l :: w ++ [r])))
  | called {w e} : ReadsExpr .call w e → ReadsExpr .primary w e
  | callNoArgs {t l r : Token} : t.kind = .ident → l.kind = .lparen → r.kind = .rparen →
      ReadsExpr .call [t, l, r] (.call t.text [] (spanOf [t, l, r]))
  | callArgs {w es} {t l r : Token} : t.kind = .ident → l.kind = .lparen → ReadsArgs w es →
      r.kind = .rparen →
      ReadsExpr .call (t :: l :: w ++ [r]) (.call t.text es (spanOf (t :: l :: w ++ [r])))

/-- The tokens are read as one or more arguments. -/
inductive ReadsArgs : List Token → List Expr → Prop
  | one {w e} : ReadsExpr .expr w e → ReadsArgs w [e]
  | more {w w' e es} {t : Token} : ReadsExpr .expr w e → t.kind = .comma → ReadsArgs w' es →
      ReadsArgs (w ++ t :: w') (e :: es)

end

mutual

/-- The tokens are read as a statement. -/
inductive ReadsStmt : List Token → Stmt → Prop
  | declare {w e} {k t a z : Token} : k.kind ∈ [TokenKind.kwLet, .kwConst] → t.kind = .ident →
      a.kind = .assign → ReadsExpr .expr w e → z.kind = .semi →
      ReadsStmt (k :: t :: a :: w ++ [z])
        (.declare t.text e (k.kind = .kwConst) (spanOf (k :: t :: a :: w ++ [z])))
  | assign {w e} {t a z : Token} : t.kind = .ident → a.kind ∈ assignmentOperators →
      ReadsExpr .expr w e → z.kind = .semi →
      ReadsStmt (t :: a :: w ++ [z])
        (.assign t.text (.ofSymbol a.text) e (spanOf (t :: a :: w ++ [z])))
  | call {w e} {z : Token} : ReadsExpr .call w e → z.kind = .semi →
      ReadsStmt (w ++ [z]) (.call e (spanOf (w ++ [z])))
  | ifThen {c y ce ye} {i : Token} : i.kind = .kwIf → ReadsExpr .expr c ce → ReadsBlock y ye →
      ReadsStmt (i :: c ++ y) (.ifThen ce ye (spanOf (i :: c ++ y)))
  | ifThenElse {c y n ce ye ne} {i t : Token} : i.kind = .kwIf → ReadsExpr .expr c ce →
      ReadsBlock y ye → ¬ ye.Open → t.kind = .kwElse → ReadsBlock n ne →
      ReadsStmt (i :: c ++ y ++ t :: n) (.ifThenElse ce ye ne (spanOf (i :: c ++ y ++ t :: n)))
  | whileDo {c b ce be} {i : Token} : i.kind = .kwWhile → ReadsExpr .expr c ce → ReadsBlock b be →
      ReadsStmt (i :: c ++ b) (.whileDo ce be (spanOf (i :: c ++ b)))
  | doWhile {b c be ce} {i t z : Token} : i.kind = .kwDo → ReadsBlock b be → t.kind = .kwWhile →
      ReadsExpr .expr c ce → z.kind = .semi →
      ReadsStmt (i :: b ++ t :: c ++ [z]) (.doWhile be ce (spanOf (i :: b ++ t :: c ++ [z])))
  | forCount {a z b ae ze be} {i t s d : Token} : i.kind = .kwFor → t.kind = .ident →
      s.kind = .assign → ReadsExpr .expr a ae → d.kind ∈ [TokenKind.kwTo, .kwDownto] →
      ReadsExpr .expr z ze → ReadsBlock b be →
      ReadsStmt (i :: t :: s :: a ++ d :: z ++ b)
        (.forCount t.text ae ze (.ofWord d.text) be (spanOf (i :: t :: s :: a ++ d :: z ++ b)))
  | brk {i z : Token} : i.kind = .kwBreak → z.kind = .semi →
      ReadsStmt [i, z] (.brk (spanOf [i, z]))
  | cont {i z : Token} : i.kind = .kwContinue → z.kind = .semi →
      ReadsStmt [i, z] (.cont (spanOf [i, z]))
  | ret {i z : Token} : i.kind = .kwReturn → z.kind = .semi →
      ReadsStmt [i, z] (.ret none (spanOf [i, z]))
  | retValue {w e} {i z : Token} : i.kind = .kwReturn → ReadsExpr .expr w e → z.kind = .semi →
      ReadsStmt (i :: w ++ [z]) (.ret (some e) (spanOf (i :: w ++ [z])))

/-- The tokens are read as a body. -/
inductive ReadsBlock : List Token → Block → Prop
  | braced {w ss} {l r : Token} : l.kind = .lbrace → ReadsStmts w ss → r.kind = .rbrace →
      ReadsBlock (l :: w ++ [r]) (.mk ss true (spanOf (l :: w ++ [r])))
  | single {w s} : ReadsStmt w s → ReadsBlock w (.mk [s] false (spanOf w))

/-- The tokens are read as statements. -/
inductive ReadsStmts : List Token → List Stmt → Prop
  | nil : ReadsStmts [] []
  | cons {w w' s ss} : ReadsStmt w s → ReadsStmts w' ss → ReadsStmts (w ++ w') (s :: ss)

end

/-- The tokens are read as one or more parameters. -/
inductive ReadsParams : List Token → List Param → Prop
  | one {k t : Token} : k.kind = .type → t.kind = .ident →
      ReadsParams [k, t] [⟨t.text, k.text, spanOf [k, t]⟩]
  | more {w ps} {k t c : Token} : k.kind = .type → t.kind = .ident → c.kind = .comma →
      ReadsParams w ps →
      ReadsParams (k :: t :: c :: w) (⟨t.text, k.text, spanOf [k, t]⟩ :: ps)

/-- The tokens are read as a function declaration. -/
inductive ReadsFunc : List Token → FuncDecl → Prop
  | noParams {b be} {k t l r : Token} : k.kind = .type → t.kind = .ident → l.kind = .lparen →
      r.kind = .rparen → ReadsBlock b be →
      ReadsFunc (k :: t :: l :: r :: b)
        ⟨t.text, [], k.text, be, spanOf (k :: t :: l :: r :: b)⟩
  | params {w b ps be} {k t l r : Token} : k.kind = .type → t.kind = .ident → l.kind = .lparen →
      ReadsParams w ps → r.kind = .rparen → ReadsBlock b be →
      ReadsFunc (k :: t :: l :: w ++ r :: b)
        ⟨t.text, ps, k.text, be, spanOf (k :: t :: l :: w ++ r :: b)⟩

/-- The tokens are read as items. -/
inductive ReadsItems : List Token → List Item → Prop
  | nil : ReadsItems [] []
  | func {w w' d items} : ReadsFunc w d → ReadsItems w' items →
      ReadsItems (w ++ w') (.func d :: items)
  | stmt {w w' s items} : ReadsStmt w s → ReadsItems w' items →
      ReadsItems (w ++ w') (.stmt s :: items)

/-! ## What is read is derivable -/

mutual

/-- Tokens that are read as an expression of a phrase are derived from it. -/
theorem ReadsExpr.derives : ∀ {p : Phrase} {w : List Token} {e : Expr}, ReadsExpr p w e →
    Derives p (w.map (·.kind))
  | _, _, _, .plain h => .plain h.derives
  | _, _, _, .ternary hc hq hy hk hn => by
      simpa [hq, hk] using Derives.ternary hc.derives hy.derives hn.derives
  | _, _, _, .tighter h => .tighter h.derives
  | _, _, _, .binary hl ht hr => by
      simpa using Derives.binary hl.derives ht hr.derives
  | _, _, _, .tightest h => .tightest h.derives
  | _, _, _, .unary ht h => .unary ht h.derives
  | _, _, _, .unsigned h => .unsigned h.derives
  | _, _, _, .int ht _ => .atom (by simp [ht, atoms])
  | _, _, _, .float ht _ => .atom (by simp [ht, atoms])
  | _, _, _, .string ht => .atom (by simp [ht, atoms])
  | _, _, _, .true ht => .atom (by simp [ht, atoms])
  | _, _, _, .false ht => .atom (by simp [ht, atoms])
  | _, _, _, .var ht => .atom (by simp [ht, atoms])
  | _, _, _, .paren hl h hr => by simpa [hl, hr] using Derives.paren h.derives
  | _, _, _, .called h => .called h.derives
  | _, _, _, .callNoArgs ht hl hr => by simpa [ht, hl, hr] using Derives.callNoArgs
  | _, _, _, .callArgs ht hl h hr => by simpa [ht, hl, hr] using Derives.callArgs h.derives

/-- Tokens that are read as arguments are derived as such. -/
theorem ReadsArgs.derives : ∀ {w : List Token} {es : List Expr}, ReadsArgs w es →
    Derives .args (w.map (·.kind))
  | _, _, .one h => .arg h.derives
  | _, _, .more h ht hs => by simpa [ht] using Derives.moreArgs h.derives hs.derives

end

mutual

/-- Tokens that are read as a statement are derived as one. -/
theorem ReadsStmt.derives : ∀ {w : List Token} {s : Stmt}, ReadsStmt w s →
    Derives .stmt (w.map (·.kind))
  | _, _, .declare hk ht ha h hz => by simpa [ht, ha, hz] using Derives.declare hk h.derives
  | _, _, .assign ht ha h hz => by simpa [ht, hz] using Derives.assign ha h.derives
  | _, _, .call h hz => by simpa [hz] using Derives.callStmt h.derives
  | _, _, .ifThen hi hc hy => by simpa [hi] using Derives.ifThen hc.derives hy.derives
  | _, _, .ifThenElse hi hc hy _ ht hn => by
      simpa [hi, ht] using Derives.ifThenElse hc.derives hy.derives hn.derives
  | _, _, .whileDo hi hc hb => by simpa [hi] using Derives.whileDo hc.derives hb.derives
  | _, _, .doWhile hi hb ht hc hz => by
      simpa [hi, ht, hz] using Derives.doWhile hb.derives hc.derives
  | _, _, .forCount hi ht hs ha hd hz hb => by
      simpa [hi, ht, hs] using Derives.forCount ha.derives hd hz.derives hb.derives
  | _, _, .brk hi hz => by simpa [hi, hz] using Derives.brk
  | _, _, .cont hi hz => by simpa [hi, hz] using Derives.cont
  | _, _, .ret hi hz => by simpa [hi, hz] using Derives.ret
  | _, _, .retValue hi h hz => by simpa [hi, hz] using Derives.retValue h.derives

/-- Tokens that are read as a body are derived as one. -/
theorem ReadsBlock.derives : ∀ {w : List Token} {b : Block}, ReadsBlock w b →
    Derives .block (w.map (·.kind))
  | _, _, .braced hl h hr => by simpa [hl, hr] using Derives.braced h.derives
  | _, _, .single h => .single h.derives

/-- Tokens that are read as statements are derived as such. -/
theorem ReadsStmts.derives : ∀ {w : List Token} {ss : List Stmt}, ReadsStmts w ss →
    Derives .stmts (w.map (·.kind))
  | _, _, .nil => .noStmts
  | _, _, .cons h hs => by simpa using Derives.moreStmts h.derives hs.derives

end

/-- Tokens that are read as parameters are derived as such. -/
theorem ReadsParams.derives {w : List Token} {ps : List Param} (h : ReadsParams w ps) :
    Derives .params (w.map (·.kind)) := by
  induction h with
  | one hk ht => simpa [hk, ht] using Derives.param
  | more hk ht hc _ ih => simpa [hk, ht, hc] using Derives.moreParams ih

/-- Tokens that are read as a function are derived as one. -/
theorem ReadsFunc.derives {w : List Token} {d : FuncDecl} (h : ReadsFunc w d) :
    Derives .funcDecl (w.map (·.kind)) := by
  cases h with
  | noParams hk ht hl hr hb => simpa [hk, ht, hl, hr] using Derives.funcDecl hb.derives
  | params hk ht hl hps hr hb =>
      simpa [hk, ht, hl, hr] using Derives.funcDeclParams hps.derives hb.derives

/-- Tokens that are read as items are those of a program. -/
theorem ReadsItems.derives {w : List Token} {items : List Item} (h : ReadsItems w items) :
    Derives .program (w.map (·.kind)) := by
  induction h with
  | nil => exact .noItems
  | func hd _ ih => simpa using Derives.func hd.derives ih
  | stmt hs _ ih => simpa using Derives.topStmt hs.derives ih

/-- A statement has at least one token, since no derivation of one begins with nothing. -/
theorem ReadsStmt.tokens_ne_nil {w : List Token} {s : Stmt} (h : ReadsStmt w s) : w ≠ [] := by
  rintro rfl
  exact absurd h.derives.head (by decide)

/-- A function has at least one token. -/
theorem ReadsFunc.tokens_ne_nil {w : List Token} {d : FuncDecl} (h : ReadsFunc w d) : w ≠ [] := by
  rintro rfl
  exact absurd h.derives.head (by decide)

/-! ## The tokens spell the tree -/

/-- Arguments that are read are at least one. -/
theorem ReadsArgs.ne_nil {w : List Token} {es : List Expr} (h : ReadsArgs w es) : es ≠ [] := by
  cases h <;> simp

/-- Parameters that are read are at least one. -/
theorem ReadsParams.ne_nil {w : List Token} {ps : List Param} (h : ReadsParams w ps) :
    ps ≠ [] := by
  cases h <;> simp

/-- The tighter levels of a level of the language are levels of the language. -/
theorem Phrase.InLanguage.tail {kinds : List TokenKind} {levels : List (List TokenKind)}
    (h : (Phrase.level (kinds :: levels)).InLanguage) : (Phrase.level levels).InLanguage :=
  (List.suffix_cons kinds levels).trans h

/-- The operators of a level of the language are binary operators. -/
theorem Phrase.InLanguage.mem_precedence {kinds : List TokenKind} {levels : List (List TokenKind)}
    (h : (Phrase.level (kinds :: levels)).InLanguage) {k : TokenKind} (hk : k ∈ kinds) :
    k ∈ precedence.flatten :=
  List.mem_flatten.mpr ⟨kinds, h.subset List.mem_cons_self, hk⟩

mutual

/-- The tree that is read flattens to what the tokens spell. -/
theorem ReadsExpr.spells : ∀ {p : Phrase} {w : List Token} {e : Expr}, ReadsExpr p w e →
    p.InLanguage → Terminal.Spell e.flatten w
  | _, _, _, .plain h, _ => h.spells (List.suffix_refl _)
  | _, _, _, .ternary hc hq hy hk hn, _ =>
      .append (.append (hc.spells (List.suffix_refl _)) (.cons hq (hy.spells trivial)))
        (.cons hk (hn.spells trivial))
  | _, _, _, .tighter h, hp => h.spells hp.tail
  | _, _, _, .binary hl ht hr, hp =>
      .append (hl.spells hp) (.cons ⟨hp.mem_precedence ht, by simp⟩ (hr.spells hp.tail))
  | _, _, _, .tightest h, _ => h.spells trivial
  | _, _, _, .unary ht h, _ => .cons ⟨ht, by simp⟩ (h.spells trivial)
  | _, _, _, .unsigned h, _ => h.spells trivial
  | _, _, _, .int ht hn, _ => .cons ⟨ht, hn⟩ .nil
  | _, _, _, .float ht hx, _ => .cons ⟨ht, hx⟩ .nil
  | _, _, _, .string ht, _ => .cons ⟨ht, rfl⟩ .nil
  | _, _, _, .true ht, _ => .cons ht .nil
  | _, _, _, .false ht, _ => .cons ht .nil
  | _, _, _, .var ht, _ => .cons ⟨ht, rfl⟩ .nil
  | _, _, _, .paren hl h hr, _ => .append (.cons hl (h.spells trivial)) (.cons hr .nil)
  | _, _, _, .called h, _ => h.spells trivial
  | _, _, _, .callNoArgs ht hl hr, _ => .cons ⟨ht, rfl⟩ (.cons hl (.cons hr .nil))
  | _, _, _, .callArgs ht hl h hr, _ =>
      .append (.cons ⟨ht, rfl⟩ (.cons hl h.spells)) (.cons hr .nil)

/-- The same of arguments, with the commas between them. -/
theorem ReadsArgs.spells : ∀ {w : List Token} {es : List Expr}, ReadsArgs w es →
    Terminal.Spell (Expr.flattenArgs es) w
  | _, _, .one h => h.spells trivial
  | _, _, .more h ht hs => by
      rw [Expr.flattenArgs_cons _ hs.ne_nil]
      exact .append (h.spells trivial) (.cons ht hs.spells)

end

mutual

/-- The same of statements. -/
theorem ReadsStmt.spells : ∀ {w : List Token} {s : Stmt}, ReadsStmt w s →
    Terminal.Spell s.flatten w
  | _, _, .declare (k := k) hk ht ha h hz => by
      have hkind : k.kind = if k.kind = .kwConst then .kwConst else .kwLet := by
        rcases List.mem_pair.mp hk with hk | hk <;> simp [hk]
      refine .append (.cons ?_ (.cons ⟨ht, rfl⟩ (.cons ha (h.spells trivial)))) (.cons hz .nil)
      simpa [Terminal.SpelledBy] using hkind
  | _, _, .assign ht ha h hz =>
      .append (.cons ⟨ht, rfl⟩ (.cons ⟨ha, by simp⟩ (h.spells trivial))) (.cons hz .nil)
  | _, _, .call h hz => .append (h.spells trivial) (.cons hz .nil)
  | _, _, .ifThen hi hc hy => .append (.cons hi (hc.spells trivial)) hy.spells
  | _, _, .ifThenElse hi hc hy _ ht hn =>
      .append (.append (.cons hi (hc.spells trivial)) hy.spells) (.cons ht hn.spells)
  | _, _, .whileDo hi hc hb => .append (.cons hi (hc.spells trivial)) hb.spells
  | _, _, .doWhile hi hb ht hc hz =>
      .append (.append (.cons hi hb.spells) (.cons ht (hc.spells trivial))) (.cons hz .nil)
  | _, _, .forCount hi ht hs ha hd hz hb =>
      .append (.append (.cons hi (.cons ⟨ht, rfl⟩ (.cons hs (ha.spells trivial))))
        (.cons ⟨hd, by simp⟩ (hz.spells trivial))) hb.spells
  | _, _, .brk hi hz => .cons hi (.cons hz .nil)
  | _, _, .cont hi hz => .cons hi (.cons hz .nil)
  | _, _, .ret hi hz => .cons hi (.cons hz .nil)
  | _, _, .retValue hi h hz => .append (.cons hi (h.spells trivial)) (.cons hz .nil)

/-- The same of bodies, with their braces if there are any. -/
theorem ReadsBlock.spells : ∀ {w : List Token} {b : Block}, ReadsBlock w b →
    Terminal.Spell b.flatten w
  | _, _, .braced hl h hr => .append (.cons hl h.spells) (.cons hr .nil)
  | _, _, .single h => by simpa [Block.flatten, Stmt.flattenAll] using h.spells

/-- The same of statements in a row. -/
theorem ReadsStmts.spells : ∀ {w : List Token} {ss : List Stmt}, ReadsStmts w ss →
    Terminal.Spell (Stmt.flattenAll ss) w
  | _, _, .nil => .nil
  | _, _, .cons h hs => .append h.spells hs.spells

end

/-- The same of parameters, with the commas between them. -/
theorem ReadsParams.spells {w : List Token} {ps : List Param} (h : ReadsParams w ps) :
    Terminal.Spell (Param.flattenAll ps) w := by
  induction h with
  | one hk ht => exact .cons ⟨hk, rfl⟩ (.cons ⟨ht, rfl⟩ .nil)
  | more hk ht hc hps ih =>
      rw [Param.flattenAll_cons _ hps.ne_nil]
      exact .cons ⟨hk, rfl⟩ (.cons ⟨ht, rfl⟩ (.cons hc ih))

/-- The same of functions. -/
theorem ReadsFunc.spells {w : List Token} {d : FuncDecl} (h : ReadsFunc w d) :
    Terminal.Spell d.flatten w := by
  cases h with
  | noParams hk ht hl hr hb =>
      exact .cons ⟨hk, rfl⟩ (.cons ⟨ht, rfl⟩ (.cons hl (.cons hr hb.spells)))
  | params hk ht hl hps hr hb =>
      exact .append (.cons ⟨hk, rfl⟩ (.cons ⟨ht, rfl⟩ (.cons hl hps.spells))) (.cons hr hb.spells)

/-- Tokens that are read as items spell their terminals. -/
theorem ReadsItems.spells {w : List Token} {items : List Item} (h : ReadsItems w items) :
    Terminal.Spell (items.flatMap Item.flatten) w := by
  induction h with
  | nil => exact .nil
  | func hd _ ih => exact .append hd.spells ih
  | stmt hs _ ih => exact .append hs.spells ih

end Grammar

end Pigeon

import Pigeon.Proofs.Grammar.Decides
import Pigeon.Proofs.Step
import Pigeon.Proofs.Token.Lossless
import Pigeon.Proofs.Token.Valueless
import Pigeon.Proofs.Tree.Extent

/-!
# Spans and source text

The span of a node that was read begins where its first token begins. It ends behind as many columns
as the *text* of its last token has characters. This is where the token ends in the source text if it
is written as its text, as all tokens are but string literals: there the quotes and the marks of
escapes are missing.
-/

namespace Pigeon

open Grammar Token

/-! ## The tokens of a node -/

/-- Among the tokens `w`, which begin at the token `start`, are those of the node, and they have its
span. -/
def Extent.Within (x : Extent) (start : Nat) (w : List Token) : Prop :=
  ∃ l u r, w = l ++ u ++ r ∧ x.first = start + l.length ∧ u ≠ [] ∧
    Terminal.Spell x.terminals u ∧ x.span = spanOf u

namespace Extent.Within

variable {x : Extent} {start k : Nat} {w : List Token}

theorem whole {terminals : List Terminal} (h : Terminal.Spell terminals w) (hw : w ≠ []) :
    Within ⟨start, terminals, spanOf w⟩ start w :=
  ⟨[], w, [], by simp, rfl, hw, h, rfl⟩

/-- A node without parts. -/
theorem only {terminals : List Terminal} (h : Terminal.Spell terminals w) (hw : w ≠ []) :
    ∀ x ∈ [(⟨start, terminals, spanOf w⟩ : Extent)], x.Within start w := by
  intro x hx
  obtain rfl := List.mem_singleton.mp hx
  exact whole h hw

/-- The tokens of a node are also among more tokens. -/
theorem inside {u : List Token} (h : x.Within k u) (l r : List Token) (hw : w = l ++ u ++ r)
    (hk : k = start + l.length) : x.Within start w := by
  obtain ⟨l', u', r', rfl, hfirst, hu, hspell, hspan⟩ := h
  refine ⟨l ++ l', u', r' ++ r, ?_, ?_, hu, hspell, hspan⟩
  · rw [hw]
    simp
  · rw [hfirst, hk, List.length_append]
    omega

end Extent.Within

namespace Grammar

-- In each case the node itself has all the tokens (`Extent.Within.whole`), and the nodes of a part are
-- within the tokens of this part, which stand between the others (`Extent.Within.inside`). A part
-- begins at the number of the terminals before it, and there are as many tokens as terminals.

mutual

/-- The nodes of an expression have their extents within its tokens, by induction on how it is read.
-/
theorem ReadsExpr.within : ∀ {p : Phrase} {w : List Token} {e : Expr}, ReadsExpr p w e →
    p.InLanguage → ∀ (start : Nat), ∀ x ∈ e.extents start, x.Within start w
  | _, _, _, .plain h, _, start => h.within (List.suffix_refl _) start
  | _, _, _, @ReadsExpr.ternary c y n ce ye ne q k hc hq hy hk hn, hp, start => by
      intro x hx
      have hlen := (hc.spells (List.suffix_refl _)).length_eq
      have hlen' := (hy.spells trivial).length_eq
      simp only [Expr.extents, List.cons_append, List.mem_cons, List.mem_append, or_assoc] at hx
      rcases hx with rfl | hx | hx | hx
      · exact .whole ((ReadsExpr.ternary hc hq hy hk hn).spells hp) (by simp)
      · exact (hc.within (List.suffix_refl _) _ x hx).inside [] (q :: y ++ k :: n) (by simp) rfl
      · exact (hy.within trivial _ x hx).inside (c ++ [q]) (k :: n) (by simp)
          (by simp; omega)
      · exact (hn.within trivial _ x hx).inside (c ++ q :: y ++ [k]) [] (by simp)
          (by simp; omega)
  | _, _, _, .tighter h, hp, start => h.within hp.tail start
  | _, _, _, @ReadsExpr.binary kinds levels l r le re t hl ht hr, hp, start => by
      intro x hx
      have hlen := (hl.spells hp).length_eq
      simp only [Expr.extents, List.cons_append, List.mem_cons, List.mem_append] at hx
      rcases hx with rfl | hx | hx
      · exact .whole ((ReadsExpr.binary hl ht hr).spells hp) (by simp)
      · exact (hl.within hp _ x hx).inside [] (t :: r) (by simp) rfl
      · exact (hr.within hp.tail _ x hx).inside (l ++ [t]) [] (by simp) (by simp; omega)
  | _, _, _, .tightest h, _, start => h.within trivial start
  | _, _, _, @ReadsExpr.unary w e t ht he, hp, start => by
      intro x hx
      simp only [Expr.extents, List.mem_cons] at hx
      rcases hx with rfl | hx
      · exact .whole ((ReadsExpr.unary ht he).spells hp) (by simp)
      · exact (he.within trivial _ x hx).inside [t] [] (by simp) rfl
  | _, _, _, .unsigned h, _, start => h.within trivial start
  | _, _, _, .int ht hn, hp, _ => .only ((ReadsExpr.int ht hn).spells hp) (by simp)
  | _, _, _, .float ht hv, hp, _ => .only ((ReadsExpr.float ht hv).spells hp) (by simp)
  | _, _, _, .string ht, hp, _ => .only ((ReadsExpr.string ht).spells hp) (by simp)
  | _, _, _, .true ht, hp, _ => .only ((ReadsExpr.true ht).spells hp) (by simp)
  | _, _, _, .false ht, hp, _ => .only ((ReadsExpr.false ht).spells hp) (by simp)
  | _, _, _, .var ht, hp, _ => .only ((ReadsExpr.var ht).spells hp) (by simp)
  | _, _, _, @ReadsExpr.paren w e l r hl he hr, hp, start => by
      intro x hx
      simp only [Expr.extents, List.mem_cons] at hx
      rcases hx with rfl | hx
      · exact .whole ((ReadsExpr.paren hl he hr).spells hp) (by simp)
      · exact (he.within trivial _ x hx).inside [l] [r] (by simp) rfl
  | _, _, _, .called h, _, start => h.within trivial start
  | _, _, _, .callNoArgs ht hl hr, hp, _ =>
    .only ((ReadsExpr.callNoArgs ht hl hr).spells hp) (by simp)
  | _, _, _, @ReadsExpr.callArgs w es t l r ht hl hes hr, hp, start => by
      intro x hx
      simp only [Expr.extents, List.mem_cons] at hx
      rcases hx with rfl | hx
      · exact .whole ((ReadsExpr.callArgs ht hl hes hr).spells hp) (by simp)
      · exact (hes.within _ x hx).inside [t, l] [r] (by simp) rfl

/-- The same of arguments. -/
theorem ReadsArgs.within : ∀ {w : List Token} {es : List Expr}, ReadsArgs w es →
    ∀ (start : Nat), ∀ x ∈ Expr.extentsArgs start es, x.Within start w
  | _, _, .one h, start => by
      intro x hx
      simp only [Expr.extentsArgs, List.append_nil] at hx
      exact h.within trivial start x hx
  | _, _, @ReadsArgs.more w w' e es t h _ hs, start => by
      intro x hx
      have hlen := (h.spells trivial).length_eq
      simp only [Expr.extentsArgs, List.mem_append] at hx
      rcases hx with hx | hx
      · exact (h.within trivial _ x hx).inside [] (t :: w') (by simp) rfl
      · exact (hs.within _ x hx).inside (w ++ [t]) [] (by simp) (by simp; omega)

end

mutual

/-- The same of statements. -/
theorem ReadsStmt.within : ∀ {w : List Token} {s : Stmt}, ReadsStmt w s →
    ∀ (start : Nat), ∀ x ∈ s.extents start, x.Within start w
  | _, _, @ReadsStmt.declare w e k t a z hk ht ha he hz, start => by
      intro x hx
      simp only [Stmt.extents, List.mem_cons] at hx
      rcases hx with rfl | hx
      · exact .whole (ReadsStmt.declare hk ht ha he hz).spells (by simp)
      · exact (he.within trivial _ x hx).inside [k, t, a] [z] (by simp) rfl
  | _, _, @ReadsStmt.assign w e t a z ht ha he hz, start => by
      intro x hx
      simp only [Stmt.extents, List.mem_cons] at hx
      rcases hx with rfl | hx
      · exact .whole (ReadsStmt.assign ht ha he hz).spells (by simp)
      · exact (he.within trivial _ x hx).inside [t, a] [z] (by simp) rfl
  | _, _, @ReadsStmt.call w e z he hz, start => by
      intro x hx
      simp only [Stmt.extents, List.mem_cons] at hx
      rcases hx with rfl | hx
      · exact .whole (ReadsStmt.call he hz).spells (by simp)
      · exact (he.within trivial _ x hx).inside [] [z] (by simp) rfl
  | _, _, @ReadsStmt.ifThen c y ce ye i hi hc hy, start => by
      intro x hx
      have hlen := (hc.spells trivial).length_eq
      simp only [Stmt.extents, List.cons_append, List.mem_cons, List.mem_append] at hx
      rcases hx with rfl | hx | hx
      · exact .whole (ReadsStmt.ifThen hi hc hy).spells (by simp)
      · exact (hc.within trivial _ x hx).inside [i] y (by simp) rfl
      · exact (hy.within _ x hx).inside (i :: c) [] (by simp) (by simp; omega)
  | _, _, @ReadsStmt.ifThenElse c y n ce ye ne i t hi hc hy hopen ht hn, start => by
      intro x hx
      have hlen := (hc.spells trivial).length_eq
      have hlen' := hy.spells.length_eq
      simp only [Stmt.extents, List.cons_append, List.mem_cons, List.mem_append, or_assoc] at hx
      rcases hx with rfl | hx | hx | hx
      · exact .whole (ReadsStmt.ifThenElse hi hc hy hopen ht hn).spells (by simp)
      · exact (hc.within trivial _ x hx).inside [i] (y ++ t :: n) (by simp) rfl
      · exact (hy.within _ x hx).inside (i :: c) (t :: n) (by simp) (by simp; omega)
      · exact (hn.within _ x hx).inside (i :: c ++ y ++ [t]) [] (by simp) (by simp; omega)
  | _, _, @ReadsStmt.whileDo c b ce be i hi hc hb, start => by
      intro x hx
      have hlen := (hc.spells trivial).length_eq
      simp only [Stmt.extents, List.cons_append, List.mem_cons, List.mem_append] at hx
      rcases hx with rfl | hx | hx
      · exact .whole (ReadsStmt.whileDo hi hc hb).spells (by simp)
      · exact (hc.within trivial _ x hx).inside [i] b (by simp) rfl
      · exact (hb.within _ x hx).inside (i :: c) [] (by simp) (by simp; omega)
  | _, _, @ReadsStmt.doWhile b c be ce i t z hi hb ht hc hz, start => by
      intro x hx
      have hlen := hb.spells.length_eq
      simp only [Stmt.extents, List.cons_append, List.mem_cons, List.mem_append] at hx
      rcases hx with rfl | hx | hx
      · exact .whole (ReadsStmt.doWhile hi hb ht hc hz).spells (by simp)
      · exact (hb.within _ x hx).inside [i] (t :: c ++ [z]) (by simp) rfl
      · exact (hc.within trivial _ x hx).inside (i :: b ++ [t]) [z] (by simp) (by simp; omega)
  | _, _, @ReadsStmt.forCount a z b ae ze be i t s d hi ht hs ha hd hz hb, start => by
      intro x hx
      have hlen := (ha.spells trivial).length_eq
      have hlen' := (hz.spells trivial).length_eq
      simp only [Stmt.extents, List.cons_append, List.mem_cons, List.mem_append, or_assoc] at hx
      rcases hx with rfl | hx | hx | hx
      · exact .whole (ReadsStmt.forCount hi ht hs ha hd hz hb).spells (by simp)
      · exact (ha.within trivial _ x hx).inside [i, t, s] (d :: z ++ b) (by simp) rfl
      · exact (hz.within trivial _ x hx).inside (i :: t :: s :: a ++ [d]) b (by simp)
          (by simp; omega)
      · exact (hb.within _ x hx).inside (i :: t :: s :: a ++ d :: z) [] (by simp)
          (by simp; omega)
  | _, _, .brk hi hz, _ => .only (ReadsStmt.brk hi hz).spells (by simp)
  | _, _, .cont hi hz, _ => .only (ReadsStmt.cont hi hz).spells (by simp)
  | _, _, .ret hi hz, _ => .only (ReadsStmt.ret hi hz).spells (by simp)
  | _, _, @ReadsStmt.retValue w e i z hi he hz, start => by
      intro x hx
      simp only [Stmt.extents, List.mem_cons] at hx
      rcases hx with rfl | hx
      · exact .whole (ReadsStmt.retValue hi he hz).spells (by simp)
      · exact (he.within trivial _ x hx).inside [i] [z] (by simp) rfl

/-- The same of bodies. -/
theorem ReadsBlock.within : ∀ {w : List Token} {b : Block}, ReadsBlock w b →
    ∀ (start : Nat), ∀ x ∈ b.extents start, x.Within start w
  | _, _, @ReadsBlock.braced w ss l r hl hs hr, start => by
      intro x hx
      simp only [Block.extents, List.mem_cons] at hx
      rcases hx with rfl | hx
      · exact .whole (ReadsBlock.braced hl hs hr).spells (by simp)
      · exact (hs.within _ x hx).inside [l] [r] (by simp) rfl
  | _, _, @ReadsBlock.single w s hs, start => by
      intro x hx
      simp only [Block.extents, Stmt.extentsAll, List.append_nil, List.mem_cons] at hx
      rcases hx with rfl | hx
      · exact .whole (ReadsBlock.single hs).spells hs.tokens_ne_nil
      · exact hs.within _ x hx

/-- The same of statements in a row. -/
theorem ReadsStmts.within : ∀ {w : List Token} {ss : List Stmt}, ReadsStmts w ss →
    ∀ (start : Nat), ∀ x ∈ Stmt.extentsAll start ss, x.Within start w
  | _, _, .nil, _ => fun _ hx => absurd hx List.not_mem_nil
  | _, _, @ReadsStmts.cons w w' s ss hs hss, start => by
      intro x hx
      have hlen := hs.spells.length_eq
      simp only [Stmt.extentsAll, List.mem_append] at hx
      rcases hx with hx | hx
      · exact (hs.within _ x hx).inside [] w' (by simp) rfl
      · exact (hss.within _ x hx).inside w [] (by simp) (by omega)

end

/-- A type and a name spell a parameter. -/
theorem spell_param {k t : Token} (hk : k.kind = .type) (ht : t.kind = .ident) :
    Terminal.Spell [.type k.text, .name t.text] [k, t] :=
  .cons ⟨hk, rfl⟩ (.cons ⟨ht, rfl⟩ .nil)

/-- The same of parameters. -/
theorem ReadsParams.within {w : List Token} {ps : List Param} (h : ReadsParams w ps)
    (start : Nat) : ∀ x ∈ Param.extentsAll start ps, x.Within start w := by
  induction h generalizing start with
  | one hk ht => exact .only (spell_param hk ht) (by simp)
  | @more w ps k t c hk ht _ _ ih =>
      intro x hx
      simp only [Param.extentsAll, List.mem_cons] at hx
      rcases hx with rfl | hx
      · exact (Extent.Within.whole (spell_param hk ht) (by simp)).inside [] (c :: w) (by simp) rfl
      · exact (ih _ x hx).inside [k, t, c] [] (by simp) rfl

/-- The same of functions. -/
theorem ReadsFunc.within {w : List Token} {d : FuncDecl} (h : ReadsFunc w d) (start : Nat) :
    ∀ x ∈ d.extents start, x.Within start w := by
  have hspell := h.spells
  intro x hx
  simp only [FuncDecl.extents, List.cons_append, List.mem_cons, List.mem_append] at hx
  cases h with
  | @noParams b be k t l r hk ht hl hr hb =>
      rcases hx with rfl | hx | hx
      · exact .whole hspell (by simp)
      · exact absurd hx List.not_mem_nil
      · exact (hb.within _ x hx).inside [k, t, l, r] [] (by simp) rfl
  | @params w b ps be k t l r hk ht hl hps hr hb =>
      have hlen := hps.spells.length_eq
      rcases hx with rfl | hx | hx
      · exact .whole hspell (by simp)
      · exact (hps.within _ x hx).inside [k, t, l] (r :: b) (by simp) rfl
      · exact (hb.within _ x hx).inside (k :: t :: l :: w ++ [r]) [] (by simp) (by simp; omega)

/-- The same of the items of a program. -/
theorem ReadsItems.within {w : List Token} {items : List Item} (h : ReadsItems w items)
    (start : Nat) : ∀ x ∈ Item.extentsAll start items, x.Within start w := by
  induction h generalizing start with
  | nil => exact fun _ hx => absurd hx List.not_mem_nil
  | @func w w' d items hd _ ih =>
      intro x hx
      have hlen := hd.spells.length_eq
      simp only [Item.extentsAll, Item.extents, Item.flatten, List.mem_append] at hx
      rcases hx with hx | hx
      · exact (hd.within _ x hx).inside [] w' (by simp) rfl
      · exact (ih _ x hx).inside w [] (by simp) (by omega)
  | @stmt w w' s items hs _ ih =>
      intro x hx
      have hlen := hs.spells.length_eq
      simp only [Item.extentsAll, Item.extents, Item.flatten, List.mem_append] at hx
      rcases hx with hx | hx
      · exact (hs.within _ x hx).inside [] w' (by simp) rfl
      · exact (ih _ x hx).inside w [] (by simp) (by omega)

/-- There are no items without tokens. -/
theorem ReadsItems.ne_nil {w : List Token} {items : List Item} (h : ReadsItems w items)
    (hitems : items ≠ []) : w ≠ [] := by
  cases h with
  | nil => exact absurd rfl hitems
  | func hd _ => exact List.append_ne_nil_of_left_ne_nil hd.tokens_ne_nil _
  | stmt hs _ => exact List.append_ne_nil_of_left_ne_nil hs.tokens_ne_nil _

end Grammar

namespace Program

variable {ts : List Token} {eof : Token} {filename : Option String} {p : Program}

/-- The tokens before the end of file are those of the items, and the program has their span. Without
any, it has the span of the end of file. -/
theorem reads_of_ofTokens (heof : eof.kind = .eof) (hts : ∀ t ∈ ts, t.kind ≠ .eof)
    (h : ofTokens (ts ++ [eof]) filename = .ok p) :
    ReadsItems ts p.items ∧
      p.span = some ⟨(ts.headD eof).position, (ts.getLastD eof).stop⟩ := by
  have hitems := readsItems_of_ofTokens heof hts h
  refine ⟨hitems, ?_⟩
  -- the reader ends at the end of file, with the token before it as the last one
  obtain ⟨c, hpass, hc⟩ := Cursor.passes_ofTokens [] eof hts
  rcases hitems.leads_program filename hpass (hc ▸ heof) _ with hdeep | hok
  · cases h.symm.trans (ofTokens_eq_error_iff.mpr hdeep)
  · have hp := Except.ok.inj (h.symm.trans (ofTokens_eq_ok_iff.mpr ⟨c, hok⟩))
    rw [hp, hpass.last]
    cases ts <;> rfl

/-- The nodes of a program that was read have the spans of their tokens. -/
theorem within_of_ofTokens (heof : eof.kind = .eof) (hts : ∀ t ∈ ts, t.kind ≠ .eof)
    (h : ofTokens (ts ++ [eof]) filename = .ok p) (hp : p.items ≠ []) :
    ∀ x ∈ p.extents, x.Within 0 ts := by
  obtain ⟨hitems, hspan⟩ := reads_of_ofTokens heof hts h
  have hne := hitems.ne_nil hp
  intro x hx
  simp only [Program.extents, List.mem_cons] at hx
  rcases hx with rfl | hx
  · obtain ⟨t, w, rfl⟩ := List.exists_cons_of_ne_nil hne
    rw [hspan, List.headD_cons, List.getLastD_cons, ← spanOf_cons]
    exact .whole hitems.spells hne
  · exact hitems.within 0 x hx

end Program

/-! ## Lexemes in the source text -/

/-- Inside a line the column counts the characters. -/
theorem Position.behind_append {cs ds : List Char} (h : '\n' ∉ ds) :
    behind (cs ++ ds) = ⟨(behind cs).line, (behind cs).column + ds.length⟩ := by
  have hafter : ∀ {p : Position} {ds : List Char}, '\n' ∉ ds →
      p.after ds = ⟨p.line, p.column + ds.length⟩ := by
    intro p ds h
    induction ds generalizing p with
    | nil => simp
    | cons d ds ih =>
        have hd : d ≠ '\n' := (List.ne_of_not_mem_cons h).symm
        rw [after_cons, ih (List.not_mem_of_not_mem_cons h), next, if_neg hd, List.length_cons]
        simp only [Position.mk.injEq, true_and]
        omega
  rw [← first_after, after_append, first_after, hafter h]

namespace Token

variable {kind : TokenKind} {text spelling rest : List Char}

/-- The body of a string literal has no line break in it. -/
theorem Decodes.newline_not_mem {body text : List Char} (h : Decodes body text) :
    '\n' ∉ body := by
  induction h with
  | nil => exact List.not_mem_nil
  | plain hc _ ih =>
      refine List.not_mem_cons_of_ne_of_not_mem ?_ ih
      rintro rfl
      exact absurd hc (by decide)
  | escape he _ ih =>
      refine List.not_mem_cons_of_ne_of_not_mem (by decide)
        (List.not_mem_cons_of_ne_of_not_mem ?_ ih)
      rintro rfl
      cases he

/-- Decoding makes no text longer. -/
theorem Decodes.length_le {body text : List Char} (h : Decodes body text) :
    text.length ≤ body.length := by
  induction h with
  | nil => exact Nat.le_refl _
  | plain _ _ ih => exact Nat.succ_le_succ ih
  | escape _ _ ih =>
      simp only [List.length_cons]
      omega

/-- A lexeme stands in one line. -/
theorem Lexes.newline_not_mem (h : Lexes kind text spelling rest) : '\n' ∉ spelling := by
  -- a line break is no letter, no digit and in no symbol, and a string literal ends before it
  have hsymbols : ∀ s ∈ symbols, '\n' ∉ s.1 := by decide
  intro hmem
  cases h with
  | word hc hcs =>
      rcases List.mem_cons.mp hmem with rfl | hmem
      · exact absurd hc (by decide)
      · exact absurd (hcs _ hmem) (by decide)
  | int _ hdigits => exact absurd (hdigits _ hmem) (by decide)
  | float _ hwhole _ hfraction =>
      rcases List.mem_append.mp hmem with hmem | hmem
      · exact absurd (hwhole _ hmem) (by decide)
      · rcases List.mem_cons.mp hmem with hdot | hmem
        · exact absurd hdot (by decide)
        · exact absurd (hfraction _ hmem) (by decide)
  | string hbody =>
      simp only [List.mem_cons, List.mem_append, List.not_mem_nil, or_false] at hmem
      rcases hmem with hquote | hmem | hquote
      · exact absurd hquote (by decide)
      · exact hbody.newline_not_mem hmem
      · exact absurd hquote (by decide)
  | symbol hsymbol => exact hsymbols _ hsymbol hmem

/-- A lexeme is as long as its text, string literals apart. -/
theorem Lexes.length_eq_iff (h : Lexes kind text spelling rest) :
    text.length = spelling.length ↔ kind ≠ .string := by
  cases h with
  | @word c cs =>
      refine ⟨fun _ => ?_, fun _ => rfl⟩
      rcases wordKind_mem (String.ofList (c :: cs)) with hmem | hident
      · exact (keywords_kind _ hmem).2
      · rw [hident]
        decide
  | int | float => exact ⟨fun _ => by decide, fun _ => rfl⟩
  | string hbody =>
      -- escapes only make the spelling longer, and the quotes are not in the text
      have hle := hbody.length_le
      refine ⟨fun hlen => ?_, fun hne => absurd rfl hne⟩
      simp only [List.length_cons, List.length_append, List.length_nil] at hlen
      omega
  | symbol hmem => exact ⟨fun _ => (symbols_kind _ hmem).2, fun _ => rfl⟩

/-- The source text is made of pieces, and of trivia behind them. Each piece is trivia and the lexeme
of its token, which has the position of its first character. -/
structure Cut (source : List Char) (pieces : List Piece) (last : List Char) : Prop where
  source_eq : source = Piece.chars pieces ++ last
  closing : Closing last
  piece : ∀ l x r, pieces = l ++ x :: r → Trivia x.before ∧
    Lexes x.token.kind x.token.text.toList x.spelling (Piece.chars r ++ last) ∧
    x.token.position = .behind (Piece.chars l ++ x.before)

/-- No token of a piece is the end of file. -/
theorem Cut.ne_eof {source last : List Char} {pieces : List Piece} (C : Cut source pieces last) :
    ∀ t ∈ pieces.map (·.token), t.kind ≠ .eof := by
  intro t ht
  obtain ⟨x, hx, rfl⟩ := List.mem_map.mp ht
  obtain ⟨l, r, hsplit⟩ := List.append_of_mem hx
  exact (C.piece l x r hsplit).2.1.ne_eof

/-- The source text of a scan that succeeds is cut by its tokens. -/
theorem exists_cut_of_scan {source : String} {tokens : List Token} (h : scan source = .ok tokens) :
    ∃ pieces last, Cut source.toList pieces last ∧
      tokens = pieces.map (·.token) ++ [⟨.eof, "", .behind source.toList⟩] := by
  obtain ⟨pieces, last, hsource, hlast, htokens, hpieces⟩ :=
    scanFrom_lossless (Nat.lt_succ_self _) h
  refine ⟨pieces, last, ⟨hsource, hlast, fun l x r hsplit => ?_⟩, ?_⟩
  · obtain ⟨htrivia, hlexes, hpos⟩ := hpieces l x r hsplit
    exact ⟨htrivia, hlexes, by rw [hpos, Position.first_after]⟩
  · rw [htokens, Position.first_after]

end Token

/-! ## Spans -/

/-- What the span of a node says about the source text, where its tokens are the pieces `u` behind
the pieces `l`. It begins at the first character of the first one, and it ends behind the last
character of the last one if and only if this is no string literal. -/
def Extent.Delimits (x : Extent) (pieces : List Piece) : Prop :=
  ∃ l u r, pieces = l ++ u ++ r ∧ l.length = x.first ∧
    Terminal.Spell x.terminals (u.map (·.token)) ∧
    ∃ f z s, u.head? = some f ∧ u.getLast? = some z ∧ x.span = some s ∧
      s.start = .behind (Piece.chars l ++ f.before) ∧
      (s.stop = .behind (Piece.chars (l ++ u)) ↔ z.token.kind ≠ .string)

/-- The span of tokens delimits their text as far as the last one is written as its text. -/
theorem Extent.Within.delimits {x : Extent} {source : List Char} {pieces : List Piece}
    {last : List Char} (h : x.Within 0 (pieces.map (·.token))) (C : Cut source pieces last) :
    x.Delimits pieces := by
  obtain ⟨_, _, _, hsplit, hfirst, hu, hspell, hspan⟩ := h
  simp only [List.map_eq_append_iff] at hsplit
  obtain ⟨_, r, rfl, ⟨l, u, rfl, rfl, rfl⟩, rfl⟩ := hsplit
  have hu : u ≠ [] := mt List.map_eq_nil_iff.mpr hu
  have hhead := List.head?_eq_some_head hu
  have hlast := List.getLast?_eq_some_getLast hu
  generalize u.head hu = f at hhead
  generalize u.getLast hu = z at hlast
  -- the first piece and the last one, each with what stands before it
  obtain ⟨u₁, rfl⟩ := List.head?_eq_some_iff.mp hhead
  obtain ⟨-, -, hstart⟩ := C.piece l f (u₁ ++ r) (by simp)
  obtain ⟨u₂, hu₂⟩ := List.getLast?_eq_some_iff.mp hlast
  obtain ⟨-, hlexes, hposition⟩ := C.piece (l ++ u₂) z r (by rw [hu₂]; simp)
  have hend : Position.behind (Piece.chars (l ++ f :: u₁)) =
      ⟨z.token.position.line, z.token.position.column + z.spelling.length⟩ := by
    have hchars : Piece.chars (l ++ f :: u₁) =
        Piece.chars (l ++ u₂) ++ z.before ++ z.spelling := by
      rw [hu₂]
      simp [Piece.chars]
    rw [hchars, Position.behind_append hlexes.newline_not_mem, ← hposition]
  have hstop : z.token.stop = .behind (Piece.chars (l ++ f :: u₁)) ↔ z.token.kind ≠ .string := by
    rw [hend, ← hlexes.length_eq_iff, String.length_toList]
    simp only [Token.stop, Position.mk.injEq, true_and]
    omega
  refine ⟨l, f :: u₁, r, rfl, by simpa using hfirst.symm, hspell, f, z,
    ⟨f.token.position, z.token.stop⟩, hhead, hlast, ?_, hstart, hstop⟩
  rw [hspan, spanOf, List.head?_map, List.getLast?_map, hhead, hlast]
  rfl

namespace Program

variable {source : String} {filename : Option String} {tokens : List Token} {p : Program}

/-- Let source text be read as a program with an item. The text is cut by its tokens. Every node of
the program has an extent there, with a span that begins with the first character of the node's
first token; and it ends behind the last character of the last token exactly if that one is no
string literal. -/
theorem spans_delimit_text (hscan : Token.scan source = .ok tokens)
    (hread : ofTokens tokens filename = .ok p) (hp : p.items ≠ []) :
    ∃ pieces last, Cut source.toList pieces last ∧
      tokens = pieces.map (·.token) ++ [⟨.eof, "", .behind source.toList⟩] ∧
      p.extents.map (·.span) = p.outline.spans ∧ ∀ x ∈ p.extents, x.Delimits pieces := by
  obtain ⟨pieces, last, C, rfl⟩ := exists_cut_of_scan hscan
  refine ⟨pieces, last, C, rfl, p.map_span_extents, fun x hx => ?_⟩
  exact (within_of_ofTokens rfl C.ne_eof hread hp x hx).delimits C

/-- A program with string literals inside and at the end of nodes, over two lines. -/
def quotingSource : String := "let s = \"a\\n\" +\n  (\"b\");"

/-- Its tokens. -/
def quotingTokens : List Token :=
  [⟨.kwLet, "let", ⟨1, 1⟩⟩, ⟨.ident, "s", ⟨1, 5⟩⟩, ⟨.assign, "=", ⟨1, 7⟩⟩,
    ⟨.string, "a\n", ⟨1, 9⟩⟩, ⟨.plus, "+", ⟨1, 15⟩⟩, ⟨.lparen, "(", ⟨2, 3⟩⟩,
    ⟨.string, "b", ⟨2, 4⟩⟩, ⟨.rparen, ")", ⟨2, 7⟩⟩, ⟨.semi, ";", ⟨2, 8⟩⟩, ⟨.eof, "", ⟨2, 9⟩⟩]

/-- Its nodes are delimited by their spans, as far as the strings allow. -/
theorem spans_delimit_text_quoting :
    Token.scan quotingSource = .ok quotingTokens ∧
      ∃ p pieces, ofTokens quotingTokens none = .ok p ∧
        p.extents.map (·.span) = [some ⟨⟨1, 1⟩, ⟨2, 9⟩⟩, some ⟨⟨1, 1⟩, ⟨2, 9⟩⟩,
          some ⟨⟨1, 9⟩, ⟨2, 8⟩⟩, some ⟨⟨1, 9⟩, ⟨1, 11⟩⟩, some ⟨⟨2, 3⟩, ⟨2, 8⟩⟩,
          some ⟨⟨2, 4⟩, ⟨2, 5⟩⟩] ∧ ∀ x ∈ p.extents, x.Delimits pieces := by
  have hscan : Token.scan quotingSource = .ok quotingTokens := by decide +kernel
  have hspans : (ofTokens quotingTokens none).map (·.extents.map (·.span)) = .ok [
      some ⟨⟨1, 1⟩, ⟨2, 9⟩⟩, some ⟨⟨1, 1⟩, ⟨2, 9⟩⟩, some ⟨⟨1, 9⟩, ⟨2, 8⟩⟩,
      some ⟨⟨1, 9⟩, ⟨1, 11⟩⟩, some ⟨⟨2, 3⟩, ⟨2, 8⟩⟩, some ⟨⟨2, 4⟩, ⟨2, 5⟩⟩] := by
    decide +kernel
  obtain ⟨p, hread, hspans⟩ := exists_of_map_eq_ok hspans
  have hp : p.items ≠ [] := by
    intro hnil
    rw [extents, hnil] at hspans
    have hlength : 1 = 6 := congrArg List.length hspans
    omega
  obtain ⟨pieces, -, -, -, -, hdelimits⟩ := spans_delimit_text hscan hread hp
  exact ⟨hscan, p, pieces, hread, hspans, hdelimits⟩

/-- The pieces of a call with a string. -/
def quotedPieces : List Piece :=
  [("print", .ident, "print", 1), ("(", .lparen, "(", 6), ("\"a\"", .string, "a", 7),
    (")", .rparen, ")", 10), (";", .semi, ";", 11)].map fun (spelling, kind, text, column) =>
      ⟨[], spelling.toList, ⟨kind, text, ⟨1, column⟩⟩⟩

/-- The span of the string ends before its text does. -/
theorem spans_delimit_text_fails :
    "print(\"a\");".toList = Piece.chars quotedPieces ∧
      Token.scan "print(\"a\");" =
        .ok (quotedPieces.map (·.token) ++ [⟨.eof, "", ⟨1, 12⟩⟩]) ∧
      ∃ p x, ofTokens (quotedPieces.map (·.token) ++ [⟨.eof, "", ⟨1, 12⟩⟩]) none = .ok p ∧
        x ∈ p.extents ∧ x.first = 2 ∧ x.terminals.length = 1 ∧
        x.span = some ⟨⟨1, 7⟩, ⟨1, 8⟩⟩ ∧
        .behind (Piece.chars (quotedPieces.take 3)) = (⟨1, 10⟩ : Position) := by
  have hextents : (ofTokens (quotedPieces.map (·.token) ++ [⟨.eof, "", ⟨1, 12⟩⟩]) none).map
      (·.extents.map fun x => (x.first, x.terminals.length, x.span)) = .ok [
        (0, 5, some ⟨⟨1, 1⟩, ⟨1, 12⟩⟩), (0, 5, some ⟨⟨1, 1⟩, ⟨1, 12⟩⟩),
        (0, 4, some ⟨⟨1, 1⟩, ⟨1, 11⟩⟩), (2, 1, some ⟨⟨1, 7⟩, ⟨1, 8⟩⟩)] := by
    decide +kernel
  obtain ⟨p, hread, hextents⟩ := exists_of_map_eq_ok hextents
  obtain ⟨x, hx, hfields⟩ : ∃ x ∈ p.extents,
      (x.first, x.terminals.length, x.span) = (2, 1, some ⟨⟨1, 7⟩, ⟨1, 8⟩⟩) := by
    apply List.mem_map.mp
    rw [hextents]
    decide
  simp only [Prod.mk.injEq] at hfields
  obtain ⟨hfirst, hterminals, hspan⟩ := hfields
  exact ⟨by decide +kernel, by decide +kernel, p, x, hread, hx, hfirst, hterminals, hspan,
    by decide +kernel⟩

end Program

end Pigeon

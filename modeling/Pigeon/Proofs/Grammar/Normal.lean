import Pigeon.Proofs.Grammar.Plain
import Pigeon.Proofs.Grammar.Reading

/-!
# Normal trees are read back

Genuine tokens that spell the terminals of a normal tree are read as that tree, up to its spans.
An expression is read at the place that its own operator has among the levels, and from there at
every looser place.
-/

namespace Pigeon

open Grammar Token

/-! ## Terminals and their tokens -/

/-- Tokens that spell two lists of terminals are split between them. -/
theorem Terminal.Spell.append_iff {ts ts' : List Terminal} {w : List Token} :
    Spell (ts ++ ts') w ↔ ∃ w₁ w₂, Spell ts w₁ ∧ Spell ts' w₂ ∧ w = w₁ ++ w₂ := by
  constructor
  · intro h
    induction ts generalizing w with
    | nil => exact ⟨[], w, .nil, h, rfl⟩
    | cons t ts ih =>
        obtain ⟨b, w', hb, hw', rfl⟩ := List.forall₂_cons_left_iff.mp h
        obtain ⟨w₁, w₂, h₁, h₂, rfl⟩ := ih hw'
        exact ⟨b :: w₁, w₂, .cons hb h₁, h₂, rfl⟩
  · rintro ⟨w₁, w₂, h₁, h₂, rfl⟩
    exact h₁.append h₂

/-- A genuine token with the symbol of a binary operator has the kind of its level. -/
theorem Token.Genuine.binOp_kind {t : Token} (h : t.Genuine) {op : BinOp} (hop : op ∈ BinOp.all)
    (hkind : t.kind ∈ precedence.flatten) (htext : t.text = op.symbol) :
    t.kind ∈ precedence.getD (op.tightness - 1) [] := by
  have hsub : ∀ k ∈ precedence.flatten, k ∈ symbols.map (·.2) := by decide
  have hall : ∀ op ∈ BinOp.all, ∀ s ∈ symbols, s.2 ∈ precedence.flatten →
      String.ofList s.1 = op.symbol → s.2 ∈ precedence.getD (op.tightness - 1) [] := by decide
  obtain ⟨spelling, hspelling, hmem⟩ := h.symbol (hsub _ hkind)
  exact hall op hop _ hmem hkind (hspelling.symm.trans htext)

/-- A binary operator of the language is the one that its symbol stands for. -/
theorem BinOp.ofSymbol_symbol {op : BinOp} (h : op ∈ BinOp.all) : ofSymbol op.symbol = op :=
  (by decide : ∀ op ∈ BinOp.all, ofSymbol op.symbol = op) op h

/-- A unary operator of the language is the one that its symbol stands for. -/
theorem UnOp.ofSymbol_symbol {op : UnOp} (h : op ∈ UnOp.all) : ofSymbol op.symbol = op :=
  (by decide : ∀ op ∈ UnOp.all, ofSymbol op.symbol = op) op h

/-- An assignment operator of the language is the one that its symbol stands for. -/
theorem AssignOp.ofSymbol_symbol {op : AssignOp} (h : op ∈ AssignOp.all) :
    ofSymbol op.symbol = op :=
  (by decide : ∀ op ∈ AssignOp.all, ofSymbol op.symbol = op) op h

/-- A direction of the language is the one that its word stands for. -/
theorem Direction.ofWord_word {d : Direction} (h : d ∈ [Direction.up, .down]) :
    ofWord d.word = d :=
  (by decide : ∀ d ∈ [Direction.up, .down], ofWord d.word = d) d h

/-! ## Expressions -/

/-- The phrase of the expressions that are at least so tight. -/
def Grammar.Phrase.ofTightness : Nat → Phrase
  | 0 => .expr
  | 7 => .unary
  | n + 1 => if n < 6 then .level (precedence.drop n) else .primary

/-- A tighter expression may stand in a looser place. -/
theorem Grammar.ReadsExpr.loosen {w : List Token} {e : Expr} {m n : Nat} (hmn : m ≤ n)
    (hn : n ≤ 8) (h : ReadsExpr (Phrase.ofTightness n) w e) :
    ReadsExpr (Phrase.ofTightness m) w e := by
  have hstep : ∀ k < 8, ReadsExpr (Phrase.ofTightness (k + 1)) w e →
      ReadsExpr (Phrase.ofTightness k) w e := by
    intro k hk h
    match k, h with
    | 0, h => exact .plain h
    | 1, h | 2, h | 3, h | 4, h | 5, h => exact .tighter h
    | 6, h => exact .tighter (.tightest h)
    | 7, h => exact .unsigned h
  induction hmn with
  | refl => exact h
  | @step n _ ih => exact ih (by omega) (hstep n (by omega) h)

/-- A binary operator between operands that are tight enough. -/
theorem Grammar.ReadsExpr.ofBinOp {op : BinOp} (hop : op ∈ BinOp.all) {l r : List Token}
    {le re : Expr} {t : Token} (hkind : t.kind ∈ precedence.getD (op.tightness - 1) [])
    (hl : ReadsExpr (Phrase.ofTightness op.tightness) l le)
    (hr : ReadsExpr (Phrase.ofTightness (op.tightness + 1)) r re) :
    ReadsExpr (Phrase.ofTightness op.tightness) (l ++ t :: r)
      (.binary (.ofSymbol t.text) le re (spanOf (l ++ t :: r))) := by
  have hlevel : op.tightness ∈ [1, 2, 3, 4, 5, 6] :=
    (by decide : ∀ op ∈ BinOp.all, op.tightness ∈ [1, 2, 3, 4, 5, 6]) op hop
  generalize op.tightness = n at *
  simp only [List.mem_cons, List.not_mem_nil, or_false] at hlevel
  rcases hlevel with rfl | rfl | rfl | rfl | rfl | rfl
  · exact .binary hl hkind hr
  · exact .binary hl hkind hr
  · exact .binary hl hkind hr
  · exact .binary hl hkind hr
  · exact .binary hl hkind hr
  · exact .binary hl hkind (.tightest hr)

/-- There are nine degrees of tightness, from conditional expressions to primary ones. -/
theorem Expr.tightness_le (e : Expr) : e.tightness ≤ 8 := by
  cases e with
  | binary op l r span => cases op <;> simp [Expr.tightness, BinOp.tightness]
  | _ => simp [Expr.tightness]

/-- The expression is read from the tokens at every place that is loose enough for it, and so is
every expression that differs in its spans. -/
def Expr.ReadAs (e : Expr) (w : List Token) : Prop :=
  ∃ e', ReadsExpr (Phrase.ofTightness e.tightness) w e' ∧ e'.bare = e.bare

/-- What is read as an expression of its own tightness is read as one of each looser phrase. -/
theorem Expr.ReadAs.loosen {e : Expr} {w : List Token} (h : e.ReadAs w) {n : Nat}
    (hn : n ≤ e.tightness) : ∃ e', ReadsExpr (Phrase.ofTightness n) w e' ∧ e'.bare = e.bare := by
  obtain ⟨e', he', hbare⟩ := h
  exact ⟨e', he'.loosen hn e.tightness_le, hbare⟩

mutual

/-- Genuine tokens that spell a normal expression are read as that expression, by induction on it.
-/
theorem Expr.readAs : ∀ (e : Expr), e.Normal → ∀ {w : List Token}, Terminal.Spell e.flatten w →
    (∀ t ∈ w, t.Genuine) → e.ReadAs w
  | .int n _, _, w, hw, _ => by
      simp only [Expr.flatten, List.forall₂_cons_left_iff, List.forall₂_nil_left_iff] at hw
      obtain ⟨t, _, ⟨ht, hn⟩, rfl, rfl⟩ := hw
      exact ⟨_, .int ht hn, rfl⟩
  | .float x _, _, w, hw, _ => by
      simp only [Expr.flatten, List.forall₂_cons_left_iff, List.forall₂_nil_left_iff] at hw
      obtain ⟨t, _, ⟨ht, hx⟩, rfl, rfl⟩ := hw
      exact ⟨_, .float ht hx, rfl⟩
  | .string s _, _, w, hw, _ => by
      simp only [Expr.flatten, List.forall₂_cons_left_iff, List.forall₂_nil_left_iff] at hw
      obtain ⟨t, _, ⟨ht, rfl⟩, rfl, rfl⟩ := hw
      exact ⟨_, .string ht, rfl⟩
  | .bool b _, _, w, hw, _ => by
      simp only [Expr.flatten, List.forall₂_cons_left_iff, List.forall₂_nil_left_iff] at hw
      obtain ⟨t, _, ht, rfl, rfl⟩ := hw
      cases b with
      | true => exact ⟨_, .true ht, rfl⟩
      | false => exact ⟨_, .false ht, rfl⟩
  | .var name _, _, w, hw, _ => by
      simp only [Expr.flatten, List.forall₂_cons_left_iff, List.forall₂_nil_left_iff] at hw
      obtain ⟨t, _, ⟨ht, rfl⟩, rfl, rfl⟩ := hw
      exact ⟨_, .var ht, rfl⟩
  | .paren e _, he, w, hw, hgen => by
      simp only [Expr.flatten, Terminal.Spell.append_iff, List.forall₂_cons_left_iff,
        List.forall₂_nil_left_iff] at hw
      obtain ⟨_, _, ⟨l, w', hl, hw', rfl⟩, ⟨r, _, hr, rfl, rfl⟩, rfl⟩ := hw
      obtain ⟨e', he', hbare⟩ :=
        (e.readAs he hw' fun t ht => hgen t (by simp [ht])).loosen (Nat.zero_le _)
      exact ⟨_, .paren hl he' hr, by simp [Expr.bare, hbare]⟩
  | .unary op e _, ⟨hop, htight, he⟩, w, hw, hgen => by
      simp only [Expr.flatten, List.forall₂_cons_left_iff] at hw
      obtain ⟨t, w', ⟨ht, htext⟩, hw', rfl⟩ := hw
      obtain ⟨e', he', hbare⟩ :=
        (e.readAs he hw' fun t ht => hgen t (by simp [ht])).loosen htight
      exact ⟨_, .unary ht he', by simp [Expr.bare, hbare, htext, UnOp.ofSymbol_symbol hop]⟩
  | .binary op l r _, ⟨hop, hlt, hrt, hln, hrn⟩, w, hw, hgen => by
      simp only [Expr.flatten, Terminal.Spell.append_iff, List.forall₂_cons_left_iff] at hw
      obtain ⟨w₁, _, hw₁, ⟨t, w₂, ⟨ht, htext⟩, hw₂, rfl⟩, rfl⟩ := hw
      obtain ⟨l', hl', hlbare⟩ :=
        (l.readAs hln hw₁ fun t ht => hgen t (by simp [ht])).loosen hlt
      obtain ⟨r', hr', hrbare⟩ :=
        (r.readAs hrn hw₂ fun t ht => hgen t (by simp [ht])).loosen hrt
      -- a genuine token has the kind of its text, so the operator has the level of its token
      have hkind := (hgen t (by simp)).binOp_kind hop ht htext
      exact ⟨_, .ofBinOp hop hkind hl' hr',
        by simp [Expr.bare, hlbare, hrbare, htext, BinOp.ofSymbol_symbol hop]⟩
  | .ternary c y n _, ⟨htight, hcn, hyn, hnn⟩, w, hw, hgen => by
      simp only [Expr.flatten, Terminal.Spell.append_iff, List.forall₂_cons_left_iff] at hw
      obtain ⟨_, _, ⟨w₁, _, hw₁, ⟨q, w₂, hq, hw₂, rfl⟩, rfl⟩, ⟨k, w₃, hk, hw₃, rfl⟩, rfl⟩ := hw
      obtain ⟨c', hc', hcbare⟩ :=
        (c.readAs hcn hw₁ fun t ht => hgen t (by simp [ht])).loosen htight
      obtain ⟨y', hy', hybare⟩ :=
        (y.readAs hyn hw₂ fun t ht => hgen t (by simp [ht])).loosen (Nat.zero_le _)
      obtain ⟨n', hn', hnbare⟩ :=
        (n.readAs hnn hw₃ fun t ht => hgen t (by simp [ht])).loosen (Nat.zero_le _)
      exact ⟨_, .ternary hc' hq hy' hk hn', by simp [Expr.bare, hcbare, hybare, hnbare]⟩
  | .call name [] _, _, w, hw, _ => by
      simp only [Expr.flatten, Expr.flattenArgs, Terminal.Spell.append_iff,
        List.forall₂_cons_left_iff, List.forall₂_nil_left_iff] at hw
      obtain ⟨_, _, ⟨t, _, ⟨ht, rfl⟩, ⟨l, _, hl, rfl, rfl⟩, rfl⟩, ⟨r, _, hr, rfl, rfl⟩, rfl⟩ := hw
      exact ⟨_, .called (.callNoArgs ht hl hr), rfl⟩
  | .call name (e :: es) _, hargs, w, hw, hgen => by
      simp only [Expr.flatten, Terminal.Spell.append_iff, List.forall₂_cons_left_iff,
        List.forall₂_nil_left_iff, List.cons_append] at hw
      obtain ⟨t, _, ⟨ht, rfl⟩, ⟨l, _, hl, ⟨w', _, hw', ⟨r, _, hr, rfl, rfl⟩, rfl⟩, rfl⟩, rfl⟩ := hw
      obtain ⟨es', hes', hbare⟩ :=
        Expr.readArgs (e :: es) hargs hw' (fun t ht => hgen t (by simp [ht])) (by simp)
      exact ⟨_, .called (.callArgs ht hl hes' hr), by simp [Expr.bare, hbare]⟩
  | .other _ _ _, h, _, _, _ => False.elim h

/-- The same of arguments, of which there must be one. -/
theorem Expr.readArgs : ∀ (es : List Expr), Expr.NormalAll es → ∀ {w : List Token},
    Terminal.Spell (Expr.flattenArgs es) w → (∀ t ∈ w, t.Genuine) → es ≠ [] →
      ∃ es', ReadsArgs w es' ∧ Expr.bareAll es' = Expr.bareAll es
  | [], _, _, _, _, hne => absurd rfl hne
  | [e], ⟨he, _⟩, w, hw, hgen, _ => by
      obtain ⟨e', he', hbare⟩ := (e.readAs he hw hgen).loosen (Nat.zero_le _)
      exact ⟨_, .one he', by simp [Expr.bareAll, hbare]⟩
  | e :: e₂ :: es, ⟨he, hes⟩, w, hw, hgen, _ => by
      simp only [Expr.flattenArgs, Terminal.Spell.append_iff, List.forall₂_cons_left_iff] at hw
      obtain ⟨w₁, _, hw₁, ⟨t, w₂, ht, hw₂, rfl⟩, rfl⟩ := hw
      obtain ⟨e', he', hbare⟩ :=
        (e.readAs he hw₁ fun t ht => hgen t (by simp [ht])).loosen (Nat.zero_le _)
      obtain ⟨es', hes', hbares⟩ :=
        Expr.readArgs (e₂ :: es) hes hw₂ (fun t ht => hgen t (by simp [ht])) (by simp)
      refine ⟨_, .more he' ht hes', ?_⟩
      rw [Expr.bareAll, hbare, hbares]
      rfl

end

/-- A normal expression is read where an expression is asked for. -/
theorem Expr.reads {e : Expr} (h : e.Normal) {w : List Token} (hw : Terminal.Spell e.flatten w)
    (hgen : ∀ t ∈ w, t.Genuine) : ∃ e', ReadsExpr .expr w e' ∧ e'.bare = e.bare :=
  (e.readAs h hw hgen).loosen (Nat.zero_le _)

/-- A normal call is read where a call is asked for. -/
theorem Expr.reads_call {e : Expr} (hcall : e.IsCall) (h : e.Normal) {w : List Token}
    (hw : Terminal.Spell e.flatten w) (hgen : ∀ t ∈ w, t.Genuine) :
    ∃ e', ReadsExpr .call w e' ∧ e'.bare = e.bare := by
  cases e with
  | call name args span =>
      obtain ⟨e', he', hbare⟩ : ∃ e', ReadsExpr .primary w e' ∧ e'.bare = _ :=
        Expr.readAs _ h hw hgen
      cases he' with
      | called hcalled => exact ⟨e', hcalled, hbare⟩
      | _ => simp [Expr.bare] at hbare
  | _ => exact False.elim hcall

/-! ## Statements -/

mutual

/-- Whether a statement is open does not depend on its spans. -/
theorem Stmt.open_bare : ∀ s : Stmt, s.bare.Open ↔ s.Open
  | .ifThen _ _ _ => Iff.rfl
  | .ifThenElse _ _ n _ => n.open_bare
  | .whileDo _ b _ => b.open_bare
  | .forCount _ _ _ _ b _ => b.open_bare
  | .block _ | .declare .. | .assign .. | .call .. | .doWhile .. | .ret none _ | .ret (some _) _
  | .brk _ | .cont _ | .other .. => Iff.rfl

/-- Whether a body is open does not depend on its spans. -/
theorem Block.open_bare : ∀ b : Block, b.bare.Open ↔ b.Open
  | .mk _ true _ => Iff.rfl
  | .mk ss false _ => Stmt.lastOpen_bareAll ss

/-- Whether the last of some statements is open does not depend on their spans. -/
theorem Stmt.lastOpen_bareAll : ∀ ss : List Stmt, Stmt.LastOpen (Stmt.bareAll ss) ↔
    Stmt.LastOpen ss
  | [] => Iff.rfl
  | [s] => s.open_bare
  | _ :: s :: ss => Stmt.lastOpen_bareAll (s :: ss)

end

mutual

/-- Genuine tokens that spell a normal statement are read as that statement, up to spans. -/
theorem Stmt.reads : ∀ (s : Stmt), s.Normal → ∀ {w : List Token}, Terminal.Spell s.flatten w →
    (∀ t ∈ w, t.Genuine) → ∃ s', ReadsStmt w s' ∧ s'.bare = s.bare
  | .block _, h, _, _, _ => False.elim h
  | .declare name e isConst _, he, w, hw, hgen => by
      simp only [Stmt.flatten, Terminal.Spell.append_iff, List.forall₂_cons_left_iff,
        List.forall₂_nil_left_iff] at hw
      obtain ⟨_, _, ⟨k, _, hk, ⟨t, _, ⟨ht, rfl⟩, ⟨a, w', ha, hw', rfl⟩, rfl⟩, rfl⟩,
        ⟨z, _, hz, rfl, rfl⟩, rfl⟩ := hw
      obtain ⟨e', he', hbare⟩ := Expr.reads he hw' fun t ht => hgen t (by simp [ht])
      have hkind : k.kind = if isConst then TokenKind.kwConst else .kwLet := hk
      have hmem : k.kind ∈ [TokenKind.kwLet, .kwConst] := by
        cases isConst <;> simp [hkind]
      have hconst : decide (k.kind = .kwConst) = isConst := by
        cases isConst <;> simp [hkind]
      exact ⟨_, .declare hmem ht ha he' hz, by simp [Stmt.bare, hbare, hconst]⟩
  | .assign name op e _, ⟨hop, he⟩, w, hw, hgen => by
      simp only [Stmt.flatten, Terminal.Spell.append_iff, List.forall₂_cons_left_iff,
        List.forall₂_nil_left_iff] at hw
      obtain ⟨_, _, ⟨t, _, ⟨ht, rfl⟩, ⟨a, w', ⟨ha, htext⟩, hw', rfl⟩, rfl⟩,
        ⟨z, _, hz, rfl, rfl⟩, rfl⟩ := hw
      obtain ⟨e', he', hbare⟩ := Expr.reads he hw' fun t ht => hgen t (by simp [ht])
      exact ⟨_, .assign ht ha he' hz,
        by simp [Stmt.bare, hbare, htext, AssignOp.ofSymbol_symbol hop]⟩
  | .call e _, ⟨hcall, he⟩, w, hw, hgen => by
      simp only [Stmt.flatten, Terminal.Spell.append_iff, List.forall₂_cons_left_iff,
        List.forall₂_nil_left_iff] at hw
      obtain ⟨w', _, hw', ⟨z, _, hz, rfl, rfl⟩, rfl⟩ := hw
      obtain ⟨e', he', hbare⟩ := Expr.reads_call hcall he hw' fun t ht => hgen t (by simp [ht])
      exact ⟨_, .call he' hz, by simp [Stmt.bare, hbare]⟩
  | .ifThen c y _, ⟨hc, hy⟩, w, hw, hgen => by
      simp only [Stmt.flatten, Terminal.Spell.append_iff, List.forall₂_cons_left_iff] at hw
      obtain ⟨_, w₂, ⟨i, w₁, hi, hw₁, rfl⟩, hw₂, rfl⟩ := hw
      obtain ⟨c', hc', hcbare⟩ := Expr.reads hc hw₁ fun t ht => hgen t (by simp [ht])
      obtain ⟨y', hy', hybare⟩ := y.reads hy hw₂ fun t ht => hgen t (by simp [ht])
      exact ⟨_, .ifThen hi hc' hy', by simp [Stmt.bare, hcbare, hybare]⟩
  | .ifThenElse c y n _, ⟨hc, hy, hn, hclosed⟩, w, hw, hgen => by
      simp only [Stmt.flatten, Terminal.Spell.append_iff, List.forall₂_cons_left_iff] at hw
      obtain ⟨_, _, ⟨_, w₂, ⟨i, w₁, hi, hw₁, rfl⟩, hw₂, rfl⟩, ⟨t, w₃, ht, hw₃, rfl⟩, rfl⟩ := hw
      obtain ⟨c', hc', hcbare⟩ := Expr.reads hc hw₁ fun t ht => hgen t (by simp [ht])
      obtain ⟨y', hy', hybare⟩ := y.reads hy hw₂ fun t ht => hgen t (by simp [ht])
      obtain ⟨n', hn', hnbare⟩ := n.reads hn hw₃ fun t ht => hgen t (by simp [ht])
      -- which `if` an `else` belongs to depends on the bare tree only
      have hclosed' : ¬ y'.Open := by rwa [← Block.open_bare, hybare, Block.open_bare]
      exact ⟨_, .ifThenElse hi hc' hy' hclosed' ht hn',
        by simp [Stmt.bare, hcbare, hybare, hnbare]⟩
  | .whileDo c b _, ⟨hc, hb⟩, w, hw, hgen => by
      simp only [Stmt.flatten, Terminal.Spell.append_iff, List.forall₂_cons_left_iff] at hw
      obtain ⟨_, w₂, ⟨i, w₁, hi, hw₁, rfl⟩, hw₂, rfl⟩ := hw
      obtain ⟨c', hc', hcbare⟩ := Expr.reads hc hw₁ fun t ht => hgen t (by simp [ht])
      obtain ⟨b', hb', hbbare⟩ := b.reads hb hw₂ fun t ht => hgen t (by simp [ht])
      exact ⟨_, .whileDo hi hc' hb', by simp [Stmt.bare, hcbare, hbbare]⟩
  | .doWhile b c _, ⟨hb, hc⟩, w, hw, hgen => by
      simp only [Stmt.flatten, Terminal.Spell.append_iff, List.forall₂_cons_left_iff,
        List.forall₂_nil_left_iff] at hw
      obtain ⟨_, _, ⟨_, _, ⟨i, w₁, hi, hw₁, rfl⟩, ⟨t, w₂, ht, hw₂, rfl⟩, rfl⟩,
        ⟨z, _, hz, rfl, rfl⟩, rfl⟩ := hw
      obtain ⟨b', hb', hbbare⟩ := b.reads hb hw₁ fun t ht => hgen t (by simp [ht])
      obtain ⟨c', hc', hcbare⟩ := Expr.reads hc hw₂ fun t ht => hgen t (by simp [ht])
      exact ⟨_, .doWhile hi hb' ht hc' hz, by simp [Stmt.bare, hcbare, hbbare]⟩
  | .forCount counter start bound d b _, ⟨hstart, hd, hbound, hb⟩, w, hw, hgen => by
      simp only [Stmt.flatten, Terminal.Spell.append_iff, List.forall₂_cons_left_iff] at hw
      obtain ⟨_, w₃, ⟨_, _, ⟨i, _, hi, ⟨t, _, ⟨ht, rfl⟩, ⟨s, w₁, hs, hw₁, rfl⟩, rfl⟩, rfl⟩,
        ⟨k, w₂, ⟨hk, htext⟩, hw₂, rfl⟩, rfl⟩, hw₃, rfl⟩ := hw
      obtain ⟨start', hstart', hsbare⟩ := Expr.reads hstart hw₁ fun t ht => hgen t (by simp [ht])
      obtain ⟨bound', hbound', hzbare⟩ := Expr.reads hbound hw₂ fun t ht => hgen t (by simp [ht])
      obtain ⟨b', hb', hbbare⟩ := b.reads hb hw₃ fun t ht => hgen t (by simp [ht])
      exact ⟨_, .forCount hi ht hs hstart' hk hbound' hb',
        by simp [Stmt.bare, hsbare, hzbare, hbbare, htext, Direction.ofWord_word hd]⟩
  | .ret none _, _, w, hw, _ => by
      simp only [Stmt.flatten, List.forall₂_cons_left_iff, List.forall₂_nil_left_iff] at hw
      obtain ⟨i, _, hi, ⟨z, _, hz, rfl, rfl⟩, rfl⟩ := hw
      exact ⟨_, .ret hi hz, rfl⟩
  | .ret (some e) _, he, w, hw, hgen => by
      simp only [Stmt.flatten, Terminal.Spell.append_iff, List.forall₂_cons_left_iff,
        List.forall₂_nil_left_iff] at hw
      obtain ⟨_, _, ⟨i, w', hi, hw', rfl⟩, ⟨z, _, hz, rfl, rfl⟩, rfl⟩ := hw
      obtain ⟨e', he', hbare⟩ := Expr.reads he hw' fun t ht => hgen t (by simp [ht])
      exact ⟨_, .retValue hi he' hz, by simp [Stmt.bare, hbare]⟩
  | .brk _, _, w, hw, _ => by
      simp only [Stmt.flatten, List.forall₂_cons_left_iff, List.forall₂_nil_left_iff] at hw
      obtain ⟨i, _, hi, ⟨z, _, hz, rfl, rfl⟩, rfl⟩ := hw
      exact ⟨_, .brk hi hz, rfl⟩
  | .cont _, _, w, hw, _ => by
      simp only [Stmt.flatten, List.forall₂_cons_left_iff, List.forall₂_nil_left_iff] at hw
      obtain ⟨i, _, hi, ⟨z, _, hz, rfl, rfl⟩, rfl⟩ := hw
      exact ⟨_, .cont hi hz, rfl⟩
  | .other _ _ _, h, _, _, _ => False.elim h

/-- The same of bodies. -/
theorem Block.reads : ∀ (b : Block), b.Normal → ∀ {w : List Token}, Terminal.Spell b.flatten w →
    (∀ t ∈ w, t.Genuine) → ∃ b', ReadsBlock w b' ∧ b'.bare = b.bare
  | .mk ss true _, ⟨hss, _⟩, w, hw, hgen => by
      simp only [Block.flatten, Terminal.Spell.append_iff, List.forall₂_cons_left_iff,
        List.forall₂_nil_left_iff] at hw
      obtain ⟨_, _, ⟨l, w', hl, hw', rfl⟩, ⟨r, _, hr, rfl, rfl⟩, rfl⟩ := hw
      obtain ⟨ss', hss', hbare⟩ := Stmt.readsAll ss hss hw' fun t ht => hgen t (by simp [ht])
      exact ⟨_, .braced hl hss' hr, by simp [Block.bare, hbare]⟩
  | .mk [] false _, ⟨_, hone⟩, _, _, _ => absurd (hone rfl) (by simp)
  | .mk [s] false _, ⟨⟨hs, _⟩, _⟩, w, hw, hgen => by
      simp only [Block.flatten, Stmt.flattenAll, List.append_nil] at hw
      obtain ⟨s', hs', hbare⟩ := s.reads hs hw hgen
      exact ⟨_, .single hs', by simp [Block.bare, Stmt.bareAll, hbare]⟩
  | .mk (_ :: _ :: _) false _, ⟨_, hone⟩, _, _, _ => absurd (hone rfl) (by simp)

/-- The same of statements in a row. -/
theorem Stmt.readsAll : ∀ (ss : List Stmt), Stmt.NormalAll ss → ∀ {w : List Token},
    Terminal.Spell (Stmt.flattenAll ss) w → (∀ t ∈ w, t.Genuine) →
      ∃ ss', ReadsStmts w ss' ∧ Stmt.bareAll ss' = Stmt.bareAll ss
  | [], _, w, hw, _ => by
      cases List.forall₂_nil_left_iff.mp hw
      exact ⟨_, .nil, rfl⟩
  | s :: ss, ⟨hs, hss⟩, w, hw, hgen => by
      obtain ⟨w₁, w₂, hw₁, hw₂, rfl⟩ := Terminal.Spell.append_iff.mp hw
      obtain ⟨s', hs', hbare⟩ := s.reads hs hw₁ fun t ht => hgen t (by simp [ht])
      obtain ⟨ss', hss', hbares⟩ := Stmt.readsAll ss hss hw₂ fun t ht => hgen t (by simp [ht])
      exact ⟨_, .cons hs' hss', by simp [Stmt.bareAll, hbare, hbares]⟩

end

/-! ## Programs -/

/-- The same of parameters, of which there must be one. -/
theorem Param.readsAll (ps : List Param) (hne : ps ≠ []) {w : List Token}
    (hw : Terminal.Spell (Param.flattenAll ps) w) :
    ∃ ps', ReadsParams w ps' ∧ ps'.map Param.bare = ps.map Param.bare := by
  induction ps generalizing w with
  | nil => exact absurd rfl hne
  | cons p ps ih =>
      cases ps with
      | nil =>
          simp only [Param.flattenAll, List.forall₂_cons_left_iff, List.forall₂_nil_left_iff] at hw
          obtain ⟨k, _, ⟨hk, htype⟩, ⟨t, _, ⟨ht, hname⟩, rfl, rfl⟩, rfl⟩ := hw
          exact ⟨_, .one hk ht, by simp [Param.bare, htype, hname]⟩
      | cons p' ps =>
          simp only [Param.flattenAll, List.forall₂_cons_left_iff] at hw
          obtain ⟨k, _, ⟨hk, htype⟩, ⟨t, _, ⟨ht, hname⟩, ⟨c, w', hc, hw', rfl⟩, rfl⟩, rfl⟩ := hw
          obtain ⟨ps', hps', hbare⟩ := ih (by simp) hw'
          refine ⟨_, .more hk ht hc hps', ?_⟩
          rw [List.map_cons, hbare]
          simp [Param.bare, htype, hname]

/-- The same of functions with a normal body. -/
theorem FuncDecl.reads {d : FuncDecl} (h : d.body.Normal) {w : List Token}
    (hw : Terminal.Spell d.flatten w) (hgen : ∀ t ∈ w, t.Genuine) :
    ∃ d', ReadsFunc w d' ∧ d'.bare = d.bare := by
  simp only [FuncDecl.flatten, List.cons_append, Terminal.Spell.append_iff,
    List.forall₂_cons_left_iff] at hw
  obtain ⟨k, _, ⟨hk, htype⟩, ⟨t, _, ⟨ht, hname⟩, ⟨l, _, hl, ⟨w₁, _, hw₁, ⟨r, w₂, hr, hw₂, rfl⟩,
    rfl⟩, rfl⟩, rfl⟩, rfl⟩ := hw
  obtain ⟨body', hbody', hbare⟩ := d.body.reads h hw₂ fun t ht => hgen t (by simp [ht])
  by_cases hparams : d.params = []
  · rw [hparams] at hw₁
    cases List.forall₂_nil_left_iff.mp hw₁
    exact ⟨_, .noParams hk ht hl hr hbody',
      by simp [FuncDecl.bare, hparams, hbare, htype, hname]⟩
  · obtain ⟨ps', hps', hpsbare⟩ := Param.readsAll d.params hparams hw₁
    exact ⟨_, .params hk ht hl hps' hr hbody',
      by simp [FuncDecl.bare, hpsbare, hbare, htype, hname]⟩

/-- Genuine tokens that spell normal items are read as these items, up to their spans. -/
theorem Item.readsAll {items : List Item} (h : ∀ item ∈ items, item.Normal) {w : List Token}
    (hw : Terminal.Spell (items.flatMap Item.flatten) w) (hgen : ∀ t ∈ w, t.Genuine) :
    ∃ items', ReadsItems w items' ∧ items'.map Item.bare = items.map Item.bare := by
  induction items generalizing w with
  | nil =>
      cases List.forall₂_nil_left_iff.mp hw
      exact ⟨_, .nil, rfl⟩
  | cons item items ih =>
      rw [List.flatMap_cons] at hw
      obtain ⟨w₁, w₂, hw₁, hw₂, rfl⟩ := Terminal.Spell.append_iff.mp hw
      obtain ⟨items', hitems', hbares⟩ := ih (fun item hitem => h item (by simp [hitem])) hw₂
        fun t ht => hgen t (by simp [ht])
      have hgen₁ : ∀ t ∈ w₁, t.Genuine := fun t ht => hgen t (by simp [ht])
      have hitem := h item (by simp)
      cases item with
      | func d =>
          obtain ⟨d', hd', hbare⟩ := FuncDecl.reads hitem hw₁ hgen₁
          exact ⟨_, .func hd' hitems', by simp [Item.bare, hbare, hbares]⟩
      | stmt s =>
          obtain ⟨s', hs', hbare⟩ := s.reads hitem hw₁ hgen₁
          exact ⟨_, .stmt hs' hitems', by simp [Item.bare, hbare, hbares]⟩

end Pigeon

import Pigeon.Proofs.Grammar.Reading

/-!
# What is derivable is read

Tokens whose kinds are those of a phrase are read as a tree, provided that their numbers are
numerals. A derivation may give an `else` to any `if` before it. The tree gives it to the nearest
one: where the body before an `else` is open, the `else` moves into that body.
-/

namespace Pigeon.Grammar

open Token

/-! ## An open body takes an `else` -/

mutual

/-- A statement that ends in an `if` without an `else` takes an `else` that follows it. The `if` may
stand deep inside, so the tree is rebuilt on the way to it. -/
theorem ReadsStmt.absorb : ∀ {w : List Token} {s : Stmt}, ReadsStmt w s → s.Open →
    ∀ {t : Token} {n : List Token} {ne : Block}, t.kind = .kwElse → ReadsBlock n ne →
      ∃ s', ReadsStmt (w ++ t :: n) s'
  | _, _, @ReadsStmt.ifThen _ _ _ ye _ hi hc hy => by
      intro _ t n ne ht hn
      by_cases hopen : ye.Open
      · obtain ⟨ye', hy'⟩ := hy.absorb hopen ht hn
        exact ⟨_, by simpa using ReadsStmt.ifThen hi hc hy'⟩
      · exact ⟨_, ReadsStmt.ifThenElse hi hc hy hopen ht hn⟩
  | _, _, .ifThenElse hi hc hy hclosed ht' hn' => by
      intro hopen t n ne ht hn
      obtain ⟨ne', hn''⟩ := hn'.absorb hopen ht hn
      exact ⟨_, by simpa using ReadsStmt.ifThenElse hi hc hy hclosed ht' hn''⟩
  | _, _, .whileDo hi hc hb => by
      intro hopen t n ne ht hn
      obtain ⟨be', hb'⟩ := hb.absorb hopen ht hn
      exact ⟨_, by simpa using ReadsStmt.whileDo hi hc hb'⟩
  | _, _, .forCount hi hname hs ha hd hz hb => by
      intro hopen t n ne ht hn
      obtain ⟨be', hb'⟩ := hb.absorb hopen ht hn
      exact ⟨_, by simpa using ReadsStmt.forCount hi hname hs ha hd hz hb'⟩
  | _, _, .declare .. | _, _, .assign .. | _, _, .call .. | _, _, .doWhile .. | _, _, .brk ..
  | _, _, .cont .. | _, _, .ret .. | _, _, .retValue .. => fun hopen => False.elim hopen

/-- The same of a body without braces. -/
theorem ReadsBlock.absorb : ∀ {w : List Token} {b : Block}, ReadsBlock w b → b.Open →
    ∀ {t : Token} {n : List Token} {ne : Block}, t.kind = .kwElse → ReadsBlock n ne →
      ∃ b', ReadsBlock (w ++ t :: n) b'
  | _, _, .single h => by
      intro hopen t n ne ht hn
      obtain ⟨s', hs'⟩ := h.absorb hopen ht hn
      exact ⟨_, .single hs'⟩
  | _, _, .braced .. => fun hopen => False.elim hopen

end

/-! ## Derivations give trees -/

/-- The tokens are read as a tree for the phrase. -/
def Phrase.HasTree (w : List Token) : Phrase → Prop
  | .program => ∃ items, ReadsItems w items
  | .funcDecl => ∃ d, ReadsFunc w d
  | .params => ∃ ps, ReadsParams w ps
  | .block => ∃ b, ReadsBlock w b
  | .stmts => ∃ ss, ReadsStmts w ss
  | .stmt => ∃ s, ReadsStmt w s
  | .args => ∃ es, ReadsArgs w es
  | p => ∃ e, ReadsExpr p w e

/-- A token that is an expression on its own. -/
theorem atom_hasTree {t : Token} (hk : t.kind ∈ atoms) (hnum : t.Converts) :
    Phrase.primary.HasTree [t] := by
  simp only [atoms, List.mem_cons, List.not_mem_nil, or_false] at hk
  rcases hk with hk | hk | hk | hk | hk | hk
  · obtain ⟨n, hn⟩ := hnum.1 hk
    exact ⟨_, .int hk hn⟩
  · obtain ⟨x, hx⟩ := hnum.2 hk
    exact ⟨_, .float hk hx⟩
  · exact ⟨_, .string hk⟩
  · exact ⟨_, .true hk⟩
  · exact ⟨_, .false hk⟩
  · exact ⟨_, .var hk⟩

/-- The tokens have the kinds, and are numerals where they have to be. -/
def Readable (ks : List TokenKind) (w : List Token) : Prop :=
  w.map (·.kind) = ks ∧ ∀ t ∈ w, t.Converts

section Readable

variable {ks ks' : List TokenKind} {w : List Token}

theorem readable_nil : Readable [] w ↔ w = [] := by
  simp +contextual [Readable]

/-- Tokens of a first kind and more kinds are one token and more tokens. -/
theorem readable_cons {k : TokenKind} :
    Readable (k :: ks) w ↔
      ∃ t v, w = t :: v ∧ t.kind = k ∧ t.Converts ∧ Readable ks v := by
  constructor
  · rintro ⟨hw, hnum⟩
    obtain ⟨t, v, rfl, hk, hv⟩ := List.map_eq_cons_iff.mp hw
    obtain ⟨ht, hnum⟩ := List.forall_mem_cons.mp hnum
    exact ⟨t, v, rfl, hk, ht, hv, hnum⟩
  · rintro ⟨t, v, rfl, rfl, ht, rfl, hnum⟩
    exact ⟨rfl, List.forall_mem_cons.mpr ⟨ht, hnum⟩⟩

/-- Tokens of kinds in a row are split where the kinds are. -/
theorem readable_append :
    Readable (ks ++ ks') w ↔ ∃ v v', w = v ++ v' ∧ Readable ks v ∧ Readable ks' v' := by
  constructor
  · rintro ⟨hw, hnum⟩
    obtain ⟨v, v', rfl, hv, hv'⟩ := List.map_eq_append_iff.mp hw
    obtain ⟨hnum, hnum'⟩ := List.forall_mem_append.mp hnum
    exact ⟨v, v', rfl, ⟨hv, hnum⟩, hv', hnum'⟩
  · rintro ⟨v, v', rfl, ⟨rfl, hnum⟩, rfl, hnum'⟩
    exact ⟨List.map_append, List.forall_mem_append.mpr ⟨hnum, hnum'⟩⟩

end Readable

/-- All tokens of these kinds that can be read are read as a tree for the phrase. -/
def Phrase.Covers (p : Phrase) (ks : List TokenKind) : Prop :=
  ∀ ⦃w : List Token⦄, Readable ks w → p.HasTree w

namespace Phrase.Covers

variable {ks f b c y n a z e s ss l r ps as : List TokenKind} {k op d : TokenKind} {p q : Phrase}

/-- A phrase whose trees are trees for another one. -/
theorem mono (h : p.Covers ks) (hpq : ∀ {w}, p.HasTree w → q.HasTree w) : q.Covers ks :=
  fun _ hw => hpq (h hw)

/-! ### Programs and functions -/

/-- No tokens are the program without items. -/
theorem noItems : Phrase.program.Covers [] := by
  intro w hw
  cases readable_nil.mp hw
  exact ⟨_, .nil⟩

/-- A function declaration before the other items. -/
theorem func (hf : Phrase.funcDecl.Covers f) (h : Phrase.program.Covers ks) :
    Phrase.program.Covers (f ++ ks) := by
  intro w hw
  obtain ⟨w₁, w₂, rfl, h₁, h₂⟩ := readable_append.mp hw
  obtain ⟨d, hd⟩ := hf h₁
  obtain ⟨items, hitems⟩ := h h₂
  exact ⟨_, .func hd hitems⟩

/-- A statement before the other items. -/
theorem topStmt (hs : Phrase.stmt.Covers s) (h : Phrase.program.Covers ks) :
    Phrase.program.Covers (s ++ ks) := by
  intro w hw
  obtain ⟨w₁, w₂, rfl, h₁, h₂⟩ := readable_append.mp hw
  obtain ⟨s, hs⟩ := hs h₁
  obtain ⟨items, hitems⟩ := h h₂
  exact ⟨_, .stmt hs hitems⟩

/-- A function without parameters, from its type to its body. -/
theorem funcDecl (hb : Phrase.block.Covers b) :
    Phrase.funcDecl.Covers (.type :: .ident :: .lparen :: .rparen :: b) := by
  intro w hw
  simp only [readable_cons] at hw
  obtain ⟨k, _, rfl, hk, -, t, _, rfl, ht, -, l, _, rfl, hl, -, r, b, rfl, hr, -, hw⟩ := hw
  obtain ⟨be, hbe⟩ := hb hw
  exact ⟨_, .noParams hk ht hl hr hbe⟩

/-- A function with parameters, from its type to its body. -/
theorem funcDeclParams (hps : Phrase.params.Covers ps) (hb : Phrase.block.Covers b) :
    Phrase.funcDecl.Covers (.type :: .ident :: .lparen :: ps ++ .rparen :: b) := by
  intro w hw
  simp only [readable_append, readable_cons, List.cons_append] at hw
  obtain ⟨k, _, rfl, hk, -, t, _, rfl, ht, -, l, _, rfl, hl, -, ps, _, rfl, hw,
    r, b, rfl, hr, -, hw'⟩ := hw
  obtain ⟨pe, hpe⟩ := hps hw
  obtain ⟨be, hbe⟩ := hb hw'
  exact ⟨_, .params hk ht hl hpe hr hbe⟩

/-- A single parameter is a type and a name. -/
theorem param : Phrase.params.Covers [.type, .ident] := by
  intro w hw
  simp only [readable_cons, readable_nil] at hw
  obtain ⟨k, _, rfl, hk, -, t, _, rfl, ht, -, rfl⟩ := hw
  exact ⟨_, .one hk ht⟩

/-- A parameter and a comma before other parameters. -/
theorem moreParams (h : Phrase.params.Covers ps) :
    Phrase.params.Covers (.type :: .ident :: .comma :: ps) := by
  intro w hw
  simp only [readable_cons] at hw
  obtain ⟨k, _, rfl, hk, -, t, _, rfl, ht, -, comma, ps, rfl, hc, -, hw⟩ := hw
  obtain ⟨pe, hpe⟩ := h hw
  exact ⟨_, .more hk ht hc hpe⟩

/-! ### Blocks -/

/-- Statements in braces are a body. -/
theorem braced (h : Phrase.stmts.Covers ss) : Phrase.block.Covers (.lbrace :: ss ++ [.rbrace]) := by
  intro w hw
  simp only [readable_append, readable_cons, readable_nil] at hw
  obtain ⟨_, _, rfl, ⟨l, ss, rfl, hl, -, hw⟩, r, _, rfl, hr, -, rfl⟩ := hw
  obtain ⟨se, hse⟩ := h hw
  exact ⟨_, .braced hl hse hr⟩

/-- No tokens are the empty list of statements. -/
theorem noStmts : Phrase.stmts.Covers [] := by
  intro w hw
  cases readable_nil.mp hw
  exact ⟨_, .nil⟩

/-- A statement before other statements. -/
theorem moreStmts (hs : Phrase.stmt.Covers s) (h : Phrase.stmts.Covers ss) :
    Phrase.stmts.Covers (s ++ ss) := by
  intro w hw
  obtain ⟨w₁, w₂, rfl, h₁, h₂⟩ := readable_append.mp hw
  obtain ⟨s, hs⟩ := hs h₁
  obtain ⟨ss, hss⟩ := h h₂
  exact ⟨_, .cons hs hss⟩

/-! ### Statements -/

/-- A declaration with its initial value. -/
theorem declare (hk : k ∈ [TokenKind.kwLet, .kwConst]) (he : Phrase.expr.Covers e) :
    Phrase.stmt.Covers (k :: .ident :: .assign :: e ++ [.semi]) := by
  intro w hw
  simp only [readable_append, readable_cons, readable_nil] at hw
  obtain ⟨_, _, rfl, ⟨k, _, rfl, rfl, -, t, _, rfl, ht, -, a, e, rfl, ha, -, hw⟩,
    z, _, rfl, hz, -, rfl⟩ := hw
  obtain ⟨ee, hee⟩ := he hw
  exact ⟨_, .declare hk ht ha hee hz⟩

/-- An assignment with its operator and value. -/
theorem assign (hop : op ∈ assignmentOperators) (he : Phrase.expr.Covers e) :
    Phrase.stmt.Covers (.ident :: op :: e ++ [.semi]) := by
  intro w hw
  simp only [readable_append, readable_cons, readable_nil] at hw
  obtain ⟨_, _, rfl, ⟨t, _, rfl, ht, -, a, e, rfl, rfl, -, hw⟩, z, _, rfl, hz, -, rfl⟩ := hw
  obtain ⟨ee, hee⟩ := he hw
  exact ⟨_, .assign ht hop hee hz⟩

/-- A call with a semicolon is a statement. -/
theorem callStmt (hc : Phrase.call.Covers c) : Phrase.stmt.Covers (c ++ [.semi]) := by
  intro w hw
  simp only [readable_append, readable_cons, readable_nil] at hw
  obtain ⟨c, _, rfl, hw, z, _, rfl, hz, -, rfl⟩ := hw
  obtain ⟨ce, hce⟩ := hc hw
  exact ⟨_, .call hce hz⟩

/-- An `if` without an `else`. -/
theorem ifThen (hc : Phrase.expr.Covers c) (hy : Phrase.block.Covers y) :
    Phrase.stmt.Covers (.kwIf :: c ++ y) := by
  intro w hw
  simp only [readable_append, readable_cons] at hw
  obtain ⟨_, y, rfl, ⟨i, c, rfl, hi, -, hw⟩, hw'⟩ := hw
  obtain ⟨ce, hce⟩ := hc hw
  obtain ⟨ye, hye⟩ := hy hw'
  exact ⟨_, .ifThen hi hce hye⟩

/-- An `else` goes to the innermost `if` that can take it, which may be inside the first branch. -/
theorem ifThenElse (hc : Phrase.expr.Covers c) (hy : Phrase.block.Covers y)
    (hn : Phrase.block.Covers n) : Phrase.stmt.Covers (.kwIf :: c ++ y ++ .kwElse :: n) := by
  intro w hw
  simp only [readable_append, readable_cons] at hw
  obtain ⟨_, _, rfl, ⟨_, _, rfl, ⟨i, c, rfl, hi, -, hw⟩, hw'⟩, t, n, rfl, ht, -, hw''⟩ := hw
  obtain ⟨ce, hce⟩ := hc hw
  obtain ⟨ye, hye⟩ := hy hw'
  obtain ⟨ne, hne⟩ := hn hw''
  by_cases hopen : ye.Open
  · obtain ⟨ye', hye'⟩ := hye.absorb hopen ht hne
    exact ⟨_, by simpa using ReadsStmt.ifThen hi hce hye'⟩
  · exact ⟨_, .ifThenElse hi hce hye hopen ht hne⟩

/-- A loop that tests before its body. -/
theorem whileDo (hc : Phrase.expr.Covers c) (hb : Phrase.block.Covers b) :
    Phrase.stmt.Covers (.kwWhile :: c ++ b) := by
  intro w hw
  simp only [readable_append, readable_cons] at hw
  obtain ⟨_, b, rfl, ⟨i, c, rfl, hi, -, hw⟩, hw'⟩ := hw
  obtain ⟨ce, hce⟩ := hc hw
  obtain ⟨be, hbe⟩ := hb hw'
  exact ⟨_, .whileDo hi hce hbe⟩

/-- A loop that tests after its body. -/
theorem doWhile (hb : Phrase.block.Covers b) (hc : Phrase.expr.Covers c) :
    Phrase.stmt.Covers (.kwDo :: b ++ .kwWhile :: c ++ [.semi]) := by
  intro w hw
  simp only [readable_append, readable_cons, readable_nil] at hw
  obtain ⟨_, _, rfl, ⟨_, _, rfl, ⟨i, b, rfl, hi, -, hw⟩, t, c, rfl, ht, -, hw'⟩,
    z, _, rfl, hz, -, rfl⟩ := hw
  obtain ⟨be, hbe⟩ := hb hw
  obtain ⟨ce, hce⟩ := hc hw'
  exact ⟨_, .doWhile hi hbe ht hce hz⟩

/-- A counting loop with its two bounds and a body. -/
theorem forCount (ha : Phrase.expr.Covers a) (hd : d ∈ [TokenKind.kwTo, .kwDownto])
    (hz : Phrase.expr.Covers z) (hb : Phrase.block.Covers b) :
    Phrase.stmt.Covers (.kwFor :: .ident :: .assign :: a ++ d :: z ++ b) := by
  intro w hw
  simp only [readable_append, readable_cons] at hw
  obtain ⟨_, b, rfl, ⟨_, _, rfl, ⟨i, _, rfl, hi, -, t, _, rfl, ht, -, s, a, rfl, hs, -, hw⟩,
    d, z, rfl, rfl, -, hw'⟩, hw''⟩ := hw
  obtain ⟨ae, hae⟩ := ha hw
  obtain ⟨ze, hze⟩ := hz hw'
  obtain ⟨be, hbe⟩ := hb hw''
  exact ⟨_, .forCount hi ht hs hae hd hze hbe⟩

/-- A statement of one word and a semicolon. -/
theorem wordStmt (h : ∀ {i z : Token}, i.kind = k → z.kind = .semi → ∃ s, ReadsStmt [i, z] s) :
    Phrase.stmt.Covers [k, .semi] := by
  intro w hw
  simp only [readable_cons, readable_nil] at hw
  obtain ⟨i, _, rfl, hi, -, z, _, rfl, hz, -, rfl⟩ := hw
  exact h hi hz

/-- A return with a value. -/
theorem retValue (he : Phrase.expr.Covers e) : Phrase.stmt.Covers (.kwReturn :: e ++ [.semi]) := by
  intro w hw
  simp only [readable_append, readable_cons, readable_nil] at hw
  obtain ⟨_, _, rfl, ⟨i, e, rfl, hi, -, hw⟩, z, _, rfl, hz, -, rfl⟩ := hw
  obtain ⟨ee, hee⟩ := he hw
  exact ⟨_, .retValue hi hee hz⟩

/-! ### Expressions -/

/-- A conditional expression with its condition and two branches. -/
theorem ternary (hc : (Phrase.level precedence).Covers c) (hy : Phrase.expr.Covers y)
    (hn : Phrase.expr.Covers n) : Phrase.expr.Covers (c ++ .question :: y ++ .colon :: n) := by
  intro w hw
  simp only [readable_append, readable_cons] at hw
  obtain ⟨_, _, rfl, ⟨c, _, rfl, hw, q, y, rfl, hq, -, hw'⟩, k, n, rfl, hk, -, hw''⟩ := hw
  obtain ⟨ce, hce⟩ := hc hw
  obtain ⟨ye, hye⟩ := hy hw'
  obtain ⟨ne, hne⟩ := hn hw''
  exact ⟨_, .ternary hce hq hye hk hne⟩

/-- A binary operation: the left operand may be of the same level, the right one binds tighter. -/
theorem binary {kinds : List TokenKind} {levels : List (List TokenKind)}
    (hl : (Phrase.level (kinds :: levels)).Covers l) (hop : op ∈ kinds)
    (hr : (Phrase.level levels).Covers r) :
    (Phrase.level (kinds :: levels)).Covers (l ++ op :: r) := by
  intro w hw
  simp only [readable_append, readable_cons] at hw
  obtain ⟨l, _, rfl, hw, t, r, rfl, rfl, -, hw'⟩ := hw
  obtain ⟨le, hle⟩ := hl hw
  obtain ⟨re, hre⟩ := hr hw'
  exact ⟨_, .binary hle hop hre⟩

/-- A unary operator before its operand. -/
theorem unary (hop : op ∈ unaryOperators) (he : Phrase.unary.Covers e) :
    Phrase.unary.Covers (op :: e) := by
  intro w hw
  obtain ⟨t, e, rfl, rfl, -, hw⟩ := readable_cons.mp hw
  obtain ⟨ee, hee⟩ := he hw
  exact ⟨_, .unary hop hee⟩

theorem atom (hk : k ∈ atoms) : Phrase.primary.Covers [k] := by
  intro w hw
  simp only [readable_cons, readable_nil] at hw
  obtain ⟨t, _, rfl, rfl, hnum, rfl⟩ := hw
  exact atom_hasTree hk hnum

/-- An expression in parentheses is a primary expression. -/
theorem paren (he : Phrase.expr.Covers e) : Phrase.primary.Covers (.lparen :: e ++ [.rparen]) := by
  intro w hw
  simp only [readable_append, readable_cons, readable_nil] at hw
  obtain ⟨_, _, rfl, ⟨l, e, rfl, hl, -, hw⟩, r, _, rfl, hr, -, rfl⟩ := hw
  obtain ⟨ee, hee⟩ := he hw
  exact ⟨_, .paren hl hee hr⟩

theorem callNoArgs : Phrase.call.Covers [.ident, .lparen, .rparen] := by
  intro w hw
  simp only [readable_cons, readable_nil] at hw
  obtain ⟨t, _, rfl, ht, -, l, _, rfl, hl, -, r, _, rfl, hr, -, rfl⟩ := hw
  exact ⟨_, .callNoArgs ht hl hr⟩

/-- A call with arguments in parentheses. -/
theorem callArgs (h : Phrase.args.Covers as) :
    Phrase.call.Covers (.ident :: .lparen :: as ++ [.rparen]) := by
  intro w hw
  simp only [readable_append, readable_cons, readable_nil] at hw
  obtain ⟨_, _, rfl, ⟨t, _, rfl, ht, -, l, es, rfl, hl, -, hw⟩, r, _, rfl, hr, -, rfl⟩ := hw
  obtain ⟨as, has⟩ := h hw
  exact ⟨_, .callArgs ht hl has hr⟩

/-- An argument and a comma before other arguments. -/
theorem moreArgs (he : Phrase.expr.Covers e) (h : Phrase.args.Covers as) :
    Phrase.args.Covers (e ++ .comma :: as) := by
  intro w hw
  simp only [readable_append, readable_cons] at hw
  obtain ⟨e, _, rfl, hw, comma, es, rfl, hc, -, hw'⟩ := hw
  obtain ⟨ee, hee⟩ := he hw
  obtain ⟨as, has⟩ := h hw'
  exact ⟨_, .more hee hc has⟩

end Phrase.Covers

end Pigeon.Grammar

import Pigeon.Proofs.Grammar.Cursor

/-!
# Readers accept what the grammar reads

Where the tokens at a cursor are read as a phrase, and the token after them cannot continue it, the
reader for the phrase gives the tree and ends behind those tokens.

`Reader.Leads r c a c'` leaves open that the bound on the depth is too small. That the bound is
large enough is said elsewhere, for all tokens at once.
-/

namespace Pigeon

open Grammar

namespace Reader

variable {α β : Type} {c c' c'' : Cursor}

/-- The reader gives the result and ends at the second cursor, unless its bound is too small. -/
def Leads (r : Reader α) (c : Cursor) (a : α) (c' : Cursor) : Prop :=
  r c = .error .tooDeep ∨ r c = .ok (a, c')

namespace Leads

theorem tooDeep {a : α} : Leads (throw .tooDeep : Reader α) c a c' := Or.inl rfl

/-- A reader whose bound is used up only says so. -/
theorem of_succ {r : Nat → Reader α} {a : α} (hzero : r 0 = throw .tooDeep) (n : Nat)
    (h : ∀ n, Leads (r (n + 1)) c a c') : Leads (r n) c a c' := by
  cases n with
  | zero =>
      rw [hzero]
      exact .tooDeep
  | succ n => exact h n

theorem pure (a : α) : Leads (pure a) c a c := Or.inr rfl

/-- One reader after another: the second leads on from where the first one ended. -/
theorem bind {r : Reader α} {f : α → Reader β} {a : α} {b : β} (h : Leads r c a c')
    (hf : Leads (f a) c' b c'') : Leads (r >>= f) c b c'' := by
  rcases h with h | h
  · exact Or.inl (by simp [Bind.bind, StateT.bind, Except.bind, h])
  · simpa [Leads, Bind.bind, StateT.bind, Except.bind, h] using hf

theorem map {r : Reader α} {a : α} (f : α → β) (h : Leads r c a c') :
    Leads (f <$> r) c (f a) c' := by
  rcases h with h | h
  · exact Or.inl (by simp [Functor.map, StateT.map, Bind.bind, Except.bind, h])
  · exact Or.inr (by simp [Functor.map, StateT.map, Bind.bind, Except.bind, h, Pure.pure,
      Except.pure])

theorem position {f : Position → Reader α} {a : α} (h : Leads (f c.here.position) c a c') :
    Leads (Reader.position >>= f) c a c' := h

theorem here {f : Token → Reader α} {a : α} (h : Leads (f c.here) c a c') :
    Leads (Reader.here >>= f) c a c' := h

theorem get {f : Cursor → Reader α} {a : α} (h : Leads (f c) c a c') :
    Leads (MonadState.get >>= f) c a c' := h

theorem advance {f : Token → Reader α} {a : α} (h : Leads (f c.here) c.advance a c') :
    Leads (Reader.advance >>= f) c a c' := h

theorem spanFrom {f : Option Span → Reader α} {a : α} {start : Position}
    (h : Leads (f (some ⟨start, c.last.stop⟩)) c a c') :
    Leads (Reader.spanFrom start >>= f) c a c' := h

/-- A numeral that has a value leads on with the value. -/
theorem numeral {f : α → Reader β} {b : β} {x : Except NumeralError α} {n : α} (hx : x = .ok n)
    (h : Leads (f n) c b c') : Leads (Reader.numeral x >>= f) c b c' := by
  subst hx
  exact h

/-- A demanded token that stands under the cursor is passed. -/
theorem expect {f : Token → Reader α} {a : α} {kind : TokenKind} {what : Expected}
    (hkind : c.here.kind = kind) (h : Leads (f c.here) c.advance a c') :
    Leads (Reader.expect kind what >>= f) c a c' := by
  refine bind (Or.inr ?_) h
  rw [expect_apply, if_pos hkind]
  rfl

/-- A token of an accepted kind is passed. -/
theorem accept {f : Option Token → Reader α} {a : α} {kinds : List TokenKind}
    (hkind : c.here.kind ∈ kinds) (h : Leads (f (some c.here)) c.advance a c') :
    Leads (Reader.accept? kinds >>= f) c a c' := by
  refine bind (Or.inr ?_) h
  rw [accept?_apply, if_pos (by simpa using hkind)]

/-- A token of no accepted kind is left where it is. -/
theorem reject {f : Option Token → Reader α} {a : α} {kinds : List TokenKind}
    (hkind : c.here.kind ∉ kinds) (h : Leads (f none) c a c') :
    Leads (Reader.accept? kinds >>= f) c a c' := by
  refine bind (Or.inr ?_) h
  rw [accept?_apply, if_neg (by simpa using hkind)]

/-- A reader that passes one token gives the token its span. -/
theorem token (f : Token → Option Span → α) :
    Leads (Reader.advance >>= fun t => Reader.spanFrom c.here.position >>= fun sp =>
      Pure.pure (f t sp)) c (f c.here (some ⟨c.here.position, c.advance.last.stop⟩)) c.advance :=
  .advance (.spanFrom (.pure _))

end Leads

end Reader

open Reader

/-! ## Expressions -/

namespace Grammar

/-- The reader for a phrase that is an expression. -/
def Phrase.reader : Phrase → Nat → Reader Expr
  | .expr => Reader.expr
  | .level levels => fun fuel => Reader.binary fuel levels
  | .unary => Reader.unary
  | .primary => Reader.primary
  | .call => Reader.call
  | _ => fun _ => throw .tooDeep

/-- The kinds of tokens that may continue an expression. -/
def Phrase.continuing : Phrase → List TokenKind
  | .expr => .lparen :: .question :: precedence.flatten
  | .level levels => .lparen :: levels.flatten
  | .unary | .primary => [.lparen]
  | _ => []

/-- The reader for the operands of one level arrives at its loop with the expression read so far. -/
def Arrives (kinds : List TokenKind) (tighter : List (List TokenKind)) (c : Cursor) (e : Expr)
    (c' : Cursor) : Prop :=
  ∀ n, (binary n tighter >>= binaryTail n c.here.position kinds tighter) c = .error .tooDeep ∨
    ∃ m, (binary n tighter >>= binaryTail n c.here.position kinds tighter) c =
      binaryTail m c.here.position kinds tighter e c'

/-- The reader for the phrase gets from one cursor to the other. At a level of operators this is
said of its loop, so that it can go on with a further operator of the same level. -/
def Phrase.Reaches (c : Cursor) (e : Expr) (c' : Cursor) : Phrase → Prop
  | .level (kinds :: tighter) =>
    c'.here.kind ∉ (Phrase.level tighter).continuing → Arrives kinds tighter c e c'
  | p => c'.here.kind ∉ p.continuing → ∀ n, Leads (p.reader n) c e c'

/-- The loop ends where no operator of its level follows. -/
theorem Arrives.leads {kinds : List TokenKind} {tighter : List (List TokenKind)} {c c' : Cursor}
    {e : Expr} (h : Arrives kinds tighter c e c') (hnext : c'.here.kind ∉ kinds) (n : Nat) :
    Leads (binary n (kinds :: tighter)) c e c' := by
  refine .of_succ (r := (binary · (kinds :: tighter))) rfl n fun n => ?_
  refine .position ?_
  rcases h n with h | ⟨m, h⟩
  · exact Or.inl h
  · have hloop : Leads (binaryTail m c.here.position kinds tighter e) c' e c' := by
      cases m with
      | zero => exact .tooDeep
      | succ m => exact .reject hnext (.pure e)
    unfold Leads at hloop ⊢
    rwa [h]

/-- The loop goes on over an operator and its right operand. -/
theorem Arrives.snoc {kinds : List TokenKind} {tighter : List (List TokenKind)}
    {c c₁ c₂ : Cursor} {e r : Expr} (h : Arrives kinds tighter c e c₁)
    (hop : c₁.here.kind ∈ kinds) (hr : ∀ n, Leads (binary n tighter) c₁.advance r c₂) :
    Arrives kinds tighter c
      (.binary (.ofSymbol c₁.here.text) e r (some ⟨c.here.position, c₂.last.stop⟩)) c₂ := by
  intro n
  rcases h n with h | ⟨m, h⟩
  · exact Or.inl h
  · rw [h]
    cases m with
    | zero => exact Or.inl rfl
    | succ m =>
        have haccept : accept? kinds c₁ = .ok (some c₁.here, c₁.advance) := by
          rw [accept?_apply, if_pos (by simpa using hop)]
        rcases hr m with hr | hr
        · left
          simp [binaryTail, Bind.bind, StateT.bind, Except.bind, haccept, hr]
        · right
          refine ⟨m, ?_⟩
          simp only [binaryTail, Bind.bind, StateT.bind, Except.bind, haccept, hr]
          rfl

/-- Where the next token does not continue the phrase, the reader of the phrase ends with the tree.
-/
theorem Phrase.Reaches.leads {p : Phrase} {c c' : Cursor} {e : Expr} (h : p.Reaches c e c')
    (hnext : c'.here.kind ∉ p.continuing) (n : Nat) : Leads (p.reader n) c e c' := by
  match p, h with
  | .level (kinds :: tighter), h =>
      simp only [Phrase.continuing, List.flatten_cons, List.mem_cons, List.mem_append,
        not_or] at hnext
      refine (h ?_).leads hnext.2.1 n
      simp [Phrase.continuing, hnext.1, hnext.2.2]
  | .level [], h | .expr, h | .unary, h | .primary, h | .call, h | .program, h | .funcDecl, h
  | .params, h | .block, h | .stmts, h | .stmt, h | .args, h => exact h hnext n

/-- The operators of a level cannot continue its operands. -/
theorem Phrase.InLanguage.not_mem_continuing {kinds : List TokenKind}
    {levels : List (List TokenKind)} (h : (Phrase.level (kinds :: levels)).InLanguage)
    {k : TokenKind} (hk : k ∈ kinds) : k ∉ (Phrase.level levels).continuing := by
  obtain ⟨looser, hlevels⟩ := h
  have hnodup : precedence.flatten.Nodup := by decide
  have hparen : TokenKind.lparen ∉ precedence.flatten := by decide
  rw [← hlevels, List.flatten_append, List.flatten_cons] at hnodup hparen
  have hdisjoint := (List.nodup_append.mp (List.nodup_append.mp hnodup).2.1).2.2 k hk
  simp only [Phrase.continuing, List.mem_cons, not_or]
  refine ⟨?_, fun hmem => hdisjoint k hmem rfl⟩
  rintro rfl
  exact hparen (by simp [hk])

/-- A call begins with a name and a parenthesis. -/
theorem ReadsExpr.call_head {w : List Token} {e : Expr} (h : ReadsExpr .call w e) {c c' : Cursor}
    (hpass : c.Passes w c') : c.here.kind = .ident ∧ c.nextKind = .lparen := by
  cases h with
  | callNoArgs ht hl hr | callArgs ht hl hargs hr =>
      rw [hpass.nextKind, hpass.cons.1, hpass.cons.2.cons.1]
      exact ⟨ht, hl⟩

/-! ### What the readers do once their parts are read

A reader gets from one cursor to another if it does so for its parts and meets the tokens between
them. One lemma for each way to form an expression; what was read has the span of the tokens that
were passed. -/

namespace Phrase.Reaches

variable {c c' c₁ c₂ : Cursor} {e l r ce ye ne : Expr} {kinds : List TokenKind}
  {levels : List (List TokenKind)}

/-- No question mark follows, so what could be a condition is the whole expression. -/
theorem plain (h : (Phrase.level precedence).Reaches c e c') : Phrase.expr.Reaches c e c' := by
  intro hnext n
  refine .of_succ rfl n fun n => ?_
  simp only [Phrase.continuing, List.mem_cons, not_or] at hnext
  refine .position (.bind (h.leads ?_ n) (.reject ?_ (.pure _)))
  · simp [Phrase.continuing, hnext.1, hnext.2.2]
  · simp [hnext.2.1]

/-- Neither mark of a conditional expression continues the part before it. -/
theorem ternary (hc : (Phrase.level precedence).Reaches c ce c₁) (hq : c₁.here.kind = .question)
    (hy : Phrase.expr.Reaches c₁.advance ye c₂) (hk : c₂.here.kind = .colon)
    (hn : Phrase.expr.Reaches c₂.advance ne c') :
    Phrase.expr.Reaches c (.ternary ce ye ne (some ⟨c.here.position, c'.last.stop⟩)) c' := by
  intro hnext n
  refine .of_succ rfl n fun n => ?_
  have hcond := hc.leads (by rw [hq]; decide) n
  have hyes := hy.leads (by rw [hk]; decide) n
  exact .position (.bind hcond (.accept (by simp [hq])
    (.bind hyes (.expect hk (.bind (hn.leads hnext n) (.spanFrom (.pure _)))))))

/-- The reader of a level first reads an operand of the tighter level. -/
theorem tighter (h : (Phrase.level levels).Reaches c e c') :
    (Phrase.level (kinds :: levels)).Reaches c e c' := by
  intro hnext n
  rcases h.leads hnext n with hrun | hrun
  · left
    simp only [Bind.bind, StateT.bind, Except.bind, Phrase.reader] at hrun ⊢
    rw [hrun]
  · right
    refine ⟨n, ?_⟩
    simp only [Bind.bind, StateT.bind, Except.bind, Phrase.reader] at hrun ⊢
    rw [hrun]

/-- The loop of the reader stands after the left operand, and takes one operator more. -/
theorem binary (hlang : (Phrase.level (kinds :: levels)).InLanguage)
    (hl : (Phrase.level (kinds :: levels)).Reaches c l c₁) (ht : c₁.here.kind ∈ kinds)
    (hr : (Phrase.level levels).Reaches c₁.advance r c') :
    (Phrase.level (kinds :: levels)).Reaches c
      (.binary (.ofSymbol c₁.here.text) l r (some ⟨c.here.position, c'.last.stop⟩)) c' :=
  fun hnext => (hl (hlang.not_mem_continuing ht)).snoc ht (hr.leads hnext)

/-- An operand of the tightest level. -/
theorem tightest (h : Phrase.unary.Reaches c e c') : (Phrase.level []).Reaches c e c' := by
  intro hnext n
  refine .of_succ rfl n fun n => ?_
  exact h.leads hnext n

/-- A sign before an operand. -/
theorem unary (ht : c.here.kind ∈ unaryOperators) (h : Phrase.unary.Reaches c.advance e c') :
    Phrase.unary.Reaches c
      (.unary (.ofSymbol c.here.text) e (some ⟨c.here.position, c'.last.stop⟩)) c' := by
  intro hnext n
  refine .of_succ rfl n fun n => ?_
  exact .position (.accept ht (.bind (h.leads hnext n) (.spanFrom (.pure _))))

/-- An operand without a sign. -/
theorem unsigned (hsign : c.here.kind ∉ unaryOperators) (h : Phrase.primary.Reaches c e c') :
    Phrase.unary.Reaches c e c' := by
  intro hnext n
  refine .of_succ rfl n fun n => ?_
  exact .position (.reject hsign (h.leads hnext n))

/-- An integer literal. -/
theorem int {n : Int} (hk : c.here.kind = .int) (hn : Numeral.readInt c.here.text = .ok n) :
    Phrase.primary.Reaches c (.int n (some ⟨c.here.position, c.advance.last.stop⟩)) c.advance := by
  intro _ fuel
  refine .of_succ rfl fuel fun fuel => .position (.here ?_)
  rw [hk]
  exact .advance (.numeral hn (.spanFrom (.pure _)))

/-- A literal with a point. -/
theorem float {x : Float} (hk : c.here.kind = .float)
    (hx : Numeral.readFloat c.here.text = .ok x) :
    Phrase.primary.Reaches c (.float x (some ⟨c.here.position, c.advance.last.stop⟩))
      c.advance := by
  intro _ fuel
  refine .of_succ rfl fuel fun fuel => .position (.here ?_)
  rw [hk]
  exact .advance (.numeral hx (.spanFrom (.pure _)))

/-- A string literal. -/
theorem string (hk : c.here.kind = .string) :
    Phrase.primary.Reaches c
      (.string c.here.text (some ⟨c.here.position, c.advance.last.stop⟩)) c.advance := by
  intro _ fuel
  refine .of_succ rfl fuel fun fuel => .position (.here ?_)
  rw [hk]
  exact .token fun t sp => Expr.string t.text sp

/-- One of the two truth values. -/
theorem bool {b : Bool} (hk : c.here.kind = if b then .kwTrue else .kwFalse) :
    Phrase.primary.Reaches c (.bool b (some ⟨c.here.position, c.advance.last.stop⟩)) c.advance := by
  intro _ fuel
  refine .of_succ rfl fuel fun fuel => .position (.here ?_)
  cases b with
  | true =>
      rw [show c.here.kind = .kwTrue from hk]
      exact .token fun _ sp => Expr.bool true sp
  | false =>
      rw [show c.here.kind = .kwFalse from hk]
      exact .token fun _ sp => Expr.bool false sp

/-- A name is a variable and no call, since no parenthesis follows. -/
theorem var (hk : c.here.kind = .ident) (hsecond : c.nextKind = c.advance.here.kind) :
    Phrase.primary.Reaches c
      (.var c.here.text (some ⟨c.here.position, c.advance.last.stop⟩)) c.advance := by
  intro hnext fuel
  refine .of_succ rfl fuel fun fuel => .position (.here ?_)
  rw [hk]
  refine .get ?_
  rw [if_neg (by simpa [hsecond, Phrase.continuing] using hnext)]
  exact .token fun t sp => Expr.var t.text sp

/-- An expression between parentheses. -/
theorem paren (hl : c.here.kind = .lparen) (h : Phrase.expr.Reaches c.advance e c₁)
    (hr : c₁.here.kind = .rparen) :
    Phrase.primary.Reaches c (.paren e (some ⟨c.here.position, c₁.advance.last.stop⟩))
      c₁.advance := by
  intro _ n
  refine .of_succ rfl n fun n => .position (.here ?_)
  rw [hl]
  exact .advance (.bind (h.leads (by rw [hr]; decide) n) (.expect hr (.spanFrom (.pure _))))

/-- A name before a parenthesis begins a call. -/
theorem called (hk : c.here.kind = .ident) (hsecond : c.nextKind = .lparen)
    (h : Phrase.call.Reaches c e c') : Phrase.primary.Reaches c e c' := by
  intro _ n
  refine .of_succ rfl n fun n => .position (.here ?_)
  rw [hk]
  refine .get ?_
  rw [if_pos hsecond]
  exact h.leads (by simp [Phrase.continuing]) n

/-- A call without arguments. -/
theorem callNoArgs (hr : c.advance.advance.here.kind = .rparen) :
    Phrase.call.Reaches c
      (.call c.here.text [] (some ⟨c.here.position, c.advance.advance.advance.last.stop⟩))
      c.advance.advance.advance := by
  intro _ n
  refine .of_succ rfl n fun n => .position (.advance (.advance (.here ?_)))
  rw [if_pos hr]
  exact .bind (.pure _) (.expect hr (.spanFrom (.pure _)))

/-- A call whose arguments do not begin with the closing parenthesis. -/
theorem callArgs {es : List Expr} (hsome : c.advance.advance.here.kind ≠ .rparen)
    (h : ∀ n, Leads (arguments n) c.advance.advance es c₁) (hr : c₁.here.kind = .rparen) :
    Phrase.call.Reaches c
      (.call c.here.text es (some ⟨c.here.position, c₁.advance.last.stop⟩)) c₁.advance := by
  intro _ n
  refine .of_succ rfl n fun n => .position (.advance (.advance (.here ?_)))
  rw [if_neg hsome]
  exact .bind (h n) (.expect hr (.spanFrom (.pure _)))

/-- The last argument, which the closing parenthesis follows. -/
theorem lastArg (h : Phrase.expr.Reaches c e c') (hnext : c'.here.kind = .rparen) (n : Nat) :
    Leads (arguments n) c [e] c' := by
  refine .of_succ rfl n fun n => ?_
  exact .bind (h.leads (by rw [hnext]; decide) n) (.reject (by simp [hnext]) (.pure _))

/-- An argument before others. -/
theorem moreArgs {es : List Expr} (h : Phrase.expr.Reaches c e c₁) (ht : c₁.here.kind = .comma)
    (hs : ∀ n, Leads (arguments n) c₁.advance es c') (n : Nat) :
    Leads (arguments n) c (e :: es) c' := by
  refine .of_succ rfl n fun n => ?_
  exact .bind (h.leads (by rw [ht]; decide) n) (.accept (by simp [ht]) (.bind (hs n) (.pure _)))

end Phrase.Reaches

/-! ### Every expression that the grammar reads -/

mutual

-- In each case the tokens are taken apart at those of the rule, which gives the cursors between the
-- parts; then the lemma for this way to form an expression applies.

/-- What the grammar reads as an expression, the reader for the phrase reads as the same tree. -/
theorem ReadsExpr.reaches : ∀ {p : Phrase} {w : List Token} {e : Expr}, ReadsExpr p w e →
    p.InLanguage → ∀ {c c' : Cursor}, c.Passes w c' → p.Reaches c e c'
  | _, _, _, .plain h, _, _, _, hpass => .plain (h.reaches (List.suffix_refl _) hpass)
  | _, _, _, .ternary hc hq hy hk hn, _, c, c', hpass => by
      rw [hpass.span (by simp)]
      obtain ⟨c₂, hleft, hright⟩ := hpass.split
      obtain ⟨c₁, hpass₁, hmiddle⟩ := hleft.split
      obtain ⟨rfl, hpass₂⟩ := hmiddle.cons
      obtain ⟨rfl, hpass₃⟩ := hright.cons
      exact .ternary (hc.reaches (List.suffix_refl _) hpass₁) hq (hy.reaches trivial hpass₂) hk
        (hn.reaches trivial hpass₃)
  | _, _, _, .tighter h, hp, _, _, hpass => .tighter (h.reaches hp.tail hpass)
  | _, _, _, .binary hl ht hr, hp, c, c', hpass => by
      rw [hpass.span (by simp)]
      obtain ⟨c₁, hpass₁, hright⟩ := hpass.split
      obtain ⟨rfl, hpass₂⟩ := hright.cons
      exact .binary hp (hl.reaches hp hpass₁) ht (hr.reaches hp.tail hpass₂)
  | _, _, _, .tightest h, _, _, _, hpass => .tightest (h.reaches trivial hpass)
  | _, _, _, .unary ht h, _, c, c', hpass => by
      rw [hpass.span (by simp)]
      obtain ⟨rfl, hpass'⟩ := hpass.cons
      exact .unary ht (h.reaches trivial hpass')
  | _, _, _, .unsigned h, _, c, c', hpass =>
    .unsigned (hpass.here_not_mem h.derives (by decide) (by decide)) (h.reaches trivial hpass)
  | _, _, _, .int ht hn, _, c, c', hpass => by
      obtain ⟨rfl, rfl⟩ := hpass.single
      rw [hpass.span (by simp)]
      exact .int ht hn
  | _, _, _, .float ht hx, _, c, c', hpass => by
      obtain ⟨rfl, rfl⟩ := hpass.single
      rw [hpass.span (by simp)]
      exact .float ht hx
  | _, _, _, .string ht, _, c, c', hpass => by
      obtain ⟨rfl, rfl⟩ := hpass.single
      rw [hpass.span (by simp)]
      exact .string ht
  | _, _, _, .true ht, _, c, c', hpass => by
      obtain ⟨rfl, rfl⟩ := hpass.single
      rw [hpass.span (by simp)]
      exact .bool ht
  | _, _, _, .false ht, _, c, c', hpass => by
      obtain ⟨rfl, rfl⟩ := hpass.single
      rw [hpass.span (by simp)]
      exact .bool ht
  | _, _, _, .var ht, _, c, c', hpass => by
      obtain ⟨rfl, rfl⟩ := hpass.single
      rw [hpass.span (by simp)]
      exact .var ht hpass.nextKind
  | _, _, _, .paren hl h hr, _, c, c', hpass => by
      rw [hpass.span (by simp)]
      obtain ⟨c₁, hleft, hright⟩ := hpass.split
      obtain ⟨rfl, hpass₁⟩ := hleft.cons
      obtain ⟨rfl, rfl⟩ := hright.single
      exact .paren hl (h.reaches trivial hpass₁) hr
  | _, _, _, .called h, _, c, c', hpass => by
      obtain ⟨hname, hsecond⟩ := h.call_head hpass
      exact .called hname hsecond (h.reaches trivial hpass)
  | _, _, _, .callNoArgs ht hl hr, _, c, c', hpass => by
      rw [hpass.span (by simp)]
      obtain ⟨rfl, hpass₁⟩ := hpass.cons
      obtain ⟨rfl, hpass₂⟩ := hpass₁.cons
      obtain ⟨rfl, rfl⟩ := hpass₂.single
      exact .callNoArgs hr
  | _, _, _, .callArgs ht hl h hr, _, c, c', hpass => by
      rw [hpass.span (by simp)]
      obtain ⟨c₁, hleft, hright⟩ := hpass.split
      obtain ⟨rfl, hpass₁⟩ := hleft.cons
      obtain ⟨rfl, hpass₂⟩ := hpass₁.cons
      obtain ⟨rfl, rfl⟩ := hright.single
      exact .callArgs (hpass₂.here_ne h.derives (by decide) (by decide)) (h.leads hpass₂ hr) hr

/-- Arguments are read up to the closing parenthesis. -/
theorem ReadsArgs.leads : ∀ {w : List Token} {es : List Expr}, ReadsArgs w es →
    ∀ {c c' : Cursor}, c.Passes w c' → c'.here.kind = .rparen → ∀ n, Leads (arguments n) c es c'
  | _, _, .one h, _, _, hpass, hnext, n =>
    Phrase.Reaches.lastArg (h.reaches trivial hpass) hnext n
  | _, _, .more h ht hs, c, c', hpass, hnext, n => by
      obtain ⟨c₁, hpass₁, hright⟩ := hpass.split
      obtain ⟨rfl, hpass₂⟩ := hright.cons
      exact Phrase.Reaches.moreArgs (h.reaches trivial hpass₁) ht (hs.leads hpass₂ hnext) n

end

/-- An expression is read where no token follows that may continue it. -/
theorem ReadsExpr.leads {w : List Token} {e : Expr} (h : ReadsExpr .expr w e) {c c' : Cursor}
    (hpass : c.Passes w c') (hnext : c'.here.kind ∉ Phrase.expr.continuing) (n : Nat) :
    Leads (expr n) c e c' :=
  (h.reaches trivial hpass).leads hnext n

/-! ## Statements -/

/-- A body does not begin with a token that may continue an expression. -/
theorem ReadsBlock.not_continuing {w : List Token} {b : Block} (h : ReadsBlock w b)
    {c c' : Cursor} (hpass : c.Passes w c') : c.here.kind ∉ Phrase.expr.continuing :=
  hpass.here_not_mem h.derives (by decide) (by decide)

/-! ### What the readers do once their parts are read

One lemma for each way to form a statement or a block, like those for expressions. -/

end Grammar

namespace Reader.Leads

variable {n : Nat} {c c' c₁ c₂ c₃ : Cursor} {e bound : Expr} {yes no body : Block}

/-- The reader of statements takes the branch of declarations at `let` and `const`. -/
theorem declare (hk : c.here.kind ∈ [TokenKind.kwLet, .kwConst])
    (ht : c.advance.here.kind = .ident) (ha : c.advance.advance.here.kind = .assign)
    (h : Leads (expr n) c.advance.advance.advance e c₁) (hz : c₁.here.kind = .semi) :
    Leads (stmt (n + 1)) c (.declare c.advance.here.text e (c.here.kind = .kwConst)
      (some ⟨c.here.position, c₁.advance.last.stop⟩)) c₁.advance := by
  have hdecl : Leads (declaration n) c _ c₁.advance :=
    .position (.advance (.expect ht (.expect ha (.bind h (.expect hz (.spanFrom (.pure _)))))))
  refine .position (.here ?_)
  rcases List.mem_pair.mp hk with hk | hk
  · simpa only [hk] using hdecl
  · simpa only [hk] using hdecl

/-- What follows the name tells an assignment from a call. -/
theorem assign (ht : c.here.kind = .ident) (hsecond : c.nextKind = c.advance.here.kind)
    (ha : c.advance.here.kind ∈ assignmentKinds) (h : Leads (expr n) c.advance.advance e c₁)
    (hz : c₁.here.kind = .semi) :
    Leads (stmt (n + 1)) c (.assign c.here.text (.ofSymbol c.advance.here.text) e
      (some ⟨c.here.position, c₁.advance.last.stop⟩)) c₁.advance := by
  have hparen : c.nextKind ≠ .lparen := by
    intro hparen
    rw [← hsecond, hparen] at ha
    exact absurd ha (by decide)
  refine .position (.here ?_)
  rw [ht]
  refine .position (.get ?_)
  rw [if_neg hparen]
  exact .advance (.accept ha (.bind h (.expect hz (.spanFrom (.pure _)))))

/-- A name before an opening parenthesis makes it take the branch of calls. -/
theorem callStmt (ht : c.here.kind = .ident) (hsecond : c.nextKind = .lparen)
    (h : Leads (call n) c e c₁) (hz : c₁.here.kind = .semi) :
    Leads (stmt (n + 1)) c (.call e (some ⟨c.here.position, c₁.advance.last.stop⟩))
      c₁.advance := by
  refine .position (.here ?_)
  rw [ht]
  refine .position (.get ?_)
  rw [if_pos hsecond]
  exact .bind h (.expect hz (.spanFrom (.pure _)))

/-- No `else` follows the body. -/
theorem ifThen (hi : c.here.kind = .kwIf) (hc : Leads (expr n) c.advance e c₁)
    (hy : Leads (block n) c₁ yes c') (helse : c'.here.kind ≠ .kwElse) :
    Leads (stmt (n + 1)) c (.ifThen e yes (some ⟨c.here.position, c'.last.stop⟩)) c' := by
  refine .position (.here ?_)
  rw [hi]
  exact .advance (.bind hc (.bind hy (.reject (by simpa using helse) (.spanFrom (.pure _)))))

/-- After the first branch of an `if` it goes on at an `else`. -/
theorem ifThenElse (hi : c.here.kind = .kwIf) (hc : Leads (expr n) c.advance e c₁)
    (hy : Leads (block n) c₁ yes c₂) (ht : c₂.here.kind = .kwElse)
    (hn : Leads (block n) c₂.advance no c') :
    Leads (stmt (n + 1)) c (.ifThenElse e yes no (some ⟨c.here.position, c'.last.stop⟩)) c' := by
  refine .position (.here ?_)
  rw [hi]
  exact .advance (.bind hc (.bind hy (.accept (by simp [ht]) (.bind hn (.spanFrom (.pure _))))))

/-- At `while` it reads a condition and a body. -/
theorem whileDo (hi : c.here.kind = .kwWhile) (hc : Leads (expr n) c.advance e c₁)
    (hb : Leads (block n) c₁ body c') :
    Leads (stmt (n + 1)) c (.whileDo e body (some ⟨c.here.position, c'.last.stop⟩)) c' := by
  refine .position (.here ?_)
  rw [hi]
  exact .advance (.bind hc (.bind hb (.spanFrom (.pure _))))

/-- At `do` it reads a body, then the word `while`, a condition and a semicolon. -/
theorem doWhile (hi : c.here.kind = .kwDo) (hb : Leads (block n) c.advance body c₁)
    (ht : c₁.here.kind = .kwWhile) (hc : Leads (expr n) c₁.advance e c₂)
    (hz : c₂.here.kind = .semi) :
    Leads (stmt (n + 1)) c (.doWhile body e (some ⟨c.here.position, c₂.advance.last.stop⟩))
      c₂.advance := by
  refine .position (.here ?_)
  rw [hi]
  exact .advance (.bind hb (.expect ht (.bind hc (.expect hz (.spanFrom (.pure _))))))

/-- At `for` it reads the counter, the first bound, a direction, the other bound and a body. -/
theorem forCount (hi : c.here.kind = .kwFor) (ht : c.advance.here.kind = .ident)
    (hs : c.advance.advance.here.kind = .assign)
    (ha : Leads (expr n) c.advance.advance.advance e c₁)
    (hd : c₁.here.kind ∈ [TokenKind.kwTo, .kwDownto]) (hz : Leads (expr n) c₁.advance bound c₂)
    (hb : Leads (block n) c₂ body c') :
    Leads (stmt (n + 1)) c (.forCount c.advance.here.text e bound (.ofWord c₁.here.text) body
      (some ⟨c.here.position, c'.last.stop⟩)) c' := by
  refine .position (.here ?_)
  rw [hi]
  exact .advance (.expect ht (.expect hs (.bind ha (.accept hd (.bind hz (.bind hb
    (.spanFrom (.pure _))))))))

/-- A statement of one word is read up to its semicolon. -/
theorem wordStmt {form : Option Span → Stmt} {what : Expected}
    (hz : c.advance.here.kind = .semi) :
    Leads (Reader.wordStmt form what) c
      (form (some ⟨c.here.position, c.advance.advance.last.stop⟩)) c.advance.advance :=
  .position (.advance (.expect hz (.spanFrom (.pure _))))

/-- The word `break` is followed by a semicolon. -/
theorem brk (hi : c.here.kind = .kwBreak) (hz : c.advance.here.kind = .semi) :
    Leads (stmt (n + 1)) c (.brk (some ⟨c.here.position, c.advance.advance.last.stop⟩))
      c.advance.advance := by
  refine .position (.here ?_)
  rw [hi]
  exact .wordStmt hz

/-- The word `continue` is followed by a semicolon. -/
theorem cont (hi : c.here.kind = .kwContinue) (hz : c.advance.here.kind = .semi) :
    Leads (stmt (n + 1)) c (.cont (some ⟨c.here.position, c.advance.advance.last.stop⟩))
      c.advance.advance := by
  refine .position (.here ?_)
  rw [hi]
  exact .wordStmt hz

/-- A semicolon right after `return` means that there is no value. -/
theorem ret (hi : c.here.kind = .kwReturn) (hz : c.advance.here.kind = .semi) :
    Leads (stmt (n + 1)) c (.ret none (some ⟨c.here.position, c.advance.advance.last.stop⟩))
      c.advance.advance := by
  refine .position (.here ?_)
  rw [hi]
  refine .position (.advance (.here ?_))
  rw [if_pos hz]
  exact .bind (.pure _) (.expect hz (.spanFrom (.pure _)))

/-- A value never begins with the semicolon that would end a bare `return`. -/
theorem retValue (hi : c.here.kind = .kwReturn) (hvalue : c.advance.here.kind ≠ .semi)
    (h : Leads (expr n) c.advance e c₁) (hz : c₁.here.kind = .semi) :
    Leads (stmt (n + 1)) c (.ret (some e) (some ⟨c.here.position, c₁.advance.last.stop⟩))
      c₁.advance := by
  refine .position (.here ?_)
  rw [hi]
  refine .position (.advance (.here ?_))
  rw [if_neg hvalue]
  exact .bind (.map some h) (.expect hz (.spanFrom (.pure _)))

/-- Statements between braces. -/
theorem braced {ss : List Stmt} (hl : c.here.kind = .lbrace) (h : Leads (stmts n) c.advance ss c₁) :
    Leads (block (n + 1)) c (.mk ss true (some ⟨c.here.position, c₁.advance.last.stop⟩))
      c₁.advance :=
  .position (.accept (by simp [hl]) (.bind h (.advance (.spanFrom (.pure _)))))

/-- A single statement in the place of a block. -/
theorem single {s : Stmt} (hbrace : c.here.kind ∉ [TokenKind.lbrace]) (h : Leads (stmt n) c s c') :
    Leads (block (n + 1)) c (.mk [s] false (some ⟨c.here.position, c'.last.stop⟩)) c' :=
  .position (.reject hbrace (.bind h (.spanFrom (.pure _))))

end Reader.Leads

namespace Grammar

/-! ### Every statement that the grammar reads -/

mutual

/-- What the grammar reads as a statement, the reader reads as the same tree, unless an `else`
follows that an open body would take. -/
theorem ReadsStmt.leads : ∀ {w : List Token} {s : Stmt}, ReadsStmt w s → ∀ {c c' : Cursor},
    c.Passes w c' → (s.Open → c'.here.kind ≠ .kwElse) → ∀ n, Leads (stmt n) c s c'
  | _, _, _, _, _, _, _, 0 => .tooDeep
  | _, _, .declare hk ht ha h hz, c, c', hpass, _, n + 1 => by
      rw [hpass.span (by simp)]
      obtain ⟨c₁, hleft, hright⟩ := hpass.split
      obtain ⟨rfl, hpass₁⟩ := hleft.cons
      obtain ⟨rfl, hpass₂⟩ := hpass₁.cons
      obtain ⟨rfl, hpass₃⟩ := hpass₂.cons
      obtain ⟨rfl, rfl⟩ := hright.single
      exact .declare hk ht ha (h.leads hpass₃ (by rw [hz]; decide) n) hz
  | _, _, .assign ht ha h hz, c, c', hpass, _, n + 1 => by
      rw [hpass.span (by simp)]
      have hsecond := hpass.nextKind
      obtain ⟨c₁, hleft, hright⟩ := hpass.split
      obtain ⟨rfl, hpass₁⟩ := hleft.cons
      obtain ⟨rfl, hpass₂⟩ := hpass₁.cons
      obtain ⟨rfl, rfl⟩ := hright.single
      exact .assign ht hsecond ha (h.leads hpass₂ (by rw [hz]; decide) n) hz
  | _, _, .call h hz, c, c', hpass, _, n + 1 => by
      rw [hpass.span (by simp)]
      obtain ⟨c₁, hpass₁, hright⟩ := hpass.split
      obtain ⟨rfl, rfl⟩ := hright.single
      obtain ⟨hname, hsecond⟩ := h.call_head hpass₁
      exact .callStmt hname hsecond
        ((h.reaches trivial hpass₁).leads (by simp [Phrase.continuing]) n) hz
  | _, _, .ifThen hi hc hy, c, c', hpass, hopen, n + 1 => by
      rw [hpass.span (by simp)]
      obtain ⟨c₁, hleft, hpass₂⟩ := hpass.split
      obtain ⟨rfl, hpass₁⟩ := hleft.cons
      exact .ifThen hi (hc.leads hpass₁ (hy.not_continuing hpass₂) n)
        (hy.leads hpass₂ (fun _ => hopen trivial) n) (hopen trivial)
  | _, _, .ifThenElse hi hc hy hclosed ht hn, c, c', hpass, hopen, n + 1 => by
      rw [hpass.span (by simp)]
      obtain ⟨c₂, hleft, hright⟩ := hpass.split
      obtain ⟨c₁, hhead, hpass₂⟩ := hleft.split
      obtain ⟨rfl, hpass₁⟩ := hhead.cons
      obtain ⟨rfl, hpass₃⟩ := hright.cons
      exact .ifThenElse hi (hc.leads hpass₁ (hy.not_continuing hpass₂) n)
        (hy.leads hpass₂ (fun h => absurd h hclosed) n) ht (hn.leads hpass₃ hopen n)
  | _, _, .whileDo hi hc hb, c, c', hpass, hopen, n + 1 => by
      rw [hpass.span (by simp)]
      obtain ⟨c₁, hleft, hpass₂⟩ := hpass.split
      obtain ⟨rfl, hpass₁⟩ := hleft.cons
      exact .whileDo hi (hc.leads hpass₁ (hb.not_continuing hpass₂) n) (hb.leads hpass₂ hopen n)
  | _, _, .doWhile hi hb ht hc hz, c, c', hpass, hopen, n + 1 => by
      rw [hpass.span (by simp)]
      obtain ⟨c₂, hleft, hright⟩ := hpass.split
      obtain ⟨c₁, hhead, hmiddle⟩ := hleft.split
      obtain ⟨rfl, hpass₁⟩ := hhead.cons
      obtain ⟨rfl, hpass₂⟩ := hmiddle.cons
      obtain ⟨rfl, rfl⟩ := hright.single
      exact .doWhile hi (hb.leads hpass₁ (fun _ => by simp [ht]) n) ht
        (hc.leads hpass₂ (by rw [hz]; decide) n) hz
  | _, _, .forCount hi ht hs ha hd hz hb, c, c', hpass, hopen, n + 1 => by
      rw [hpass.span (by simp)]
      obtain ⟨c₂, hleft, hpass₃⟩ := hpass.split
      obtain ⟨c₁, hhead, hmiddle⟩ := hleft.split
      obtain ⟨rfl, hname⟩ := hhead.cons
      obtain ⟨rfl, hassign⟩ := hname.cons
      obtain ⟨rfl, hpass₁⟩ := hassign.cons
      obtain ⟨rfl, hpass₂⟩ := hmiddle.cons
      have hfirst : c₁.here.kind ∉ Phrase.expr.continuing :=
        (by decide : ∀ k ∈ [TokenKind.kwTo, .kwDownto], k ∉ Phrase.expr.continuing) _ hd
      exact .forCount hi ht hs (ha.leads hpass₁ hfirst n) hd
        (hz.leads hpass₂ (hb.not_continuing hpass₃) n) (hb.leads hpass₃ hopen n)
  | _, _, .brk hi hz, c, c', hpass, _, n + 1 => by
      rw [hpass.span (by simp)]
      obtain ⟨rfl, hpass₁⟩ := hpass.cons
      obtain ⟨rfl, rfl⟩ := hpass₁.single
      exact .brk hi hz
  | _, _, .cont hi hz, c, c', hpass, _, n + 1 => by
      rw [hpass.span (by simp)]
      obtain ⟨rfl, hpass₁⟩ := hpass.cons
      obtain ⟨rfl, rfl⟩ := hpass₁.single
      exact .cont hi hz
  | _, _, .ret hi hz, c, c', hpass, _, n + 1 => by
      rw [hpass.span (by simp)]
      obtain ⟨rfl, hpass₁⟩ := hpass.cons
      obtain ⟨rfl, rfl⟩ := hpass₁.single
      exact .ret hi hz
  | _, _, .retValue hi h hz, c, c', hpass, _, n + 1 => by
      rw [hpass.span (by simp)]
      obtain ⟨c₁, hleft, hright⟩ := hpass.split
      obtain ⟨rfl, hpass₁⟩ := hleft.cons
      obtain ⟨rfl, rfl⟩ := hright.single
      exact .retValue hi (hpass₁.here_ne h.derives (by decide) (by decide))
        (h.leads hpass₁ (by rw [hz]; decide) n) hz

/-- What the grammar reads as a block, the reader reads as the same tree, unless an `else` follows
that an open body would take. -/
theorem ReadsBlock.leads : ∀ {w : List Token} {b : Block}, ReadsBlock w b → ∀ {c c' : Cursor},
    c.Passes w c' → (b.Open → c'.here.kind ≠ .kwElse) → ∀ n, Leads (block n) c b c'
  | _, _, _, _, _, _, _, 0 => .tooDeep
  | _, _, .braced hl h hr, c, c', hpass, _, n + 1 => by
      rw [hpass.span (by simp)]
      obtain ⟨c₁, hleft, hright⟩ := hpass.split
      obtain ⟨rfl, hpass₁⟩ := hleft.cons
      obtain ⟨rfl, rfl⟩ := hright.single
      exact .braced hl (h.leads hpass₁ hr n)
  | w, _, .single h, c, c', hpass, hopen, n + 1 => by
      rw [hpass.span h.tokens_ne_nil]
      exact .single (hpass.here_not_mem h.derives (by decide) (by decide)) (h.leads hpass hopen n)

/-- Statements are read up to the closing brace. -/
theorem ReadsStmts.leads : ∀ {w : List Token} {ss : List Stmt}, ReadsStmts w ss →
    ∀ {c c' : Cursor}, c.Passes w c' → c'.here.kind = .rbrace → ∀ n, Leads (stmts n) c ss c'
  | _, _, _, _, _, _, _, 0 => .tooDeep
  | _, _, .nil, c, c', hpass, hnext, n + 1 => by
      cases hpass.eq_of_nil
      refine .here ?_
      rw [hnext]
      exact .pure _
  | _, _, .cons h hs, c, c', hpass, hnext, n + 1 => by
      obtain ⟨c₁, hpass₁, hpass₂⟩ := hpass.split
      have helse : c₁.here.kind ≠ .kwElse := by
        rcases hpass₂.first hs.derives with hmem | rfl
        · intro helse
          rw [helse] at hmem
          exact absurd hmem (by decide)
        · simp [hnext]
      refine .here ?_
      split
      · next hbrace => exact absurd hbrace (hpass₁.here_ne h.derives (by decide) (by decide))
      · next heof => exact absurd heof (hpass₁.here_ne h.derives (by decide) (by decide))
      · exact .bind (h.leads hpass₁ (fun _ => helse) n) (.bind (hs.leads hpass₂ hnext n) (.pure _))

end

/-! ## Programs -/

/-- The reader of parameters ends before the closing parenthesis. -/
theorem ReadsParams.leads {w : List Token} {ps : List Param} (h : ReadsParams w ps) {c c' : Cursor}
    (hpass : c.Passes w c') (hnext : c'.here.kind = .rparen) (n : Nat) :
    Leads (params n) c ps c' := by
  induction h generalizing c n with
  | one hk ht =>
      obtain ⟨rfl, hpass₁⟩ := hpass.cons
      obtain ⟨rfl, hend⟩ := hpass₁.cons
      rw [hpass.span (by simp), hend.eq_of_nil]
      refine .of_succ rfl n fun n => ?_
      refine .position (.expect hk (.expect ht (.spanFrom (.reject ?_ (.pure _)))))
      rw [← hend.eq_of_nil, hnext]
      decide
  | @more w' ps k t comma hk ht hc hps ih =>
      obtain ⟨c₁, hparam, hright⟩ := (show c.Passes ([k, t] ++ comma :: w') c' from hpass).split
      rw [hparam.span (by simp)]
      obtain ⟨rfl, hpass₁⟩ := hparam.cons
      obtain ⟨rfl, hend⟩ := hpass₁.cons
      cases hend.eq_of_nil
      obtain ⟨rfl, hpass₂⟩ := hright.cons
      refine .of_succ rfl n fun n => ?_
      exact .position (.expect hk (.expect ht (.spanFrom (.accept (by simp [hc])
        (.bind (ih hpass₂ n) (.pure _))))))

/-- The reader of functions ends after the body, if no `else` follows that the body would claim. -/
theorem ReadsFunc.leads {w : List Token} {d : FuncDecl} (h : ReadsFunc w d) {c c' : Cursor}
    (hpass : c.Passes w c') (hnext : c'.here.kind ≠ .kwElse) (n : Nat) :
    Leads (function n) c d c' := by
  cases h with
  | noParams hk ht hl hr hb =>
      obtain ⟨rfl, hpass₁⟩ := hpass.cons
      obtain ⟨rfl, hpass₂⟩ := hpass₁.cons
      obtain ⟨rfl, hpass₃⟩ := hpass₂.cons
      obtain ⟨rfl, hpass₄⟩ := hpass₃.cons
      rw [hpass.span (by simp)]
      refine .position (.advance (.expect ht (.expect hl (.here ?_))))
      rw [if_pos hr]
      exact .bind (.pure _) (.expect hr (.bind (hb.leads hpass₄ (fun _ => hnext) n)
        (.spanFrom (.pure _))))
  | params hk ht hl hps hr hb =>
      obtain ⟨c₁, hleft, hright⟩ := hpass.split
      obtain ⟨rfl, hpass₁⟩ := hleft.cons
      obtain ⟨rfl, hpass₂⟩ := hpass₁.cons
      obtain ⟨rfl, hpass₃⟩ := hpass₂.cons
      obtain ⟨rfl, hpass₄⟩ := hright.cons
      have hsome : c.advance.advance.advance.here.kind ≠ .rparen :=
        hpass₃.here_ne hps.derives (by decide) (by decide)
      rw [hpass.span (by simp)]
      refine .position (.advance (.expect ht (.expect hl (.here ?_))))
      rw [if_neg hsome]
      exact .bind (hps.leads hpass₃ hr n) (.expect hr (.bind (hb.leads hpass₄ (fun _ => hnext) n)
        (.spanFrom (.pure _))))

/-- No `else` follows an item. -/
theorem ReadsItems.not_else {w : List Token} {items : List Item} (h : ReadsItems w items)
    {c c' : Cursor} (hpass : c.Passes w c') (hnext : c'.here.kind = .eof) :
    c.here.kind ≠ .kwElse := by
  rcases hpass.first h.derives with hfirst | rfl
  · intro helse
    rw [helse] at hfirst
    exact absurd hfirst (by decide)
  · simp [hnext]

/-- Items are read up to the end of file. -/
theorem ReadsItems.leads {w : List Token} {items : List Item} (h : ReadsItems w items)
    {c c' : Cursor} (hpass : c.Passes w c') (hnext : c'.here.kind = .eof) (n : Nat) :
    Leads (Reader.items n) c items c' := by
  induction h generalizing c n with
  | nil =>
      cases hpass.eq_of_nil
      refine .of_succ rfl n fun n => ?_
      refine .here ?_
      rw [hnext]
      exact .pure _
  | func hd hitems ih =>
      obtain ⟨c₁, hpass₁, hpass₂⟩ := hpass.split
      have hfirst : c.here.kind = .type := by
        simpa [Phrase.first] using hpass₁.first_of_not_none hd.derives (by decide)
      refine .of_succ rfl n fun n => ?_
      refine .here ?_
      rw [hfirst]
      exact .bind (hd.leads hpass₁ (hitems.not_else hpass₂ hnext) n)
        (.bind (ih hpass₂ n) (.pure _))
  | stmt hs hitems ih =>
      obtain ⟨c₁, hpass₁, hpass₂⟩ := hpass.split
      refine .of_succ rfl n fun n => ?_
      refine .here ?_
      split
      · next heof => exact absurd heof (hpass₁.here_ne hs.derives (by decide) (by decide))
      · next htype => exact absurd htype (hpass₁.here_ne hs.derives (by decide) (by decide))
      · exact .bind (hs.leads hpass₁ (fun _ => hitems.not_else hpass₂ hnext) n)
          (.bind (ih hpass₂ n) (.pure _))

end Grammar

end Pigeon

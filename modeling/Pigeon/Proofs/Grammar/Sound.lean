import Pigeon.Proofs.Grammar.Cursor

/-!
# What readers do

Where an end of file stands ahead, a reader with a large enough bound on its depth either reads a
phrase of the grammar or fails because of one of the tokens. It looks at no token beyond the end of
file, and a larger bound changes nothing.

`Reader.Settles beyond r r' c P` says all this of a reader `r` at a cursor `c`. What is read, the
tokens that are passed and the cursor after them satisfy `P`. The reader `r'` is the same one with a
larger bound. It gives the same result where the tokens `beyond` stand after all others.

The bounds are counted in tokens that are left: sixteen calls suffice between one token and the
next, and each reader needs a few more, according to how far it is from the readers that pass a
token at once.
-/

namespace Pigeon

open Grammar Token

/-! ## Cursors before an end of file -/

namespace Cursor

/-- The same place, with further tokens after all others. -/
def followedBy (c : Cursor) (beyond : List Token) : Cursor :=
  { c with ahead := c.ahead ++ beyond }

/-- An end of file stands ahead. -/
def Bounded (c : Cursor) : Prop := ∃ t ∈ c.tokens, t.kind = .eof

/-- An end of file that stands ahead still does after tokens that are none. -/
theorem Bounded.of_passes {c c' : Cursor} {w : List Token} (h : c.Bounded) (hpass : c.Passes w c') :
    c'.Bounded := by
  obtain ⟨t, ht, heof⟩ := h
  rw [hpass.tokens] at ht
  exact ⟨t, (List.mem_append.mp ht).resolve_left fun hmem => hpass.inner t hmem heof, heof⟩

/-- Before the end of file there is a next token. -/
theorem Bounded.ahead {c : Cursor} (h : c.Bounded) (hne : c.here.kind ≠ .eof) :
    ∃ t ts, c.ahead = t :: ts := by
  obtain ⟨t, ht, heof⟩ := h
  rcases List.mem_cons.mp ht with rfl | ht
  · exact absurd heof hne
  · exact List.exists_cons_of_ne_nil (List.ne_nil_of_mem ht)

/-- Before the end of file, `advance` passes the token at hand and nothing else. -/
theorem Bounded.passes {c : Cursor} (h : c.Bounded) (hne : c.here.kind ≠ .eof) :
    c.Passes [c.here] c.advance := by
  obtain ⟨t, ts, hahead⟩ := h.ahead hne
  have hadvance : c.advance = ⟨c.here, t, ts⟩ := by rw [Cursor.advance, if_neg hne, hahead]
  rw [hadvance]
  exact ⟨by simp [Cursor.tokens, hahead], rfl, by simpa using hne⟩

/-- Before the end of file, advancing does not see the tokens beyond it. -/
theorem Bounded.advance_followedBy {c : Cursor} (h : c.Bounded) (hne : c.here.kind ≠ .eof)
    (beyond : List Token) : (c.followedBy beyond).advance = c.advance.followedBy beyond := by
  obtain ⟨t, ts, hahead⟩ := h.ahead hne
  simp [Cursor.advance, followedBy, hne, hahead]

/-- Before the end of file, the kind of the next token does not depend on the tokens beyond it. -/
theorem Bounded.nextKind_followedBy {c : Cursor} (h : c.Bounded) (hne : c.here.kind ≠ .eof)
    (beyond : List Token) : (c.followedBy beyond).nextKind = c.nextKind := by
  obtain ⟨t, ts, hahead⟩ := h.ahead hne
  simp [Cursor.nextKind, followedBy, hahead]

/-- The number of tokens that are left. -/
theorem Passes.length {c c' : Cursor} {w : List Token} (h : c.Passes w c') :
    c.tokens.length = w.length + c'.tokens.length := by
  rw [h.tokens, List.length_append]

/-- Passing one token leaves one token less. -/
theorem Passes.length_one {c c' : Cursor} {t : Token} (h : c.Passes [t] c') :
    c.tokens.length = c'.tokens.length + 1 := by
  rw [h.length, List.length_singleton, Nat.add_comm]

/-- Where a phrase is passed that is never empty, fewer tokens are left. -/
theorem Passes.length_lt {c c' : Cursor} {w : List Token} {p : Phrase} (h : c.Passes w c')
    (hp : Derives p (w.map (·.kind))) (hnone : none ∉ p.first) :
    c'.tokens.length < c.tokens.length := by
  have hne : w ≠ [] := by
    rintro rfl
    exact hnone hp.head
  have hpos := List.length_pos_of_ne_nil hne
  rw [h.length]
  omega

/-- A cursor always has the token at hand. -/
theorem tokens_pos (c : Cursor) : 0 < c.tokens.length := by
  simp [Cursor.tokens]

end Cursor

/-- The reading fails because of one of the tokens: it is not the one that the grammar asks for, or
it is a number whose text is no numeral. -/
def ReadError.At (ts : List Token) : ReadError → Prop
  | .grammar p => p.token ∈ ts
  | .numeral _ => ∃ t ∈ ts, ¬ t.Converts
  | .tooDeep => False

/-- An error about one of some tokens is about one of more tokens. -/
theorem ReadError.At.mono {ts ts' : List Token} {e : ReadError} (h : e.At ts) (hsub : ts ⊆ ts') :
    e.At ts' := by
  match e, h with
  | .grammar p, h => exact hsub h
  | .numeral _, ⟨t, ht, hnum⟩ => exact ⟨t, hsub ht, hnum⟩

namespace Reader

variable {α β : Type} {beyond : List Token} {c : Cursor}

/-- What a reader does at a cursor, and a second one that sees further tokens does as well. -/
def Settles (beyond : List Token) (r r' : Reader α) (c : Cursor)
    (P : α → List Token → Cursor → Prop) : Prop :=
  match r c with
  | .ok (a, c') =>
    r' (c.followedBy beyond) = .ok (a, c'.followedBy beyond) ∧ ∃ w, c.Passes w c' ∧ P a w c'
  | .error e =>
    r' (c.followedBy beyond) = .error e ∧ e.At c.tokens

namespace Settles

variable {P : α → List Token → Cursor → Prop} {Q : β → List Token → Cursor → Prop}

/-- Only what the readers do at the cursor matters. -/
theorem congr {r r' s s' : Reader α} (h : Settles beyond r r' c P) (hs : s c = r c)
    (hs' : s' (c.followedBy beyond) = r' (c.followedBy beyond)) : Settles beyond s s' c P := by
  unfold Settles at h ⊢
  rwa [hs, hs']

/-- A reader that gives a value passes no token. -/
theorem pure {a : α} (h : P a [] c) : Settles beyond (pure a) (pure a) c P :=
  ⟨rfl, [], .refl c, h⟩

/-- A reader that fails does so because of the token at hand. -/
theorem fail {cause : ParseCause} :
    Settles beyond (Reader.fail cause : Reader α) (Reader.fail cause) c P :=
  ⟨rfl, List.mem_cons_self⟩

/-- A reader that comes upon a number whose text is no numeral. -/
theorem no_numeral {r r' : Reader α} {e : NumeralError} (hnum : ¬ c.here.Converts)
    (hr : r c = .error (.numeral e)) (hr' : r' (c.followedBy beyond) = .error (.numeral e)) :
    Settles beyond r r' c P := by
  unfold Settles
  rw [hr]
  exact ⟨hr', c.here, List.mem_cons_self, hnum⟩

/-- One reader after another: the second starts where the first one ends, and the tokens passed are
those of the first and then those of the second. -/
theorem bind {r r' : Reader α} {f f' : α → Reader β} (h : Settles beyond r r' c P)
    (hf : ∀ a w c', c.Passes w c' → P a w c' →
      Settles beyond (f a) (f' a) c' fun b w' => Q b (w ++ w')) :
    Settles beyond (r >>= f) (r' >>= f') c Q := by
  unfold Settles at h ⊢
  simp only [Bind.bind, StateT.bind, Except.bind]
  rcases hr : r c with e | ⟨a, c'⟩
  · rw [hr] at h
    obtain ⟨hr', hfail⟩ := h
    rw [hr']
    exact ⟨rfl, hfail⟩
  · rw [hr] at h
    obtain ⟨hr', w, hpass, hP⟩ := h
    rw [hr']
    have hrest := hf a w c' hpass hP
    unfold Settles at hrest
    simp only
    rcases hfa : f a c' with e | ⟨b, c''⟩
    · rw [hfa] at hrest
      obtain ⟨hfa', he⟩ := hrest
      exact ⟨hfa', he.mono (by rw [hpass.tokens]; exact List.subset_append_right _ _)⟩
    · rw [hfa] at hrest
      obtain ⟨hfa', w', hpass', hQ⟩ := hrest
      exact ⟨hfa', w ++ w', hpass.trans hpass', hQ⟩

/-- What a reader settles may be weakened, and the tokens that were passed are known then. -/
theorem mono {P' : α → List Token → Cursor → Prop} {r r' : Reader α} (h : Settles beyond r r' c P)
    (hP : ∀ a w c', c.Passes w c' → P a w c' → P' a w c') : Settles beyond r r' c P' := by
  unfold Settles at h ⊢
  rcases hr : r c with e | ⟨a, c'⟩
  · rw [hr] at h
    exact h
  · rw [hr] at h
    obtain ⟨hr', w, hpass, hPa⟩ := h
    exact ⟨hr', w, hpass, hP a w c' hpass hPa⟩

/-- A function applied to the result changes nothing about what is passed. -/
theorem map {r r' : Reader α} (f : α → β) (h : Settles beyond r r' c fun a => Q (f a)) :
    Settles beyond (f <$> r) (f <$> r') c Q := by
  rw [map_eq_pure_bind, map_eq_pure_bind]
  exact h.bind fun a w c' _ ha => .pure (by simpa using ha)

/-- A value that is given at once is handed to what follows. -/
theorem pure_bind {a : α} {f f' : α → Reader β} (h : Settles beyond (f a) (f' a) c Q) :
    Settles beyond (Pure.pure a >>= f) (Pure.pure a >>= f') c Q := h

/-- Reading the position passes no token. -/
theorem position {f f' : Position → Reader α}
    (h : Settles beyond (f c.here.position) (f' c.here.position) c P) :
    Settles beyond (Reader.position >>= f) (Reader.position >>= f') c P := h

/-- Reading the token at hand passes no token. -/
theorem here {f f' : Token → Reader α} (h : Settles beyond (f c.here) (f' c.here) c P) :
    Settles beyond (Reader.here >>= f) (Reader.here >>= f') c P := h

/-- Reading the cursor passes no token, and the other reader sees the tokens beyond. -/
theorem get {f f' : Cursor → Reader α} (h : Settles beyond (f c) (f' (c.followedBy beyond)) c P) :
    Settles beyond (MonadState.get >>= f) (MonadState.get >>= f') c P := h

/-- A span ends with the last token that was passed, whatever stands beyond. -/
theorem spanFrom {f f' : Option Span → Reader α} {start : Position}
    (h : Settles beyond (f (some ⟨start, c.last.stop⟩)) (f' (some ⟨start, c.last.stop⟩)) c P) :
    Settles beyond (Reader.spanFrom start >>= f) (Reader.spanFrom start >>= f') c P := h

/-- A numeral that has a value is read without passing a token. -/
theorem numeral {f f' : α → Reader β} {x : Except NumeralError α} {n : α} (hx : x = .ok n)
    (h : Settles beyond (f n) (f' n) c Q) :
    Settles beyond (Reader.numeral x >>= f) (Reader.numeral x >>= f') c Q := by
  subst hx
  exact h

/-- Behind a token that is passed, the cursor is bounded and fewer tokens are left. -/
theorem advance {f f' : Token → Reader α} (hc : c.Bounded) (hne : c.here.kind ≠ .eof)
    (h : c.Passes [c.here] c.advance → c.advance.Bounded →
      c.tokens.length = c.advance.tokens.length + 1 →
      Settles beyond (f c.here) (f' c.here) c.advance fun a w => P a (c.here :: w)) :
    Settles beyond (Reader.advance >>= f) (Reader.advance >>= f') c P := by
  have hadvance : Settles beyond Reader.advance Reader.advance c fun t w c' =>
      t = c.here ∧ w = [c.here] ∧ c' = c.advance := by
    refine ⟨?_, [c.here], hc.passes hne, rfl, rfl, rfl⟩
    show Except.ok (c.here, (c.followedBy beyond).advance) = _
    rw [hc.advance_followedBy hne]
  refine hadvance.bind ?_
  rintro _ _ _ hpass ⟨rfl, rfl, rfl⟩
  exact h hpass (hc.of_passes hpass) hpass.length_one

/-- A reader that passes one token gives the token its span. -/
theorem token {f : Token → Option Span → α} (hc : c.Bounded) (hne : c.here.kind ≠ .eof)
    (h : P (f c.here (spanOf [c.here])) [c.here] c.advance) :
    Settles beyond
      (Reader.advance >>= fun t => Reader.spanFrom c.here.position >>= fun sp => Pure.pure (f t sp))
      (Reader.advance >>= fun t => Reader.spanFrom c.here.position >>= fun sp => Pure.pure (f t sp))
      c P := by
  refine .advance hc hne fun hpass _ _ => .spanFrom (.pure ?_)
  rw [← hpass.span (by simp)]
  exact h

/-- A token that is demanded is passed, or its absence is the error. What follows may use that one
token less is left, which is what pays for its bound. -/
theorem expect {f f' : Token → Reader α} {kind : TokenKind} {what : Expected} (hc : c.Bounded)
    (hne : kind ≠ .eof)
    (h : c.here.kind = kind → c.Passes [c.here] c.advance → c.advance.Bounded →
      c.tokens.length = c.advance.tokens.length + 1 →
      Settles beyond (f c.here) (f' c.here) c.advance fun a w => P a (c.here :: w)) :
    Settles beyond (Reader.expect kind what >>= f) (Reader.expect kind what >>= f') c P := by
  have hkind' : (c.followedBy beyond).here.kind = c.here.kind := rfl
  by_cases hkind : c.here.kind = kind
  · refine (advance (P := P) hc (hkind ▸ hne) (h hkind)).congr ?_ ?_ <;>
      simp only [Bind.bind, StateT.bind, expect_apply, hkind', if_pos hkind]
  · have hfail : Settles beyond (Reader.fail (.expected what) >>= f)
        (Reader.fail (.expected what) >>= f') c P := ⟨rfl, List.mem_cons_self⟩
    refine hfail.congr ?_ ?_ <;>
      simp only [Bind.bind, StateT.bind, expect_apply, hkind', if_neg hkind]

/-- A token that may stand here is passed if it does. The two cases know which of them holds. -/
theorem accept {f f' : Option Token → Reader α} {kinds : List TokenKind} (hc : c.Bounded)
    (hne : .eof ∉ kinds)
    (hsome : c.here.kind ∈ kinds → c.Passes [c.here] c.advance → c.advance.Bounded →
      c.tokens.length = c.advance.tokens.length + 1 →
      Settles beyond (f (some c.here)) (f' (some c.here)) c.advance fun a w => P a (c.here :: w))
    (hnone : c.here.kind ∉ kinds → Settles beyond (f none) (f' none) c P) :
    Settles beyond (accept? kinds >>= f) (accept? kinds >>= f') c P := by
  have hkind' : (c.followedBy beyond).here.kind = c.here.kind := rfl
  by_cases hkind : c.here.kind ∈ kinds
  · have heof : c.here.kind ≠ .eof := fun heof => hne (heof ▸ hkind)
    have hcontains : kinds.contains c.here.kind = true := by simpa using hkind
    have hrun : Settles beyond (Reader.advance >>= fun t => f (some t))
        (Reader.advance >>= fun t => f' (some t)) c P := advance hc heof (hsome hkind)
    refine hrun.congr ?_ ?_ <;>
      simp only [Bind.bind, StateT.bind, accept?_apply, hkind', if_pos hcontains] <;> rfl
  · have hcontains : ¬ kinds.contains c.here.kind = true := by simpa using hkind
    refine (hnone hkind).congr ?_ ?_ <;>
      simp only [Bind.bind, StateT.bind, accept?_apply, hkind', if_neg hcontains] <;> rfl

end Settles

/-- A literal whose text is no numeral. -/
theorem numeral_error {f : Token → Except NumeralError α} {g : α → Reader β} {c : Cursor}
    {e : NumeralError} (h : f c.here = .error e) :
    (advance >>= fun t => numeral (f t) >>= g) c = .error (.numeral e) := by
  show (numeral (f c.here) >>= g) c.advance = _
  rw [h]
  rfl

/-! ## Expressions -/

-- The induction is on the bound `n`. The count of the module's introduction is kept with `advance`
-- and `length_lt`: behind a token or a phrase that was passed there are fewer tokens, and so
-- sixteen more calls for each of those that are left.

mutual

/-- A bound of nine more than sixteen for each token that is left suffices to read an expression. -/
theorem expr_settles : ∀ n {n' : Nat} {c : Cursor}, n ≤ n' → c.Bounded →
    16 * c.tokens.length + 9 ≤ n →
    Settles beyond (expr n) (expr n') c fun e w _ => ReadsExpr .expr w e
  | 0, _, _, _, _, hfuel => absurd hfuel (by omega)
  | n + 1, 0, _, hle, _, _ => absurd hle (by omega)
  | n + 1, n' + 1, c, hle, hc, hfuel => by
      have hlevels : binaryLevels.length = 6 := rfl
      refine .position (.bind (binary_settles n binaryLevels (by omega) (List.suffix_refl _) hc
        (by omega)) ?_)
      intro cond w₁ c₁ hpass₁ hcond
      have hc₁ := hc.of_passes hpass₁
      have hlt₁ := hpass₁.length_lt hcond.derives (by decide)
      refine .accept hc₁ (by decide) ?_ ?_
      · intro hq hpass₂ hc₂ hlt₂
        refine .bind (expr_settles n (by omega) hc₂ (by omega)) ?_
        intro yes w₃ c₃ hpass₃ hyes
        have hc₃ := hc₂.of_passes hpass₃
        have hlt₃ := hpass₃.length_lt hyes.derives (by decide)
        refine .expect hc₃ (by decide) ?_
        intro hk hpass₄ hc₄ hlt₄
        refine .bind (expr_settles n (by omega) hc₄ (by omega)) ?_
        intro no w₅ c₅ hpass₅ hno
        -- the span that is recorded is that of all tokens since the start
        have hall := hpass₁.trans (hpass₂.trans (hpass₃.trans (hpass₄.trans hpass₅)))
        refine .spanFrom (.pure ?_)
        rw [← hall.span (by simp)]
        simpa using ReadsExpr.ternary hcond (by simpa using hq) hyes hk hno
      · intro _
        exact .pure (by simpa using ReadsExpr.plain hcond)

/-- The levels of binary operators need one call each above the unary operators. -/
theorem binary_settles : ∀ n (levels : List (List TokenKind)) {n' : Nat} {c : Cursor}, n ≤ n' →
    levels <:+ precedence → c.Bounded → 16 * c.tokens.length + 2 + levels.length ≤ n →
    Settles beyond (binary n levels) (binary n' levels) c fun e w _ => ReadsExpr (.level levels) w e
  | 0, _, _, _, _, _, _, hfuel => absurd hfuel (by omega)
  | n + 1, _, 0, _, hle, _, _, _ => absurd hle (by omega)
  | n + 1, [], n' + 1, c, hle, _, hc, hfuel => by
      rw [List.length_nil] at hfuel
      exact (unary_settles n (by omega) hc (by omega)).mono fun _ _ _ _ h => .tightest h
  | n + 1, kinds :: tighter, n' + 1, c, hle, hlevels, hc, hfuel => by
      have htighter : tighter <:+ precedence := (List.suffix_cons kinds tighter).trans hlevels
      rw [List.length_cons] at hfuel
      refine .position (.bind (binary_settles n tighter (by omega) htighter hc (by omega)) ?_)
      intro left w₁ c₁ hpass₁ hleft
      have hc₁ := hc.of_passes hpass₁
      have hlt₁ := hpass₁.length_lt hleft.derives (by decide : none ∉ exprFirst)
      exact binaryTail_settles n kinds tighter (by omega) hlevels hpass₁ hc₁ (by omega)
        (.tighter hleft)

/-- The rest of a chain of operators of one level: what was read on the left comes from the tokens
that were passed since the start of the chain. -/
theorem binaryTail_settles : ∀ n (kinds : List TokenKind) (tighter : List (List TokenKind))
    {n' : Nat} {c₀ c : Cursor} {w₀ : List Token} {left : Expr}, n ≤ n' →
    kinds :: tighter <:+ precedence → c₀.Passes w₀ c → c.Bounded → 16 * c.tokens.length ≤ n →
    ReadsExpr (.level (kinds :: tighter)) w₀ left →
    Settles beyond (binaryTail n c₀.here.position kinds tighter left)
      (binaryTail n' c₀.here.position kinds tighter left) c
      fun e w _ => ReadsExpr (.level (kinds :: tighter)) (w₀ ++ w) e
  | 0, _, _, _, _, c, _, _, _, _, _, _, hfuel, _ => absurd hfuel (by have := c.tokens_pos; omega)
  | n + 1, _, _, 0, _, _, _, _, hle, _, _, _, _, _ => absurd hle (by omega)
  | n + 1, kinds, tighter, n' + 1, c₀, c, w₀, left, hle, hlevels, hpass₀, hc, hfuel, hleft => by
      have htighter : tighter <:+ precedence := (List.suffix_cons kinds tighter).trans hlevels
      have hfew : tighter.length < 6 := hlevels.length_le
      have hne : .eof ∉ kinds := fun hmem =>
        (by decide : TokenKind.eof ∉ precedence.flatten)
          (Phrase.InLanguage.mem_precedence hlevels hmem)
      refine .accept hc hne ?_ ?_
      · intro hop hpass₁ hc₁ hlt₁
        refine .bind (binary_settles n tighter (by omega) htighter hc₁ (by omega)) ?_
        intro right w₂ c₂ hpass₂ hright
        have hlt₂ := hpass₂.length_lt hright.derives (by decide : none ∉ exprFirst)
        have hall := hpass₀.trans (hpass₁.trans hpass₂)
        -- the operator and its operands are the left operand of the next round
        refine .spanFrom ?_
        rw [← hall.span (by simp)]
        refine (binaryTail_settles n kinds tighter (by omega) hlevels hall
          (hc₁.of_passes hpass₂) (by omega) (.binary hleft hop hright)).mono ?_
        intro e w c' _ he
        simpa using he
      · intro _
        exact .pure (by simpa using hleft)

/-- One call above the primary expressions suffices for the unary operators. -/
theorem unary_settles : ∀ n {n' : Nat} {c : Cursor}, n ≤ n' → c.Bounded →
    16 * c.tokens.length + 1 ≤ n →
    Settles beyond (unary n) (unary n') c fun e w _ => ReadsExpr .unary w e
  | 0, _, _, _, _, hfuel => absurd hfuel (by omega)
  | n + 1, 0, _, hle, _, _ => absurd hle (by omega)
  | n + 1, n' + 1, c, hle, hc, hfuel => by
      refine .position (.accept hc (by decide) ?_ ?_)
      · intro hop hpass₁ hc₁ hlt₁
        refine .bind (unary_settles n (by omega) hc₁ (by omega)) ?_
        intro operand w₂ c₂ hpass₂ hoperand
        refine .spanFrom (.pure ?_)
        rw [← (hpass₁.trans hpass₂).span (by simp)]
        simpa using ReadsExpr.unary hop hoperand
      · intro _
        exact (primary_settles n (by omega) hc (by omega)).mono fun _ _ _ _ h => .unsigned h

/-- A primary expression needs at most sixteen calls for each token that is left. -/
theorem primary_settles : ∀ n {n' : Nat} {c : Cursor}, n ≤ n' → c.Bounded →
    16 * c.tokens.length ≤ n →
    Settles beyond (primary n) (primary n') c fun e w _ => ReadsExpr .primary w e
  | 0, _, c, _, _, hfuel => absurd hfuel (by have := c.tokens_pos; omega)
  | n + 1, 0, _, hle, _, _ => absurd hle (by omega)
  | n + 1, n' + 1, c, hle, hc, hfuel => by
      refine .position (.here ?_)
      split
      · next hkind =>
          -- the token is passed before its text is converted, so the error is at a token passed
          cases hi : Numeral.readInt c.here.text with
          | error e =>
              have hnum : ¬ c.here.Converts := fun h => by simpa [hi] using h.1 hkind
              exact .no_numeral hnum (numeral_error hi) (numeral_error hi)
          | ok i =>
              refine .advance hc (by simp [hkind])
                fun hpass _ _ => .numeral hi (.spanFrom (.pure ?_))
              rw [← hpass.span (by simp)]
              exact .int hkind hi
      · next hkind =>
          cases hx : Numeral.readFloat c.here.text with
          | error e =>
              have hnum : ¬ c.here.Converts := fun h => by simpa [hx] using h.2 hkind
              exact .no_numeral hnum (numeral_error hx) (numeral_error hx)
          | ok x =>
              refine .advance hc (by simp [hkind])
                fun hpass _ _ => .numeral hx (.spanFrom (.pure ?_))
              rw [← hpass.span (by simp)]
              exact .float hkind hx
      · next hkind =>
          exact .token hc (by simp [hkind]) (.string hkind)
      · next hkind =>
          exact .token hc (by simp [hkind]) (.true hkind)
      · next hkind =>
          exact .token hc (by simp [hkind]) (.false hkind)
      · next hkind =>
          refine .get ?_
          rw [hc.nextKind_followedBy (by simp [hkind])]
          by_cases hparen : c.nextKind = .lparen
          · rw [if_pos hparen, if_pos hparen]
            exact (call_settles n (by omega) hc (by omega) hkind hparen).mono
              fun _ _ _ _ h => .called h
          · rw [if_neg hparen, if_neg hparen]
            exact .token hc (by simp [hkind]) (.var hkind)
      · next hkind =>
          refine .advance hc (by simp [hkind]) fun hpass₁ hc₁ hlt₁ => ?_
          refine .bind (expr_settles n (by omega) hc₁ (by omega)) ?_
          intro inner w₂ c₂ hpass₂ hinner
          refine .expect (hc₁.of_passes hpass₂) (by decide)
            fun hr hpass₃ _ _ => .spanFrom (.pure ?_)
          rw [← (hpass₁.trans (hpass₂.trans hpass₃)).span (by simp)]
          simpa using ReadsExpr.paren hkind hinner hr
      · exact .fail

/-- The reader of a call starts at a name before an opening parenthesis. -/
theorem call_settles : ∀ n {n' : Nat} {c : Cursor}, n ≤ n' → c.Bounded →
    16 * c.tokens.length ≤ n + 1 → c.here.kind = .ident → c.nextKind = .lparen →
    Settles beyond (call n) (call n') c fun e w _ => ReadsExpr .call w e
  | 0, _, c, _, _, hfuel, _, _ => absurd hfuel (by have := c.tokens_pos; omega)
  | n + 1, 0, _, hle, _, _, _, _ => absurd hle (by omega)
  | n + 1, n' + 1, c, hle, hc, hfuel, hname, hparen => by
      refine .position (.advance hc (by simp [hname]) fun hpass₁ hc₁ hlt₁ => ?_)
      have hl : c.advance.here.kind = .lparen := hpass₁.nextKind.symm.trans hparen
      refine .advance hc₁ (by simp [hl]) fun hpass₂ hc₂ hlt₂ => .here ?_
      by_cases hempty : c.advance.advance.here.kind = .rparen
      · rw [if_pos hempty, if_pos hempty]
        refine .pure_bind (.expect hc₂ (by decide) fun hr hpass₃ _ _ => .spanFrom (.pure ?_))
        rw [← (hpass₁.trans (hpass₂.trans hpass₃)).span (by simp)]
        exact .callNoArgs hname hl hr
      · rw [if_neg hempty, if_neg hempty]
        refine .bind (arguments_settles n (by omega) hc₂ (by omega)) ?_
        intro args w₃ c₃ hpass₃ hargs
        refine .expect (hc₂.of_passes hpass₃) (by decide)
          fun hr hpass₄ _ _ => .spanFrom (.pure ?_)
        rw [← (hpass₁.trans (hpass₂.trans (hpass₃.trans hpass₄))).span (by simp)]
        simpa using ReadsExpr.callArgs hname hl hargs hr

/-- The arguments of a call need one call more than an expression. -/
theorem arguments_settles : ∀ n {n' : Nat} {c : Cursor}, n ≤ n' → c.Bounded →
    16 * c.tokens.length + 10 ≤ n →
    Settles beyond (arguments n) (arguments n') c fun es w _ => ReadsArgs w es
  | 0, _, _, _, _, hfuel => absurd hfuel (by omega)
  | n + 1, 0, _, hle, _, _ => absurd hle (by omega)
  | n + 1, n' + 1, c, hle, hc, hfuel => by
      refine .bind (expr_settles n (by omega) hc (by omega)) ?_
      intro arg w₁ c₁ hpass₁ harg
      have hc₁ := hc.of_passes hpass₁
      have hlt₁ := hpass₁.length_lt harg.derives (by decide)
      refine .accept hc₁ (by decide) ?_ ?_
      · intro hcomma hpass₂ hc₂ hlt₂
        refine .bind (arguments_settles n (by omega) hc₂ (by omega)) ?_
        intro args w₃ c₃ hpass₃ hargs
        exact .pure (by simpa using ReadsArgs.more harg (by simpa using hcomma) hargs)
      · intro _
        exact .pure (by simpa using ReadsArgs.one harg)

end

/-! ## Statements -/

/-- A statement that starts with `let` or `const` is read as a declaration, which is never open. -/
theorem declaration_settles {n n' : Nat} {c : Cursor} (hle : n ≤ n') (hc : c.Bounded)
    (hfuel : 16 * c.tokens.length ≤ n + 1) (hkind : c.here.kind ∈ [TokenKind.kwLet, .kwConst]) :
    Settles beyond (declaration n) (declaration n') c fun s w _ => ReadsStmt w s ∧ ¬ s.Open := by
  have heof : c.here.kind ≠ .eof := by
    intro heof
    rw [heof] at hkind
    exact absurd hkind (by decide)
  refine .position (.advance hc heof fun hpass₁ hc₁ hlt₁ => ?_)
  refine .expect hc₁ (by decide) fun hname hpass₂ hc₂ hlt₂ => ?_
  refine .expect hc₂ (by decide) fun hassign hpass₃ hc₃ hlt₃ => ?_
  refine .bind (expr_settles n hle hc₃ (by omega)) ?_
  intro value w₄ c₄ hpass₄ hvalue
  refine .expect (hc₃.of_passes hpass₄) (by decide)
    fun hsemi hpass₅ _ _ => .spanFrom (.pure ⟨?_, id⟩)
  rw [← (hpass₁.trans (hpass₂.trans (hpass₃.trans (hpass₄.trans hpass₅)))).span (by simp)]
  simpa using ReadsStmt.declare hkind hname hassign hvalue hsemi

/-- A statement that starts with a name is a call or an assignment, never open. -/
theorem callOrAssignment_settles {n n' : Nat} {c : Cursor} (hle : n ≤ n') (hc : c.Bounded)
    (hfuel : 16 * c.tokens.length ≤ n + 1) (hname : c.here.kind = .ident) :
    Settles beyond (callOrAssignment n) (callOrAssignment n') c
      fun s w _ => ReadsStmt w s ∧ ¬ s.Open := by
  refine .position (.get ?_)
  rw [hc.nextKind_followedBy (by simp [hname])]
  by_cases hparen : c.nextKind = .lparen
  · rw [if_pos hparen, if_pos hparen]
    refine .bind (call_settles n hle hc hfuel hname hparen) ?_
    intro callee w₁ c₁ hpass₁ hcallee
    refine .expect (hc.of_passes hpass₁) (by decide)
      fun hsemi hpass₂ _ _ => .spanFrom (.pure ⟨?_, id⟩)
    rw [← (hpass₁.trans hpass₂).span (by simp)]
    simpa using ReadsStmt.call hcallee hsemi
  · rw [if_neg hparen, if_neg hparen]
    refine .advance hc (by simp [hname]) fun hpass₁ hc₁ hlt₁ => ?_
    refine .accept hc₁ (by decide) (fun hop hpass₂ hc₂ hlt₂ => ?_) fun _ => .fail
    refine .bind (expr_settles n hle hc₂ (by omega)) ?_
    intro value w₃ c₃ hpass₃ hvalue
    refine .expect (hc₂.of_passes hpass₃) (by decide)
      fun hsemi hpass₄ _ _ => .spanFrom (.pure ⟨?_, id⟩)
    rw [← (hpass₁.trans (hpass₂.trans (hpass₃.trans hpass₄))).span (by simp)]
    simpa using ReadsStmt.assign hname hop hvalue hsemi

/-- A return is read with its value, if there is one, and is never open. -/
theorem returning_settles {n n' : Nat} {c : Cursor} (hle : n ≤ n') (hc : c.Bounded)
    (hfuel : 16 * c.tokens.length ≤ n + 1) (hkind : c.here.kind = .kwReturn) :
    Settles beyond (returning n) (returning n') c fun s w _ => ReadsStmt w s ∧ ¬ s.Open := by
  refine .position (.advance hc (by simp [hkind]) fun hpass₁ hc₁ hlt₁ => .here ?_)
  by_cases hempty : c.advance.here.kind = .semi
  · rw [if_pos hempty, if_pos hempty]
    refine .pure_bind (.expect hc₁ (by decide) fun hsemi hpass₂ _ _ => .spanFrom (.pure ⟨?_, id⟩))
    rw [← (hpass₁.trans hpass₂).span (by simp)]
    exact .ret hkind hsemi
  · rw [if_neg hempty, if_neg hempty]
    have hvalue : Settles beyond (some <$> expr n) (some <$> expr n') c.advance
        fun value w _ => ∃ e, value = some e ∧ ReadsExpr .expr w e :=
      .map some ((expr_settles n hle hc₁ (by omega)).mono fun e _ _ _ he => ⟨e, rfl, he⟩)
    refine .bind hvalue ?_
    rintro _ w₂ c₂ hpass₂ ⟨value, rfl, hvalue⟩
    refine .expect (hc₁.of_passes hpass₂) (by decide)
      fun hsemi hpass₃ _ _ => .spanFrom (.pure ⟨?_, id⟩)
    rw [← (hpass₁.trans (hpass₂.trans hpass₃)).span (by simp)]
    simpa using ReadsStmt.retValue hkind hvalue hsemi

/-- A statement of one word passes the word and its semicolon. -/
theorem wordStmt_settles {stmt : Option Span → Stmt} {what : Expected} {c : Cursor}
    (hc : c.Bounded) (hne : c.here.kind ≠ .eof) :
    Settles beyond (wordStmt stmt what) (wordStmt stmt what) c fun s w _ =>
      ∃ z : Token, z.kind = .semi ∧ w = [c.here, z] ∧ s = stmt (spanOf [c.here, z]) := by
  refine .position (.advance hc hne fun hpass₁ hc₁ _ => ?_)
  refine .expect hc₁ (by decide) fun hsemi hpass₂ _ _ => .spanFrom (.pure ?_)
  exact ⟨c.advance.here, hsemi, rfl, by rw [← (hpass₁.trans hpass₂).span (by simp)]; rfl⟩

/-- The reader of blocks settles where the bound suffices, and after an open block no `else` is
left. -/
def BlocksSettle (beyond : List Token) (n n' : Nat) : Prop :=
  ∀ ⦃c : Cursor⦄, c.Bounded → 16 * c.tokens.length + 1 ≤ n →
    Settles beyond (block n) (block n') c
      fun b w c' => ReadsBlock w b ∧ (b.Open → c'.here.kind ≠ .kwElse)

/-- The reader of statements settles at this cursor, and after an open statement no `else` is
left. -/
def StmtSettles (beyond : List Token) (n n' : Nat) (c : Cursor) : Prop :=
  Settles beyond (stmt n) (stmt n') c
    fun s w c' => ReadsStmt w s ∧ (s.Open → c'.here.kind ≠ .kwElse)

namespace StmtSettles

variable {n n' : Nat} {c : Cursor}

/-- Where no statement that is read is open, nothing is asked of the token behind it. -/
theorem of_closed {r r' : Reader Stmt}
    (h : Settles beyond r r' c fun s w _ => ReadsStmt w s ∧ ¬ s.Open) :
    Settles beyond r r' c fun s w c' => ReadsStmt w s ∧ (s.Open → c'.here.kind ≠ .kwElse) :=
  h.mono fun _ _ _ _ hs => ⟨hs.1, fun hopen => absurd hopen hs.2⟩

/-- An `if` is read with its condition and one or two branches. -/
theorem ifThen (hle : n ≤ n') (hblock : BlocksSettle beyond n n') (hc : c.Bounded)
    (hfuel : 16 * c.tokens.length ≤ n + 1) (hkind : c.here.kind = .kwIf) :
    StmtSettles beyond (n + 1) (n' + 1) c := by
  refine .position (.here ?_)
  rw [hkind]
  refine .advance hc (by simp [hkind]) fun hpass₁ hc₁ hlt₁ => ?_
  refine .bind (expr_settles n hle hc₁ (by omega)) ?_
  intro cond w₂ c₂ hpass₂ hcond
  have hc₂ := hc₁.of_passes hpass₂
  have hlt₂ := hpass₂.length_lt hcond.derives (by decide)
  refine .bind (hblock hc₂ (by omega)) ?_
  rintro yes w₃ c₃ hpass₃ ⟨hyes, hopen⟩
  have hc₃ := hc₂.of_passes hpass₃
  have hlt₃ := hpass₃.length_lt hyes.derives (by decide)
  have hall := hpass₁.trans (hpass₂.trans hpass₃)
  -- the first branch left this `else`, so it does not end in an `if` without one
  refine .accept hc₃ (by decide) ?_ ?_
  · intro helse hpass₄ hc₄ hlt₄
    have helse' : c₃.here.kind = .kwElse := by simpa using helse
    refine .bind (hblock hc₄ (by omega)) ?_
    rintro no w₅ c₅ hpass₅ ⟨hno, hopen'⟩
    refine .spanFrom (.pure ⟨?_, hopen'⟩)
    rw [← (hall.trans (hpass₄.trans hpass₅)).span (by simp)]
    simpa using ReadsStmt.ifThenElse hkind hcond hyes (fun h => hopen h helse') helse' hno
  · intro helse
    refine .spanFrom (.pure ⟨?_, fun _ => by simpa using helse⟩)
    rw [← hall.span (by simp)]
    simpa using ReadsStmt.ifThen hkind hcond hyes

/-- A loop that tests first is read with its condition and body. -/
theorem whileDo (hle : n ≤ n') (hblock : BlocksSettle beyond n n') (hc : c.Bounded)
    (hfuel : 16 * c.tokens.length ≤ n + 1) (hkind : c.here.kind = .kwWhile) :
    StmtSettles beyond (n + 1) (n' + 1) c := by
  refine .position (.here ?_)
  rw [hkind]
  refine .advance hc (by simp [hkind]) fun hpass₁ hc₁ hlt₁ => ?_
  refine .bind (expr_settles n hle hc₁ (by omega)) ?_
  intro cond w₂ c₂ hpass₂ hcond
  have hlt₂ := hpass₂.length_lt hcond.derives (by decide)
  refine .bind (hblock (hc₁.of_passes hpass₂) (by omega)) ?_
  rintro body w₃ c₃ hpass₃ ⟨hbody, hopen⟩
  refine .spanFrom (.pure ⟨?_, hopen⟩)
  rw [← (hpass₁.trans (hpass₂.trans hpass₃)).span (by simp)]
  simpa using ReadsStmt.whileDo hkind hcond hbody

/-- A loop that tests after its body is read up to its semicolon. -/
theorem doWhile (hle : n ≤ n') (hblock : BlocksSettle beyond n n') (hc : c.Bounded)
    (hfuel : 16 * c.tokens.length ≤ n + 1) (hkind : c.here.kind = .kwDo) :
    StmtSettles beyond (n + 1) (n' + 1) c := by
  refine .position (.here ?_)
  rw [hkind]
  refine .advance hc (by simp [hkind]) fun hpass₁ hc₁ hlt₁ => ?_
  refine .bind (hblock hc₁ (by omega)) ?_
  rintro body w₂ c₂ hpass₂ ⟨hbody, -⟩
  have hc₂ := hc₁.of_passes hpass₂
  have hlt₂ := hpass₂.length_lt hbody.derives (by decide)
  refine .expect hc₂ (by decide) fun hwhile hpass₃ hc₃ hlt₃ => ?_
  refine .bind (expr_settles n hle hc₃ (by omega)) ?_
  intro cond w₄ c₄ hpass₄ hcond
  refine .expect (hc₃.of_passes hpass₄) (by decide)
    fun hsemi hpass₅ _ _ => .spanFrom (.pure ⟨?_, False.elim⟩)
  rw [← (hpass₁.trans (hpass₂.trans (hpass₃.trans (hpass₄.trans hpass₅)))).span (by simp)]
  simpa using ReadsStmt.doWhile hkind hbody hwhile hcond hsemi

/-- A counting loop is read with its counter, its two bounds and its body. -/
theorem forCount (hle : n ≤ n') (hblock : BlocksSettle beyond n n') (hc : c.Bounded)
    (hfuel : 16 * c.tokens.length ≤ n + 1) (hkind : c.here.kind = .kwFor) :
    StmtSettles beyond (n + 1) (n' + 1) c := by
  refine .position (.here ?_)
  rw [hkind]
  refine .advance hc (by simp [hkind]) fun hpass₁ hc₁ hlt₁ => ?_
  refine .expect hc₁ (by decide) fun hname hpass₂ hc₂ hlt₂ => ?_
  refine .expect hc₂ (by decide) fun hassign hpass₃ hc₃ hlt₃ => ?_
  refine .bind (expr_settles n hle hc₃ (by omega)) ?_
  intro first w₄ c₄ hpass₄ hfirst
  have hc₄ := hc₃.of_passes hpass₄
  have hlt₄ := hpass₄.length_lt hfirst.derives (by decide)
  refine .accept hc₄ (by decide) (fun hdir hpass₅ hc₅ hlt₅ => ?_) fun _ => .fail
  refine .bind (expr_settles n hle hc₅ (by omega)) ?_
  intro bound w₆ c₆ hpass₆ hbound
  have hlt₆ := hpass₆.length_lt hbound.derives (by decide)
  refine .bind (hblock (hc₅.of_passes hpass₆) (by omega)) ?_
  rintro body w₇ c₇ hpass₇ ⟨hbody, hopen⟩
  have hall := hpass₁.trans (hpass₂.trans (hpass₃.trans (hpass₄.trans
    (hpass₅.trans (hpass₆.trans hpass₇)))))
  refine .spanFrom (.pure ⟨?_, hopen⟩)
  rw [← hall.span (by simp)]
  simpa using ReadsStmt.forCount hkind hname hassign hfirst hdir hbound hbody

/-- The other statements have no statements in them, so their readers are called as they are. -/
theorem simple (hle : n ≤ n') (hc : c.Bounded) (hfuel : 16 * c.tokens.length ≤ n + 1)
    (hkind : c.here.kind ∉ [TokenKind.kwIf, .kwWhile, .kwDo, .kwFor]) :
    StmtSettles beyond (n + 1) (n' + 1) c := by
  refine .position (.here ?_)
  split
  · next hlet => exact of_closed (declaration_settles hle hc hfuel (by simp [hlet]))
  · next hconst => exact of_closed (declaration_settles hle hc hfuel (by simp [hconst]))
  · next hif => exact absurd (by simp [hif]) hkind
  · next hwhile => exact absurd (by simp [hwhile]) hkind
  · next hdo => exact absurd (by simp [hdo]) hkind
  · next hfor => exact absurd (by simp [hfor]) hkind
  · next hbreak =>
      refine (wordStmt_settles hc (by simp [hbreak])).mono ?_
      rintro _ _ c' _ ⟨z, hz, rfl, rfl⟩
      exact ⟨.brk hbreak hz, False.elim⟩
  · next hcontinue =>
      refine (wordStmt_settles hc (by simp [hcontinue])).mono ?_
      rintro _ _ c' _ ⟨z, hz, rfl, rfl⟩
      exact ⟨.cont hcontinue hz, False.elim⟩
  · next hreturn => exact of_closed (returning_settles hle hc hfuel hreturn)
  · next hident => exact of_closed (callOrAssignment_settles hle hc hfuel hident)
  · exact .fail
  · exact .fail
  · exact .fail

end StmtSettles

mutual

/-- A statement is read with a bound of sixteen for each token. One that is open, with an `if` that
has no `else` at its end, is followed by no `else`. -/
theorem stmt_settles : ∀ n {n' : Nat} {c : Cursor}, n ≤ n' → c.Bounded →
    16 * c.tokens.length ≤ n → StmtSettles beyond n n' c
  -- sixteen nested calls for each token are enough, as a statement takes one before the next
  | 0, _, c, _, _, hfuel => absurd hfuel (by have := c.tokens_pos; omega)
  | n + 1, 0, _, hle, _, _ => absurd hle (by omega)
  | n + 1, n' + 1, c, hle, hc, hfuel => by
      have hle' : n ≤ n' := by omega
      have hblock : BlocksSettle beyond n n' := fun _ => block_settles n hle'
      by_cases hif : c.here.kind = .kwIf
      · exact .ifThen hle' hblock hc hfuel hif
      by_cases hwhile : c.here.kind = .kwWhile
      · exact .whileDo hle' hblock hc hfuel hwhile
      by_cases hdo : c.here.kind = .kwDo
      · exact .doWhile hle' hblock hc hfuel hdo
      by_cases hfor : c.here.kind = .kwFor
      · exact .forCount hle' hblock hc hfuel hfor
      exact .simple hle' hc hfuel (by simp [hif, hwhile, hdo, hfor])

/-- A block is read with its braces, or as the single statement that it is. -/
theorem block_settles : ∀ n {n' : Nat} {c : Cursor}, n ≤ n' → c.Bounded →
    16 * c.tokens.length + 1 ≤ n →
    Settles beyond (block n) (block n') c
      fun b w c' => ReadsBlock w b ∧ (b.Open → c'.here.kind ≠ .kwElse)
  | 0, _, _, _, _, hfuel => absurd hfuel (by omega)
  | n + 1, 0, _, hle, _, _ => absurd hle (by omega)
  | n + 1, n' + 1, c, hle, hc, hfuel => by
      refine .position (.accept hc (by decide) ?_ ?_)
      · intro hbrace hpass₁ hc₁ hlt₁
        refine .bind (stmts_settles n (by omega) hc₁ (by omega)) ?_
        rintro body w₂ c₂ hpass₂ ⟨hbody, hclose⟩
        refine .advance (hc₁.of_passes hpass₂) (by simp [hclose])
          fun hpass₃ _ _ => .spanFrom (.pure ⟨?_, False.elim⟩)
        rw [← (hpass₁.trans (hpass₂.trans hpass₃)).span (by simp)]
        simpa using ReadsBlock.braced (by simpa using hbrace) hbody hclose
      · intro _
        refine .bind (stmt_settles n (by omega) hc (by omega)) ?_
        rintro s w₁ c₁ hpass₁ ⟨hs, hopen⟩
        refine .spanFrom (.pure ⟨?_, hopen⟩)
        rw [← hpass₁.span hs.tokens_ne_nil]
        simpa using ReadsBlock.single hs

/-- Statements are read up to the closing brace. -/
theorem stmts_settles : ∀ n {n' : Nat} {c : Cursor}, n ≤ n' → c.Bounded →
    16 * c.tokens.length + 1 ≤ n →
    Settles beyond (stmts n) (stmts n') c fun ss w c' => ReadsStmts w ss ∧ c'.here.kind = .rbrace
  | 0, _, _, _, _, hfuel => absurd hfuel (by omega)
  | n + 1, 0, _, hle, _, _ => absurd hle (by omega)
  | n + 1, n' + 1, c, hle, hc, hfuel => by
      refine .here ?_
      split
      · next hkind => exact .pure ⟨.nil, hkind⟩
      · exact .fail
      · refine .bind (stmt_settles n (by omega) hc (by omega)) ?_
        rintro s w₁ c₁ hpass₁ ⟨hs, -⟩
        have hlt₁ := hpass₁.length_lt hs.derives (by decide)
        refine .bind (stmts_settles n (by omega) (hc.of_passes hpass₁) (by omega)) ?_
        rintro ss w₂ c₂ hpass₂ ⟨hss, hclose⟩
        exact .pure ⟨by simpa using ReadsStmts.cons hs hss, hclose⟩

end

/-! ## Programs -/

/-- Parameters are read one by one, with a comma before all but the first. -/
theorem params_settles : ∀ n {n' : Nat} {c : Cursor}, n ≤ n' → c.Bounded →
    16 * c.tokens.length ≤ n →
    Settles beyond (params n) (params n') c fun ps w _ => ReadsParams w ps
  | 0, _, c, _, _, hfuel => absurd hfuel (by have := c.tokens_pos; omega)
  | n + 1, 0, _, hle, _, _ => absurd hle (by omega)
  | n + 1, n' + 1, c, hle, hc, hfuel => by
      refine .position (.expect hc (by decide) fun htype hpass₁ hc₁ hlt₁ => ?_)
      refine .expect hc₁ (by decide) fun hname hpass₂ hc₂ hlt₂ => .spanFrom ?_
      rw [← (hpass₁.trans hpass₂).span (by simp)]
      refine .accept hc₂ (by decide) ?_ ?_
      · intro hcomma hpass₃ hc₃ hlt₃
        refine .bind (params_settles n (by omega) hc₃ (by omega)) ?_
        intro ps w₄ c₄ hpass₄ hps
        exact .pure (by simpa using ReadsParams.more htype hname (by simpa using hcomma) hps)
      · intro _
        exact .pure (.one htype hname)

/-- A function is read from its type to the end of its body. -/
theorem function_settles {n n' : Nat} {c : Cursor} (hle : n ≤ n') (hc : c.Bounded)
    (hfuel : 16 * c.tokens.length ≤ n) (htype : c.here.kind = .type) :
    Settles beyond (function n) (function n') c fun d w _ => ReadsFunc w d := by
  refine .position (.advance hc (by simp [htype]) fun hpass₁ hc₁ hlt₁ => ?_)
  refine .expect hc₁ (by decide) fun hname hpass₂ hc₂ hlt₂ => ?_
  refine .expect hc₂ (by decide) fun hl hpass₃ hc₃ hlt₃ => .here ?_
  have hhead := hpass₁.trans (hpass₂.trans hpass₃)
  by_cases hempty : c.advance.advance.advance.here.kind = .rparen
  · rw [if_pos hempty, if_pos hempty]
    refine .pure_bind (.expect hc₃ (by decide) fun hr hpass₄ hc₄ hlt₄ => ?_)
    refine .bind (block_settles n hle hc₄ (by omega)) ?_
    rintro body w₅ c₅ hpass₅ ⟨hbody, -⟩
    refine .spanFrom (.pure ?_)
    rw [← (hhead.trans (hpass₄.trans hpass₅)).span (by simp)]
    simpa using ReadsFunc.noParams htype hname hl hr hbody
  · rw [if_neg hempty, if_neg hempty]
    refine .bind (params_settles n hle hc₃ (by omega)) ?_
    intro ps w₄ c₄ hpass₄ hps
    have hlt₄ := hpass₄.length_lt hps.derives (by decide)
    refine .expect (hc₃.of_passes hpass₄) (by decide) fun hr hpass₅ hc₅ hlt₅ => ?_
    refine .bind (block_settles n hle hc₅ (by omega)) ?_
    rintro body w₆ c₆ hpass₆ ⟨hbody, -⟩
    refine .spanFrom (.pure ?_)
    rw [← (hhead.trans (hpass₄.trans (hpass₅.trans hpass₆))).span (by simp)]
    simpa using ReadsFunc.params htype hname hl hps hr hbody

/-- What is read up to an end of file is a list of items. -/
theorem items_settles : ∀ n {n' : Nat} {c : Cursor}, n ≤ n' → c.Bounded →
    16 * c.tokens.length + 1 ≤ n →
    Settles beyond (items n) (items n') c fun is w c' => ReadsItems w is ∧ c'.here.kind = .eof
  | 0, _, _, _, _, hfuel => absurd hfuel (by omega)
  | n + 1, 0, _, hle, _, _ => absurd hle (by omega)
  | n + 1, n' + 1, c, hle, hc, hfuel => by
      refine .here ?_
      split
      · next hkind => exact .pure ⟨.nil, hkind⟩
      · next hkind =>
          refine .bind (function_settles (by omega) hc (by omega) hkind) ?_
          intro d w₁ c₁ hpass₁ hd
          have hlt₁ := hpass₁.length_lt hd.derives (by decide)
          refine .bind (items_settles n (by omega) (hc.of_passes hpass₁) (by omega)) ?_
          rintro is w₂ c₂ hpass₂ ⟨his, heof⟩
          exact .pure ⟨by simpa using ReadsItems.func hd his, heof⟩
      · refine .bind (stmt_settles n (by omega) hc (by omega)) ?_
        rintro s w₁ c₁ hpass₁ ⟨hs, -⟩
        have hlt₁ := hpass₁.length_lt hs.derives (by decide)
        refine .bind (items_settles n (by omega) (hc.of_passes hpass₁) (by omega)) ?_
        rintro is w₂ c₂ hpass₂ ⟨his, heof⟩
        exact .pure ⟨by simpa using ReadsItems.stmt hs his, heof⟩

end Reader

end Pigeon

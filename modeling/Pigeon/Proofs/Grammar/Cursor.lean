import Pigeon.Grammar.Program
import Pigeon.Proofs.Grammar.Reading

/-!
# Passing tokens

`c.Passes w c'` says that the tokens from the cursor `c` up to the cursor `c'` are `w`, and that
the end of file is not among them. What a reader passes is always such a list of tokens, and the
span that it records is that of the list.
-/

namespace Pigeon

open Token

namespace Cursor

/-- The tokens from this place on. -/
def tokens (c : Cursor) : List Token := c.here :: c.ahead

/-- The tokens from the first cursor up to the second one, without an end of file. -/
structure Passes (c : Cursor) (w : List Token) (c' : Cursor) : Prop where
  tokens : c.tokens = w ++ c'.tokens
  last : c'.last = w.getLastD c.last
  inner : ∀ t ∈ w, t.kind ≠ .eof

theorem Passes.refl (c : Cursor) : c.Passes [] c := ⟨rfl, rfl, by simp⟩

/-- No tokens lead nowhere. -/
theorem Passes.eq_of_nil {c c' : Cursor} (h : c.Passes [] c') : c' = c := by
  obtain ⟨last, here, ahead⟩ := c
  obtain ⟨last', here', ahead'⟩ := c'
  obtain ⟨hhere, hahead⟩ := List.cons.inj h.tokens
  cases hhere
  cases hahead
  cases h.last
  rfl

/-- Tokens that are passed in two parts are passed in a row. -/
theorem Passes.trans {c c' c'' : Cursor} {w w' : List Token} (h : c.Passes w c')
    (h' : c'.Passes w' c'') : c.Passes (w ++ w') c'' := by
  refine ⟨by rw [h.tokens, h'.tokens, List.append_assoc], ?_, ?_⟩
  · rw [h'.last, h.last]
    cases w' with
    | nil => simp
    | cons t w' => simp [List.getLastD_eq_getLast?, List.getLast?_append]
  · intro t ht
    exact (List.mem_append.mp ht).elim (h.inner t) (h'.inner t)

/-- Between two parts of the tokens there is a cursor. -/
theorem Passes.split {c c'' : Cursor} {w w' : List Token} (h : c.Passes (w ++ w') c'') :
    ∃ c', c.Passes w c' ∧ c'.Passes w' c'' := by
  obtain ⟨t, ts, htokens⟩ : ∃ t ts, w' ++ c''.tokens = t :: ts :=
    List.exists_cons_of_ne_nil (by simp [Cursor.tokens])
  have hlast : (w ++ w').getLastD c.last = w'.getLastD (w.getLastD c.last) := by
    simp only [List.getLastD_eq_getLast?, List.getLast?_append]
    cases w'.getLast? <;> simp
  refine ⟨⟨w.getLastD c.last, t, ts⟩, ⟨?_, rfl, ?_⟩, ⟨?_, ?_, ?_⟩⟩
  · rw [h.tokens, List.append_assoc, htokens]
    rfl
  · exact fun t ht => h.inner t (List.mem_append_left _ ht)
  · exact htokens.symm
  · exact h.last.trans hlast
  · exact fun t ht => h.inner t (List.mem_append_right _ ht)

/-- Passing a token is one step. -/
theorem Passes.cons {c c' : Cursor} {t : Token} {w : List Token} (h : c.Passes (t :: w) c') :
    c.here = t ∧ c.advance.Passes w c' := by
  obtain ⟨hhere, hahead⟩ : c.here = t ∧ c.ahead = w ++ c'.tokens := List.cons.inj h.tokens
  have heof : c.here.kind ≠ .eof := hhere ▸ h.inner t List.mem_cons_self
  obtain ⟨t', ts, htokens⟩ : ∃ t' ts, w ++ c'.tokens = t' :: ts :=
    List.exists_cons_of_ne_nil (by simp [Cursor.tokens])
  have hadvance : c.advance = ⟨c.here, t', ts⟩ := by
    rw [Cursor.advance, if_neg heof, hahead, htokens]
  refine ⟨hhere, ?_, ?_, fun t ht => h.inner t (List.mem_cons_of_mem _ ht)⟩
  · rw [hadvance]
    exact htokens.symm
  · rw [hadvance, h.last, hhere, List.getLastD_cons]

/-- Passing one token is one step. -/
theorem Passes.single {c c' : Cursor} {t : Token} (h : c.Passes [t] c') :
    c.here = t ∧ c.advance = c' :=
  ⟨h.cons.1, h.cons.2.eq_of_nil.symm⟩

/-- The span of the tokens begins where the first cursor stands, and ends after the token before
the second one. -/
theorem Passes.span {c c' : Cursor} {w : List Token} (h : c.Passes w c') (hw : w ≠ []) :
    spanOf w = some ⟨c.here.position, c'.last.stop⟩ := by
  obtain ⟨t, w, rfl⟩ := List.exists_cons_of_ne_nil hw
  rw [spanOf_cons, h.last, List.getLastD_cons, h.cons.1]

/-- One token ahead stands the token that comes after one step. -/
theorem Passes.nextKind {c c' : Cursor} {t : Token} {w : List Token} (h : c.Passes (t :: w) c') :
    c.nextKind = c.advance.here.kind := by
  have htokens : c.ahead = c.advance.tokens := by
    have hall : c.ahead = w ++ c'.tokens := (List.cons.inj h.tokens).2
    rw [hall, h.cons.2.tokens]
  rw [Cursor.nextKind, htokens, Cursor.tokens]
  rfl

/-- Where a phrase is passed, the cursor stands on its first token, or the phrase is empty. -/
theorem Passes.first {c c' : Cursor} {w : List Token} {p : Grammar.Phrase} (h : c.Passes w c')
    (hp : Grammar.Derives p (w.map (·.kind))) : some c.here.kind ∈ p.first ∨ c' = c := by
  cases w with
  | nil => exact Or.inr h.eq_of_nil
  | cons t w =>
      rw [h.cons.1]
      exact Or.inl hp.head

/-- Where a phrase is passed that is never empty, the cursor stands on its first token. -/
theorem Passes.first_of_not_none {c c' : Cursor} {w : List Token} {p : Grammar.Phrase}
    (h : c.Passes w c') (hp : Grammar.Derives p (w.map (·.kind))) (hnone : none ∉ p.first) :
    some c.here.kind ∈ p.first := by
  cases w with
  | nil => exact absurd hp.head hnone
  | cons t w =>
      rw [h.cons.1]
      exact hp.head

/-- Where a phrase is passed that is never empty, the cursor stands on no token that the phrase
cannot begin with. -/
theorem Passes.here_not_mem {c c' : Cursor} {w : List Token} {p : Grammar.Phrase}
    {kinds : List TokenKind} (h : c.Passes w c') (hp : Grammar.Derives p (w.map (·.kind)))
    (hnone : none ∉ p.first) (hkinds : ∀ k ∈ kinds, some k ∉ p.first) : c.here.kind ∉ kinds :=
  fun hmem => hkinds _ hmem (h.first_of_not_none hp hnone)

/-- The first token of a phrase is none of a kind that does not begin the phrase. -/
theorem Passes.here_ne {c c' : Cursor} {w : List Token} {p : Grammar.Phrase} {k : TokenKind}
    (h : c.Passes w c') (hp : Grammar.Derives p (w.map (·.kind))) (hnone : none ∉ p.first)
    (hk : some k ∉ p.first) : c.here.kind ≠ k := by
  rintro rfl
  exact hk (h.first_of_not_none hp hnone)

end Cursor

namespace Reader

variable {α : Type} {c : Cursor}

/-! ## What the smallest readers do -/

/-- What is done where a token of a kind is expected. -/
theorem expect_apply (kind : TokenKind) (what : Expected) (c : Cursor) :
    expect kind what c = if c.here.kind = kind then advance c else fail (.expected what) c := by
  show (if c.here.kind = kind then advance else fail (.expected what) : Reader Token) c = _
  by_cases hkind : c.here.kind = kind
  · rw [if_pos hkind, if_pos hkind]
  · rw [if_neg hkind, if_neg hkind]

/-- What is done where a token of some kinds may stand. -/
theorem accept?_apply (kinds : List TokenKind) (c : Cursor) :
    accept? kinds c =
      if kinds.contains c.here.kind then .ok (some c.here, c.advance) else .ok (none, c) := by
  show (if kinds.contains c.here.kind = true then do return some (← advance)
    else return none : Reader (Option Token)) c = _
  by_cases hkind : kinds.contains c.here.kind = true
  · rw [if_pos hkind, if_pos hkind]
    rfl
  · rw [if_neg hkind, if_neg hkind]
    rfl

end Reader

/-! ## Reading tokens as a program -/

namespace Program

variable {tokens : List Token} {filename : Option String}

theorem ofTokens_eq (filename : Option String) (tokens : List Token) : ofTokens tokens filename =
    (Reader.program (Reader.depthFor tokens.length) filename (.ofTokens tokens)).map Prod.fst := rfl

/-- Tokens are read as a program where the reader gives it, at whatever cursor it ends. -/
theorem ofTokens_eq_ok_iff {p : Program} : ofTokens tokens filename = .ok p ↔ ∃ c,
    Reader.program (Reader.depthFor tokens.length) filename (.ofTokens tokens) = .ok (p, c) := by
  rw [ofTokens_eq]
  cases Reader.program (Reader.depthFor tokens.length) filename (.ofTokens tokens) with
  | error e => simp [Except.map]
  | ok r =>
      obtain ⟨q, c⟩ := r
      simp [Except.map]

/-- Tokens are refused where the reader refuses them. -/
theorem ofTokens_eq_error_iff {e : ReadError} : ofTokens tokens filename = .error e ↔
    Reader.program (Reader.depthFor tokens.length) filename (.ofTokens tokens) = .error e := by
  rw [ofTokens_eq]
  cases Reader.program (Reader.depthFor tokens.length) filename (.ofTokens tokens) with
  | error e => simp [Except.map]
  | ok r => simp [Except.map]

end Program

end Pigeon

import Pigeon.Proofs.Grammar.Sound

/-!
# Where readers stop

A reader looks no further than the token under the cursor where it stops, whether it has read a
phrase or fails there. So it does the same wherever the tokens up to this one are the same. What it
has passed before a failure is *viable*: more tokens make a phrase of it.

`Reader.Stops r c P E` says this of a reader `r` at a cursor `c`. The kinds of the tokens that it has
passed satisfy `P`, together with the cursor after them, if something was read, and `E` if not.
-/

namespace Pigeon

open Grammar Token

/-- Some kinds of tokens make a phrase of the given ones. -/
def Grammar.Viable (p : Phrase) (w : List TokenKind) : Prop := ∃ v, Derives p (w ++ v)

namespace Grammar

/-- The word `true` is an expression, the shortest that makes a phrase viable where one is missing.
-/
theorem expr_true : Derives .expr [.kwTrue] := by
  have hprimary : Derives .primary [.kwTrue] := .atom (by decide)
  exact .plain (.tighter (.tighter (.tighter (.tighter (.tighter (.tighter (.tightest
    (.unsigned hprimary))))))))

/-- The statement `break;` is a block, the shortest where a body is missing. -/
theorem block_break : Derives .block [.kwBreak, .semi] := .single .brk

end Grammar

namespace Cursor.Passes

variable {c c' d d' : Cursor} {t : Token} {w : List Token}

/-- Two cursors before the same tokens, with the same one after them, stand on the same token. -/
theorem here_eq (h : c.Passes w c') (h' : d.Passes w d') (hhere : d'.here = c'.here) :
    d.here = c.here := by
  cases w with
  | nil => rw [← h.eq_of_nil, ← h'.eq_of_nil, hhere]
  | cons t w => rw [h.cons.1, h'.cons.1]

/-- Two cursors that have passed the same tokens stand after the same one. -/
theorem last_eq (h : c.Passes w c') (h' : d.Passes w d') (hlast : d.last = c.last) :
    d'.last = c'.last := by
  rw [h.last, h'.last, hlast]

end Cursor.Passes

namespace Reader

variable {α β : Type} {c : Cursor}

/-- Wherever the tokens `w` are passed as between the two cursors, and the same token follows, the
reader has the result for the cursor after them. -/
def Replays (r : Reader α) (c : Cursor) (w : List Token) (c' : Cursor)
    (result : Cursor → Except ReadError (α × Cursor)) : Prop :=
  ∀ d d', d.last = c.last → d.Passes w d' → d'.here = c'.here → r d = result d'

/-- What a reader has passed where it stops, and that it has looked no further. -/
structure Stops (r : Reader α) (c : Cursor) (P : List TokenKind → Cursor → Prop)
    (E : List TokenKind → Prop) : Prop where
  ok : ∀ a c', r c = .ok (a, c') → ∃ w, c.Passes w c' ∧ P (w.map (·.kind)) c' ∧
    Replays r c w c' fun d' => .ok (a, d')
  error : ∀ e, r c = .error (.grammar e) → ∃ w c', c.Passes w c' ∧ c'.here = e.token ∧
    E (w.map (·.kind)) ∧ Replays r c w c' fun _ => .error (.grammar e)

namespace Stops

variable {P : List TokenKind → Cursor → Prop} {Q : List TokenKind → Cursor → Prop}
  {E E' : List TokenKind → Prop}

/-! ## Rules -/

/-- Only what the reader does where the same token stands under the cursor matters. -/
theorem congr {r s : Reader α} (h : Stops r c P E)
    (hs : ∀ d : Cursor, d.here = c.here → d.last = c.last → s d = r d) : Stops s c P E := by
  have hreplays : ∀ {w c' result}, c.Passes w c' → Replays r c w c' result →
      Replays s c w c' result := by
    intro w c' result hpass h d d' hlast hpass' hhere
    rw [hs d (hpass.here_eq hpass' hhere) hlast]
    exact h d d' hlast hpass' hhere
  constructor
  · intro a c' hok
    rw [hs c rfl rfl] at hok
    obtain ⟨w, hpass, hP, hreplay⟩ := h.ok a c' hok
    exact ⟨w, hpass, hP, hreplays hpass hreplay⟩
  · intro e herror
    rw [hs c rfl rfl] at herror
    obtain ⟨w, c', hpass, htoken, hE, hreplay⟩ := h.error e herror
    exact ⟨w, c', hpass, htoken, hE, hreplays hpass hreplay⟩

/-- What is known where the reader stops may be weakened, both where it has read something and where
it fails. -/
theorem mono {r : Reader α} (h : Stops r c P E) (hP : ∀ x c', P x c' → Q x c')
    (hE : ∀ x, E x → E' x) : Stops r c Q E' := by
  constructor
  · intro a c' hok
    obtain ⟨w, hpass, hp, hreplay⟩ := h.ok a c' hok
    exact ⟨w, hpass, hP _ _ hp, hreplay⟩
  · intro e herror
    obtain ⟨w, c', hpass, htoken, he, hreplay⟩ := h.error e herror
    exact ⟨w, c', hpass, htoken, hE _ he, hreplay⟩

/-- A reader that gives a result whatever it stands on. -/
theorem of_ok {r : Reader α} {a : α} {c' : Cursor} {w : List Token} (hr : r c = .ok (a, c'))
    (hpass : c.Passes w c') (hP : P (w.map (·.kind)) c')
    (hreplay : Replays r c w c' fun d' => .ok (a, d')) : Stops r c P E := by
  constructor
  · intro b c'' hok
    obtain ⟨rfl, rfl⟩ := Prod.mk.inj (Except.ok.inj (hr.symm.trans hok))
    exact ⟨w, hpass, hP, hreplay⟩
  · intro e herror
    cases hr.symm.trans herror

/-- A reader that fails without a syntax error. -/
theorem of_error {r : Reader α} {e : ReadError} (hr : r c = .error e)
    (he : ∀ e', e ≠ .grammar e') : Stops r c P E := by
  constructor
  · intro b c'' hok
    cases hr.symm.trans hok
  · intro e' herror
    exact absurd (Except.error.inj (hr.symm.trans herror)) (he e')

/-- A reader that gives a value stops at once, with nothing passed. -/
theorem pure {a : α} (h : P [] c) : Stops (pure a) c P E := by
  refine of_ok rfl (.refl c) h fun d d' _ hpass _ => ?_
  rw [hpass.eq_of_nil]
  rfl

/-- A reader whose bound is used up fails because of no token, so nothing is claimed of it. -/
theorem tooDeep : Stops (throw .tooDeep : Reader α) c P E := by
  have hrun : (throw .tooDeep : Reader α) c = .error .tooDeep := rfl
  exact of_error hrun fun _ h => nomatch h

/-- A reader that fails stops at once, and what was passed before must be viable. -/
theorem fail {cause : ParseCause} (h : E []) : Stops (Reader.fail cause : Reader α) c P E := by
  have hfail : ∀ d : Cursor, (Reader.fail cause : Reader α) d = .error (.grammar ⟨cause, d.here⟩) :=
    fun _ => rfl
  constructor
  · intro b c' hok
    cases (hfail c).symm.trans hok
  · intro e herror
    obtain rfl := ReadError.grammar.inj (Except.error.inj ((hfail c).symm.trans herror))
    refine ⟨[], c, .refl c, rfl, h, fun d d' _ hpass hhere => ?_⟩
    rw [hfail, ← hhere, hpass.eq_of_nil]

/-- What the second reader passes is passed after what the first one has passed. -/
theorem bind {r : Reader α} {f : α → Reader β} (h : Stops r c P E) (hE : ∀ x, E x → E' x)
    (hf : ∀ a w c', r c = .ok (a, c') → c.Passes w c' → P (w.map (·.kind)) c' →
      Stops (f a) c' (fun x => Q (w.map (·.kind) ++ x)) fun x => E' (w.map (·.kind) ++ x)) :
    Stops (r >>= f) c Q E' := by
  have hbind : ∀ d, (r >>= f) d = (r d).bind fun x => f x.1 x.2 := fun _ => rfl
  -- the first reader gives the same result wherever the second one is to be replayed
  have hreplays : ∀ {a : α} {w c' w' c'' result}, c.Passes w c' → c'.Passes w' c'' →
      (Replays r c w c' fun d' => .ok (a, d')) → Replays (f a) c' w' c'' result →
      Replays (r >>= f) c (w ++ w') c'' result := by
    intro a w c' w' c'' result hpass hpass' h h' d d'' hlast hall hhere
    obtain ⟨d', hd, hd'⟩ := hall.split
    rw [hbind, h d d' hlast hd (hpass'.here_eq hd' hhere)]
    exact h' d' d'' (hpass.last_eq hd hlast) hd' hhere
  constructor
  · intro b c'' hok
    rw [hbind] at hok
    rcases hr : r c with e | ⟨a, c'⟩
    · rw [hr] at hok
      cases hok
    · rw [hr] at hok
      obtain ⟨w, hpass, hP, hreplay⟩ := h.ok a c' hr
      obtain ⟨w', hpass', hQ, hreplay'⟩ := (hf a w c' hr hpass hP).ok b c'' hok
      refine ⟨w ++ w', hpass.trans hpass', ?_, hreplays hpass hpass' hreplay hreplay'⟩
      rw [List.map_append]
      exact hQ
  · intro e herror
    rw [hbind] at herror
    rcases hr : r c with e' | ⟨a, c'⟩
    · rw [hr] at herror
      cases herror
      obtain ⟨w, c', hpass, htoken, he, hreplay⟩ := h.error e hr
      refine ⟨w, c', hpass, htoken, hE _ he, fun d d' hlast hd hhere => ?_⟩
      rw [hbind, hreplay d d' hlast hd hhere]
      rfl
    · rw [hr] at herror
      obtain ⟨w, hpass, hP, hreplay⟩ := h.ok a c' hr
      obtain ⟨w', c'', hpass', htoken, he, hreplay'⟩ := (hf a w c' hr hpass hP).error e herror
      refine ⟨w ++ w', c'', hpass.trans hpass', htoken, ?_,
        hreplays hpass hpass' hreplay hreplay'⟩
      rw [List.map_append]
      exact he

/-- A function applied to the result changes nothing about where the reader stops. -/
theorem map {r : Reader α} (f : α → β) (h : Stops r c P E) : Stops (f <$> r) c P E := by
  rw [map_eq_pure_bind]
  refine h.bind (fun _ he => he) fun a w c' _ _ hP => .pure ?_
  rw [List.append_nil]
  exact hP

/-- A value that is given at once is handed to what follows. -/
theorem pure_bind {a : α} {f : α → Reader β} (h : Stops (f a) c P E) :
    Stops (Pure.pure a >>= f) c P E := h

/-- A reader may look at the token under the cursor, which is where it would stop. -/
theorem here {f : Token → Reader α} (h : Stops (f c.here) c P E) :
    Stops (Reader.here >>= f) c P E := by
  refine h.congr fun d hhere _ => ?_
  show f d.here d = _
  rw [hhere]

/-- Reading the position looks at the token under the cursor only. -/
theorem position {f : Position → Reader α} (h : Stops (f c.here.position) c P E) :
    Stops (Reader.position >>= f) c P E := by
  refine h.congr fun d hhere _ => ?_
  show f d.here.position d = _
  rw [hhere]

/-- A span depends on the token that was passed last. -/
theorem spanFrom {f : Option Span → Reader α} {start : Position}
    (h : Stops (f (some ⟨start, c.last.stop⟩)) c P E) :
    Stops (Reader.spanFrom start >>= f) c P E := by
  refine h.congr fun d _ hlast => ?_
  show f (some ⟨start, d.last.stop⟩) d = _
  rw [hlast]

/-- Taking the value of a numeral passes no token. One that has none is no failure because of a
token. -/
theorem numeral {f : α → Reader β} {x : Except NumeralError α}
    (h : ∀ n, Stops (f n) c P E) : Stops (Reader.numeral x >>= f) c P E := by
  cases x with
  | error e =>
      have hrun : (Reader.numeral (.error e) >>= f) c = .error (.numeral e) := rfl
      exact of_error hrun fun _ h => nomatch h
  | ok n => exact h n

/-- Passing the token under the cursor puts its kind before those that are passed later. -/
theorem advance {f : Token → Reader α} (hc : c.Bounded) (hne : c.here.kind ≠ .eof)
    (h : c.advance.Bounded → Stops (f c.here) c.advance (fun x => P (c.here.kind :: x))
      fun x => E (c.here.kind :: x)) :
    Stops (Reader.advance >>= f) c P E := by
  have hpass := hc.passes hne
  have hrun : ∀ d : Cursor, Reader.advance d = .ok (d.here, d.advance) := fun _ => rfl
  have hadvance : Stops Reader.advance c (fun x _ => x = [c.here.kind]) fun _ => False := by
    refine of_ok (hrun c) hpass rfl fun d d' _ hd _ => ?_
    rw [hrun, hd.cons.1, hd.cons.2.eq_of_nil]
  refine hadvance.bind (fun _ => False.elim) fun t w c' hok _ hw => ?_
  obtain ⟨rfl, rfl⟩ := Prod.mk.inj (Except.ok.inj ((hrun c).symm.trans hok))
  rw [hw]
  exact h (hc.of_passes hpass)

/-- A demanded token is passed, or the reader stops before it. -/
theorem expect {f : Token → Reader α} {kind : TokenKind} {what : Expected} (hc : c.Bounded)
    (hne : kind ≠ .eof) (hE : E []) (h : c.here.kind = kind → c.advance.Bounded →
      Stops (f c.here) c.advance (fun x => P (kind :: x)) fun x => E (kind :: x)) :
    Stops (Reader.expect kind what >>= f) c P E := by
  by_cases hkind : c.here.kind = kind
  · have hrun : Stops (Reader.advance >>= f) c P E := by
      refine .advance hc (hkind ▸ hne) fun hc' => ?_
      rw [hkind]
      exact h hkind hc'
    refine hrun.congr fun d hhere _ => ?_
    simp only [Bind.bind, StateT.bind, expect_apply, hhere, if_pos hkind]
  · have hrun : Stops (Reader.fail (.expected what) : Reader α) c P E := .fail hE
    refine hrun.congr fun d hhere _ => ?_
    simp only [Bind.bind, StateT.bind, expect_apply, hhere, if_neg hkind]
    rfl

/-- A token that may stand here is passed, or the reader goes on without it. Both cases are decided
by the token under the cursor. -/
theorem accept {f : Option Token → Reader α} {kinds : List TokenKind} (hc : c.Bounded)
    (hne : .eof ∉ kinds)
    (hsome : c.here.kind ∈ kinds → c.advance.Bounded → Stops (f (some c.here)) c.advance
      (fun x => P (c.here.kind :: x)) fun x => E (c.here.kind :: x))
    (hnone : c.here.kind ∉ kinds → Stops (f none) c P E) :
    Stops (accept? kinds >>= f) c P E := by
  by_cases hkind : c.here.kind ∈ kinds
  · have heof : c.here.kind ≠ .eof := fun heof => hne (heof ▸ hkind)
    have hcontains : kinds.contains c.here.kind = true := by simpa using hkind
    have hrun : Stops (Reader.advance >>= fun t => f (some t)) c P E :=
      .advance hc heof (hsome hkind)
    refine hrun.congr fun d hhere _ => ?_
    simp only [Bind.bind, StateT.bind, accept?_apply, hhere, if_pos hcontains]
    show f (some c.here) d.advance = f (some d.here) d.advance
    rw [hhere]
  · have hcontains : ¬ kinds.contains c.here.kind = true := by simpa using hkind
    refine (hnone hkind).congr fun d hhere _ => ?_
    simp only [Bind.bind, StateT.bind, accept?_apply, hhere, if_neg hcontains]
    rfl

/-- A reader may look one token further ahead if it passes the token under the cursor then. -/
theorem nextKind {kind : TokenKind} {r r' : Reader α}
    (hyes : c.nextKind = kind → Stops r c (fun x c' => x ≠ [] ∧ P x c') fun x => x ≠ [] ∧ E x)
    (hno : c.nextKind ≠ kind → Stops r' c (fun x c' => x ≠ [] ∧ P x c') fun x => x ≠ [] ∧ E x) :
    Stops (MonadState.get >>= fun c : Cursor => if c.nextKind = kind then r else r') c P E := by
  let choice (k : TokenKind) : Reader α := if k = kind then r else r'
  have h : Stops (choice c.nextKind) c (fun x c' => x ≠ [] ∧ P x c') fun x => x ≠ [] ∧ E x := by
    by_cases hkind : c.nextKind = kind
    · rw [show choice c.nextKind = r from if_pos hkind]
      exact hyes hkind
    · rw [show choice c.nextKind = r' from if_neg hkind]
      exact hno hkind
  have hreplays : ∀ {w c' result}, c.Passes w c' → w.map (·.kind) ≠ [] →
      Replays (choice c.nextKind) c w c' result →
      Replays (MonadState.get >>= fun c : Cursor => choice c.nextKind) c w c' result := by
    intro w c' result hpass hw h d d' hlast hpass' hhere
    obtain ⟨t, w, rfl⟩ := List.exists_cons_of_ne_nil (mt List.map_eq_nil_iff.mpr hw)
    have hnext : d.nextKind = c.nextKind := by
      rw [hpass.nextKind, hpass'.nextKind, hpass.cons.2.here_eq hpass'.cons.2 hhere]
    show choice d.nextKind d = _
    rw [hnext]
    exact h d d' hlast hpass' hhere
  constructor
  · intro a c' hok
    obtain ⟨w, hpass, ⟨hw, hP⟩, hreplay⟩ := h.ok a c' hok
    exact ⟨w, hpass, hP, hreplays hpass hw hreplay⟩
  · intro e herror
    obtain ⟨w, c', hpass, htoken, ⟨hw, hE⟩, hreplay⟩ := h.error e herror
    exact ⟨w, c', hpass, htoken, hE, hreplays hpass hw hreplay⟩

/-- A reader that begins with a phrase. -/
theorem phrase {p : Phrase} {r : Reader α} {f : α → Reader β}
    (h : Stops r c (fun x _ => Derives p x) (Viable p)) (hc : c.Bounded)
    (hE : ∀ x y, Derives p (x ++ y) → E x)
    (hf : ∀ a x c', Derives p x → c'.Bounded →
      Stops (f a) c' (fun y => Q (x ++ y)) fun y => E (x ++ y)) :
    Stops (r >>= f) c Q E :=
  h.bind (fun x ⟨y, hy⟩ => hE x y hy) fun a _ c' _ hpass hx => hf a _ c' hx (hc.of_passes hpass)

end Stops

/-! ## Expressions -/

-- Wherever a reader stops inside a phrase, some further tokens complete it: the shortest condition
-- and expression are `true`, the shortest body is `break;`. So each step of a reader is met with two
-- goals, one for a failure inside the next phrase and one for what comes after it. The induction is
-- on the bound of the readers.

mutual

/-- The reader of expressions stops after an expression or where what it has passed is viable as
one. -/
theorem expr_stops : ∀ n {c : Cursor}, c.Bounded →
    Stops (expr n) c (fun x _ => Derives .expr x) (Viable .expr)
  | 0, _, _ => .tooDeep
  | n + 1, c, hc => by
      refine .position (.phrase (binary_stops n binaryLevels (List.suffix_refl _) hc) hc ?_ ?_)
      · intro x y h
        exact ⟨y, .plain h⟩
      · intro cond x₁ c₁ hcond hc₁
        refine .accept hc₁ (by decide) ?_ fun _ => .pure (by simpa using Derives.plain hcond)
        intro hq hc₂
        rw [List.mem_singleton.mp hq]
        -- behind the question mark the second branch is still missing
        refine .phrase (expr_stops n hc₂) hc₂ ?_ ?_
        · intro x y h
          exact ⟨y ++ [TokenKind.colon, .kwTrue], by simpa using Derives.ternary hcond h expr_true⟩
        · intro yes x₃ c₃ hyes hc₃
          refine .expect hc₃ (by decide) ⟨[.colon, .kwTrue], ?_⟩ fun _ hc₄ => ?_
          · simpa using Derives.ternary hcond hyes expr_true
          · refine .phrase (expr_stops n hc₄) hc₄ ?_ ?_
            · intro x y h
              exact ⟨y, by simpa using Derives.ternary hcond hyes h⟩
            · intro no x₅ c₅ hno _
              exact .spanFrom (.pure (by simpa using Derives.ternary hcond hyes hno))

/-- The same of the readers of the levels of binary operators. -/
theorem binary_stops : ∀ n (levels : List (List TokenKind)) {c : Cursor}, levels <:+ precedence →
    c.Bounded → Stops (binary n levels) c (fun x _ => Derives (.level levels) x)
      (Viable (.level levels))
  | 0, _, _, _, _ => .tooDeep
  | n + 1, [], _, _, hc =>
    (unary_stops n hc).mono (fun _ _ => .tightest) fun _ ⟨y, h⟩ => ⟨y, .tightest h⟩
  | n + 1, kinds :: tighter, c, hlevels, hc => by
      have htighter : tighter <:+ precedence := (List.suffix_cons kinds tighter).trans hlevels
      refine .position (.phrase (binary_stops n tighter htighter hc) hc ?_ ?_)
      · intro x y h
        exact ⟨y, .tighter h⟩
      · intro left x₁ c₁ hleft hc₁
        exact binaryTail_stops n kinds tighter hlevels hc₁ (.tighter hleft)

/-- After a left operand the rest of a chain makes one expression together with it, or a viable
beginning. -/
theorem binaryTail_stops : ∀ n (kinds : List TokenKind) (tighter : List (List TokenKind))
    {start : Position} {left : Expr} {c : Cursor} {l : List TokenKind},
    kinds :: tighter <:+ precedence → c.Bounded → Derives (.level (kinds :: tighter)) l →
    Stops (binaryTail n start kinds tighter left) c
      (fun x _ => Derives (.level (kinds :: tighter)) (l ++ x))
      fun x => Viable (.level (kinds :: tighter)) (l ++ x)
  | 0, _, _, _, _, _, _, _, _, _ => .tooDeep
  | n + 1, kinds, tighter, start, left, c, l, hlevels, hc, hl => by
      have htighter : tighter <:+ precedence := (List.suffix_cons kinds tighter).trans hlevels
      have hne : .eof ∉ kinds := fun hmem =>
        (by decide : TokenKind.eof ∉ precedence.flatten)
          (Phrase.InLanguage.mem_precedence hlevels hmem)
      refine .accept hc hne ?_ fun _ => .pure (by simpa using hl)
      intro hop hc₁
      refine .phrase (binary_stops n tighter htighter hc₁) hc₁ ?_ ?_
      · intro x y h
        exact ⟨y, by simpa using Derives.binary hl hop h⟩
      · intro right x₂ c₂ hright hc₂
        refine .spanFrom ((binaryTail_stops n kinds tighter hlevels hc₂
          (.binary hl hop hright)).mono ?_ ?_)
        · intro x _ h
          simpa using h
        · rintro x ⟨y, h⟩
          exact ⟨y, by simpa using h⟩

/-- The same of the reader of unary expressions. -/
theorem unary_stops : ∀ n {c : Cursor}, c.Bounded →
    Stops (unary n) c (fun x _ => Derives .unary x) (Viable .unary)
  | 0, _, _ => .tooDeep
  | n + 1, c, hc => by
      refine .position (.accept hc (by decide) ?_ fun _ => ?_)
      · intro hop hc₁
        refine .phrase (unary_stops n hc₁) hc₁ ?_ ?_
        · intro x y h
          exact ⟨y, .unary hop h⟩
        · intro operand x₂ c₂ hoperand _
          exact .spanFrom (.pure (by simpa using Derives.unary hop hoperand))
      · exact (primary_stops n hc).mono (fun _ _ => .unsigned) fun _ ⟨y, h⟩ => ⟨y, .unsigned h⟩

/-- The same of the reader of primary expressions. -/
theorem primary_stops : ∀ n {c : Cursor}, c.Bounded →
    Stops (primary n) c (fun x _ => Derives .primary x) (Viable .primary)
  | 0, _, _ => .tooDeep
  | n + 1, c, hc => by
      have hatom : c.here.kind ∈ atoms → Derives .primary [c.here.kind] := .atom
      refine .position (.here ?_)
      -- one case for each kind of token with which a primary expression can begin
      split
      · next hkind =>
          exact .advance hc (by simp [hkind]) fun _ => .numeral fun _ => .spanFrom
            (.pure (hatom (by simp [hkind, atoms])))
      · next hkind =>
          exact .advance hc (by simp [hkind]) fun _ => .numeral fun _ => .spanFrom
            (.pure (hatom (by simp [hkind, atoms])))
      · next hkind =>
          exact .advance hc (by simp [hkind]) fun _ => .spanFrom
            (.pure (hatom (by simp [hkind, atoms])))
      · next hkind =>
          exact .advance hc (by simp [hkind]) fun _ => .spanFrom
            (.pure (hatom (by simp [hkind, atoms])))
      · next hkind =>
          exact .advance hc (by simp [hkind]) fun _ => .spanFrom
            (.pure (hatom (by simp [hkind, atoms])))
      · next hkind =>
          -- a name is read as a call or as a variable, and either way it is passed
          refine .nextKind (fun hparen => ?_) fun _ => ?_
          · refine (call_stops n hc hkind hparen).mono ?_ ?_
            · rintro x _ ⟨hx, h⟩
              exact ⟨hx, .called h⟩
            · rintro x ⟨hx, y, h⟩
              exact ⟨hx, y, .called h⟩
          · exact .advance hc (by simp [hkind]) fun _ => .spanFrom
              (.pure ⟨List.cons_ne_nil _ _, hatom (by simp [hkind, atoms])⟩)
      · next hkind =>
          refine .advance hc (by simp [hkind]) fun hc₁ => ?_
          rw [hkind]
          refine .phrase (expr_stops n hc₁) hc₁ ?_ ?_
          · intro x y h
            exact ⟨y ++ [TokenKind.rparen], by simpa using Derives.paren h⟩
          · intro inner x₂ c₂ hinner hc₂
            have hparen := Derives.paren hinner
            refine .expect hc₂ (by decide) ⟨[.rparen], by simpa using hparen⟩ fun _ _ => ?_
            exact .spanFrom (.pure (by simpa using hparen))
      · exact .fail ⟨[.kwTrue], .atom (by decide)⟩

/-- Where a call is read, its name and the parenthesis after it are passed at once. -/
theorem call_stops : ∀ n {c : Cursor}, c.Bounded → c.here.kind = .ident → c.nextKind = .lparen →
    Stops (call n) c (fun x _ => x ≠ [] ∧ Derives .call x) fun x => x ≠ [] ∧ Viable .call x
  | 0, _, _, _, _ => .tooDeep
  | n + 1, c, hc, hname, hparen => by
      have hl : c.advance.here.kind = .lparen :=
        (hc.passes (by simp [hname])).nextKind.symm.trans hparen
      refine .position (.advance hc (by simp [hname]) fun hc₁ => ?_)
      refine .advance hc₁ (by simp [hl]) fun hc₂ => .here ?_
      rw [hname, hl]
      by_cases hempty : c.advance.advance.here.kind = .rparen
      · rw [if_pos hempty]
        have hcall : Derives .call [.ident, .lparen, .rparen] := .callNoArgs
        refine .pure_bind (.expect hc₂ (by decide) ⟨by simp, [.rparen], hcall⟩ fun _ _ => ?_)
        exact .spanFrom (.pure ⟨by simp, hcall⟩)
      · rw [if_neg hempty]
        refine .phrase (arguments_stops n hc₂) hc₂ ?_ ?_
        · intro x y h
          exact ⟨by simp, y ++ [TokenKind.rparen], by simpa using Derives.callArgs h⟩
        · intro args x₃ c₃ hargs hc₃
          have hcall := Derives.callArgs hargs
          refine .expect hc₃ (by decide) ⟨by simp, [.rparen], by simpa using hcall⟩ fun _ _ => ?_
          exact .spanFrom (.pure ⟨by simp, by simpa using hcall⟩)

/-- The same of the reader of arguments. -/
theorem arguments_stops : ∀ n {c : Cursor}, c.Bounded →
    Stops (arguments n) c (fun x _ => Derives .args x) (Viable .args)
  | 0, _, _ => .tooDeep
  | n + 1, c, hc => by
      refine .phrase (expr_stops n hc) hc ?_ ?_
      · intro x y h
        exact ⟨y, .arg h⟩
      · intro arg x₁ c₁ harg hc₁
        refine .accept hc₁ (by decide) ?_ fun _ => .pure (by simpa using Derives.arg harg)
        intro hcomma hc₂
        rw [List.mem_singleton.mp hcomma]
        refine .phrase (arguments_stops n hc₂) hc₂ ?_ ?_
        · intro x y h
          exact ⟨y, by simpa using Derives.moreArgs harg h⟩
        · intro args x₃ c₃ hargs _
          exact .pure (by simpa using Derives.moreArgs harg hargs)

end

/-! ## Statements -/

/-- The reader of declarations stops after a declaration or after a viable beginning of one. -/
theorem declaration_stops (n : Nat) (hc : c.Bounded)
    (hkind : c.here.kind ∈ [TokenKind.kwLet, .kwConst]) :
    Stops (declaration n) c (fun x _ => Derives .stmt x) (Viable .stmt) := by
  have heof : c.here.kind ≠ .eof := by
    intro heof
    rw [heof] at hkind
    exact absurd hkind (by decide)
  have hsample := Derives.declare hkind expr_true
  refine .position (.advance hc heof fun hc₁ => ?_)
  refine .expect hc₁ (by decide) ⟨_, hsample⟩ fun _ hc₂ => ?_
  refine .expect hc₂ (by decide) ⟨_, hsample⟩ fun _ hc₃ => ?_
  refine .phrase (expr_stops n hc₃) hc₃ ?_ ?_
  · intro x y h
    exact ⟨y ++ [TokenKind.semi], by simpa using Derives.declare hkind h⟩
  · intro value x₄ c₄ hvalue hc₄
    have hstmt := Derives.declare hkind hvalue
    refine .expect hc₄ (by decide) ⟨[.semi], by simpa using hstmt⟩ fun _ _ => ?_
    exact .spanFrom (.pure (by simpa using hstmt))

/-- A name has been read, which begins a call or an assignment. -/
theorem callOrAssignment_stops (n : Nat) (hc : c.Bounded) (hname : c.here.kind = .ident) :
    Stops (callOrAssignment n) c (fun x _ => Derives .stmt x) (Viable .stmt) := by
  refine .position (.nextKind (fun hparen => ?_) fun _ => ?_)
  · refine (call_stops n hc hname hparen).bind ?_ ?_
    · rintro x ⟨hx, y, h⟩
      exact ⟨hx, y ++ [TokenKind.semi], by simpa using Derives.callStmt h⟩
    · rintro callee w c₁ - hpass ⟨hx, hcallee⟩
      have hstmt := Derives.callStmt hcallee
      have hne : ∀ y, w.map (·.kind) ++ y ≠ [] := fun y => List.append_ne_nil_of_left_ne_nil hx y
      refine .expect (hc.of_passes hpass) (by decide) ⟨hne _, [.semi], by simpa using hstmt⟩
        fun _ _ => ?_
      exact .spanFrom (.pure ⟨hne _, hstmt⟩)
  · refine .advance hc (by simp [hname]) fun hc₁ => ?_
    rw [hname]
    refine .accept hc₁ (by decide) ?_ fun _ =>
      .fail ⟨by simp, _, .assign List.mem_cons_self expr_true⟩
    intro hop hc₂
    refine .phrase (expr_stops n hc₂) hc₂ ?_ ?_
    · intro x y h
      exact ⟨by simp, y ++ [TokenKind.semi], by simpa using Derives.assign hop h⟩
    · intro value x₃ c₃ hvalue hc₃
      have hstmt := Derives.assign hop hvalue
      refine .expect hc₃ (by decide) ⟨by simp, [.semi], by simpa using hstmt⟩ fun _ _ => ?_
      exact .spanFrom (.pure ⟨by simp, by simpa using hstmt⟩)

/-- The word `return` begins a return with or without a value. -/
theorem returning_stops (n : Nat) (hc : c.Bounded) (hkind : c.here.kind = .kwReturn) :
    Stops (returning n) c (fun x _ => Derives .stmt x) (Viable .stmt) := by
  refine .position (.advance hc (by simp [hkind]) fun hc₁ => .here ?_)
  rw [hkind]
  by_cases hempty : c.advance.here.kind = .semi
  · rw [if_pos hempty]
    refine .pure_bind (.expect hc₁ (by decide) ⟨[.semi], .ret⟩ fun _ _ => ?_)
    exact .spanFrom (.pure .ret)
  · rw [if_neg hempty]
    refine .phrase ((expr_stops n hc₁).map some) hc₁ ?_ ?_
    · intro x y h
      exact ⟨y ++ [TokenKind.semi], by simpa using Derives.retValue h⟩
    · intro value x₂ c₂ hvalue hc₂
      have hstmt := Derives.retValue hvalue
      refine .expect hc₂ (by decide) ⟨[.semi], by simpa using hstmt⟩ fun _ _ => ?_
      exact .spanFrom (.pure (by simpa using hstmt))

/-- A word that makes a statement with a semicolon is viable without it. -/
theorem wordStmt_stops {word : TokenKind} (hword : Derives .stmt [word, .semi])
    {stmt : Option Span → Stmt} {what : Expected} (hc : c.Bounded) (hne : word ≠ .eof)
    (hkind : c.here.kind = word) :
    Stops (wordStmt stmt what) c (fun x _ => Derives .stmt x) (Viable .stmt) := by
  refine .position (.advance hc (hkind ▸ hne) fun hc₁ => ?_)
  rw [hkind]
  refine .expect hc₁ (by decide) ⟨[.semi], hword⟩ fun _ _ => ?_
  exact .spanFrom (.pure hword)

/-- The reader of blocks stops after a block or after a viable beginning of one. -/
def BlocksStop (n : Nat) : Prop :=
  ∀ ⦃c : Cursor⦄, c.Bounded → Stops (block n) c (fun x _ => Derives .block x) (Viable .block)

/-- The reader of statements stops after a statement or after a viable beginning of one. -/
def StmtStops (n : Nat) (c : Cursor) : Prop :=
  Stops (stmt n) c (fun x _ => Derives .stmt x) (Viable .stmt)

namespace StmtStops

variable {n : Nat}

/-- Behind `if` stand a condition and a body. Without an `else` the statement is complete. -/
theorem ifThen (hblock : BlocksStop n) (hc : c.Bounded) (hkind : c.here.kind = .kwIf) :
    StmtStops (n + 1) c := by
  refine .position (.here ?_)
  rw [hkind]
  refine .advance hc (by simp [hkind]) fun hc₁ => ?_
  rw [hkind]
  refine .phrase (expr_stops n hc₁) hc₁ ?_ ?_
  · intro x y h
    exact ⟨y ++ [TokenKind.kwBreak, .semi], by simpa using Derives.ifThen h block_break⟩
  · intro cond x₂ c₂ hcond hc₂
    refine .phrase (hblock hc₂) hc₂ ?_ ?_
    · intro x y h
      exact ⟨y, by simpa using Derives.ifThen hcond h⟩
    · intro yes x₃ c₃ hyes hc₃
      refine .accept hc₃ (by decide) ?_ fun _ => .spanFrom
        (.pure (by simpa using Derives.ifThen hcond hyes))
      intro helse hc₄
      rw [List.mem_singleton.mp helse]
      refine .phrase (hblock hc₄) hc₄ ?_ ?_
      · intro x y h
        exact ⟨y, by simpa using Derives.ifThenElse hcond hyes h⟩
      · intro no x₅ c₅ hno _
        exact .spanFrom (.pure (by simpa using Derives.ifThenElse hcond hyes hno))

/-- Behind `while` stand a condition and a body. -/
theorem whileDo (hblock : BlocksStop n) (hc : c.Bounded) (hkind : c.here.kind = .kwWhile) :
    StmtStops (n + 1) c := by
  refine .position (.here ?_)
  rw [hkind]
  refine .advance hc (by simp [hkind]) fun hc₁ => ?_
  rw [hkind]
  refine .phrase (expr_stops n hc₁) hc₁ ?_ ?_
  · intro x y h
    exact ⟨y ++ [TokenKind.kwBreak, .semi], by simpa using Derives.whileDo h block_break⟩
  · intro cond x₂ c₂ hcond hc₂
    refine .phrase (hblock hc₂) hc₂ ?_ ?_
    · intro x y h
      exact ⟨y, by simpa using Derives.whileDo hcond h⟩
    · intro body x₃ c₃ hbody _
      exact .spanFrom (.pure (by simpa using Derives.whileDo hcond hbody))

/-- Behind `do` stand a body, the word `while`, a condition and a semicolon. -/
theorem doWhile (hblock : BlocksStop n) (hc : c.Bounded) (hkind : c.here.kind = .kwDo) :
    StmtStops (n + 1) c := by
  refine .position (.here ?_)
  rw [hkind]
  refine .advance hc (by simp [hkind]) fun hc₁ => ?_
  rw [hkind]
  refine .phrase (hblock hc₁) hc₁ ?_ ?_
  · intro x y h
    exact ⟨y ++ [TokenKind.kwWhile, .kwTrue, .semi], by simpa using Derives.doWhile h expr_true⟩
  · intro body x₂ c₂ hbody hc₂
    have hsample := Derives.doWhile hbody expr_true
    refine .expect hc₂ (by decide) ⟨[.kwWhile, .kwTrue, .semi], by simpa using hsample⟩
      fun _ hc₃ => ?_
    refine .phrase (expr_stops n hc₃) hc₃ ?_ ?_
    · intro x y h
      exact ⟨y ++ [TokenKind.semi], by simpa using Derives.doWhile hbody h⟩
    · intro cond x₄ c₄ hcond hc₄
      have hstmt := Derives.doWhile hbody hcond
      refine .expect hc₄ (by decide) ⟨[.semi], by simpa using hstmt⟩ fun _ _ => ?_
      exact .spanFrom (.pure (by simpa using hstmt))

/-- Behind `for` stand the counter and its start, a direction, the bound and a body. -/
theorem forCount (hblock : BlocksStop n) (hc : c.Bounded) (hkind : c.here.kind = .kwFor) :
    StmtStops (n + 1) c := by
  refine .position (.here ?_)
  rw [hkind]
  refine .advance hc (by simp [hkind]) fun hc₁ => ?_
  rw [hkind]
  -- up to the start of the counter this sample completes the loop
  have hto : TokenKind.kwTo ∈ [TokenKind.kwTo, .kwDownto] := List.mem_cons_self
  have hsample := Derives.forCount expr_true hto expr_true block_break
  refine .expect hc₁ (by decide) ⟨_, hsample⟩ fun _ hc₂ => ?_
  refine .expect hc₂ (by decide) ⟨_, hsample⟩ fun _ hc₃ => ?_
  refine .phrase (expr_stops n hc₃) hc₃ ?_ ?_
  · intro x y h
    exact ⟨y ++ [TokenKind.kwTo, .kwTrue, .kwBreak, .semi], by
      simpa using Derives.forCount h hto expr_true block_break⟩
  · intro first x₄ c₄ hfirst hc₄
    refine .accept hc₄ (by decide) ?_ fun _ => .fail
      ⟨[.kwTo, .kwTrue, .kwBreak, .semi], by
        simpa using Derives.forCount hfirst hto expr_true block_break⟩
    intro hdir hc₅
    refine .phrase (expr_stops n hc₅) hc₅ ?_ ?_
    · intro x y h
      exact ⟨y ++ [TokenKind.kwBreak, .semi], by
        simpa using Derives.forCount hfirst hdir h block_break⟩
    · intro bound x₆ c₆ hbound hc₆
      refine .phrase (hblock hc₆) hc₆ ?_ ?_
      · intro x y h
        exact ⟨y, by simpa using Derives.forCount hfirst hdir hbound h⟩
      · intro body x₇ c₇ hbody _
        exact .spanFrom (.pure (by simpa using Derives.forCount hfirst hdir hbound hbody))

/-- The other statements have no statements in them. Where no statement begins, one that is only the
word `break` could stand. -/
theorem simple (hc : c.Bounded)
    (hkind : c.here.kind ∉ [TokenKind.kwIf, .kwWhile, .kwDo, .kwFor]) : StmtStops (n + 1) c := by
  refine .position (.here ?_)
  split
  · next hlet => exact declaration_stops n hc (by simp [hlet])
  · next hconst => exact declaration_stops n hc (by simp [hconst])
  · next hif => exact absurd (by simp [hif]) hkind
  · next hwhile => exact absurd (by simp [hwhile]) hkind
  · next hdo => exact absurd (by simp [hdo]) hkind
  · next hfor => exact absurd (by simp [hfor]) hkind
  · next hbreak => exact wordStmt_stops .brk hc (by decide) hbreak
  · next hcontinue => exact wordStmt_stops .cont hc (by decide) hcontinue
  · next hreturn => exact returning_stops n hc hreturn
  · next hident => exact callOrAssignment_stops n hc hident
  · exact .fail ⟨_, .brk⟩
  · exact .fail ⟨_, .brk⟩
  · exact .fail ⟨_, .brk⟩

end StmtStops

mutual

/-- With every bound the reader of statements stops so: its first token says which statement it is,
or that it is none. -/
theorem stmt_stops : ∀ n {c : Cursor}, c.Bounded → StmtStops n c
  | 0, _, _ => .tooDeep
  | n + 1, c, hc => by
      have hblock : BlocksStop n := fun _ => block_stops n
      by_cases hif : c.here.kind = .kwIf
      · exact .ifThen hblock hc hif
      by_cases hwhile : c.here.kind = .kwWhile
      · exact .whileDo hblock hc hwhile
      by_cases hdo : c.here.kind = .kwDo
      · exact .doWhile hblock hc hdo
      by_cases hfor : c.here.kind = .kwFor
      · exact .forCount hblock hc hfor
      exact .simple hc (by simp [hif, hwhile, hdo, hfor])

/-- The same of the reader of blocks. -/
theorem block_stops : ∀ n {c : Cursor}, c.Bounded →
    Stops (block n) c (fun x _ => Derives .block x) (Viable .block)
  | 0, _, _ => .tooDeep
  | n + 1, c, hc => by
      refine .position (.accept hc (by decide) ?_ fun _ => ?_)
      · intro hbrace hc₁
        rw [List.mem_singleton.mp hbrace]
        refine (stmts_stops n hc₁).bind ?_ ?_
        · rintro x ⟨y, h⟩
          exact ⟨y ++ [TokenKind.rbrace], by simpa using Derives.braced h⟩
        · rintro body w c₂ - hpass ⟨hbody, hclose⟩
          refine .advance (hc₁.of_passes hpass) (by simp [hclose]) fun _ => .spanFrom (.pure ?_)
          rw [hclose]
          simpa using Derives.braced hbody
      · refine .phrase (stmt_stops n hc) hc ?_ ?_
        · intro x y h
          exact ⟨y, .single h⟩
        · intro s x₁ c₁ hs _
          exact .spanFrom (.pure (by simpa using Derives.single hs))

/-- The reader of the statements of a block stops before the closing brace, or after a viable
beginning. -/
theorem stmts_stops : ∀ n {c : Cursor}, c.Bounded →
    Stops (stmts n) c (fun x c' => Derives .stmts x ∧ c'.here.kind = .rbrace) (Viable .stmts)
  | 0, _, _ => .tooDeep
  | n + 1, c, hc => by
      refine .here ?_
      split
      · next hkind => exact .pure ⟨.noStmts, hkind⟩
      · exact .fail ⟨[], .noStmts⟩
      · -- the statements may end behind the first one
        refine .phrase (stmt_stops n hc) hc ?_ ?_
        · intro x y h
          exact ⟨y, by simpa using Derives.moreStmts h .noStmts⟩
        · intro s x₁ c₁ hs hc₁
          refine (stmts_stops n hc₁).bind ?_ ?_
          · rintro x ⟨y, h⟩
            exact ⟨y, by simpa using Derives.moreStmts hs h⟩
          · rintro ss w c₂ - - ⟨hss, hclose⟩
            exact .pure ⟨by simpa using Derives.moreStmts hs hss, hclose⟩

end

/-! ## Programs -/

end Reader

end Pigeon

import Pigeon.Proofs.Token.Spelling

/-!
# A scan loses nothing

The source text of a scan that succeeds is cut into pieces, each with the trivia before a token and
the characters that the token is written with, and trivia at the end. The tokens of the scan are
those of the pieces and the end of file, and the position of each is found by counting the
characters before it (`Token.scan_lossless`).
-/

namespace Pigeon.Token

/-- A token in its source text: what stands between it and the token before it, and the characters
that it is written with. -/
structure Piece where
  before : List Char
  spelling : List Char
  token : Token

/-- The characters of pieces that follow each other. -/
def Piece.chars (pieces : List Piece) : List Char :=
  pieces.flatMap fun x => x.before ++ x.spelling

variable {kind : TokenKind} {text spelling rest : List Char}

/-- No lexeme begins with the null character. -/
theorem Lexes.ne_nul {c : Char} {cs : List Char} (h : Lexes kind text (c :: cs) rest) : c ≠ nul := by
  have hsymbols : ∀ s ∈ symbols, s.1.head? ≠ some nul := by decide
  rintro rfl
  generalize hspelling : nul :: cs = spelling at h
  cases h with
  | word hc =>
      cases hspelling
      exact absurd hc (by decide)
  | int hne hdigits =>
      exact absurd (hdigits nul (by simp [← hspelling])) (by decide)
  | @float whole fraction rest hne hdigits =>
      obtain ⟨d, whole, rfl⟩ := List.exists_cons_of_ne_nil hne
      cases hspelling
      exact absurd (hdigits nul List.mem_cons_self) (by decide)
  | string => cases hspelling
  | symbol hmem => exact hsymbols _ hmem (by rw [← hspelling]; rfl)

/-- A lexeme with the form of a word has the kind of the word. -/
theorem Lexes.kind_eq {c : Char} {cs : List Char} (h : Lexes kind text (c :: cs) rest)
    (hc : isWordStart c) : kind = wordKind (String.ofList text) := by
  generalize hspelling : c :: cs = spelling at h
  cases h with
  | word => rfl
  | int hne hdigits =>
      have hdigit := hdigits c (by simp [← hspelling])
      exact absurd hc (not_isWordStart_of_isDigit hdigit)
  | @float whole fraction rest hne hdigits =>
      obtain ⟨d, whole, rfl⟩ := List.exists_cons_of_ne_nil hne
      cases hspelling
      exact absurd hc (not_isWordStart_of_isDigit (hdigits c List.mem_cons_self))
  | string =>
      cases hspelling
      exact absurd hc (by decide)
  | symbol hmem => exact absurd hc ((symbols_begin _ hmem).2 c (by rw [← hspelling]; rfl)).1

/-- The value of an integer literal fits into 64 bits. -/
theorem Lexes.exists_int (h : Lexes kind text spelling rest) (hkind : kind = .int) :
    ∃ n ≤ maxInt, Numeral.readInt (String.ofList text) = .ok n := by
  cases h with
  | int _ _ hread hn => exact ⟨_, hn, hread⟩
  | @word c cs _ =>
      rcases wordKind_mem (String.ofList (c :: cs)) with hmem | hident
      · exact absurd hkind (keywords_kind _ hmem).1
      · rw [hident] at hkind
        cases hkind
  | float | string => cases hkind
  | symbol hmem => exact absurd hkind (symbols_kind _ hmem).1

/-- What was passed over in front of a lexeme is trivia. -/
theorem exists_trivia {p q : Position} {c : Char} {cs cs' : List Char}
    (h : skipTrivia p .between cs = .ok (q, c :: cs')) (hc : c ≠ nul) :
    ∃ w, cs = w ++ c :: cs' ∧ q = p.after w ∧ Trivia w := by
  rcases skipTrivia_ok h with ⟨w, rfl, rfl, hw⟩ | ⟨_, hnul⟩
  · exact ⟨w, rfl, rfl, hw.elim id fun h => absurd h.2 (List.cons_ne_nil _ _)⟩
  · cases hnul
    exact absurd rfl hc

/-- What holds at every place of a list with a head holds at the head and at the places of the
tail. -/
theorem forall_places_cons {α : Type} {P : List α → α → List α → Prop} {x : α} {xs : List α} :
    (∀ l y r, x :: xs = l ++ y :: r → P l y r) ↔
      P [] x xs ∧ ∀ l y r, xs = l ++ y :: r → P (x :: l) y r := by
  refine ⟨fun h => ⟨h [] x xs rfl, ?_⟩, ?_⟩
  · rintro l y r rfl
    exact h (x :: l) y r rfl
  · rintro ⟨hhead, htail⟩ l y r hsplit
    rcases List.cons_eq_append_iff.mp hsplit with ⟨rfl, hcons⟩ | ⟨l, rfl, rfl⟩
    · cases hcons
      exact hhead
    · exact htail l y r rfl

/-- What a scan that succeeds has read, from any position on. -/
theorem scanFrom_lossless {fuel : Nat} {p : Position} {cs : List Char} {tokens : List Token}
    (hfuel : cs.length < fuel) (h : scanFrom fuel p cs = .ok tokens) :
    ∃ (pieces : List Piece) (last : List Char),
      cs = Piece.chars pieces ++ last ∧ Closing last ∧
      tokens = pieces.map (·.token) ++ [⟨.eof, "", p.after cs⟩] ∧
      ∀ l x r, pieces = l ++ x :: r →
        Trivia x.before ∧
        Lexes x.token.kind x.token.text.toList x.spelling (Piece.chars r ++ last) ∧
        x.token.position = p.after (Piece.chars l ++ x.before) := by
  induction fuel generalizing p cs tokens with
  | zero => exact absurd hfuel (Nat.not_lt_zero _)
  | succ fuel ih =>
      rcases scanFrom_succ_ok h with ⟨q, hskip, rfl⟩ | ⟨q, c, cs', lx, more, hskip, hlx, hmore, rfl⟩
      · -- nothing but trivia is left
        rcases skipTrivia_ok hskip with ⟨w, rfl, rfl, hw⟩ | ⟨_, hrest⟩
        · refine ⟨[], w, by simp [Piece.chars], hw.elim Or.inl And.left, by simp, ?_⟩
          simp
        · cases hrest
      · -- one piece more, in front of those of the scan behind it
        obtain ⟨ds, rfl, hstop, hlexes⟩ := exists_of_lexeme_ok hlx
        obtain ⟨w, rfl, rfl, hw⟩ := exists_trivia hskip hlexes.ne_nul
        have hlt : lx.rest.length < fuel := by
          simp only [List.length_append, List.length_cons] at hfuel
          omega
        obtain ⟨pieces, last, hrest, hlast, rfl, hpieces⟩ := ih hlt hmore
        refine ⟨⟨w, c :: ds, ⟨lx.kind, String.ofList lx.text, p.after w⟩⟩ :: pieces, last, ?_, hlast,
          ?_, forall_places_cons.mpr ⟨⟨hw, ?_, ?_⟩, fun l y r hsplit => ?_⟩⟩
        · simp [Piece.chars, hrest]
        · simp [hstop, Position.after_append]
        · rw [String.toList_ofList, ← hrest]
          exact hlexes
        · simp [Piece.chars]
        · -- the positions of the scan behind it count from where the lexeme stops
          obtain ⟨htrivia, hlex, hpos⟩ := hpieces l y r hsplit
          refine ⟨htrivia, hlex, ?_⟩
          rw [hpos, hstop, ← Position.after_append, ← Position.after_append]
          simp [Piece.chars]

/-- A scan that succeeds loses nothing. The source text is a sequence of pieces, and closing trivia
behind them. The tokens are those of the pieces and one for the end of file, each with the position
that its first character has in the source text. What stands before a token is blanks and complete
comments; a lexeme is spelled as its kind and text demand and is as long as it can be; a lexeme with
the form of a word has the kind of the keyword that it is, or else is a name; and the value of an
integer literal fits into 64 bits. -/
theorem scan_lossless {source : String} {tokens : List Token} (h : scan source = .ok tokens) :
    ∃ (pieces : List Piece) (last : List Char),
      source.toList = Piece.chars pieces ++ last ∧ Closing last ∧
      tokens = pieces.map (·.token) ++ [⟨.eof, "", .behind source.toList⟩] ∧
      ∀ l x r, pieces = l ++ x :: r →
        Trivia x.before ∧
        Lexes x.token.kind x.token.text.toList x.spelling (Piece.chars r ++ last) ∧
        (∀ c cs, x.spelling = c :: cs → isWordStart c →
          x.token.kind = (keywords.lookup x.token.text).getD .ident) ∧
        (x.token.kind = .int → ∃ n ≤ maxInt, Numeral.readInt x.token.text = .ok n) ∧
        x.token.position = .behind (Piece.chars l ++ x.before) := by
  obtain ⟨pieces, last, hsource, hlast, htokens, hpieces⟩ :=
    scanFrom_lossless (Nat.lt_succ_self _) h
  refine ⟨pieces, last, hsource, hlast, by rw [htokens, Position.first_after], ?_⟩
  intro l x r hsplit
  obtain ⟨htrivia, hlexes, hpos⟩ := hpieces l x r hsplit
  refine ⟨htrivia, hlexes, ?_, ?_, by rw [hpos, Position.first_after]⟩
  · intro c cs hspelling hc
    rw [hspelling] at hlexes
    simpa [wordKind] using hlexes.kind_eq hc
  · intro hkind
    simpa using hlexes.exists_int hkind

/-- Comments, escapes and blanks between and inside lexemes. -/
theorem scan_lossless_comments :
    ∃ (pieces : List Piece) (last : List Char),
      "let s = /***/ \"a\\n\";\n // 1\n\tb1 <= 007 //".toList = Piece.chars pieces ++ last ∧
      Closing last ∧
      [⟨.kwLet, "let", ⟨1, 1⟩⟩, ⟨.ident, "s", ⟨1, 5⟩⟩, ⟨.assign, "=", ⟨1, 7⟩⟩,
        ⟨.string, "a\n", ⟨1, 15⟩⟩, ⟨.semi, ";", ⟨1, 20⟩⟩, ⟨.ident, "b1", ⟨3, 2⟩⟩,
        ⟨.le, "<=", ⟨3, 5⟩⟩, ⟨.int, "007", ⟨3, 8⟩⟩, ⟨.eof, "", ⟨3, 14⟩⟩] =
        pieces.map (·.token) ++
          [⟨.eof, "", .behind "let s = /***/ \"a\\n\";\n // 1\n\tb1 <= 007 //".toList⟩] := by
  have hscan : scan "let s = /***/ \"a\\n\";\n // 1\n\tb1 <= 007 //" =
      .ok [⟨.kwLet, "let", ⟨1, 1⟩⟩, ⟨.ident, "s", ⟨1, 5⟩⟩, ⟨.assign, "=", ⟨1, 7⟩⟩,
        ⟨.string, "a\n", ⟨1, 15⟩⟩, ⟨.semi, ";", ⟨1, 20⟩⟩, ⟨.ident, "b1", ⟨3, 2⟩⟩,
        ⟨.le, "<=", ⟨3, 5⟩⟩, ⟨.int, "007", ⟨3, 8⟩⟩, ⟨.eof, "", ⟨3, 14⟩⟩] := by
    decide +kernel
  obtain ⟨pieces, last, hsource, hlast, htokens, -⟩ := scan_lossless hscan
  exact ⟨pieces, last, hsource, hlast, htokens⟩

end Pigeon.Token

import Pigeon.Proofs.Grammar.Reading
import Pigeon.Proofs.Token.Lossless
import Pigeon.Proofs.Token.Render

/-!
# Number literals without a value

A number literal is written with digits of any script, but not every digit has a value: a
superscript, for example, has none. And the digits of an integer literal are limited in number.
These are the only literals that cannot be read: a scan that ends with an error which is no lexical
one has come to such a literal, and a token that cannot be converted is one
(`holdsValueless_of_scan`).
-/

namespace Pigeon.Token

/-- The characters have the form of a number literal, which the characters `rest` behind them do not
continue, and this literal has no value. -/
inductive Valueless : List Char → List Char → Prop
  | int {cs rest : List Char} : cs ≠ [] → (∀ c ∈ cs, Text.isDigit c) →
      (∀ c ∈ rest.head?, c ≠ '.' ∧ ¬ Text.isDigit c ∧ ¬ isWordStart c) →
      ((∃ c ∈ cs, Text.digitValue? c = none) ∨ Numeral.maxDigits < cs.length) → Valueless cs rest
  | float {whole fraction rest : List Char} : whole ≠ [] → (∀ c ∈ whole, Text.isDigit c) →
      fraction ≠ [] → (∀ c ∈ fraction, Text.isDigit c) →
      (∀ c ∈ rest.head?, ¬ Text.isDigit c ∧ ¬ isWordStart c) →
      (∃ c ∈ whole ++ fraction, Text.digitValue? c = none) →
      Valueless (whole ++ '.' :: fraction) rest

/-- Behind complete tokens and trivia, the text has a number literal without a value. -/
def HoldsValueless (cs : List Char) : Prop :=
  ∃ (pieces : List Piece) (before number rest : List Char),
    cs = Piece.chars pieces ++ (before ++ (number ++ rest)) ∧
    (∀ l x r, pieces = l ++ x :: r → Trivia x.before ∧
      Lexes x.token.kind x.token.text.toList x.spelling
        (Piece.chars r ++ (before ++ (number ++ rest)))) ∧
    Trivia before ∧ Valueless number rest

/-! ## Literals that cannot be read -/

variable {cs : List Char}

/-- Some character has no value as a digit, or each has one. -/
theorem exists_none_or_isSome (cs : List Char) :
    (∃ c ∈ cs, Text.digitValue? c = none) ∨ ∀ c ∈ cs, (Text.digitValue? c).isSome := by
  by_cases h : ∃ c ∈ cs, Text.digitValue? c = none
  · exact Or.inl h
  · refine Or.inr fun c hc => ?_
    rw [Option.isSome_iff_ne_none]
    exact fun hnone => h ⟨c, hc, hnone⟩

/-- Digits that are no integer numeral lack a value, or are too many. -/
theorem of_readInt_error {e : NumeralError} (hne : cs ≠ [])
    (h : Numeral.readInt (String.ofList cs) = .error e) :
    (∃ c ∈ cs, Text.digitValue? c = none) ∨ Numeral.maxDigits < cs.length := by
  rcases exists_none_or_isSome cs with hnone | hsome
  · exact Or.inl hnone
  · rw [readInt_eq hne hsome] at h
    split at h
    · next hlong => exact Or.inr hlong
    · cases h

/-- Decimal digits with a point between them are a real numeral. -/
theorem exists_readFloat {whole fraction : List Char} (hne : whole ≠ [])
    (hwhole : ∀ c ∈ whole, (Text.digitValue? c).isSome)
    (hfraction : ∀ c ∈ fraction, (Text.digitValue? c).isSome) :
    ∃ x, Numeral.readFloat (String.ofList (whole ++ '.' :: fraction)) = .ok x := by
  have hpoint : ∀ c ∈ ('.' :: fraction).head?, c ≠ '_' ∧ Text.digitValue? c = none := by
    rintro _ ⟨⟩
    decide
  have hsign : Numeral.readSign (whole ++ '.' :: fraction) = (false, whole ++ '.' :: fraction) := by
    obtain ⟨c, cs, rfl⟩ := List.exists_cons_of_ne_nil hne
    exact readSign_cons (hwhole c List.mem_cons_self) _
  unfold Numeral.readFloat Numeral.readUnsigned?
  simp only [String.toList_ofList, hsign, readDigits_append hwhole hpoint, Numeral.readFraction,
    readDigits_eq hfraction, isEmpty_filterMap_digitValue? hne hwhole, Bool.false_and,
    Numeral.readExponent]
  exact ⟨_, rfl⟩

/-! ## Kinds of lexemes -/

section Kinds

variable {kind : TokenKind} {text spelling rest : List Char}

/-- No keyword is a float literal or the end of file. -/
theorem keywords_kind_ne : ∀ w ∈ keywords, w.2 ≠ .float ∧ w.2 ≠ .eof := by decide

/-- No symbol is a float literal or the end of file. -/
theorem symbols_kind_ne : ∀ s ∈ symbols, s.2 ≠ .float ∧ s.2 ≠ .eof := by decide

/-- No word is a float literal or the end of file. -/
theorem wordKind_ne (word : String) : wordKind word ≠ .float ∧ wordKind word ≠ .eof := by
  rcases wordKind_mem word with hmem | hident
  · exact keywords_kind_ne _ hmem
  · rw [hident]
    decide

/-- No lexeme is an end of file. -/
theorem Lexes.ne_eof (h : Lexes kind text spelling rest) : kind ≠ .eof := by
  cases h with
  | word => exact (wordKind_ne _).2
  | symbol hmem => exact (symbols_kind_ne _ hmem).2
  | int | float | string => decide

/-- A real literal whose digits are not all decimal has no value, and any other is a numeral. -/
theorem Lexes.valueless_or_readFloat (h : Lexes kind text spelling rest) (hkind : kind = .float) :
    Valueless spelling rest ∨ ∃ x, Numeral.readFloat (String.ofList text) = .ok x := by
  cases h with
  | word => exact absurd hkind (wordKind_ne _).1
  | symbol hmem => exact absurd hkind (symbols_kind_ne _ hmem).1
  | int | string => cases hkind
  | @float whole fraction rest hne hwhole hne' hfraction hrest =>
      rcases exists_none_or_isSome (whole ++ fraction) with hnone | hsome
      · exact Or.inl (.float hne hwhole hne' hfraction hrest hnone)
      · exact Or.inr (exists_readFloat hne (fun c hc => hsome c (List.mem_append_left _ hc))
          fun c hc => hsome c (List.mem_append_right _ hc))

end Kinds

/-- A token that was scanned and is no numeral, though its kind is that of a number, is a literal
without a value. -/
theorem Lexes.valueless {t : Token} {spelling rest : List Char}
    (h : Lexes t.kind t.text.toList spelling rest) (ht : ¬ t.Converts) :
    Valueless spelling rest := by
  by_contra hvalue
  refine ht ⟨fun hkind => ?_, fun hkind => ?_⟩
  · obtain ⟨n, -, hn⟩ := h.exists_int hkind
    exact ⟨n, by rwa [String.ofList_toList] at hn⟩
  · obtain ⟨x, hx⟩ := (h.valueless_or_readFloat hkind).resolve_left hvalue
    exact ⟨x, by rwa [String.ofList_toList] at hx⟩

/-! ## Scans that come to one -/

section Scan

variable {p q : Position} {c : Char} {e : NumeralError}

/-- Only an integer literal that is no numeral ends a scan with an error that is no lexical one. -/
theorem finishNumber_numeral {lx : Lexeme} (h : finishNumber p lx = .error (.numeral e)) :
    lx.kind = .int ∧ (∀ c ∈ lx.rest.head?, ¬ isWordStart c) ∧
      Numeral.readInt (String.ofList lx.text) = .error e := by
  have hrange (h : finishNumber.checkRange p lx = .error (.numeral e)) :
      lx.kind = .int ∧ Numeral.readInt (String.ofList lx.text) = .error e := by
    unfold finishNumber.checkRange at h
    split at h
    · next hkind =>
        refine ⟨hkind, ?_⟩
        split at h
        · next e' hread =>
            cases h
            exact hread
        · split at h <;> cases h
    · cases h
  unfold finishNumber at h
  split at h
  · next d ds hrest =>
      split at h
      · cases h
      · next hd => exact ⟨(hrange h).1, by simpa [hrest] using hd, (hrange h).2⟩
  · next hrest => exact ⟨(hrange h).1, by simp [hrest], (hrange h).2⟩

/-- A number whose reading fails has no value. -/
theorem number_valueless (hc : Text.isDigit c) (h : number p (c :: cs) = .error (.numeral e)) :
    ∃ number rest, c :: cs = number ++ rest ∧ Valueless number rest := by
  obtain ⟨whole, rest, hspan, hcs, hne, hwhole, hrest⟩ := exists_span_isDigit hc cs
  unfold number at h
  simp only [hspan] at h
  split at h
  · split at h
    · cases h
    · cases (finishNumber_numeral h).1
  · next hpoint =>
      obtain ⟨-, hword, hread⟩ := finishNumber_numeral h
      exact ⟨whole, rest, hcs, .int hne hwhole
        (fun d hd => ⟨head?_ne_point hpoint d hd, hrest d hd, hword d hd⟩)
        (of_readInt_error hne hread)⟩

/-- A lexeme whose reading fails for its numeral is a number without a value. -/
theorem lexeme_valueless (h : lexeme p c cs = .error (.numeral e)) :
    ∃ number rest, c :: cs = number ++ rest ∧ Valueless number rest := by
  unfold lexeme at h
  split at h
  · cases h
  · split at h
    · next hdigit => exact number_valueless hdigit h
    · split at h
      · split at h <;> cases h
      · split at h
        · cases h
        · split at h
          · cases h
          · split at h <;> cases h

/-- A literal without a value does not begin with the null character. -/
theorem Valueless.ne_nul {number rest : List Char} (h : Valueless number rest)
    (hcs : c :: cs = number ++ rest) : c ≠ nul := by
  have hfirst {digits more : List Char} (hne : digits ≠ []) (hdigits : ∀ d ∈ digits, Text.isDigit d)
      (hcs : c :: cs = digits ++ more) : c ≠ nul := by
    obtain ⟨d, ds, rfl⟩ := List.exists_cons_of_ne_nil hne
    cases hcs
    rintro rfl
    exact absurd (hdigits nul List.mem_cons_self) (by decide)
  cases h with
  | int hne hdigits => exact hfirst hne hdigits hcs
  | float hne hdigits =>
      rw [List.append_assoc] at hcs
      exact hfirst hne hdigits hcs

/-- A token in front makes no difference. -/
theorem HoldsValueless.cons {kind : TokenKind} {text w spelling rest : List Char} (hw : Trivia w)
    (hlexes : Lexes kind text spelling rest) (h : HoldsValueless rest) :
    HoldsValueless (w ++ (spelling ++ rest)) := by
  obtain ⟨pieces, before, number, rest', rfl, hpieces, hbefore, hvalueless⟩ := h
  refine ⟨⟨w, spelling, ⟨kind, String.ofList text, .first⟩⟩ :: pieces, before, number, rest', ?_,
    forall_places_cons.mpr ⟨⟨hw, ?_⟩, hpieces⟩, hbefore, hvalueless⟩
  · simp [Piece.chars]
  · rw [String.toList_ofList]
    exact hlexes

/-- A scan that ends with an error which is no lexical one has come to a literal without a value. -/
theorem scanFrom_valueless {fuel : Nat} (h : scanFrom fuel p cs = .error (.numeral e)) :
    HoldsValueless cs := by
  induction fuel generalizing p cs with
  | zero => cases h
  | succ fuel ih =>
      rw [scanFrom] at h
      split at h
      · cases h
      · cases h
      · next q c cs' hskip =>
          cases hlx : lexeme q c cs' with
          | error e' =>
              -- the literal is the one that the scan has stopped at
              simp only [hlx, bind, Except.bind] at h
              cases h
              obtain ⟨number, rest, hcs', hvalueless⟩ := lexeme_valueless hlx
              obtain ⟨w, rfl, -, hw⟩ := exists_trivia hskip (hvalueless.ne_nul hcs')
              exact ⟨[], w, number, rest, by simp [Piece.chars, hcs'], by simp, hw, hvalueless⟩
          | ok lx =>
              cases hmore : scanFrom fuel lx.stop lx.rest with
              | ok more => simp [hlx, hmore, bind, Except.bind, pure, Except.pure] at h
              | error e' =>
                  simp only [hlx, hmore, bind, Except.bind] at h
                  cases h
                  obtain ⟨ds, rfl, -, hlexes⟩ := exists_of_lexeme_ok hlx
                  obtain ⟨w, rfl, -, hw⟩ := exists_trivia hskip hlexes.ne_nul
                  exact .cons hw hlexes (ih hmore)

/-- A source text whose scan ends with an error that is no lexical one, or gives a token that is no
numeral though its kind is that of a number, holds a literal without a value. -/
theorem holdsValueless_of_scan {source : String}
    (h : (∃ e, scan source = .error (.numeral e)) ∨
      ∃ tokens, scan source = .ok tokens ∧ ∃ t ∈ tokens, ¬ t.Converts) :
    HoldsValueless source.toList := by
  rcases h with ⟨e, he⟩ | ⟨tokens, hscan, t, ht, hnum⟩
  · exact scanFrom_valueless he
  · obtain ⟨pieces, last, hsource, -, rfl, hpieces⟩ := scanFrom_lossless (Nat.lt_succ_self _) hscan
    rcases List.mem_append.mp ht with ht | ht
    · obtain ⟨x, hx, rfl⟩ := List.mem_map.mp ht
      obtain ⟨l, r, rfl⟩ := List.append_of_mem hx
      obtain ⟨hbefore, hlexes, -⟩ := hpieces l x r rfl
      refine ⟨l, x.before, x.spelling, Piece.chars r ++ last, ?_, ?_, hbefore,
        hlexes.valueless hnum⟩
      · simp [hsource, Piece.chars]
      · rintro l' y r' rfl
        obtain ⟨hbefore', hlexes', -⟩ := hpieces l' y (r' ++ x :: r) (by simp)
        exact ⟨hbefore', by simpa [Piece.chars] using hlexes'⟩
    · -- the end of file is no number
      cases List.mem_singleton.mp ht
      exact absurd (Token.converts_of_eof rfl) hnum

/-- The tokens of a scan end with their only end of file. -/
theorem exists_eof_of_scan {source : String} {tokens : List Token} (h : scan source = .ok tokens) :
    ∃ ts eof, tokens = ts ++ [eof] ∧ eof.kind = .eof ∧ ∀ t ∈ ts, t.kind ≠ .eof := by
  obtain ⟨pieces, last, -, -, htokens, hpieces⟩ := scanFrom_lossless (Nat.lt_succ_self _) h
  refine ⟨_, _, htokens, rfl, fun t ht => ?_⟩
  obtain ⟨x, hx, rfl⟩ := List.mem_map.mp ht
  obtain ⟨l, r, rfl⟩ := List.append_of_mem hx
  exact (hpieces l x r rfl).2.1.ne_eof

end Scan

end Pigeon.Token

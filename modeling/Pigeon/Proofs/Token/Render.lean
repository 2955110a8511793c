import Pigeon.Proofs.Token.Spelling

/-!
# Scanning what was written

Tokens are written one after another, each with trivia in front of it that begins with a blank.
The scan of such a text gives back the tokens (`Token.scan_render`). There is one exception: an
integer literal with more than `Numeral.maxDigits` digits, whatever its value, ends the scan with an
error that is no lexical one.
-/

namespace Pigeon.Token

/-! ## Tokens that can be written -/

/-- The number that decimal digits stand for. -/
def digitsValue (cs : List Char) : Nat := Numeral.ofDigits (cs.filterMap Text.digitValue?)

/-- A text that a token of a kind can have. -/
inductive Valid : TokenKind → List Char → Prop
  | keyword {word : String} {kind : TokenKind} : (word, kind) ∈ keywords → Valid kind word.toList
  | ident {c : Char} {cs : List Char} : isWordStart c → (∀ d ∈ cs, isWordChar d) →
      ¬ isKeyword (String.ofList (c :: cs)) → Valid .ident (c :: cs)
  | int {cs : List Char} : cs ≠ [] → (∀ c ∈ cs, (Text.digitValue? c).isSome) →
      digitsValue cs ≤ maxInt → Valid .int cs
  | float {whole fraction : List Char} : whole ≠ [] → (∀ c ∈ whole, Text.isDigit c) →
      fraction ≠ [] → (∀ c ∈ fraction, Text.isDigit c) → Valid .float (whole ++ '.' :: fraction)
  | string {cs : List Char} : nul ∉ cs → Valid .string cs
  | symbol {spelling : List Char} {kind : TokenKind} : (spelling, kind) ∈ symbols →
      Valid kind spelling

/-- A character as it is written in a string literal. -/
def escaped : Char → List Char
  | '\\' => ['\\', '\\']
  | '"' => ['\\', '"']
  | '\n' => ['\\', 'n']
  | c => [c]

/-- The characters that a token is written with. -/
def spell : TokenKind → List Char → List Char
  | .string, text => '"' :: (text.flatMap escaped ++ ['"'])
  | _, text => text

/-- A token that is to be written, and what stands in front of it. -/
structure Entry where
  before : List Char
  kind : TokenKind
  text : List Char

namespace Entry

/-- The characters of the entries, one behind the other. -/
def render (xs : List Entry) : List Char :=
  xs.flatMap fun x => x.before ++ spell x.kind x.text

/-- An integer literal with more digits than can be read. -/
def overlong (x : Entry) : Bool := x.kind = .int && Numeral.maxDigits < x.text.length

end Entry

/-- The text does not continue a lexeme in front of it: it is empty or begins with a blank. -/
def Apart (rest : List Char) : Prop := ∀ c ∈ rest.head?, isSpace c

instance (rest : List Char) : Decidable (Apart rest) :=
  decidable_of_iff (rest.head?.all isSpace = true) (by simp [Apart, Option.all_eq_true])

/-- Valid tokens with trivia between them that begins with a blank, and closing trivia behind
them. -/
structure Entry.Spread (xs : List Entry) (last : List Char) : Prop where
  valid : ∀ x ∈ xs, Valid x.kind x.text
  trivia : ∀ x ∈ xs, Trivia x.before
  apart : ∀ x ∈ xs.tail, x.before ≠ [] ∧ Apart x.before
  closing : Closing last ∧ Apart last

/-! ## Blanks end a lexeme -/

/-- No blank is part of a word, a number or a comment mark. -/
theorem ends_of_isSpace {c : Char} (h : isSpace c) :
    ¬ isWordChar c ∧ ¬ isWordStart c ∧ ¬ Text.isDigit c ∧ c ≠ '.' ∧ c ≠ '/' := by
  have hc : c = ' ' ∨ c = '\t' ∨ c = '\r' ∨ c = '\n' := by simpa [isSpace, or_assoc] using h
  rcases hc with rfl | rfl | rfl | rfl <;> decide

/-- What has no blanks and begins here ends before the first blank. -/
theorem prefix_of_apart {s t rest : List Char} (ht : ∀ c ∈ t, ¬ isSpace c) (hrest : Apart rest)
    (h : t <+: s ++ rest) : t <+: s := by
  rcases List.prefix_or_prefix_of_prefix h (List.prefix_append s rest) with hs | ⟨u, rfl⟩
  · exact hs
  · rw [List.prefix_append_right_inj] at h
    cases u with
    | nil => rw [List.append_nil]
    | cons c u =>
        obtain ⟨v, rfl⟩ := h
        exact absurd (hrest c rfl) (ht c (by simp))

/-- If what follows cannot be taken for the rest of an opening, trivia begin in the spelling itself
or not at all. -/
theorem BeginsTrivia.of_append {s rest : List Char} (hs : s ≠ []) (hrest : Apart rest)
    (h : BeginsTrivia (s ++ rest)) : BeginsTrivia s := by
  rcases h with ⟨c, hc, hspace⟩ | hline | hblock
  · rw [List.head?_append_of_ne_nil _ hs] at hc
    exact Or.inl ⟨c, hc, hspace⟩
  · exact Or.inr (Or.inl (prefix_of_apart (by simp [isSpace]) hrest hline))
  · exact Or.inr (Or.inr (prefix_of_apart (by simp [isSpace]) hrest hblock))

/-- Neither blanks nor slashes means no trivia. -/
theorem not_beginsTrivia_cons {c : Char} {cs : List Char} (hspace : ¬ isSpace c) (hslash : c ≠ '/') :
    ¬ BeginsTrivia (c :: cs) := by
  simp [BeginsTrivia, hspace, Ne.symm hslash]

/-- All tokens but strings are spelled as their text. -/
theorem spell_of_ne {kind : TokenKind} (h : kind ≠ .string) (text : List Char) :
    spell kind text = text := by
  unfold spell
  split
  · exact absurd rfl h
  · rfl

/-- A character with a digit value is a digit. -/
theorem isDigit_of_isSome {c : Char} (h : (Text.digitValue? c).isSome) : Text.isDigit c := by
  simp [Text.isDigit, h]

/-- A keyword is a word that the lexer knows as that keyword. -/
theorem keywords_lex : ∀ w ∈ keywords, wordKind w.1 = w.2 ∧ w.1.toList ≠ [] ∧
    (∀ c ∈ w.1.toList.head?, isWordStart c) ∧ ∀ c ∈ w.1.toList, isWordChar c := by
  have hall : keywords.all (fun w => wordKind w.1 = w.2 && w.1.toList != [] &&
      w.1.toList.head?.all isWordStart && w.1.toList.all isWordChar) = true := by
    decide +kernel
  simpa [and_assoc, Option.all_eq_true] using hall

/-- No symbol has blanks in it or begins a comment. -/
theorem symbols_lex : ∀ s ∈ symbols, s.1 ≠ [] ∧ (∀ c ∈ s.1, ¬ isSpace c) ∧
    ¬ ['/', '/'] <+: s.1 ∧ ¬ ['/', '*'] <+: s.1 := by
  have hall : symbols.all (fun s => s.1 != [] && s.1.all (fun c => !isSpace c) &&
      ¬ ['/', '/'] <+: s.1 && ¬ ['/', '*'] <+: s.1) = true := by
    decide +kernel
  simpa [and_assoc] using hall

/-- An integer literal is a number of digits, at least one. -/
theorem Valid.digits {text : List Char} (h : Valid .int text) :
    text ≠ [] ∧ ∀ c ∈ text, (Text.digitValue? c).isSome := by
  cases h with
  | keyword hmem => exact absurd rfl (keywords_kind _ hmem).1
  | int hne hcs => exact ⟨hne, hcs⟩
  | symbol hmem => exact absurd rfl (symbols_kind _ hmem).1

/-- No valid token is written like trivia. -/
theorem Valid.not_beginsTrivia {kind : TokenKind} {text : List Char} (h : Valid kind text) :
    spell kind text ≠ [] ∧ ¬ BeginsTrivia (spell kind text) := by
  have hfirst {c : Char} (hc : isWordStart c ∨ Text.isDigit c) (cs : List Char) :
      c :: cs ≠ [] ∧ ¬ BeginsTrivia (c :: cs) := by
    refine ⟨List.cons_ne_nil _ _, not_beginsTrivia_cons ?_ ?_⟩
    · intro hspace
      obtain ⟨-, hword, hdigit, -⟩ := ends_of_isSpace hspace
      exact hc.elim hword hdigit
    · rintro rfl
      exact absurd hc (by decide)
  -- the first character decides, but for symbols: `/` alone begins no comment
  cases h with
  | @keyword word kind hmem =>
      obtain ⟨-, hne, hstart, -⟩ := keywords_lex _ hmem
      rw [spell_of_ne (keywords_kind _ hmem).2]
      obtain ⟨c, cs, hcs⟩ := List.exists_cons_of_ne_nil hne
      rw [hcs] at hstart ⊢
      exact hfirst (Or.inl (hstart c rfl)) cs
  | ident hc => exact hfirst (Or.inl hc) _
  | @int cs hne hcs =>
      obtain ⟨c, cs, rfl⟩ := List.exists_cons_of_ne_nil hne
      exact hfirst (Or.inr (isDigit_of_isSome (hcs c List.mem_cons_self))) cs
  | @float whole fraction hne hwhole =>
      obtain ⟨c, cs, rfl⟩ := List.exists_cons_of_ne_nil hne
      exact hfirst (Or.inr (hwhole c List.mem_cons_self)) _
  | string => exact ⟨List.cons_ne_nil _ _, not_beginsTrivia_cons (by decide) (by decide)⟩
  | symbol hmem =>
      obtain ⟨hne, hspaces, hline, hblock⟩ := symbols_lex _ hmem
      rw [spell_of_ne (symbols_kind _ hmem).2]
      refine ⟨hne, ?_⟩
      rintro (⟨c, hc, hspace⟩ | h | h)
      · exact hspaces c (List.mem_of_head? hc) hspace
      · exact hline h
      · exact hblock h

/-! ## Reading numbers and string literals -/

section Digits

variable {cs : List Char}

/-- Digits have as many values as there are digits. -/
theorem length_filterMap_digitValue? (h : ∀ c ∈ cs, (Text.digitValue? c).isSome) :
    (cs.filterMap Text.digitValue?).length = cs.length := by
  induction cs with
  | nil => rfl
  | cons c cs ih =>
      obtain ⟨d, hd⟩ := Option.isSome_iff_exists.mp (h c List.mem_cons_self)
      rw [List.filterMap_cons_some hd, List.length_cons, List.length_cons,
        ih fun c hc => h c (List.mem_cons_of_mem _ hc)]

/-- Decimal digits are read up to what follows them. -/
theorem readDigits_append (h : ∀ c ∈ cs, (Text.digitValue? c).isSome) {rest : List Char}
    (hrest : ∀ c ∈ rest.head?, c ≠ '_' ∧ Text.digitValue? c = none) (more : Bool) :
    Numeral.readDigits more (cs ++ rest) = (cs.filterMap Text.digitValue?, rest) := by
  induction cs generalizing more with
  | nil =>
      cases rest with
      | nil => rfl
      | cons c rest =>
          obtain ⟨hline, hvalue⟩ := hrest c rfl
          rw [List.nil_append, Numeral.readDigits, hvalue]
          · rfl
          · exact fun _ _ hc => absurd hc hline
  | cons c cs ih =>
      obtain ⟨d, hd⟩ := Option.isSome_iff_exists.mp (h c List.mem_cons_self)
      rw [List.cons_append, Numeral.readDigits, hd, List.filterMap_cons_some hd]
      · simp only [ih fun c hc => h c (List.mem_cons_of_mem _ hc)]
      · rintro _ _ rfl
        exact absurd (h '_' List.mem_cons_self) (by decide)

/-- A numeral reader takes all of the digits. -/
theorem readDigits_eq (h : ∀ c ∈ cs, (Text.digitValue? c).isSome) (more : Bool) :
    Numeral.readDigits more cs = (cs.filterMap Text.digitValue?, []) := by
  have hend : ∀ c ∈ ([] : List Char).head?, c ≠ '_' ∧ Text.digitValue? c = none := nofun
  have hall := readDigits_append h hend more
  rwa [List.append_nil] at hall

/-- No sign stands in front of a digit. -/
theorem readSign_cons {c : Char} (h : (Text.digitValue? c).isSome) (cs : List Char) :
    Numeral.readSign (c :: cs) = (false, c :: cs) := by
  unfold Numeral.readSign
  split
  · next heq =>
      cases heq
      exact absurd h (by decide)
  · next heq =>
      cases heq
      exact absurd h (by decide)
  · rfl

/-- At least one digit has at least one value. -/
theorem isEmpty_filterMap_digitValue? (hne : cs ≠ [])
    (h : ∀ c ∈ cs, (Text.digitValue? c).isSome) :
    (cs.filterMap Text.digitValue?).isEmpty = false := by
  rw [List.isEmpty_eq_false_iff, ← List.length_pos_iff, length_filterMap_digitValue? h]
  exact List.length_pos_iff.mpr hne

/-- Decimal digits are a numeral, unless there are too many of them. -/
theorem readInt_eq (hne : cs ≠ []) (h : ∀ c ∈ cs, (Text.digitValue? c).isSome) :
    Numeral.readInt (String.ofList cs) =
      if Numeral.maxDigits < cs.length then .error (.tooManyDigits cs.length)
      else .ok (digitsValue cs) := by
  have hempty := isEmpty_filterMap_digitValue? hne h
  have hsign : Numeral.readSign cs = (false, cs) := by
    obtain ⟨c, cs, rfl⟩ := List.exists_cons_of_ne_nil hne
    exact readSign_cons (h c List.mem_cons_self) cs
  unfold Numeral.readInt
  simp only [String.toList_ofList, hsign, readDigits_eq h, length_filterMap_digitValue? h, hempty]
  rfl

end Digits

/-- The body of a string literal decodes to the text that it was written for. -/
theorem decodes_escaped {text : List Char} (h : nul ∉ text) :
    Decodes (text.flatMap escaped) text := by
  induction text with
  | nil => exact .nil
  | cons c text ih =>
      rw [List.mem_cons, not_or] at h
      have hmore := ih h.2
      rw [List.flatMap_cons]
      unfold escaped
      split
      · exact .escape rfl hmore
      · exact .escape rfl hmore
      · exact .escape rfl hmore
      · next hbackslash hquote hline =>
          refine .plain ?_ hmore
          simp only [List.mem_cons, List.not_mem_nil, or_false, not_or]
          exact ⟨hquote, hbackslash, hline, Ne.symm h.1⟩

/-! ## Writing and scanning -/

/-- A valid token is written as a lexeme that any blank ends. -/
theorem Valid.lexes {kind : TokenKind} {text rest : List Char} (h : Valid kind text)
    (hdigits : kind = .int → text.length ≤ Numeral.maxDigits) (hrest : Apart rest) :
    Lexes kind text (spell kind text) rest := by
  have hends {c : Char} (hc : c ∈ rest.head?) := ends_of_isSpace (hrest c hc)
  cases h with
  | @keyword word kind hmem =>
      obtain ⟨hword, hne, hstart, hchars⟩ := keywords_lex _ hmem
      rw [spell_of_ne (keywords_kind _ hmem).2]
      obtain ⟨c, cs, hcs⟩ := List.exists_cons_of_ne_nil hne
      rw [hcs] at hstart hchars ⊢
      have hlexes := Lexes.word (hstart c rfl) (fun d hd => hchars d (List.mem_cons_of_mem _ hd))
        fun d hd => (hends hd).1
      rwa [← hcs, String.ofList_toList, hword, hcs] at hlexes
  | @ident c cs hc hcs hkeyword =>
      have hlexes := Lexes.word hc hcs fun d hd => (hends hd).1
      have hkind : wordKind (String.ofList (c :: cs)) = .ident := by
        refine (wordKind_mem _).resolve_left fun hmem => hkeyword ?_
        exact List.any_eq_true.mpr ⟨_, hmem, by simp⟩
      rwa [hkind] at hlexes
  | @int cs hne hcs hvalue =>
      refine .int hne (fun c hc => isDigit_of_isSome (hcs c hc)) ?_ hvalue fun c hc => ?_
      · rw [readInt_eq hne hcs, if_neg (Nat.not_lt.mpr (hdigits rfl))]
      · obtain ⟨-, hword, hdigit, hpoint, -⟩ := hends hc
        exact ⟨hpoint, hdigit, hword⟩
  | @float whole fraction hne hwhole hne' hfraction =>
      refine .float hne hwhole hne' hfraction fun c hc => ?_
      obtain ⟨-, hword, hdigit, -⟩ := hends hc
      exact ⟨hdigit, hword⟩
  | string hnul => exact .string (decodes_escaped hnul)
  | symbol hmem =>
      -- a longer symbol would have to take in the blank
      rw [spell_of_ne (symbols_kind _ hmem).2]
      refine .symbol hmem fun s hs hbegin => ?_
      exact prefix_of_apart (symbols_lex s hs).2.1 hrest hbegin

/-- An integer literal with too many digits is no lexeme. -/
theorem lexeme_overlong {c : Char} {cs rest : List Char}
    (hcs : ∀ d ∈ c :: cs, (Text.digitValue? d).isSome) (hlong : Numeral.maxDigits < (c :: cs).length)
    (hrest : Apart rest) (p : Position) :
    lexeme p c (cs ++ rest) = .error (.numeral (.tooManyDigits (c :: cs).length)) := by
  have hdigits (d : Char) (hd : d ∈ c :: cs) : Text.isDigit d := isDigit_of_isSome (hcs d hd)
  have hc := hdigits c List.mem_cons_self
  have hends {d : Char} (hd : d ∈ rest.head?) := ends_of_isSpace (hrest d hd)
  have hread := readInt_eq (List.cons_ne_nil c cs) hcs
  rw [if_pos hlong] at hread
  have hrange : finishNumber.checkRange p ⟨.int, c :: cs, p.after (c :: cs), rest⟩ =
      .error (.numeral (.tooManyDigits (c :: cs).length)) := by
    simp only [finishNumber.checkRange, hread]
  unfold lexeme
  rw [if_neg (not_isWordStart_of_isDigit hc), if_pos hc, ← List.cons_append,
    number_int hdigits fun d hd => ⟨(hends hd).2.2.2.1, (hends hd).2.2.1⟩]
  unfold finishNumber
  cases rest with
  | nil => exact hrange
  | cons d rest =>
      dsimp only
      rw [if_neg (hends rfl).2.1]
      exact hrange

/-- A line comment may be closed by the end of the source. -/
theorem skipTrivia_line_end {text : List Char} (h : OneLine text) (p : Position) :
    skipTrivia p .lineComment text = .ok (p.after text, []) := by
  obtain ⟨hline, hnul⟩ := h
  induction text generalizing p with
  | nil => rfl
  | cons c text ih =>
      rw [List.mem_cons, not_or] at hline hnul
      rw [skipTrivia_lineComment, if_neg (Ne.symm hline.1), if_neg (Ne.symm hnul.1),
        ih (p.next c) hline.2 hnul.2, Position.after_cons]

/-- What closes a source is skipped up to its end. -/
theorem Closing.skipTrivia_eq {last : List Char} (h : Closing last) (p : Position) :
    skipTrivia p .between last = .ok (p.after last, []) := by
  rcases h with htrivia | ⟨front, text, rfl, hfront, htext⟩
  · have := skipTrivia_append htrivia p []
    rwa [List.append_nil] at this
  · rw [skipTrivia_append hfront, skipTrivia_slash_slash,
      skipTrivia_line_end htext, Position.after_append]
    rfl

/-- A valid token with trivia in front of it is scanned, unless it has too many digits. -/
theorem scanFrom_entry {x : Entry} {rest : List Char} (hvalid : Valid x.kind x.text)
    (htrivia : Trivia x.before) (hrest : Apart rest) (fuel : Nat) (p : Position) :
    scanFrom (fuel + 1) p (x.before ++ spell x.kind x.text ++ rest) =
      if x.overlong then .error (.numeral (.tooManyDigits x.text.length))
      else (scanFrom fuel (p.after (x.before ++ spell x.kind x.text)) rest).map
        (⟨x.kind, String.ofList x.text, p.after x.before⟩ :: ·) := by
  obtain ⟨before, kind, text⟩ := x
  dsimp only at hvalid htrivia ⊢
  obtain ⟨hne, hbegins⟩ := hvalid.not_beginsTrivia
  have hskip : skipTrivia p .between (before ++ spell kind text ++ rest) =
      .ok (p.after before, spell kind text ++ rest) := by
    rw [List.append_assoc, skipTrivia_append htrivia]
    exact skipTrivia_of_not_begins (fun h => hbegins (h.of_append hne hrest)) _
  rw [scanFrom, hskip]
  by_cases hlong : Entry.overlong ⟨before, kind, text⟩
  · rw [if_pos hlong]
    obtain ⟨rfl, hcount⟩ : kind = .int ∧ Numeral.maxDigits < text.length := by
      simpa [Entry.overlong] using hlong
    obtain ⟨hne, hdigits⟩ := hvalid.digits
    obtain ⟨c, cs, rfl⟩ := List.exists_cons_of_ne_nil hne
    simp only [spell, List.cons_append, lexeme_overlong hdigits hcount hrest]
    rfl
  · rw [if_neg hlong]
    have hshort : kind = .int → text.length ≤ Numeral.maxDigits := by
      simpa [Entry.overlong] using hlong
    obtain ⟨c, cs, hspell, hlexeme⟩ := (hvalid.lexes hshort hrest).lexeme_eq (p.after before)
    rw [hspell, Position.after_append, List.cons_append]
    simp only [hlexeme, hspell, bind, Except.bind, pure, Except.pure]
    cases scanFrom fuel ((p.after before).after (c :: cs)) rest <;> rfl

section Spread

variable {x : Entry} {xs : List Entry} {last : List Char}

/-- The later tokens of a spread are spread themselves. -/
theorem Entry.Spread.tail (h : Spread (x :: xs) last) : Spread xs last :=
  ⟨fun y hy => h.valid y (List.mem_cons_of_mem _ hy),
    fun y hy => h.trivia y (List.mem_cons_of_mem _ hy),
    fun y hy => h.apart y (List.mem_of_mem_tail hy), h.closing⟩

/-- What follows the first token begins with a blank. -/
theorem Entry.Spread.apart_tail (h : Spread (x :: xs) last) : Apart (render xs ++ last) := by
  cases xs with
  | nil => exact h.closing.2
  | cons y ys =>
      obtain ⟨hne, hapart⟩ := h.apart y List.mem_cons_self
      intro c hc
      apply hapart c
      simpa [render, hne] using hc

/-- The scan of valid tokens with blanks between them fails at the first integer literal that has
too many digits, and gives back the tokens if there is none. -/
theorem scanFrom_render (h : Entry.Spread xs last) {fuel : Nat}
    (hfuel : (Entry.render xs ++ last).length < fuel) (p : Position) :
    (∀ x, xs.find? Entry.overlong = some x →
      scanFrom fuel p (Entry.render xs ++ last) =
        .error (.numeral (.tooManyDigits x.text.length))) ∧
    (xs.find? Entry.overlong = none →
      ∃ tokens, scanFrom fuel p (Entry.render xs ++ last) = .ok tokens ∧
        tokens.map (fun t => (t.kind, t.text)) =
          xs.map (fun x => (x.kind, String.ofList x.text)) ++ [(.eof, "")]) := by
  -- both halves in one induction, since the scan of the first token is the same step for both
  induction xs generalizing fuel p with
  | nil =>
      obtain ⟨fuel, rfl⟩ := Nat.exists_eq_succ_of_ne_zero (Nat.ne_zero_of_lt hfuel)
      refine ⟨fun x hx => absurd hx (by simp), fun _ => ⟨[⟨.eof, "", p.after last⟩], ?_, rfl⟩⟩
      rw [Entry.render, List.flatMap_nil, List.nil_append, scanFrom, h.closing.1.skipTrivia_eq]
  | cons y ys ih =>
      obtain ⟨fuel, rfl⟩ := Nat.exists_eq_succ_of_ne_zero (Nat.ne_zero_of_lt hfuel)
      have hvalid := h.valid y List.mem_cons_self
      have hrender : Entry.render (y :: ys) ++ last =
          y.before ++ spell y.kind y.text ++ (Entry.render ys ++ last) := by
        simp [Entry.render]
      have hlt : (Entry.render ys ++ last).length < fuel := by
        have := List.length_pos_iff.mpr hvalid.not_beginsTrivia.1
        rw [hrender, List.length_append, List.length_append] at hfuel
        omega
      obtain ⟨herror, hok⟩ := ih h.tail hlt (p.after (y.before ++ spell y.kind y.text))
      rw [hrender, scanFrom_entry hvalid (h.trivia y List.mem_cons_self) h.apart_tail]
      by_cases hlong : y.overlong
      · rw [if_pos hlong, List.find?_cons_of_pos hlong]
        exact ⟨fun x hx => by cases hx; rfl, fun hnone => absurd hnone (by simp)⟩
      · rw [if_neg hlong, List.find?_cons_of_neg hlong]
        refine ⟨fun x hx => by rw [herror x hx]; rfl, fun hnone => ?_⟩
        obtain ⟨tokens, hscan, htokens⟩ := hok hnone
        refine ⟨_, by rw [hscan]; rfl, ?_⟩
        rw [List.map_cons, htokens, List.map_cons, List.cons_append]

end Spread

/-- Valid tokens that are written with blanks between them are scanned as what they are, whatever
the blanks and comments, and the end of file follows them. The exception is an integer literal with
too many digits: the first one makes the scan fail, with the error of the conversion. -/
theorem scan_render {xs : List Entry} {last : List Char} (h : Entry.Spread xs last) :
    ((∀ x ∈ xs, x.kind = .int → x.text.length ≤ Numeral.maxDigits) →
      ∃ tokens, scan (String.ofList (Entry.render xs ++ last)) = .ok tokens ∧
        tokens.map (fun t => (t.kind, t.text)) =
          xs.map (fun x => (x.kind, String.ofList x.text)) ++ [(.eof, "")]) ∧
    ∀ x, xs.find? Entry.overlong = some x →
      scan (String.ofList (Entry.render xs ++ last)) =
        .error (.numeral (.tooManyDigits x.text.length)) := by
  unfold scan
  rw [String.toList_ofList]
  obtain ⟨herror, hok⟩ := scanFrom_render h (Nat.lt_succ_self _) .first
  refine ⟨fun hshort => hok ?_, herror⟩
  rw [List.find?_eq_none]
  intro x hx
  simpa [Entry.overlong] using hshort x hx

/-- Comments of both forms, a string literal with escapes and a symbol that could begin a comment. -/
theorem scan_render_comments :
    ∃ tokens, scan (String.ofList (Entry.render
      [⟨[], .kwLet, "let".toList⟩, ⟨[' ', '/', '*', '*', '*', '/'], .ident, ['x']⟩,
        ⟨[' ', '/', '/', '"', '\n'], .slash, ['/']⟩, ⟨['\t'], .string, ['"', 'a', '\\', '\n']⟩,
        ⟨[' ', '/', '*', '/', '/', '*', '/'], .int, ['0', '0', '7']⟩] ++ [])) = .ok tokens ∧
      tokens.map (fun t => (t.kind, t.text)) =
        [(.kwLet, "let"), (.ident, "x"), (.slash, "/"), (.string, "\"a\\\n"), (.int, "007"),
          (.eof, "")] := by
  have hblock : Trivia [' ', '/', '*', '*', '*', '/'] :=
    .space rfl (@Trivia.block ['*'] [] (by decide) .nil)
  have hline : Trivia [' ', '/', '/', '"', '\n'] :=
    .space rfl (@Trivia.line ['"'] [] ⟨by decide, by decide⟩ .nil)
  have hnested : Trivia [' ', '/', '*', '/', '/', '*', '/'] :=
    .space rfl (@Trivia.block ['/', '/'] [] (by decide) .nil)
  refine (scan_render ⟨?_, ?_, by decide, .inl .nil, by decide⟩).1 (by decide)
  · simp only [List.forall_mem_cons]
    exact ⟨.keyword (by decide), .ident (by decide) (List.forall_mem_nil _) (by decide),
      .symbol (by decide), .string (by decide),
      .int (by decide) (List.all_eq_true.mp (by decide)) (by decide), nofun⟩
  · simp only [List.forall_mem_cons]
    exact ⟨.nil, hblock, hline, .space rfl .nil, hnested, nofun⟩

/-- However many zeros there are, the number is zero. -/
theorem ofDigits_replicate_zero (n : Nat) : Numeral.ofDigits (List.replicate n 0) = 0 := by
  unfold Numeral.ofDigits
  induction n with
  | zero => rfl
  | succ n ih => simpa [List.replicate_succ] using ih

/-- Zero can be written with any number of digits. -/
theorem spread_zeros {n : Nat} (hn : 0 < n) :
    Entry.Spread [⟨[], .int, List.replicate n '0'⟩] [] := by
  refine ⟨?_, by simp [Trivia.nil], nofun, .inl .nil, by decide⟩
  simp only [List.forall_mem_singleton]
  refine .int (by simpa using Nat.ne_of_gt hn) ?_ ?_
  · intro c hc
    rw [List.eq_of_mem_replicate hc]
    decide
  · have hzeros : (List.replicate n '0').filterMap Text.digitValue? = List.replicate n 0 :=
      List.filterMap_replicate_of_some (by decide)
    rw [digitsValue, hzeros, ofDigits_replicate_zero]
    decide

/-- Zero with too many digits is not scanned. -/
theorem scan_zeros {n : Nat} (hn : Numeral.maxDigits < n) :
    scan (String.ofList (List.replicate n '0')) = .error (.numeral (.tooManyDigits n)) := by
  have hspread := spread_zeros (Nat.zero_lt_of_lt hn)
  have hlong : Entry.overlong ⟨[], .int, List.replicate n '0'⟩ := by
    simpa [Entry.overlong] using hn
  have herror := (scanFrom_render hspread (Nat.lt_succ_self _) .first).1 _
    (List.find?_cons_of_pos hlong)
  simpa [scan, Entry.render, spell] using herror

/-- A valid text for which the scan gives no tokens. -/
theorem scan_zeros_fails :
    Entry.Spread [⟨[], .int, List.replicate 4301 '0'⟩] [] ∧
      scan (String.ofList (List.replicate 4301 '0')) = .error (.numeral (.tooManyDigits 4301)) :=
  ⟨spread_zeros (by decide), scan_zeros (by decide)⟩

end Pigeon.Token

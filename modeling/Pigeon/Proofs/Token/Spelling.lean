import Mathlib.Data.List.Infix
import Mathlib.Data.List.TakeWhile
import Pigeon.Token.Scan

/-!
# Blanks, comments and lexemes

What the scan of source text passes over and what it reads, without the scan: `Trivia` is text
between tokens, and `Lexes kind text spelling rest` says that `spelling` is a lexeme of the kind
`kind` with the text `text`, which the characters `rest` behind it do not continue.

Each scanning function is then described from both sides: `skipTrivia_append` and `skipTrivia_ok`
for trivia, `stringBody_eq_ok_iff` for string literals, `symbol?_eq_some_iff` for symbols, and
`lexeme_ok` and `Lexes.lexeme_eq` for all lexemes.
-/

namespace Pigeon

/-! ## Positions -/

namespace Position

/-- The position behind the characters `before` at the beginning of a source text: a line begins
behind each newline, and columns count the characters of the line. -/
def behind (before : List Char) : Position :=
  ⟨1 + before.count '\n', 1 + (before.reverse.takeWhile (· ≠ '\n')).length⟩

/-- The position after some characters is that behind them from the beginning. -/
theorem first_after (cs : List Char) : first.after cs = behind cs := by
  induction cs using List.reverseRecOn with
  | nil => rfl
  | append_singleton cs c ih =>
      rw [after_append, ih, after_cons, after_nil]
      unfold next behind
      by_cases hc : c = '\n'
      · subst hc
        simp [Int.add_assoc]
      · simp [hc, Int.add_assoc]

end Position

/-! ## Letters and digits -/

namespace Text

/-- A table of intervals is in the order of their first code points. -/
def Ordered (table : List (Nat × Nat)) : Prop :=
  (table.map Prod.fst).IsChain (· ≤ ·)

instance (table : List (Nat × Nat)) : Decidable (Ordered table) :=
  inferInstanceAs (Decidable ((table.map Prod.fst).IsChain (· ≤ ·)))

/-- One walk over two ordered tables that finds whether no interval of the one meets one of the
other: behind the intervals that end before `r` begins the next has to begin behind `r`. -/
def apart : List (Nat × Nat) → List (Nat × Nat) → Bool
  | [], _ => true
  | r :: table, others =>
      let next := others.dropWhile (·.2 < r.1)
      (next.head?.all fun s => r.2 < s.1) && apart table next

namespace Ordered

variable {r s : Nat × Nat} {table : List (Nat × Nat)}

/-- No interval begins before the first one. -/
theorem le_of_mem (h : Ordered (r :: table)) (hs : s ∈ r :: table) : r.1 ≤ s.1 := by
  rcases List.mem_cons.mp hs with rfl | hs
  · exact Nat.le_refl _
  · exact List.rel_of_pairwise_cons h.pairwise (List.mem_map_of_mem hs)

/-- What is left of an ordered table is ordered. -/
theorem of_suffix {rest : List (Nat × Nat)} (h : Ordered table) (hrest : rest <:+ table) :
    Ordered rest :=
  List.isChain_iff_pairwise.mpr (h.pairwise.sublist (hrest.sublist.map Prod.fst))

end Ordered

/-- If the walk finds no meeting, each interval lies before or behind each of the other table. -/
theorem before_or_behind_of_apart {table others : List (Nat × Nat)} (htable : Ordered table)
    (hothers : Ordered others) (h : apart table others = true) {r s : Nat × Nat}
    (hr : r ∈ table) (hs : s ∈ others) : r.2 < s.1 ∨ s.2 < r.1 := by
  induction table generalizing others with
  | nil => cases hr
  | cons first table ih =>
      have hfirst : first.1 ≤ r.1 := htable.le_of_mem hr
      rw [apart, Bool.and_eq_true] at h
      obtain ⟨hhead, hrest⟩ := h
      have hnext := hothers.of_suffix (List.dropWhile_suffix (·.2 < first.1))
      rw [← List.takeWhile_append_dropWhile (p := (·.2 < first.1)) (l := others),
        List.mem_append] at hs
      rcases hs with hs | hs
      · -- passed over: it ends before the first interval begins, and so before all of them
        have hbefore := List.mem_takeWhile_imp hs
        rw [decide_eq_true_iff] at hbefore
        exact .inr (by omega)
      · rcases List.mem_cons.mp hr with rfl | hr
        · -- the next one begins behind the first interval, and none of the rest before that one
          cases hdrop : others.dropWhile (·.2 < r.1) with
          | nil => simp [hdrop] at hs
          | cons next rest =>
              rw [hdrop] at hs hhead hnext
              have := hnext.le_of_mem hs
              have : r.2 < next.1 := by simpa using hhead
              exact .inl (by omega)
        · exact ih (htable.of_suffix (List.suffix_cons first table)) hnext hrest hr hs

/-- No interval of letters meets a run of ten digits or another interval of digits. -/
theorem letterRanges_apart :
    (∀ r ∈ letterRanges, ∀ z ∈ zeros, r.2 < z ∨ z + 9 < r.1) ∧
      ∀ r ∈ letterRanges, ∀ s ∈ otherDigitRanges, r.2 < s.1 ∨ s.2 < r.1 := by
  have hletters : Ordered letterRanges := by decide +kernel
  refine ⟨fun r hr z hz => ?_, fun r hr s hs => ?_⟩
  · have hruns : Ordered (zeros.map fun z => (z, z + 9)) := by decide +kernel
    exact before_or_behind_of_apart hletters hruns (by decide +kernel) hr
      (List.mem_map_of_mem hz)
  · have hothers : Ordered otherDigitRanges := by decide +kernel
    exact before_or_behind_of_apart hletters hothers (by decide +kernel) hr hs

/-- A digit is no letter. -/
theorem isLetter_eq_false_of_isDigit {c : Char} (h : isDigit c) : isLetter c = false := by
  unfold isLetter
  -- below 128 both are ranges of codes, and from there on both are looked up in the tables
  by_cases hascii : c.toNat < 128
  · have hdigit : c.isDigit = true := by
      simpa [isDigit, digitValue?, hascii, Nat.not_le.mpr hascii] using h
    have hvalue : c.isDigit = (decide (c.val ≥ '0'.val) && decide (c.val ≤ '9'.val)) := rfl
    have halpha : c.isAlpha = (decide (c.val ≥ 'A'.val ∧ c.val ≤ 'Z'.val) ||
      decide (c.val ≥ 'a'.val) && decide (c.val ≤ 'z'.val)) := rfl
    rw [if_pos hascii, halpha]
    rw [hvalue] at hdigit
    simp [UInt32.le_iff_toNat_le] at hdigit ⊢
    omega
  · rw [if_neg hascii, inRanges, List.any_eq_false]
    intro r hr hletter
    rw [Bool.and_eq_true, decide_eq_true_iff, decide_eq_true_iff] at hletter
    unfold isDigit at h
    rw [Bool.or_eq_true] at h
    rcases h with hdecimal | hother
    · rw [digitValue?, if_neg hascii, Option.isSome_map, List.find?_isSome] at hdecimal
      obtain ⟨z, hz, hrun⟩ := hdecimal
      have := letterRanges_apart.1 r hr z hz
      simp at hrun
      omega
    · rw [Bool.and_eq_true, inRanges, List.any_eq_true] at hother
      obtain ⟨-, s, hs, hrun⟩ := hother
      have := letterRanges_apart.2 r hr s hs
      simp at hrun
      omega

end Text

namespace Token

/-! ## Trivia -/

/-- Text inside one line. The null character ends it, too. -/
def OneLine (text : List Char) : Prop := '\n' ∉ text ∧ nul ∉ text

/-- Blanks and complete comments. -/
inductive Trivia : List Char → Prop
  | nil : Trivia []
  | space {c : Char} {cs : List Char} : isSpace c → Trivia cs → Trivia (c :: cs)
  | line {text cs : List Char} :
      OneLine text → Trivia cs → Trivia ('/' :: '/' :: (text ++ '\n' :: cs))
  | block {text cs : List Char} :
      ¬ ['*', '/'] <:+: text → Trivia cs → Trivia ('/' :: '*' :: (text ++ '*' :: '/' :: cs))

/-- What can stand behind the last token: trivia, where the last line need not end with a newline. -/
def Closing (cs : List Char) : Prop :=
  Trivia cs ∨ ∃ front text, cs = front ++ '/' :: '/' :: text ∧ Trivia front ∧ OneLine text

/-- A blank or a comment begins here. -/
def BeginsTrivia (cs : List Char) : Prop :=
  (∃ c ∈ cs.head?, isSpace c) ∨ ['/', '/'] <+: cs ∨ ['/', '*'] <+: cs

/-- Trivia in a row are trivia. -/
theorem Trivia.append {v w : List Char} (hv : Trivia v) (hw : Trivia w) : Trivia (v ++ w) := by
  induction hv with
  | nil => exact hw
  | space hc _ ih => exact .space hc ih
  | @line text cs htext _ ih =>
      simpa using Trivia.line htext ih
  | @block text cs htext _ ih =>
      simpa using Trivia.block htext ih

/-- What may close a source may do so after trivia. -/
theorem Trivia.append_closing {v w : List Char} (hv : Trivia v) (hw : Closing w) :
    Closing (v ++ w) := by
  rcases hw with hw | ⟨front, text, rfl, hfront, htext⟩
  · exact Or.inl (hv.append hw)
  · exact Or.inr ⟨v ++ front, text, by simp, hv.append hfront, htext⟩

section Trivia

variable {p q : Position} {text cs rest : List Char}

/-- Where no trivia begin there is nothing to skip. -/
theorem skipTrivia_of_not_begins (h : ¬ BeginsTrivia cs) (p : Position) :
    skipTrivia p .between cs = .ok (p, cs) := by
  unfold BeginsTrivia at h
  unfold skipTrivia
  split <;> simp_all

/-- Two slashes begin a line comment. -/
theorem skipTrivia_slash_slash (p : Position) (cs : List Char) :
    skipTrivia p .between ('/' :: '/' :: cs) =
      skipTrivia ((p.next '/').next '/') .lineComment cs := rfl

/-- A slash and a star begin a block comment. -/
theorem skipTrivia_slash_star (p : Position) (cs : List Char) :
    skipTrivia p .between ('/' :: '*' :: cs) =
      skipTrivia ((p.next '/').next '*') .blockComment cs := rfl

/-- A blank is skipped. -/
theorem skipTrivia_space {c : Char} (h : isSpace c) (p : Position) (cs : List Char) :
    skipTrivia p .between (c :: cs) = skipTrivia (p.next c) .between cs := by
  have hslash : c ≠ '/' := by
    rintro rfl
    exact absurd h (by decide)
  rw [skipTrivia, if_pos h]
  · rintro _ rfl
    exact absurd rfl hslash
  · rintro _ rfl
    exact absurd rfl hslash

/-- A line comment ends behind a line break and before a null character. -/
theorem skipTrivia_lineComment (p : Position) (c : Char) (cs : List Char) :
    skipTrivia p .lineComment (c :: cs) =
      if c = '\n' then skipTrivia (p.next c) .between cs
      else if c = nul then .ok (p, c :: cs)
      else skipTrivia (p.next c) .lineComment cs := rfl

/-- A line comment is skipped with the line break behind it. -/
theorem skipTrivia_line (h : OneLine text) (p : Position) (cs : List Char) :
    skipTrivia p .lineComment (text ++ '\n' :: cs) =
      skipTrivia (p.after (text ++ ['\n'])) .between cs := by
  obtain ⟨hline, hnul⟩ := h
  induction text generalizing p with
  | nil => rfl
  | cons c text ih =>
      rw [List.mem_cons, not_or] at hline hnul
      rw [List.cons_append, skipTrivia_lineComment, if_neg (Ne.symm hline.1), if_neg (Ne.symm hnul.1),
        ih (p.next c) hline.2 hnul.2, List.cons_append, Position.after_cons]

/-- In a block comment a character that does not begin its end is skipped. -/
theorem skipTrivia_block_cons {c : Char} (h : ¬ ['*', '/'] <+: c :: cs) (p : Position) :
    skipTrivia p .blockComment (c :: cs) = skipTrivia (p.next c) .blockComment cs := by
  rw [skipTrivia]
  rintro cs rfl rfl
  exact h ⟨cs, rfl⟩

/-- A block comment is skipped with its end. -/
theorem skipTrivia_block (h : ¬ ['*', '/'] <:+: text) (p : Position) (cs : List Char) :
    skipTrivia p .blockComment (text ++ '*' :: '/' :: cs) =
      skipTrivia (p.after (text ++ ['*', '/'])) .between cs := by
  induction text generalizing p with
  | nil => rfl
  | cons c text ih =>
      rw [List.infix_cons_iff, not_or] at h
      have hfirst : ¬ ['*', '/'] <+: c :: (text ++ '*' :: '/' :: cs) := by
        intro hbegin
        cases text with
        | nil => simp at hbegin
        | cons d text =>
            apply h.1
            simpa using hbegin
      rw [List.cons_append, skipTrivia_block_cons hfirst, ih h.2, List.cons_append,
        Position.after_cons]

/-- Trivia is passed over, whatever follows it. -/
theorem skipTrivia_append {w : List Char} (hw : Trivia w) (p : Position) (rest : List Char) :
    skipTrivia p .between (w ++ rest) = skipTrivia (p.after w) .between rest := by
  induction hw generalizing p with
  | nil => rfl
  | @space c cs hc _ ih =>
      rw [List.cons_append, skipTrivia_space hc, ih, Position.after_cons]
  | @line text cs htext _ ih =>
      rw [List.cons_append, List.cons_append, List.append_assoc, List.cons_append,
        skipTrivia_slash_slash, skipTrivia_line htext, ih]
      simp [Position.after_append]
  | @block text cs htext _ ih =>
      rw [List.cons_append, List.cons_append, List.append_assoc, List.cons_append,
        List.cons_append, skipTrivia_slash_star, skipTrivia_block htext, ih]
      simp [Position.after_append]

/-- A line comment that was passed over ends with its line, or where the scan ends. -/
theorem skipTrivia_line_ok (h : skipTrivia p .lineComment cs = .ok (q, rest)) :
    (∃ text cs', OneLine text ∧ cs = text ++ '\n' :: cs' ∧
      skipTrivia (p.after (text ++ ['\n'])) .between cs' = .ok (q, rest)) ∨
    (OneLine cs ∧ q = p.after cs ∧ rest = []) ∨ ∃ rest', rest = nul :: rest' := by
  induction cs generalizing p with
  | nil =>
      cases h
      exact Or.inr (Or.inl ⟨⟨List.not_mem_nil, List.not_mem_nil⟩, rfl, rfl⟩)
  | cons c cs ih =>
      rw [skipTrivia_lineComment] at h
      split at h
      · next hc =>
          subst hc
          exact Or.inl ⟨[], cs, ⟨List.not_mem_nil, List.not_mem_nil⟩, rfl, h⟩
      · next hline =>
          split at h
          · next hnul =>
              cases h
              exact Or.inr (Or.inr ⟨cs, by rw [hnul]⟩)
          · next hnul =>
              have hmem {text : List Char} (htext : OneLine text) : OneLine (c :: text) :=
                ⟨List.not_mem_cons_of_ne_of_not_mem (Ne.symm hline) htext.1,
                  List.not_mem_cons_of_ne_of_not_mem (Ne.symm hnul) htext.2⟩
              rcases ih h with ⟨text, cs', htext, rfl, h'⟩ | ⟨htext, rfl, rfl⟩ | hstop
              · exact Or.inl ⟨c :: text, cs', hmem htext, rfl, h'⟩
              · exact Or.inr (Or.inl ⟨hmem htext, rfl, rfl⟩)
              · exact Or.inr (Or.inr hstop)

/-- A block comment that was passed over ends with the first end mark. -/
theorem skipTrivia_block_ok (h : skipTrivia p .blockComment cs = .ok (q, rest)) :
    ∃ text cs', ¬ ['*', '/'] <:+: text ∧ cs = text ++ '*' :: '/' :: cs' ∧
      skipTrivia (p.after (text ++ ['*', '/'])) .between cs' = .ok (q, rest) := by
  induction cs generalizing p with
  | nil => cases h
  | cons c cs ih =>
      by_cases hend : ['*', '/'] <+: c :: cs
      · obtain ⟨cs', heq⟩ := hend
        cases heq
        exact ⟨[], cs', by simp, rfl, h⟩
      · rw [skipTrivia_block_cons hend] at h
        obtain ⟨text, cs', htext, rfl, h'⟩ := ih h
        refine ⟨c :: text, cs', ?_, rfl, h'⟩
        rw [List.infix_cons_iff, not_or]
        refine ⟨fun hbegin => hend ?_, htext⟩
        exact hbegin.trans (List.prefix_append (c :: text) _)

/-- What was passed over is trivia, or a line comment ends the text. A line comment also ends at a
null character, which then stands in front of the rest. -/
theorem skipTrivia_ok (h : skipTrivia p .between cs = .ok (q, rest)) :
    (∃ w, cs = w ++ rest ∧ q = p.after w ∧ (Trivia w ∨ Closing w ∧ rest = [])) ∨
      ∃ rest', rest = nul :: rest' := by
  -- a comment can have any length, so the induction is on the length of the text that is left
  induction hn : cs.length using Nat.strong_induction_on generalizing p cs with
  | _ n ih =>
    subst hn
    -- a part of trivia in front, and what was passed over behind it
    have hfront {w cs'} (hw : Trivia w) (hne : w ≠ []) (hcs : cs = w ++ cs')
        (h' : skipTrivia (p.after w) .between cs' = .ok (q, rest)) :
        (∃ w, cs = w ++ rest ∧ q = p.after w ∧ (Trivia w ∨ Closing w ∧ rest = [])) ∨
          ∃ rest', rest = nul :: rest' := by
      have hlt : cs'.length < cs.length := by
        rw [hcs, List.length_append]
        have := List.length_pos_iff.mpr hne
        omega
      rcases ih _ hlt h' rfl with ⟨v, rfl, rfl, hv⟩ | hstop
      · refine Or.inl ⟨w ++ v, by rw [hcs, List.append_assoc], by rw [Position.after_append], ?_⟩
        exact hv.imp hw.append fun ⟨hv, hrest⟩ => ⟨hw.append_closing hv, hrest⟩
      · exact Or.inr hstop
    by_cases hbegin : BeginsTrivia cs
    · rcases hbegin with ⟨c, hc, hspace⟩ | ⟨cs', rfl⟩ | ⟨cs', rfl⟩
      · obtain ⟨cs', rfl⟩ := List.head?_eq_some_iff.mp hc
        have hw : Trivia [c] := .space hspace .nil
        exact hfront hw (by simp) rfl ((skipTrivia_append hw p cs').symm.trans h)
      · rw [List.cons_append, List.singleton_append, skipTrivia_slash_slash] at h
        rcases skipTrivia_line_ok h with ⟨text, cs'', htext, rfl, h'⟩ | ⟨htext, rfl, rfl⟩ | hstop
        · have hw : Trivia ('/' :: '/' :: (text ++ ['\n'])) := .line htext .nil
          exact hfront hw (by simp) (by simp) h'
        · refine Or.inl ⟨'/' :: '/' :: cs', by simp, rfl, Or.inr ⟨?_, rfl⟩⟩
          exact Or.inr ⟨[], cs', rfl, .nil, htext⟩
        · exact Or.inr hstop
      · rw [List.cons_append, List.singleton_append, skipTrivia_slash_star] at h
        obtain ⟨text, cs'', htext, rfl, h'⟩ := skipTrivia_block_ok h
        have hw : Trivia ('/' :: '*' :: (text ++ ['*', '/'])) := .block htext .nil
        exact hfront hw (by simp) (by simp) h'
    · rw [skipTrivia_of_not_begins hbegin] at h
      cases h
      exact Or.inl ⟨[], rfl, rfl, Or.inl .nil⟩

end Trivia

/-! ## Lexemes -/

/-- The text that is written as `body` between quotes. -/
inductive Decodes : List Char → List Char → Prop
  | nil : Decodes [] []
  | plain {c : Char} {body text : List Char} : c ∉ ['"', '\\', '\n', nul] → Decodes body text →
      Decodes (c :: body) (c :: text)
  | escape {e c : Char} {body text : List Char} : escape? e = some c → Decodes body text →
      Decodes ('\\' :: e :: body) (c :: text)

/-- The characters `spelling` are a lexeme of the kind `kind` with the text `text`, and the
characters `rest` behind them do not continue it. -/
inductive Lexes : TokenKind → List Char → List Char → List Char → Prop
  | word {c : Char} {cs rest : List Char} : isWordStart c → (∀ d ∈ cs, isWordChar d) →
      (∀ d ∈ rest.head?, ¬ isWordChar d) →
      Lexes (wordKind (String.ofList (c :: cs))) (c :: cs) (c :: cs) rest
  | int {cs rest : List Char} {n : Int} : cs ≠ [] → (∀ c ∈ cs, Text.isDigit c) →
      Numeral.readInt (String.ofList cs) = .ok n → n ≤ maxInt →
      (∀ c ∈ rest.head?, c ≠ '.' ∧ ¬ Text.isDigit c ∧ ¬ isWordStart c) →
      Lexes .int cs cs rest
  | float {whole fraction rest : List Char} : whole ≠ [] → (∀ c ∈ whole, Text.isDigit c) →
      fraction ≠ [] → (∀ c ∈ fraction, Text.isDigit c) →
      (∀ c ∈ rest.head?, ¬ Text.isDigit c ∧ ¬ isWordStart c) →
      Lexes .float (whole ++ '.' :: fraction) (whole ++ '.' :: fraction) rest
  | string {body text rest : List Char} : Decodes body text →
      Lexes .string text ('"' :: (body ++ ['"'])) rest
  | symbol {kind : TokenKind} {spelling rest : List Char} : (spelling, kind) ∈ symbols →
      (∀ s ∈ symbols, s.1 <+: spelling ++ rest → s.1 <+: spelling) →
      Lexes kind spelling spelling rest

/-- A run of characters of a class is as long as it can be. -/
theorem span_eq_iff {f : Char → Bool} {cs run rest : List Char} :
    cs.span f = (run, rest) ↔
      cs = run ++ rest ∧ (∀ c ∈ run, f c) ∧ ∀ c ∈ rest.head?, ¬ f c := by
  rw [List.span_eq_takeWhile_dropWhile, Prod.mk.injEq]
  constructor
  · rintro ⟨rfl, rfl⟩
    refine ⟨List.takeWhile_append_dropWhile.symm, fun c hc => List.mem_takeWhile_imp hc, ?_⟩
    intro c hc
    have := List.head?_dropWhile_not f cs
    rw [hc] at this
    simpa using this
  · rintro ⟨rfl, hrun, hrest⟩
    rw [List.takeWhile_append_of_pos hrun, List.dropWhile_append_of_pos hrun]
    cases rest with
    | nil => simp
    | cons c rest =>
        have hc : f c = false := by simpa using hrest c rfl
        simp [hc]

section StringBody

variable {start p q : Position} {cs body text rest : List Char}

/-- What was read as the body of a string literal ends with the first quote that is not escaped. -/
theorem stringBody_ok (h : stringBody start p cs = .ok (text, q, rest)) :
    ∃ body, cs = body ++ '"' :: rest ∧ Decodes body text ∧ q = p.after (body ++ ['"']) := by
  fun_induction stringBody start p cs generalizing text with
  | case1 p => cases h
  | case2 p => cases h
  | case3 p e cs he => cases h
  | case4 p e cs c he ih =>
      -- an escape that stands for a character
      cases hmore : stringBody start ((p.next '\\').next e) cs with
      | error err => simp [hmore, bind, Except.bind] at h
      | ok more =>
          obtain ⟨text', q', rest'⟩ := more
          simp only [hmore, bind, Except.bind, pure, Except.pure] at h
          cases h
          obtain ⟨body, rfl, hbody, rfl⟩ := ih hmore
          exact ⟨'\\' :: e :: body, rfl, .escape he hbody, rfl⟩
  | case5 p c cs hlast hescape hends => cases h
  | case6 p cs hlast hescape hends =>
      -- the closing quote
      cases h
      exact ⟨[], rfl, .nil, rfl⟩
  | case7 p c cs hlast hescape hends hquote ih =>
      -- a character that stands for itself
      cases hmore : stringBody start (p.next c) cs with
      | error err => simp [hmore, bind, Except.bind] at h
      | ok more =>
          obtain ⟨text', q', rest'⟩ := more
          simp only [hmore, bind, Except.bind, pure, Except.pure] at h
          cases h
          obtain ⟨body, rfl, hbody, rfl⟩ := ih hmore
          refine ⟨c :: body, rfl, .plain ?_ hbody, rfl⟩
          have hbackslash : c ≠ '\\' := by
            rintro rfl
            cases body with
            | nil => exact hescape _ _ rfl rfl
            | cons e body => exact hescape _ _ rfl rfl
          simp_all

/-- A body and the quote behind it are read as the text that the body stands for. -/
theorem stringBody_of_decodes (hbody : Decodes body text) (start p : Position)
    (rest : List Char) : stringBody start p (body ++ '"' :: rest) =
      .ok (text, p.after (body ++ ['"']), rest) := by
  induction hbody generalizing p with
  | nil => simp [stringBody, nul]
  | @plain c body text hc _ ih =>
      simp only [List.mem_cons, List.not_mem_nil, or_false, not_or] at hc
      obtain ⟨hquote, hbackslash, hline, hnul⟩ := hc
      rw [List.cons_append, stringBody, if_neg (by simp [hline, hnul]), if_neg hquote]
      · simp only [ih]
        rfl
      · exact fun h => absurd h hbackslash
      · exact fun _ _ h => absurd h hbackslash
  | @escape e c body text he _ ih =>
      rw [List.cons_append, List.cons_append, stringBody, he]
      simp only [ih]
      rfl

/-- A string literal is read up to its closing quote, and gives the text that its body stands for. -/
theorem stringBody_eq_ok_iff : stringBody start p cs = .ok (text, q, rest) ↔
    ∃ body, cs = body ++ '"' :: rest ∧ Decodes body text ∧ q = p.after (body ++ ['"']) := by
  constructor
  · exact stringBody_ok
  · rintro ⟨body, rfl, hbody, rfl⟩
    exact stringBody_of_decodes hbody start p rest

end StringBody

section Number

variable {p start : Position} {lx lx' : Lexeme} {whole fraction rest cs : List Char}

/-- A number literal stands in front of no letter, and an integer literal fits into 64 bits. -/
theorem finishNumber_eq_ok_iff :
    finishNumber start lx = .ok lx' ↔
      lx' = lx ∧ (∀ c ∈ lx.rest.head?, ¬ isWordStart c) ∧
        (lx.kind = .int → ∃ n, Numeral.readInt (String.ofList lx.text) = .ok n ∧ n ≤ maxInt) := by
  have hrange : finishNumber.checkRange start lx = .ok lx' ↔
      lx' = lx ∧
        (lx.kind = .int → ∃ n, Numeral.readInt (String.ofList lx.text) = .ok n ∧ n ≤ maxInt) := by
    unfold finishNumber.checkRange
    split
    · next hkind =>
        split
        · next e hread => simp [hkind, hread]
        · next n hread =>
            split
            · next hlarge => simp [hkind, hread, hlarge]
            · next hsmall => simp [hkind, hread, Int.not_lt.mp hsmall, eq_comm]
    · next hkind =>
        rw [Except.ok.injEq]
        exact ⟨fun h => ⟨h.symm, fun hint => absurd hint hkind⟩, fun h => h.1.symm⟩
  unfold finishNumber
  split
  · next c cs hrest =>
      split
      · next hc => simp [hrest, hc]
      · next hc => simp [hrest, hc, hrange]
  · next hrest => simp [hrest, hrange]

/-- Digits that no point and no digit follow are an integer literal. -/
theorem number_int (hwhole : ∀ c ∈ whole, Text.isDigit c)
    (hrest : ∀ c ∈ rest.head?, c ≠ '.' ∧ ¬ Text.isDigit c) :
    number p (whole ++ rest) = finishNumber p ⟨.int, whole, p.after whole, rest⟩ := by
  have hspan := span_eq_iff.mpr ⟨rfl, hwhole, fun c hc => (hrest c hc).2⟩
  unfold number
  rw [hspan]
  cases rest with
  | nil => rfl
  | cons c rest =>
      dsimp only
      split
      · next heq =>
          cases heq
          exact absurd rfl (hrest '.' rfl).1
      · rfl

/-- Digits, a point and digits are a float literal. -/
theorem number_float (hwhole : ∀ c ∈ whole, Text.isDigit c) (hne : fraction ≠ [])
    (hfraction : ∀ c ∈ fraction, Text.isDigit c) (hrest : ∀ c ∈ rest.head?, ¬ Text.isDigit c) :
    number p (whole ++ ('.' :: fraction ++ rest)) =
      finishNumber p
        ⟨.float, whole ++ '.' :: fraction, p.after (whole ++ '.' :: fraction), rest⟩ := by
  have hspan : (whole ++ '.' :: (fraction ++ rest)).span Text.isDigit =
      (whole, '.' :: (fraction ++ rest)) :=
    span_eq_iff.mpr ⟨rfl, hwhole, by rintro _ ⟨⟩; decide⟩
  unfold number
  simp only [List.cons_append, hspan, span_eq_iff.mpr ⟨rfl, hfraction, hrest⟩]
  rw [if_neg (by simpa using hne), Position.after_append]

/-- A text that begins with a digit is split behind its leading digits. -/
theorem exists_span_isDigit {c : Char} (hc : Text.isDigit c) (cs : List Char) :
    ∃ whole rest, (c :: cs).span Text.isDigit = (whole, rest) ∧ c :: cs = whole ++ rest ∧
      whole ≠ [] ∧ (∀ d ∈ whole, Text.isDigit d) ∧ ∀ d ∈ rest.head?, ¬ Text.isDigit d := by
  obtain ⟨whole, rest, hspan⟩ : ∃ whole rest, (c :: cs).span Text.isDigit = (whole, rest) :=
    ⟨_, _, rfl⟩
  obtain ⟨hcs, hwhole, hrest⟩ := span_eq_iff.mp hspan
  refine ⟨whole, rest, hspan, hcs, ?_, hwhole, hrest⟩
  rintro rfl
  exact hrest c (by rw [← List.nil_append rest, ← hcs]; rfl) hc

/-- Where no point begins the rest, its first character is none. -/
theorem head?_ne_point (h : ∀ more, cs = '.' :: more → False) : ∀ d ∈ cs.head?, d ≠ '.' := by
  rintro d hd rfl
  obtain ⟨more, rfl⟩ := List.head?_eq_some_iff.mp hd
  exact h more rfl

/-- What was read as a number is a lexeme. -/
theorem number_ok {c : Char} (hc : Text.isDigit c) (h : number p (c :: cs) = .ok lx) :
    ∃ spelling, c :: cs = spelling ++ lx.rest ∧ lx.stop = p.after spelling ∧
      Lexes lx.kind lx.text spelling lx.rest := by
  obtain ⟨whole, rest, hspan, hcs, hne, hwhole, hrest⟩ := exists_span_isDigit hc cs
  unfold number at h
  simp only [hspan] at h
  split at h
  · next more =>
      obtain ⟨fraction, rest', hspan'⟩ :
          ∃ fraction rest', more.span Text.isDigit = (fraction, rest') := ⟨_, _, rfl⟩
      obtain ⟨rfl, hfraction, hrest'⟩ := span_eq_iff.mp hspan'
      simp only [hspan'] at h
      split at h
      · cases h
      · next hne' =>
          obtain ⟨rfl, hword, -⟩ := finishNumber_eq_ok_iff.mp h
          refine ⟨whole ++ '.' :: fraction, by simp [hcs], ?_, ?_⟩
          · exact (Position.after_append _ _ _).symm
          · exact .float hne hwhole (by simpa using hne') hfraction
              fun c hc => ⟨hrest' c hc, hword c hc⟩
  · next hpoint =>
      obtain ⟨rfl, hword, hint⟩ := finishNumber_eq_ok_iff.mp h
      obtain ⟨n, hread, hn⟩ := hint rfl
      exact ⟨whole, hcs, rfl, .int hne hwhole hread hn
        fun d hd => ⟨head?_ne_point hpoint d hd, hrest d hd, hword d hd⟩⟩

end Number

/-! ### Symbols -/

/-- No symbol begins with one that stands before it. -/
theorem symbols_pairwise : symbols.Pairwise fun s t => ¬ s.1 <+: t.1 := by decide

/-- The symbol that is found is the longest one that begins the rest of the source. -/
theorem symbol?_eq_some_iff {p : Position} {cs : List Char} {lx : Lexeme} :
    symbol? p cs = some lx ↔
      (lx.text, lx.kind) ∈ symbols ∧ cs = lx.text ++ lx.rest ∧ lx.stop = p.after lx.text ∧
        ∀ s ∈ symbols, s.1 <+: cs → s.1 <+: lx.text := by
  obtain ⟨kind, text, stop, rest⟩ := lx
  dsimp only
  unfold symbol?
  rw [Option.map_eq_some_iff]
  constructor
  · rintro ⟨⟨spelling, kind'⟩, hfind, heq⟩
    cases heq
    -- a symbol that also begins the text stands before or behind the one that was found: before it
    -- is refused, and behind it none can be longer
    obtain ⟨hbegin, before, behind, hsymbols, hbefore⟩ := List.find?_eq_some_iff_append.mp hfind
    replace hbegin := List.isPrefixOf_iff_prefix.mp hbegin
    refine ⟨List.mem_of_find?_eq_some hfind, (List.prefix_iff_eq_append.mp hbegin).symm, rfl, ?_⟩
    intro s hs hscs
    have hpair := symbols_pairwise
    rw [hsymbols] at hs hpair
    rw [List.mem_append, List.mem_cons] at hs
    rcases hs with hs | rfl | hs
    · have := hbefore s hs
      simp only [Bool.not_eq_true', ← Bool.not_eq_true, List.isPrefixOf_iff_prefix] at this
      exact absurd hscs this
    · exact List.prefix_refl _
    · have := (List.pairwise_cons.mp (List.pairwise_append.mp hpair).2.1).1 s hs
      have hcomparable := List.prefix_or_prefix_of_prefix hscs hbegin
      exact hcomparable.resolve_right this
  · rintro ⟨hmem, rfl, rfl, hlongest⟩
    obtain ⟨before, behind, hsymbols⟩ := List.append_of_mem hmem
    refine ⟨(text, kind), ?_, by simp⟩
    rw [List.find?_eq_some_iff_append]
    refine ⟨List.isPrefixOf_iff_prefix.mpr (List.prefix_append _ _), before, behind, hsymbols, ?_⟩
    intro s hs
    have hpair := symbols_pairwise
    rw [hsymbols] at hpair
    have hapart := (List.pairwise_append.mp hpair).2.2 s hs _ List.mem_cons_self
    simp only [Bool.not_eq_true', ← Bool.not_eq_true, List.isPrefixOf_iff_prefix]
    exact fun hscs => hapart (hlongest s (by rw [hsymbols]; simp [hs]) hscs)

/-! ### All lexemes -/

theorem keywords_kind : ∀ w ∈ keywords, w.2 ≠ .int ∧ w.2 ≠ .string := by decide

theorem symbols_kind : ∀ s ∈ symbols, s.2 ≠ .int ∧ s.2 ≠ .string := by decide

/-- A word has the kind of the keyword that it is, or else is a name. -/
theorem wordKind_mem (word : String) :
    (word, wordKind word) ∈ keywords ∨ wordKind word = .ident := by
  unfold wordKind
  cases h : keywords.lookup word with
  | none => exact Or.inr rfl
  | some kind =>
      obtain ⟨l₁, l₂, heq, -⟩ := List.lookup_eq_some_iff.mp h
      rw [Option.getD_some]
      exact Or.inl (by rw [heq]; simp)

/-- No symbol begins as another lexeme does. -/
theorem symbols_begin : ∀ s ∈ symbols, s.1 ≠ [] ∧
    ∀ c ∈ s.1.head?, ¬ isWordStart c ∧ ¬ Text.isDigit c ∧ c ≠ '"' := by
  have hall : symbols.all (fun s => s.1 != [] &&
      s.1.head?.all fun c => !isWordStart c && !Text.isDigit c && c != '"') = true := by
    decide +kernel
  simpa [and_assoc, Option.all_eq_true] using hall

/-- A digit begins no word. -/
theorem not_isWordStart_of_isDigit {c : Char} (h : Text.isDigit c) : ¬ isWordStart c := by
  have hline : c ≠ '_' := by
    rintro rfl
    exact absurd h (by decide)
  simp [isWordStart, Text.isLetter_eq_false_of_isDigit h, hline]

/-- What was read as a lexeme is one. -/
theorem lexeme_ok {p : Position} {c : Char} {cs : List Char} {lx : Lexeme}
    (h : lexeme p c cs = .ok lx) :
    ∃ spelling, c :: cs = spelling ++ lx.rest ∧ lx.stop = p.after spelling ∧
      Lexes lx.kind lx.text spelling lx.rest := by
  unfold lexeme at h
  split at h
  · next hword =>
      obtain ⟨more, rest, hspan⟩ : ∃ more rest, cs.span isWordChar = (more, rest) := ⟨_, _, rfl⟩
      obtain ⟨rfl, hmore, hrest⟩ := span_eq_iff.mp hspan
      simp only [hspan] at h
      cases h
      exact ⟨c :: more, rfl, rfl, .word hword hmore hrest⟩
  · split at h
    · next hdigit => exact number_ok hdigit h
    · split at h
      · next hquote =>
          subst hquote
          split at h
          · next text q rest hbody =>
              cases h
              obtain ⟨body, rfl, hdecodes, rfl⟩ := stringBody_eq_ok_iff.mp hbody
              exact ⟨'"' :: (body ++ ['"']), by simp, rfl, .string hdecodes⟩
          · cases h
      · split at h
        · next lx' hsymbol =>
            cases h
            obtain ⟨hmem, hcs, hstop, hlongest⟩ := symbol?_eq_some_iff.mp hsymbol
            rw [hcs] at hlongest
            exact ⟨lx.text, hcs, hstop, .symbol hmem hlongest⟩
        · split at h
          · cases h
          · split at h <;> cases h

/-- A lexeme is read as what it is. -/
theorem Lexes.lexeme_eq {kind : TokenKind} {text spelling rest : List Char}
    (h : Lexes kind text spelling rest) (p : Position) :
    ∃ c cs, spelling = c :: cs ∧
      lexeme p c (cs ++ rest) = .ok ⟨kind, text, p.after spelling, rest⟩ := by
  -- a lexeme is tried as a word, a number, a string literal and a symbol, in this order, and the
  -- first character tells which of them it is
  cases h with
  | @word c cs rest hc hcs hrest =>
      refine ⟨c, cs, rfl, ?_⟩
      unfold lexeme
      rw [if_pos hc, span_eq_iff.mpr ⟨rfl, hcs, hrest⟩]
  | @int cs rest n hne hcs hread hn hrest =>
      obtain ⟨c, cs, rfl⟩ := List.exists_cons_of_ne_nil hne
      have hc := hcs c List.mem_cons_self
      refine ⟨c, cs, rfl, ?_⟩
      unfold lexeme
      rw [if_neg (not_isWordStart_of_isDigit hc), if_pos hc, ← List.cons_append,
        number_int hcs fun d hd => ⟨(hrest d hd).1, (hrest d hd).2.1⟩, finishNumber_eq_ok_iff]
      exact ⟨rfl, fun d hd => (hrest d hd).2.2, fun _ => ⟨n, hread, hn⟩⟩
  | @float whole fraction rest hne hwhole hne' hfraction hrest =>
      obtain ⟨c, cs, rfl⟩ := List.exists_cons_of_ne_nil hne
      have hc := hwhole c List.mem_cons_self
      refine ⟨c, cs ++ '.' :: fraction, rfl, ?_⟩
      unfold lexeme
      rw [if_neg (not_isWordStart_of_isDigit hc), if_pos hc, List.append_assoc, ← List.cons_append,
        number_float hwhole hne' hfraction fun d hd => (hrest d hd).1,
        finishNumber_eq_ok_iff]
      exact ⟨rfl, fun d hd => (hrest d hd).2, nofun⟩
  | @string body text rest hbody =>
      refine ⟨'"', body ++ ['"'], rfl, ?_⟩
      unfold lexeme
      have hread : stringBody p (p.next '"') (body ++ ['"'] ++ rest) =
          .ok (text, (p.next '"').after (body ++ ['"']), rest) :=
        stringBody_eq_ok_iff.mpr ⟨body, by simp, hbody, rfl⟩
      rw [if_neg (by decide), if_neg (by decide), if_pos rfl, hread]
      rfl
  | @symbol kind spelling rest hmem hlongest =>
      obtain ⟨hne, hbegin⟩ := symbols_begin _ hmem
      obtain ⟨c, cs, rfl⟩ := List.exists_cons_of_ne_nil hne
      obtain ⟨hword, hdigit, hquote⟩ := hbegin c rfl
      refine ⟨c, cs, rfl, ?_⟩
      have hread : symbol? p (c :: (cs ++ rest)) = some ⟨kind, c :: cs, p.after (c :: cs), rest⟩ :=
        symbol?_eq_some_iff.mpr ⟨hmem, rfl, rfl, hlongest⟩
      unfold lexeme
      rw [if_neg hword, if_neg hdigit, if_neg hquote, hread]

/-! ## The scan -/

/-- What was read as a lexeme is one that begins with the character it was tried at. -/
theorem exists_of_lexeme_ok {p : Position} {c : Char} {cs : List Char} {lx : Lexeme}
    (h : lexeme p c cs = .ok lx) :
    ∃ ds, cs = ds ++ lx.rest ∧ lx.stop = p.after (c :: ds) ∧
      Lexes lx.kind lx.text (c :: ds) lx.rest := by
  obtain ⟨spelling, hcs, hstop, hlexes⟩ := lexeme_ok h
  obtain ⟨d, ds, rfl, -⟩ := hlexes.lexeme_eq p
  obtain ⟨rfl, rfl⟩ : c = d ∧ cs = ds ++ lx.rest := by simpa using hcs
  exact ⟨ds, rfl, hstop, hlexes⟩

/-- A scan that succeeds has come to the end of the text, or has read a lexeme and goes on behind
it. -/
theorem scanFrom_succ_ok {fuel : Nat} {p : Position} {cs : List Char} {tokens : List Token}
    (h : scanFrom (fuel + 1) p cs = .ok tokens) :
    (∃ q, skipTrivia p .between cs = .ok (q, []) ∧ tokens = [⟨.eof, "", q⟩]) ∨
      ∃ q c cs' lx more, skipTrivia p .between cs = .ok (q, c :: cs') ∧ lexeme q c cs' = .ok lx ∧
        scanFrom fuel lx.stop lx.rest = .ok more ∧
        tokens = ⟨lx.kind, String.ofList lx.text, q⟩ :: more := by
  rw [scanFrom] at h
  split at h
  · cases h
  · next q hskip =>
      cases h
      exact Or.inl ⟨q, hskip, rfl⟩
  · next q c cs' hskip =>
      cases hlx : lexeme q c cs' with
      | error e => simp [hlx, bind, Except.bind] at h
      | ok lx =>
          cases hmore : scanFrom fuel lx.stop lx.rest with
          | error e => simp [hlx, hmore, bind, Except.bind] at h
          | ok more =>
              simp only [hlx, hmore, bind, Except.bind, pure, Except.pure] at h
              cases h
              exact Or.inr ⟨q, c, cs', lx, more, hskip, hlx, hmore, rfl⟩

end Token

end Pigeon

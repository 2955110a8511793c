import Mathlib.Algebra.Group.Nat.Defs
import Mathlib.Data.List.Basic
import Pigeon.Text.Quoted

/-!
# Quoted text is read back

A character can be read back from what is written for it between quotes, whatever follows. So a
quoted text determines both the text and where it ends (`Text.quoteChars_append_inj`).
-/

namespace Pigeon.Text

/-! ## Hexadecimal numbers -/

/-- The value of a hexadecimal digit. -/
def hexValue (c : Char) : Nat :=
  if c.toNat < 58 then c.toNat - 48 else c.toNat - 87

/-- The number that hexadecimal digits stand for. -/
def ofHex (cs : List Char) : Nat :=
  cs.foldl (fun n c => 16 * n + hexValue c) 0

/-- The character of a hexadecimal digit has its value. -/
theorem hexValue_digitChar : ∀ d < 16, hexValue (Nat.digitChar d) = d := by decide

/-- Hexadecimal digits are read as the number that they were made of. -/
theorem ofHex_toDigits (n : Nat) : ofHex (Nat.toDigits 16 n) = n := by
  induction n using Nat.strongRecOn with
  | _ n ih =>
      rw [Nat.toDigits_eq_if (by decide)]
      split
      · next h => simpa [ofHex] using hexValue_digitChar n h
      · next h =>
          have hmore := ih (n / 16) (by omega)
          rw [ofHex] at hmore ⊢
          rw [List.foldl_append, hmore, List.foldl_cons, List.foldl_nil,
            hexValue_digitChar _ (by omega)]
          omega

/-- The digits of a number are characters of hexadecimal digits. -/
theorem mem_toDigits {n : Nat} {c : Char} (h : c ∈ Nat.toDigits 16 n) :
    ∃ d < 16, c = Nat.digitChar d := by
  induction n using Nat.strongRecOn with
  | _ n ih =>
      rw [Nat.toDigits_eq_if (by decide)] at h
      split at h
      · next hn => exact ⟨n, hn, List.mem_singleton.mp h⟩
      · next hn =>
          rcases List.mem_append.mp h with h | h
          · exact ih (n / 16) (by omega) h
          · exact ⟨n % 16, by omega, List.mem_singleton.mp h⟩

/-- Zeros in front do not count. -/
theorem ofHex_hexDigits (width n : Nat) : ofHex (hexDigits width n) = n := by
  have hzeros : ∀ k : Nat, ofHex (List.replicate k '0' ++ Nat.toDigits 16 n) = n := by
    intro k
    induction k with
    | zero => exact ofHex_toDigits n
    | succ k ih =>
        rw [List.replicate_succ, List.cons_append, ofHex, List.foldl_cons]
        exact ih
  exact hzeros _

/-- A number below a power of sixteen is written with as many digits as the power says. -/
theorem length_hexDigits {width n : Nat} (hwidth : 0 < width) (h : n < 16 ^ width) :
    (hexDigits width n).length = width := by
  have hle := (Nat.length_toDigits_le_iff (b := 16) (by decide) hwidth).mpr h
  simp only [hexDigits, List.length_append, List.length_replicate]
  omega

/-! ## Reading escapes -/

/-- The character with a code point of the given number of hexadecimal digits, and what follows. -/
def readCode (width : Nat) (cs : List Char) : Char × List Char :=
  (Char.ofNat (ofHex (cs.take width)), cs.drop width)

/-- The first character of what is written between quotes, and what follows it. -/
def readChar : List Char → Option (Char × List Char)
  | [] | ['\\'] => none
  | '\\' :: 'n' :: cs => some ('\n', cs)
  | '\\' :: 'r' :: cs => some ('\r', cs)
  | '\\' :: 't' :: cs => some ('\t', cs)
  | '\\' :: 'x' :: cs => some (readCode 2 cs)
  | '\\' :: 'u' :: cs => some (readCode 4 cs)
  | '\\' :: 'U' :: cs => some (readCode 8 cs)
  | '\\' :: c :: cs => some (c, cs)
  | c :: cs => some (c, cs)

/-- A code of a fixed width is read back, and the rest is left. -/
theorem readCode_hexDigits {width : Nat} (hwidth : 0 < width) {c : Char} (h : c.toNat < 16 ^ width)
    (rest : List Char) : readCode width (hexDigits width c.toNat ++ rest) = (c, rest) := by
  have hlength := length_hexDigits hwidth h
  rw [readCode, List.take_left' hlength, List.drop_left' hlength, ofHex_hexDigits, Char.ofNat_toNat]

/-- An escape of a code point is read back as its character. -/
theorem readChar_codePointEscape (c : Char) (rest : List Char) :
    readChar (codePointEscape c.toNat ++ rest) = some (c, rest) := by
  unfold codePointEscape
  split
  · next h => exact congrArg some (readCode_hexDigits (by decide) h rest)
  · split
    · next h => exact congrArg some (readCode_hexDigits (by decide) h rest)
    · have hmax : c.toNat < 16 ^ 8 := by
        have hvalid := c.valid
        simp only [UInt32.isValidChar, Nat.isValidChar] at hvalid
        have hval : c.toNat = c.val.toNat := rfl
        omega
      exact congrArg some (readCode_hexDigits (by decide) hmax rest)

/-- A character is read back from what is written for it. -/
theorem readChar_escapeChar {quote : Char} (hquote : quote ∈ ['\'', '"']) (c : Char)
    (rest : List Char) : readChar (escapeChar quote c ++ rest) = some (c, rest) := by
  unfold escapeChar
  split
  · next h =>
      have hc : c ∈ ['\'', '"', '\\'] := by
        rcases (by simpa using h : c = quote ∨ c = '\\') with rfl | rfl
        · exact List.mem_append_left ['\\'] hquote
        · decide
      simp only [List.mem_cons, List.not_mem_nil, or_false] at hc
      rcases hc with rfl | rfl | rfl <;> rfl
  · next h =>
      obtain ⟨-, hbackslash⟩ : c ≠ quote ∧ c ≠ '\\' := by simpa using h
      split
      · next hc => rw [hc]; rfl
      · split
        · next hc => rw [hc]; rfl
        · split
          · next hc => rw [hc]; rfl
          · split
            · rw [List.cons_append, List.nil_append, readChar]
              all_goals simp [hbackslash]
            · exact readChar_codePointEscape c rest

/-- An escape begins with a backslash and stays on its line. -/
theorem codePointEscape_cases (n : Nat) :
    ∃ ds, '\n' ∉ ds ∧ codePointEscape n = '\\' :: ds := by
  have hdigits : ∀ width, '\n' ∉ hexDigits width n := by
    intro width h
    rcases List.mem_append.mp h with h | h
    · exact absurd (List.eq_of_mem_replicate h) (by decide)
    · obtain ⟨d, hd, heq⟩ := mem_toDigits h
      have hne : ∀ d < 16, '\n' ≠ Nat.digitChar d := by decide
      exact hne d hd heq
  unfold codePointEscape
  split
  · exact ⟨_, List.not_mem_cons_of_ne_of_not_mem (by decide) (hdigits 2), rfl⟩
  · split
    · exact ⟨_, List.not_mem_cons_of_ne_of_not_mem (by decide) (hdigits 4), rfl⟩
    · exact ⟨_, List.not_mem_cons_of_ne_of_not_mem (by decide) (hdigits 8), rfl⟩

/-- A character is written as it is, or behind a backslash. A line feed is not written. -/
theorem escapeChar_cases {quote : Char} (hquote : quote ∈ ['\'', '"']) (c : Char) :
    (c ≠ quote ∧ c ≠ '\n' ∧ escapeChar quote c = [c]) ∨
      ∃ ds, '\n' ∉ ds ∧ escapeChar quote c = '\\' :: ds := by
  unfold escapeChar
  split
  · next h =>
      refine .inr ⟨[c], ?_, rfl⟩
      rintro (_ | ⟨_, ⟨⟩⟩)
      rcases (by simpa using h : '\n' = quote ∨ '\n' = '\\') with rfl | h
      · exact absurd hquote (by decide)
      · exact absurd h (by decide)
  · next h =>
      obtain ⟨hne, -⟩ : c ≠ quote ∧ c ≠ '\\' := by simpa using h
      split
      · exact .inr ⟨_, by decide, rfl⟩
      · next hline =>
          split
          · exact .inr ⟨_, by decide, rfl⟩
          · split
            · exact .inr ⟨_, by decide, rfl⟩
            · split
              · exact .inl ⟨hne, hline, rfl⟩
              · exact .inr (codePointEscape_cases c.toNat)

/-! ## Quoted text -/

/-- A text is put between quotes of one of the two kinds. -/
theorem quoteFor_mem (cs : List Char) : quoteFor cs ∈ ['\'', '"'] := by
  unfold quoteFor
  split <;> decide

/-- A quoted text is written in one line. -/
theorem newline_not_mem_quoteChars (cs : List Char) : '\n' ∉ quoteChars cs := by
  have hquote := quoteFor_mem cs
  have hne : '\n' ≠ quoteFor cs := by
    intro h
    rw [← h] at hquote
    exact absurd hquote (by decide)
  simp only [quoteChars, List.mem_append, List.mem_cons, List.mem_flatMap, List.not_mem_nil,
    or_false]
  rintro ((h | ⟨c, -, hc⟩) | h)
  · exact hne h
  · rcases escapeChar_cases hquote c with ⟨-, hline, heq⟩ | ⟨ds, hds, heq⟩
    · rw [heq] at hc
      exact hline (List.mem_singleton.mp hc).symm
    · rw [heq] at hc
      rcases List.mem_cons.mp hc with h | h
      · exact absurd h (by decide)
      · exact hds h
  · exact hne h

/-- Where a quoted text ends can be seen from its characters, since a quote in it is escaped. -/
theorem flatMap_escapeChar_append_inj {quote : Char} (hquote : quote ∈ ['\'', '"'])
    {cs cs' r r' : List Char}
    (h : cs.flatMap (escapeChar quote) ++ quote :: r =
      cs'.flatMap (escapeChar quote) ++ quote :: r') : cs = cs' ∧ r = r' := by
  -- no character is written with the quote in front, at which the text ends
  have hhead : ∀ (c : Char) (x y : List Char), quote :: x ≠ escapeChar quote c ++ y := by
    intro c x y h
    rcases escapeChar_cases hquote c with ⟨hne, -, heq⟩ | ⟨ds, -, heq⟩
    · rw [heq] at h
      exact hne (List.cons.inj h).1.symm
    · rw [heq] at h
      rw [(List.cons.inj h).1] at hquote
      exact absurd hquote (by decide)
  induction cs generalizing cs' with
  | nil =>
      cases cs' with
      | nil => exact ⟨rfl, (List.cons.inj h).2⟩
      | cons c' cs' =>
          rw [List.flatMap_cons, List.append_assoc] at h
          exact absurd h (hhead c' _ _)
  | cons c cs ih =>
      cases cs' with
      | nil =>
          rw [List.flatMap_cons, List.append_assoc] at h
          exact absurd h.symm (hhead c _ _)
      | cons c' cs' =>
          have hread := congrArg readChar h
          rw [List.flatMap_cons, List.append_assoc, List.flatMap_cons, List.append_assoc,
            readChar_escapeChar hquote, readChar_escapeChar hquote] at hread
          obtain ⟨rfl, hrest⟩ := Prod.mk.inj (Option.some.inj hread)
          obtain ⟨rfl, hr⟩ := ih hrest
          exact ⟨rfl, hr⟩

/-- A quoted text determines the text, and where it ends. -/
theorem quoteChars_append_inj {cs cs' r r' : List Char}
    (h : quoteChars cs ++ r = quoteChars cs' ++ r') : cs = cs' ∧ r = r' := by
  simp only [quoteChars, List.cons_append, List.append_assoc, List.nil_append] at h
  obtain ⟨hquote, hbody⟩ := List.cons.inj h
  rw [← hquote] at hbody
  exact flatMap_escapeChar_append_inj (quoteFor_mem cs) hbody

end Pigeon.Text

import Mathlib.Data.Bool.AllAny
import Pigeon.Text.Blank
import Pigeon.Value

/-!
# Texts of numbers

Integers are written with digits and at most a minus sign, floats with few more characters. None of
them is blank, a bracket or a separator, so the text of a number ends where such a character stands.
-/

namespace Pigeon

namespace Text

/-- The characters that numbers are written with. -/
def numberChars : List Char := "0123456789-+.einfa".toList

/-- No character of a numeral is blank. -/
theorem not_isBlank_of_mem_numberChars : ∀ c ∈ numberChars, isBlank c = false :=
  List.all_iff_forall_prop.mp (by decide)

/-- Digits are characters of numerals. -/
theorem mem_numberChars_of_isDigit {c : Char} (h : c.isDigit) : c ∈ numberChars := by
  have hall : ∀ n < 58, 48 ≤ n → Char.ofNat n ∈ numberChars := by decide
  have hbounds : 48 ≤ c.toNat ∧ c.toNat ≤ 57 := by
    simpa [Char.isDigit, UInt32.le_iff_toNat_le] using h
  rw [← Char.ofNat_toNat c]
  exact hall _ (by omega) hbounds.1

theorem toDigits_subset (n : Nat) : Nat.toDigits 10 n ⊆ numberChars := fun _ hc =>
  mem_numberChars_of_isDigit (Nat.isDigit_of_mem_toDigits (by decide) (by decide) hc)

theorem replicate_zero_subset (n : Nat) : List.replicate n '0' ⊆ numberChars := by
  intro c hc
  rw [List.eq_of_mem_replicate hc]
  decide

/-- The characters of an integer: its digits, behind a minus sign if it is negative. -/
theorem toList_toString (n : Int) :
    (toString n).toList = (if n < 0 then ['-'] else []) ++ Nat.toDigits 10 n.natAbs := by
  rw [Int.toString_eq_repr, Int.repr_eq_if]
  by_cases h : 0 ≤ n
  · rw [if_pos h, if_neg (by omega), Nat.toList_repr, List.nil_append,
      show n.toNat = n.natAbs by omega]
  · rw [if_neg h, if_pos (by omega), String.toList_append, Nat.toList_repr,
      show (-n).toNat = n.natAbs by omega]
    rfl

/-- A text of characters that satisfy `p` is determined, and also what follows it, if this begins with
another character. -/
theorem append_inj_of {p : Char → Bool} {u u' r r' : List Char} (hu : ∀ c ∈ u, p c = true)
    (hu' : ∀ c ∈ u', p c = true) (hr : ∀ c ∈ r.head?, p c = false)
    (hr' : ∀ c ∈ r'.head?, p c = false) (h : u ++ r = u' ++ r') : u = u' ∧ r = r' := by
  have htake : ∀ {u r : List Char}, (∀ c ∈ u, p c = true) → (∀ c ∈ r.head?, p c = false) →
      (u ++ r).takeWhile p = u := by
    intro u r hu hr
    rw [List.takeWhile_append_of_pos hu]
    cases r with
    | nil => exact List.append_nil u
    | cons c r => rw [List.takeWhile_cons_of_neg (by simp [hr c rfl]), List.append_nil]
  obtain rfl : u = u' := by rw [← htake hu hr, h, htake hu' hr']
  exact ⟨rfl, List.append_cancel_left h⟩

/-- The digits of a number determine it. -/
theorem toDigits_inj {m n : Nat} (h : Nat.toDigits 10 m = Nat.toDigits 10 n) : m = n := by
  rw [← Nat.ofDigitChars_ten_toDigits (n := m), h, Nat.ofDigitChars_ten_toDigits]

/-- The text of an integer determines it, and also where the text ends, unless a digit follows. -/
theorem toString_append_inj {m n : Int} {r r' : List Char} (hr : ∀ c ∈ r.head?, c.isDigit = false)
    (hr' : ∀ c ∈ r'.head?, c.isDigit = false)
    (h : (toString m).toList ++ r = (toString n).toList ++ r') : m = n ∧ r = r' := by
  have hdigits : ∀ k : Nat, ∀ c ∈ Nat.toDigits 10 k, c.isDigit = true := fun k c hc =>
    Nat.isDigit_of_mem_toDigits (by decide) (by decide) hc
  -- a minus sign is no digit
  have hsign : ∀ (k : Nat) (x y : List Char), Nat.toDigits 10 k ++ x ≠ '-' :: y := by
    intro k x y heq
    obtain ⟨d, ds, hds⟩ := List.exists_cons_of_ne_nil (Nat.toDigits_ne_nil (n := k) (b := 10))
    have hd := hdigits k d (by rw [hds]; exact List.mem_cons_self)
    rw [hds] at heq
    obtain ⟨rfl, -⟩ := List.cons.inj heq
    exact absurd hd (by decide)
  rw [toList_toString, toList_toString, List.append_assoc, List.append_assoc] at h
  by_cases hm : m < 0 <;> by_cases hn : n < 0
  · rw [if_pos hm, if_pos hn] at h
    obtain ⟨heq, rfl⟩ := append_inj_of (hdigits _) (hdigits _) hr hr' (List.append_cancel_left h)
    have habs := toDigits_inj heq
    exact ⟨by omega, rfl⟩
  · rw [if_pos hm, if_neg hn] at h
    exact absurd h.symm (hsign _ _ _)
  · rw [if_neg hm, if_pos hn] at h
    exact absurd h (hsign _ _ _)
  · rw [if_neg hm, if_neg hn] at h
    obtain ⟨heq, rfl⟩ := append_inj_of (hdigits _) (hdigits _) hr hr' h
    have habs := toDigits_inj heq
    exact ⟨by omega, rfl⟩

/-- The text of an integer determines it. -/
theorem toString_inj {m n : Int} (h : toString m = toString n) : m = n := by
  have hend : ∀ c ∈ ([] : List Char).head?, c.isDigit = false := nofun
  exact (toString_append_inj (r := []) hend hend (by rw [h])).1

/-- An integer is written with the characters of numbers. -/
theorem toString_subset (n : Int) : (toString n).toList ⊆ numberChars := by
  rw [toList_toString, List.append_subset]
  refine ⟨?_, toDigits_subset _⟩
  split <;> decide

end Text

namespace Decimal

open Text

variable {digits : List Char} {e : Int}

/-- Dropping zeros adds no digit. -/
theorem dropTrailingZeros_subset : dropTrailingZeros digits ⊆ digits := by
  intro c hc
  have hmem : c ∈ digits.reverse.dropWhile (· = '0') := List.mem_reverse.mp hc
  exact List.mem_reverse.mp (List.dropWhile_subset _ hmem)

/-- An exponent is written with characters of numerals. -/
theorem Layout.exponentText_subset (l : Layout) (e : Int) : l.exponentText e ⊆ numberChars := by
  have hsign : (if e < 0 then '-' else '+') ∈ numberChars := by split <;> decide
  simp only [exponentText, List.cons_subset, List.append_subset]
  exact ⟨by decide, hsign, replicate_zero_subset _, toDigits_subset _⟩

/-- Positional notation adds zeros and a point to the digits. -/
theorem positional_subset (h : digits ⊆ numberChars) : positional digits e ⊆ numberChars := by
  unfold positional
  by_cases he : e < 0
  · rw [if_pos he]
    simp only [List.cons_subset, List.append_subset]
    exact ⟨by decide, by decide, replicate_zero_subset _, h⟩
  · rw [if_neg he]
    dsimp only
    split
    · simp only [List.append_subset]
      exact ⟨⟨h, replicate_zero_subset _⟩, by decide⟩
    · simp only [List.cons_subset, List.append_subset]
      exact ⟨List.Subset.trans (List.take_subset _ _) h, by decide,
        List.Subset.trans (List.drop_subset _ _) h⟩

/-- Scientific notation adds a point and an exponent to the digits. -/
theorem Layout.scientific_subset (l : Layout) (h : digits ⊆ numberChars) :
    l.scientific digits e ⊆ numberChars := by
  unfold scientific
  split
  · exact l.exponentText_subset e
  · exact List.cons_subset.mpr ⟨h List.mem_cons_self, l.exponentText_subset e⟩
  · obtain ⟨hfirst, hmore⟩ := List.cons_subset.mp h
    simp only [List.cons_append, List.cons_subset, List.append_subset]
    exact ⟨hfirst, by decide, hmore, l.exponentText_subset e⟩

/-- A decimal is written with characters of numerals, in either notation. -/
theorem Layout.write_subset (l : Layout) (d : Decimal) : l.write d ⊆ numberChars := by
  have hdigits : dropTrailingZeros (Nat.toDigits 10 d.digits) ⊆ numberChars :=
    List.Subset.trans dropTrailingZeros_subset (toDigits_subset _)
  unfold write
  dsimp only
  split
  · exact positional_subset hdigits
  · exact l.scientific_subset hdigits

/-- A float is written with the characters of numbers. -/
theorem Layout.text_subset (l : Layout) (x : Float) : (l.text x).toList ⊆ numberChars := by
  have hsign (b : Bool) : (if b then ['-'] else []) ⊆ numberChars := by cases b <;> decide
  rw [Layout.text, String.toList_ofList, Layout.writeBits]
  dsimp only
  split
  · split
    · exact List.append_subset.mpr ⟨hsign _, by decide⟩
    · decide
  · split
    · exact List.append_subset.mpr ⟨hsign _, by decide⟩
    · exact List.append_subset.mpr ⟨hsign _, l.write_subset _⟩

end Decimal

end Pigeon

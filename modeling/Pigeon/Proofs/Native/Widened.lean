import Mathlib
import Pigeon.Value

/-!
# Integers as floats

The float nearest to an integer is infinite if and only if the integer is half a step or more
beyond the largest finite float, that is `2 ^ 1024 - 2 ^ 970` or more (`Payload.widen?_eq`). The
proof follows the rounding of a mantissa: the bits that do not fit are dropped, and the mantissa
gets one bit too long only if all bits that fit and the next one are set. An integer of 53 bits or
less is converted through a word and multiplied by one; there the sizes of mantissa and exponent
suffice.
-/

namespace Pigeon

namespace Binary64

open Float.Model Float.Model.UnpackedFloat

/-! ## Shifting and rounding -/

/-- Shifting a mantissa to the right divides it. -/
theorem mantissa_shiftRight (em : ExtendedMantissa) (k : Nat) :
    (em >>> k).mantissa = em.mantissa / 2 ^ k := by
  induction k with
  | zero => exact (Nat.div_one _).symm
  | succ k ih =>
      have hstep : (em >>> (k + 1)).mantissa = (em >>> k).mantissa / 2 := rfl
      rw [hstep, ih, Nat.div_div_eq_div_mul, Nat.pow_succ]

/-- The round bit after a shift is the last one that was shifted out. -/
theorem roundBit_shiftRight (em : ExtendedMantissa) (k : Nat) :
    (em >>> (k + 1)).roundBit = (em.mantissa / 2 ^ k % 2 != 0) := by
  rw [← mantissa_shiftRight]
  rfl

/-- A mantissa stays as it is or is rounded up. Only a mantissa with a round bit is rounded up, and
an odd one always is. -/
theorem roundedMantissa_cases (em : ExtendedMantissa) :
    (em.roundedMantissa = em.mantissa ∧ (em.mantissa % 2 = 1 → em.roundBit = false)) ∨
      (em.roundedMantissa = em.mantissa + 1 ∧ em.roundBit = true) := by
  obtain ⟨m, r, s⟩ := em
  cases r <;> cases s <;>
    simp only [ExtendedMantissa.roundedMantissa, ExtendedMantissa.accuracy,
      Accuracy.roundToNearestEven]
  all_goals grind

/-- The number of bits of a mantissa that do not fit. -/
def excess (m : Nat) (e : Int) : Nat :=
  (Format.binary64.targetExponent (totalExponent m e) - e).toNat

/-- The mantissa without the bits that do not fit. -/
def fitted (m : Nat) (e : Int) : ExtendedMantissa :=
  (⟨m, false, false⟩ : ExtendedMantissa) >>> excess m e

/-- One if rounding the mantissa makes it too long, and zero otherwise. -/
def carry (m : Nat) (e : Int) : Nat :=
  if (fitted m e).roundedMantissa = 2 ^ 53 then 1 else 0

/-- After the excess bits are gone the mantissa has at most 53 bits, and the exponent is not below
that of the smallest number. -/
theorem excess_bounds (m : Nat) (e : Int) :
    m.log2 ≤ 52 + excess m e ∧ -1074 ≤ e + excess m e := by
  simp only [excess, Format.targetExponent, totalExponent, Format.mantissaBits, Format.minExponent]
  norm_num
  omega

/-- A number below `2 ^ 53` has at most 53 bits. -/
theorem log2_le_of_lt {m : Nat} (hm : m < 2 ^ 53) : m.log2 ≤ 52 := by
  rcases Nat.eq_zero_or_pos m with rfl | hpos
  · decide
  · exact Nat.le_of_lt_succ ((Nat.log2_lt hpos.ne').mpr hm)

/-- A mantissa of 53 bits fits. -/
theorem excess_eq_zero {m : Nat} {e : Int} (hm : m < 2 ^ 53) (he : -1074 ≤ e) :
    excess m e = 0 := by
  have hlog := log2_le_of_lt hm
  simp only [excess, Format.targetExponent, totalExponent, Format.mantissaBits, Format.minExponent]
  norm_num
  omega

/-- A mantissa that rounding has carried to `2 ^ 53` has one bit too many. -/
theorem excess_two_pow {e : Int} (he : -1074 ≤ e) : excess (2 ^ 53) e = 1 := by
  simp only [excess, Format.targetExponent, totalExponent, Format.mantissaBits, Format.minExponent,
    Nat.log2_two_pow]
  norm_num
  omega

/-- Fitting a mantissa divides it by the power of two of its excess. -/
theorem mantissa_fitted (m : Nat) (e : Int) : (fitted m e).mantissa = m / 2 ^ excess m e :=
  mantissa_shiftRight _ _

/-- A fitted mantissa has at most 53 bits. -/
theorem mantissa_fitted_lt (m : Nat) (e : Int) : (fitted m e).mantissa < 2 ^ 53 := by
  rw [mantissa_fitted, Nat.div_lt_iff_lt_mul (Nat.two_pow_pos _), ← Nat.pow_add]
  refine lt_of_lt_of_le Nat.lt_log2_self (Nat.pow_le_pow_right (by decide) ?_)
  have hlog := (excess_bounds m e).1
  omega

/-- Rounding carries one at most. -/
theorem carry_le (m : Nat) (e : Int) : carry m e ≤ 1 := by
  unfold carry
  split <;> decide

/-- Rounding makes a mantissa too long if all of its bits that fit and the next one are set. -/
theorem carry_eq_one_iff {m k : Nat} {e : Int} (h : excess m e = k + 1) :
    carry m e = 1 ↔ 2 ^ 54 - 1 ≤ m / 2 ^ k := by
  have hmantissa : (fitted m e).mantissa = m / 2 ^ k / 2 := by
    rw [mantissa_fitted, h, Nat.pow_succ, Nat.div_div_eq_div_mul]
  have hround : (fitted m e).roundBit = (m / 2 ^ k % 2 != 0) := by
    rw [fitted, h, roundBit_shiftRight]
  have hlt := mantissa_fitted_lt m e
  have hcarry : carry m e = 1 ↔ (fitted m e).roundedMantissa = 2 ^ 53 := by
    unfold carry
    split <;> simp_all
  rw [hcarry]
  rw [hmantissa] at hlt
  rcases roundedMantissa_cases (fitted m e) with ⟨heq, hodd⟩ | ⟨heq, hbit⟩
  · rw [heq, hmantissa]
    rw [hmantissa, hround, bne_eq_false_iff_eq] at hodd
    omega
  · rw [heq, hmantissa]
    rw [hround, bne_iff_ne] at hbit
    omega

/-- Only a rounded mantissa that is too long does not fit. -/
theorem excess_roundedMantissa (m : Nat) (e : Int) :
    excess (fitted m e).roundedMantissa (e + excess m e) = carry m e := by
  have he := (excess_bounds m e).2
  have hlt := mantissa_fitted_lt m e
  unfold carry
  split
  · next heq => rw [heq, excess_two_pow he]
  · next hne =>
      refine excess_eq_zero ?_ he
      rcases roundedMantissa_cases (fitted m e) with ⟨h, -⟩ | ⟨h, -⟩ <;> omega

theorem shift_eq (m : Nat) (e : Int) :
    shiftToTargetExponent .binary64 m e .exact = (fitted m e, e + excess m e) := rfl

/-- A number is rounded to zero only if no bit of its mantissa fits. Otherwise its exponent grows by
the number of bits that do not fit, and by one more if rounding makes the mantissa too long. -/
theorem roundWithAccuracy_cases (s : Sign) (m : Nat) (e : Int) :
    (m / 2 ^ excess m e = 0 ∧ roundWithAccuracy .binary64 s m e .exact = .zero s) ∨
      ∃ r hr, roundWithAccuracy .binary64 s m e .exact =
        .finite s r (e + excess m e + carry m e) hr := by
  unfold roundWithAccuracy
  simp only [shift_eq, mantissa_fitted, excess_roundedMantissa]
  split
  · next hzero =>
      refine .inl ⟨?_, rfl⟩
      -- a mantissa that is too long is not zero without its last bit
      have hcarry : carry m e = 0 := by
        unfold carry at hzero ⊢
        split at hzero
        · next heq => rw [heq] at hzero; cases hzero
        · next hne => rw [if_neg hne]
      rw [hcarry, pow_zero, Nat.div_one] at hzero
      rw [← mantissa_fitted]
      rcases roundedMantissa_cases (fitted m e) with ⟨h, -⟩ | ⟨h, -⟩ <;> omega
  · next hne => exact .inr ⟨_, Nat.pos_of_ne_zero hne, rfl⟩

/-! ## Packing -/

/-- Zero, or a number whose mantissa fits and whose exponent is bounded. -/
inductive Bounded (bound : Int) : UnpackedFloat → Prop
  | zero (s : Sign) : Bounded bound (.zero s)
  | finite {s : Sign} {m : Nat} {e : Int} {h : 0 < m} : m < 2 ^ 53 → e ≤ bound →
      Bounded bound (.finite s m e h)

/-- A number whose exponent is bounded is not infinite. -/
theorem Bounded.not_isInf {bound : Int} {x : UnpackedFloat} (h : Bounded bound x) :
    x.isInf = false := by
  cases h <;> rfl

/-- A larger bound holds as well. -/
theorem Bounded.mono {bound bound' : Int} {x : UnpackedFloat} (h : Bounded bound x)
    (hle : bound ≤ bound') : Bounded bound' x := by
  cases h with
  | zero s => exact .zero s
  | finite hm he => exact .finite hm (he.trans hle)

theorem unpack_pack (x : UnpackedFloat) : (Float.Model.pack x).unpack =
    UnpackedFloat.unpack .binary64 (UnpackedFloat.pack .binary64 x) := rfl

/-- What does not have the exponent of an infinity is zero or a number. -/
theorem unpack_packComponents (s : Sign) {E : BitVec 11} (hE : E ≠ -1#11) (M : BitVec 52) :
    Bounded (max ((E.toNat : Int) - 1075) (-1074))
      (UnpackedFloat.unpack .binary64 (packComponents .binary64 s E M)) := by
  have hM := M.isLt
  simp only [UnpackedFloat.unpack, unpackExponent_packComponents, unpackMantissa_packComponents,
    if_neg hE]
  split
  · next hzero =>
      split
      · exact .zero _
      · refine .finite (by omega) ?_
        rw [hzero]
        norm_num [Format.exponentBias]
  · refine .finite ((BitVec.isLt _).trans_le (by decide)) ?_
    norm_num [Format.exponentBias]

/-- A number with a large exponent is packed as an infinity. -/
theorem isInf_pack_of_le (s : Sign) {m : Nat} {e : Int} (h : 0 < m) (he : 972 ≤ e) :
    (Float.Model.pack (.finite s m e h)).unpack.isInf = true := by
  have hbias : 2 ^ 11 ≤ (e + (1023 : Nat) + (52 : Nat)).toNat + 1 := by omega
  have hpack : UnpackedFloat.pack .binary64 (.finite s m e h) = packedInfinity .binary64 s :=
    if_pos hbias
  rw [unpack_pack, hpack]
  cases s <;> rfl

/-- A number without a large exponent is packed as zero or as a number with no larger exponent. -/
theorem bounded_pack_of_lt (s : Sign) {m : Nat} {e : Int} (h : 0 < m) (he : e < 972) :
    Bounded (max e (-1074)) (Float.Model.pack (.finite s m e h)).unpack := by
  obtain ⟨b, hb⟩ : ∃ b, b = (e + (1023 : Nat) + (52 : Nat)).toNat := ⟨_, rfl⟩
  have hpack : UnpackedFloat.pack .binary64 (.finite s m e h) =
      if m.log2 + 1 = 53 then
        packComponents .binary64 s (BitVec.ofNat 11 b) (BitVec.ofNat 52 m)
      else packComponents .binary64 s 0#11 (BitVec.ofNat 52 m) := by
    rw [hb]
    exact if_neg (show ¬ 2 ^ 11 ≤ (e + (1023 : Nat) + (52 : Nat)).toNat + 1 by omega)
  rw [unpack_pack, hpack]
  split
  · -- a normal number keeps its exponent
    have hE : (BitVec.ofNat 11 b).toNat = b := by
      rw [BitVec.toNat_ofNat]
      exact Nat.mod_eq_of_lt (by omega)
    refine (unpack_packComponents s (fun htop => ?_) _).mono ?_
    · have hmax : (BitVec.ofNat 11 b).toNat = 2047 := congrArg BitVec.toNat htop
      omega
    · rw [hE]
      omega
  · exact (unpack_packComponents s (by decide) _).mono (by simp)

/-- A number is rounded to an infinity if and only if its exponent gets too large. -/
theorem isInf_round_iff (s : Sign) {m : Nat} {e : Int} (h : m / 2 ^ excess m e ≠ 0) :
    (Float.Model.pack (roundWithAccuracy .binary64 s m e .exact)).unpack.isInf = true ↔
      972 ≤ e + excess m e + carry m e := by
  obtain ⟨hzero, -⟩ | ⟨r, hr, heq⟩ := roundWithAccuracy_cases s m e
  · exact absurd hzero h
  · rw [heq]
    by_cases hle : 972 ≤ e + excess m e + carry m e
    · exact ⟨fun _ => hle, fun _ => isInf_pack_of_le s hr hle⟩
    · rw [(bounded_pack_of_lt s hr (by omega)).not_isInf]
      exact ⟨fun h => absurd h (by decide), fun h => absurd h hle⟩

/-- A number with a bounded magnitude is rounded to a number with a bounded exponent. -/
theorem bounded_round (bound : Int) (s : Sign) {m : Nat} {e : Int} (hlow : -1074 ≤ bound)
    (hhigh : bound < 971) (he : e ≤ bound) (hlog : m.log2 + e ≤ bound + 52) :
    Bounded (bound + 1)
      (Float.Model.pack (roundWithAccuracy .binary64 s m e .exact)).unpack := by
  have hexcess : e + excess m e ≤ bound := by
    simp only [excess, Format.targetExponent, totalExponent, Format.mantissaBits,
      Format.minExponent]
    norm_num
    omega
  have hcarry := carry_le m e
  obtain ⟨-, heq⟩ | ⟨r, hr, heq⟩ := roundWithAccuracy_cases s m e
  · rw [heq]
    cases s <;> exact .zero _
  · rw [heq]
    exact (bounded_pack_of_lt s hr (by omega)).mono (by omega)

/-! ## Natural numbers -/

/-- Multiplying by a power of two adds its exponent to the logarithm. -/
theorem log2_mul_two_pow {n : Nat} (hn : n ≠ 0) (k : Nat) : (n * 2 ^ k).log2 = n.log2 + k := by
  rw [Nat.log2_eq_iff (Nat.mul_ne_zero hn (Nat.two_pow_pos k).ne'), Nat.pow_add, Nat.add_right_comm,
    Nat.pow_add]
  exact ⟨Nat.mul_le_mul_right _ (Nat.log2_self_le hn),
    Nat.mul_lt_mul_of_pos_right Nat.lt_log2_self (Nat.two_pow_pos k)⟩

/-- A natural number of 53 bits or less, converted through a word. -/
theorem bounded_small {n : Nat} (hn : n < 2 ^ 53) :
    Bounded 1 n.toUInt64.toFloat.toModel.unpack := by
  have htoNat : n.toUInt64.toNat = n := by
    rw [Nat.toUInt64, UInt64.toNat_ofNat']
    exact Nat.mod_eq_of_lt (by omega)
  have hmodel : n.toUInt64.toFloat.toModel =
      Float.Model.pack (normalize .binary64 (n : Int) 0 .positive) := by
    show Float.Model.pack (normalize .binary64 (n.toUInt64.toNat : Int) 0 .positive) = _
    rw [htoNat]
  rw [hmodel]
  rcases Nat.eq_zero_or_pos n with rfl | hpos
  · exact .zero _
  · have hcompare : compare (n : Int) 0 = .gt := by
      rw [Int.compare_eq_gt]
      omega
    have hlog := log2_le_of_lt hn
    unfold UnpackedFloat.normalize
    rw [hcompare]
    show Bounded 1 (Float.Model.pack (round .binary64 .positive n 0)).unpack
    have htarget : Format.binary64.targetExponent (totalExponent n 0) = n.log2 - 52 := by
      simp only [Format.targetExponent, totalExponent, Format.mantissaBits, Format.minExponent]
      norm_num
      omega
    unfold UnpackedFloat.round decreaseExponent
    rw [htarget]
    refine bounded_round 0 _ (by decide) (by decide) (by omega) ?_
    rw [Nat.shiftLeft_eq, log2_mul_two_pow hpos.ne']
    omega

/-- A product with one. -/
theorem bounded_mul_one {x : UnpackedFloat} (h : Bounded 1 x) :
    Bounded 3 (Float.Model.pack
      (mul .binary64 x (.finite .positive (2 ^ 52) (-52) (by decide)))).unpack := by
  cases h with
  | zero s => cases s <;> exact .zero _
  | @finite s m e hpos hm he =>
      have hlog := log2_le_of_lt hm
      refine bounded_round 2 _ (by decide) (by decide) (by omega) ?_
      rw [log2_mul_two_pow hpos.ne']
      omega

/-- A number of at most 53 bits is a finite float. -/
theorem isInf_ofNat_small {n : Nat} (hn : n < 2 ^ 53) : (Float.ofNat n).isInf = false := by
  have hmul : Float.ofNat n = n.toUInt64.toFloat * Float.ofBits 0x3FF0000000000000 :=
    dif_pos ⟨hn, by decide⟩
  rw [hmul]
  exact (bounded_mul_one (bounded_small hn)).not_isInf

/-- A number is at least half a step below a power of two if it is as long as that power, or one bit
shorter with 54 leading ones. -/
theorem le_log2_add_iff {n k c : Nat} (hn : n ≠ 0) (hc : c ≤ 1)
    (hcarry : c = 1 ↔ 2 ^ 54 - 1 ≤ n * 2 ^ 53 / 2 ^ n.log2) :
    k + 54 ≤ n.log2 + c ↔ 2 ^ (k + 54) - 2 ^ k ≤ n := by
  have hself := Nat.log2_self_le hn
  have hpos := Nat.two_pow_pos k
  -- one bit shorter than the power, the leading ones are the ones of the bound
  have hones : n.log2 = k + 53 →
      (2 ^ 54 - 1 ≤ n * 2 ^ 53 / 2 ^ n.log2 ↔ 2 ^ (k + 54) - 2 ^ k ≤ n) := by
    intro hlog
    rw [hlog, Nat.le_div_iff_mul_le (Nat.two_pow_pos _), Nat.pow_add 2 k 53, ← Nat.mul_assoc,
      Nat.mul_le_mul_right_iff (Nat.two_pow_pos 53), Nat.pow_add 2 k 54]
    omega
  constructor
  · intro h
    by_cases hlong : k + 54 ≤ n.log2
    · have hle : 2 ^ (k + 54) ≤ 2 ^ n.log2 := Nat.pow_le_pow_right (by decide) hlong
      omega
    · exact (hones (by omega)).mp (hcarry.mp (by omega))
  · intro h
    have hlog : k + 53 ≤ n.log2 := by
      rw [Nat.le_log2 hn]
      rw [Nat.pow_add] at h ⊢
      omega
    by_cases hlong : k + 54 ≤ n.log2
    · omega
    · have hc' := hcarry.mpr ((hones (by omega)).mpr h)
      omega

/-- A larger number becomes infinite where rounding carries it to `2 ^ 1024`. -/
theorem isInf_ofNat_large {n : Nat} (hn : 2 ^ 53 ≤ n) :
    (Float.ofNat n).isInf = true ↔ 2 ^ 1024 - 2 ^ 970 ≤ n := by
  have hmodel : Float.ofNat n = .ofModel (Float.Model.ofScientific n 0) :=
    dif_neg fun h => absurd h.1 (by omega)
  have hpos : n ≠ 0 := by omega
  have hround : UnpackedFloat.ofScientific .binary64 n 0 =
      roundWithAccuracy .binary64 .positive (n * 2 ^ 53) (-53) .exact := by
    unfold UnpackedFloat.ofScientific
    rw [dif_neg hpos, if_neg (by decide),
      if_neg (show ¬ (0 : Int) < -((2 ^ 11 : Int) + n.log2) by omega), if_pos (by decide)]
    show roundWithAccuracy .binary64 .positive (n <<< 53 * 1) (-53 + 0) .exact = _
    rw [Nat.shiftLeft_eq, Nat.mul_one, Int.add_zero]
  have hexcess : excess (n * 2 ^ 53) (-53) = n.log2 + 1 := by
    simp only [excess, Format.targetExponent, totalExponent, Format.mantissaBits,
      Format.minExponent, log2_mul_two_pow hpos]
    norm_num
    omega
  have hfit : n * 2 ^ 53 / 2 ^ excess (n * 2 ^ 53) (-53) ≠ 0 := by
    rw [hexcess]
    refine Nat.pos_iff_ne_zero.mp (Nat.div_pos ?_ (Nat.two_pow_pos _))
    calc 2 ^ (n.log2 + 1) = 2 ^ n.log2 * 2 := Nat.pow_succ _ _
      _ ≤ n * 2 ^ 53 := Nat.mul_le_mul (Nat.log2_self_le hpos) (by decide)
  have hinf : (Float.ofNat n).isInf = true ↔
      972 ≤ (-53 : Int) + (n.log2 + 1 : Nat) + carry (n * 2 ^ 53) (-53) := by
    rw [hmodel, ← hexcess, ← isInf_round_iff .positive hfit, ← hround]
    exact Iff.rfl
  rw [hinf, ← le_log2_add_iff hpos (carry_le _ _) (carry_eq_one_iff hexcess)]
  omega

/-- A natural number becomes infinite exactly from the middle between the largest float and
`2 ^ 1024` on. -/
theorem isInf_ofNat_iff (n : Nat) :
    (Float.ofNat n).isInf = true ↔ 2 ^ 1024 - 2 ^ 970 ≤ n := by
  by_cases hn : 2 ^ 53 ≤ n
  · exact isInf_ofNat_large hn
  · have hbound : ∀ k l, 53 ≤ k → l = k + 54 → 2 ^ 53 ≤ 2 ^ l - 2 ^ k := by
      rintro k _ hk rfl
      have hpow : 2 ^ 53 ≤ 2 ^ k := Nat.pow_le_pow_right (by decide) hk
      rw [Nat.pow_add]
      omega
    have hle := hbound 970 1024 (by decide) rfl
    rw [isInf_ofNat_small (by omega)]
    exact ⟨nofun, fun h => absurd (hle.trans h) hn⟩

/-! ## Integers -/

/-- What is unpacked is a number that fits, unless it is an infinity or no number. -/
theorem unpack_cases (b : BitVec Format.binary64.numBits) :
    Bounded 971 (UnpackedFloat.unpack .binary64 b) ∨
      (∃ s, UnpackedFloat.unpack .binary64 b = .infinity s) ∨
      UnpackedFloat.unpack .binary64 b = .notANumber := by
  by_cases hE : @unpackExponent .binary64 b = -1#11
  · refine .inr ?_
    simp only [UnpackedFloat.unpack, if_pos hE]
    split
    · exact .inl ⟨_, rfl⟩
    · exact .inr rfl
  · refine .inl ?_
    have hlt : (@unpackExponent .binary64 b).toNat < 2047 := by
      refine Nat.lt_of_le_of_ne (Nat.le_of_lt_succ (BitVec.isLt _)) fun htop => ?_
      exact hE (BitVec.eq_of_toNat_eq htop)
    rw [← packComponents_unpackSign_unpackExponent_unpackMantissa b]
    exact (unpack_packComponents _ hE _).mono (by omega)

/-- A float is infinite if its negation is. -/
theorem isInf_neg (x : Float) : (Float.neg x).isInf = x.isInf := by
  show (Float.Model.pack x.toModel.unpack.neg).unpack.isInf = x.toModel.unpack.isInf
  have hcases := unpack_cases x.toModel.toBits.toBitVec
  rw [show UnpackedFloat.unpack .binary64 x.toModel.toBits.toBitVec = x.toModel.unpack from rfl]
    at hcases
  generalize x.toModel.unpack = y at hcases ⊢
  rcases hcases with h | ⟨s, rfl⟩ | rfl
  · rw [h.not_isInf]
    cases h with
    | zero s => cases s <;> rfl
    | finite hm he => exact (bounded_pack_of_lt _ _ (by omega)).not_isInf
  · cases s <;> rfl
  · rfl

/-- The float nearest to an integer is infinite from half a step beyond the largest float on. -/
theorem isInf_ofInt_iff (n : Int) :
    (Float.ofInt n).isInf = true ↔ 2 ^ 1024 - 2 ^ 970 ≤ n.natAbs := by
  cases n with
  | ofNat n => exact isInf_ofNat_iff n
  | negSucc n =>
      show (Float.neg (Float.ofNat (n + 1))).isInf = true ↔ 2 ^ 1024 - 2 ^ 970 ≤ n + 1
      rw [isInf_neg]
      exact isInf_ofNat_iff (n + 1)

end Binary64

/-- An integer is widened unless it is half a step or more beyond the floats. -/
theorem Payload.widen?_eq (n : Int) :
    widen? n = if 2 ^ 1024 - 2 ^ 970 ≤ n.natAbs then Option.none else some (Float.ofInt n) := by
  unfold widen?
  exact if_congr (Binary64.isInf_ofInt_iff n) rfl rfl

end Pigeon

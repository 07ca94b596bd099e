import LabelPrinter.Number.Shortest
import LabelPrinter.Proofs.Number.Value

/-!
Whole numbers. Below `2 ^ 63` the conversion to a 64-bit integer gives them back as they are, and
so does the wire.
-/

namespace LabelPrinter.Number

open Float.Model Float.Model.UnpackedFloat

theorem shift_mantissa (a : ExtendedMantissa) (n : Nat) :
    (a >>> n).mantissa = a.mantissa / 2 ^ n := by
  induction n with
  | zero => exact (Nat.div_one _).symm
  | succ n ih =>
    calc (a >>> (n + 1)).mantissa
        = (a >>> n).mantissa / 2 := rfl
      _ = a.mantissa / 2 ^ (n + 1) := by rw [ih, Nat.div_div_eq_div_mul, Nat.pow_succ]

theorem roundToInt_eq (s : Sign) (m : Nat) (e : Int) :
    roundToInt s m e = s.apply (m * 2 ^ e.toNat / 2 ^ (-e).toNat : Nat) := by
  have hk : (0 - (e - (e.toNat : Int))).toNat = (-e).toNat := by omega
  simp only [roundToInt, decreaseExponent, shiftToExponent, shift_mantissa,
    ExtendedMantissa.ofMantissaAndAccuracy, Nat.shiftLeft_eq, Int.sub_zero, hk]

/-- Cutting off the places behind the point cuts off nothing where there are none. -/
theorem truncated_of_whole {m n : Nat} {e : Int} (h : (m : ℚ) * 2 ^ e = n) :
    m * 2 ^ e.toNat / 2 ^ (-e).toNat = n := by
  apply Nat.div_eq_of_eq_mul_left (Nat.two_pow_pos _)
  rcases le_total 0 e with he | he
  · have hn : (-e).toNat = 0 := by omega
    obtain ⟨k, rfl⟩ := Int.eq_ofNat_of_zero_le he
    rw [zpow_natCast] at h
    rw [hn, Int.toNat_natCast, pow_zero, mul_one]
    exact_mod_cast h
  · have hn : e.toNat = 0 := by omega
    obtain ⟨k, rfl⟩ := Int.exists_eq_neg_ofNat he
    rw [zpow_neg, zpow_natCast, mul_inv_eq_iff_eq_mul₀ (by positivity)] at h
    rw [hn, neg_neg, Int.toNat_natCast, pow_zero, mul_one]
    exact_mod_cast h

variable {x : Float} {z : ℤ}

theorem size_of_value (hx : x.isFinite = true) (hz : value x = z) : size x = z.natAbs := by
  have h0 := size_nonneg x
  rw [value_eq hx, signed] at hz
  rw [Nat.cast_natAbs, Int.cast_abs]
  split at hz
  · rw [← hz, abs_neg, abs_of_nonneg h0]
  · rw [← hz, abs_of_nonneg h0]

theorem magnitude_of_value (hx : x.isFinite = true) (hz : value x = z) :
    magnitude x = z.natAbs * unitsPerOne := by
  have hs := size_of_value hx hz
  rw [size, div_eq_iff unitsPerOne_pos.ne'] at hs
  exact_mod_cast hs

theorem apply_sign (hx : x.isFinite = true) (hz : value x = z) :
    (signBit x).apply z.natAbs = z := by
  have h0 := size_nonneg x
  rw [value_eq hx, signed] at hz
  rw [signBit]
  by_cases hn : isNegative x = true
  · rw [if_pos hn] at hz ⊢
    have hle : (z : ℚ) ≤ 0 := hz ▸ neg_nonpos.mpr h0
    have hle : z ≤ 0 := by exact_mod_cast hle
    change -(z.natAbs : Int) = z
    omega
  · rw [if_neg hn] at hz ⊢
    have hle : (0 : ℚ) ≤ z := hz ▸ h0
    have hle : 0 ≤ z := by exact_mod_cast hle
    change (z.natAbs : Int) = z
    omega

theorem toInt_of_value (hx : x.isFinite = true) (hz : value x = z) (low high : Int) :
    x.toModel.unpack.toInt low high = z := by
  have hsize := size_of_value hx hz
  rw [size_mantissa] at hsize
  rw [unpack_eq, if_neg ((isFinite_iff x).mp hx)]
  by_cases hm : mantissa x = 0
  · rw [hm, Nat.cast_zero, zero_mul] at hsize
    rw [dif_pos hm]
    exact (Int.natAbs_eq_zero.mp (Nat.cast_eq_zero.mp hsize.symm)).symm
  · rw [dif_neg hm]
    change roundToInt (signBit x) (mantissa x) (exponent x) = z
    rw [roundToInt_eq, truncated_of_whole hsize, apply_sign hx hz]

/-- The conversion to a 64-bit integer gives a whole number of its range back as it is. -/
theorem toInt64_of_value (hx : x.isFinite = true) (hz : value x = z) (h : |z| < 2 ^ 63) :
    x.toModel.toInt64.toInt = z := by
  have h64 : x.toModel.toInt64 = Int64.ofIntClamp
      (x.toModel.unpack.toInt Int64.minValue.toInt Int64.maxValue.toInt) := rfl
  have hfit := abs_lt.mp h
  rw [h64, toInt_of_value hx hz]
  apply Int64.toInt_ofIntClamp
  · rw [Int64.toInt_minValue]
    omega
  · rw [Int64.toInt_maxValue]
    omega

theorem isIntegral_iff (hx : x.isFinite = true) :
    isIntegral x = true ↔ ∃ z : ℤ, value x = z := by
  have hu := unitsPerOne_pos
  have hdvd : isIntegral x = true ↔ unitsPerOne ∣ magnitude x := by
    simp [isIntegral, hx, Nat.dvd_iff_mod_eq_zero]
  rw [hdvd]
  constructor
  · rintro ⟨n, hn⟩
    have hs : size x = n := by
      rw [size, hn, Nat.cast_mul, mul_div_cancel_left₀ _ hu.ne']
    rw [value_eq hx, signed, hs]
    split
    · exact ⟨-n, by rw [Int.cast_neg, Int.cast_natCast]⟩
    · exact ⟨n, (Int.cast_natCast n).symm⟩
  · rintro ⟨z, hz⟩
    exact ⟨z.natAbs, (magnitude_of_value hx hz).trans (Nat.mul_comm _ _)⟩

theorem number_of_value (hx : x.isFinite = true) (hz : value x = z) (h : |z| < 2 ^ 63) :
    number x = z.repr := by
  have hm := magnitude_of_value hx hz
  have hu : 0 < unitsPerOne := twoTo_pos _
  have hq : magnitude x / unitsPerOne = z.natAbs := by rw [hm, Nat.mul_div_cancel _ hu]
  have hzero : magnitude x = 0 ↔ z = 0 := by
    rw [hm, Nat.mul_eq_zero, or_iff_left hu.ne', Int.natAbs_eq_zero]
  have hlt : z.natAbs < twoTo 63 := by
    have h63 : twoTo 63 = 2 ^ 63 := by decide
    have habs := Int.abs_eq_natAbs z
    omega
  have hpath : (isIntegral x && decide (magnitude x / unitsPerOne < twoTo 63)) = true := by
    rw [(isIntegral_iff hx).mpr ⟨z, hz⟩, hq, Bool.true_and, decide_eq_true hlt]
  have hsign := apply_sign hx hz
  simp only [number]
  rw [if_pos hpath, hq]
  by_cases h0 : z = 0
  · rw [if_pos (hzero.mpr h0), h0]
    rfl
  · -- the sign bit and the sign of the integer agree on what is not zero
    rw [if_neg (mt hzero.mp h0)]
    rw [signBit] at hsign
    by_cases hn : isNegative x = true
    · rw [if_pos hn] at hsign ⊢
      change -(z.natAbs : Int) = z at hsign
      obtain ⟨n, rfl⟩ : ∃ n, z = Int.negSucc n := Int.eq_negSucc_of_lt_zero (by omega)
      rfl
    · rw [if_neg hn] at hsign ⊢
      change (z.natAbs : Int) = z at hsign
      obtain ⟨n, rfl⟩ : ∃ n : Nat, z = n := Int.eq_ofNat_of_zero_le (by omega)
      exact String.empty_append

end LabelPrinter.Number

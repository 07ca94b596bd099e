import Mathlib.Algebra.Order.Field.Power
import Mathlib.Algebra.Order.Field.Rat
import Mathlib.Order.Compare
import Mathlib.Tactic.Positivity
import LabelPrinter.Proofs.Number.Ordinal

/-!
The rational number that a finite double stands for. Doubles compare as these numbers do.
-/

namespace LabelPrinter.Number

open Float.Model Float.Model.UnpackedFloat

def mantissa (x : Float) : Nat :=
  if biasedExponent x = 0 then fraction x else twoTo 52 + fraction x

/-- The power of two that the last bit of the mantissa stands for. -/
def exponent (x : Float) : Int := (max (biasedExponent x) 1 : Nat) - 1075

def signBit (x : Float) : Sign := if isNegative x then .negative else .positive

section Bits

variable (x : Float)

theorem unpackMantissa_toNat :
    (@unpackMantissa .binary64 x.toModel.toBits.toBitVec).toNat = fraction x := by
  simp only [unpackMantissa, BitVec.toNat_cast, BitVec.extractLsb_toNat]
  rw [Nat.shiftRight_zero]
  rfl

theorem unpackExponent_toNat :
    (@unpackExponent .binary64 x.toModel.toBits.toBitVec).toNat = biasedExponent x := by
  simp only [unpackExponent, BitVec.toNat_cast, BitVec.extractLsb_toNat]
  rw [Nat.shiftRight_eq_div_pow]
  rfl

theorem unpackSign_eq :
    Sign.ofBitVec (@unpackSign .binary64 x.toModel.toBits.toBitVec) = signBit x := by
  have h : (@unpackSign .binary64 x.toModel.toBits.toBitVec).toNat =
      x.toBits.toNat / twoTo 63 % twoTo 1 := by
    change (BitVec.extractLsb 63 63 x.toModel.toBits.toBitVec).toNat = _
    rw [BitVec.extractLsb_toNat, Nat.shiftRight_eq_div_pow]
    rfl
  have hlt := x.toBits.toNat_lt
  have h63 : twoTo 63 = 9223372036854775808 := by decide
  have h1 : twoTo 1 = 2 := by decide
  have h0 : @unpackSign .binary64 x.toModel.toBits.toBitVec = 0#1 ↔ ¬ isNegative x = true := by
    rw [← BitVec.toNat_inj, h, isNegative, decide_eq_true_iff, h63, h1]
    simp only [BitVec.toNat_ofNat]
    omega
  rw [Sign.ofBitVec, signBit]
  by_cases hn : isNegative x = true
  · rw [if_neg (by rw [h0]; exact not_not.mpr hn), if_pos hn]
  · rw [if_pos (h0.mpr hn), if_neg hn]

theorem unpackMantissa_eq_zero :
    @unpackMantissa .binary64 x.toModel.toBits.toBitVec = 0#52 ↔ fraction x = 0 := by
  rw [← BitVec.toNat_inj, unpackMantissa_toNat]
  rfl

theorem unpackExponent_eq_zero :
    @unpackExponent .binary64 x.toModel.toBits.toBitVec = 0#11 ↔ biasedExponent x = 0 := by
  rw [← BitVec.toNat_inj, unpackExponent_toNat]
  rfl

theorem unpackExponent_eq_top :
    @unpackExponent .binary64 x.toModel.toBits.toBitVec = -1#11 ↔ biasedExponent x = 2047 := by
  rw [← BitVec.toNat_inj, unpackExponent_toNat]
  rfl

theorem mantissa_toNat (h : biasedExponent x ≠ 0) :
    (1#1 ++ @unpackMantissa .binary64 x.toModel.toBits.toBitVec).toNat = mantissa x := by
  have hlt : fraction x < 2 ^ 52 := Nat.mod_lt _ (by decide)
  rw [BitVec.toNat_append, unpackMantissa_toNat, mantissa, if_neg h]
  exact (Nat.shiftLeft_add_eq_or_of_lt hlt 1).symm

theorem finite_eq {s : Sign} {m n : Nat} {e k : Int} {hm : 0 < m} {hn : 0 < n} (h : m = n)
    (he : e = k) : finite s m e hm = finite s n k hn := by
  subst h he
  rfl

theorem unpack_eq : x.toModel.unpack =
    if biasedExponent x = 2047 then
      if fraction x = 0 then .infinity (signBit x) else .notANumber
    else if h : mantissa x = 0 then .zero (signBit x)
    else .finite (signBit x) (mantissa x) (exponent x) (Nat.pos_of_ne_zero h) := by
  change UnpackedFloat.unpack .binary64 x.toModel.toBits.toBitVec = _
  delta UnpackedFloat.unpack
  dsimp only
  rw [unpackSign_eq]
  by_cases ht : biasedExponent x = 2047
  · rw [if_pos ht, if_pos ((unpackExponent_eq_top x).mpr ht)]
    by_cases hf : fraction x = 0
    · rw [if_pos hf, if_pos ((unpackMantissa_eq_zero x).mpr hf)]
    · rw [if_neg hf, if_neg (mt (unpackMantissa_eq_zero x).mp hf)]
  rw [if_neg ht, if_neg (mt (unpackExponent_eq_top x).mp ht)]
  by_cases h0 : biasedExponent x = 0
  · have hm : mantissa x = fraction x := if_pos h0
    have he : exponent x = -1074 := by
      rw [exponent, h0]
      rfl
    rw [if_pos ((unpackExponent_eq_zero x).mpr h0)]
    by_cases hf : fraction x = 0
    · rw [dif_pos (hm.trans hf), dif_pos ((unpackMantissa_eq_zero x).mpr hf)]
    · rw [dif_neg (hm.trans_ne hf), dif_neg (mt (unpackMantissa_eq_zero x).mp hf)]
      refine finite_eq ((unpackMantissa_toNat x).trans hm.symm) ?_
      rw [unpackExponent_toNat, h0, he]
      rfl
  · have hm : mantissa x ≠ 0 := by
      rw [mantissa, if_neg h0]
      exact (Nat.add_pos_left (twoTo_pos 52) _).ne'
    have he : exponent x = (biasedExponent x : Int) - 1075 := by
      rw [exponent, Nat.max_eq_left (Nat.pos_of_ne_zero h0)]
    rw [if_neg (mt (unpackExponent_eq_zero x).mp h0), dif_neg hm]
    refine finite_eq (mantissa_toNat x h0) ?_
    rw [unpackExponent_toNat, he]
    rfl

theorem isFinite_iff : x.isFinite = true ↔ biasedExponent x ≠ 2047 := by
  change x.toModel.unpack.isFinite = true ↔ _
  rw [unpack_eq]
  by_cases ht : biasedExponent x = 2047
  · rw [if_pos ht]
    by_cases hf : fraction x = 0
    · rw [if_pos hf]
      exact ⟨fun h => absurd h Bool.false_ne_true, fun h => absurd ht h⟩
    · rw [if_neg hf]
      exact ⟨fun h => absurd h Bool.false_ne_true, fun h => absurd ht h⟩
  · rw [if_neg ht]
    by_cases hm : mantissa x = 0
    · rw [dif_pos hm]
      exact ⟨fun _ => ht, fun _ => rfl⟩
    · rw [dif_neg hm]
      exact ⟨fun _ => ht, fun _ => rfl⟩

end Bits

/-- The number that a finite double stands for. -/
def value (x : Float) : ℚ :=
  match x.toModel.unpack with
  | .finite s m e _ => s.apply m * 2 ^ e
  | _ => 0

/-- The same without its sign. -/
def size (x : Float) : ℚ := magnitude x / unitsPerOne

/-- A number with the sign of a double. -/
def signed (x : Float) (q : ℚ) : ℚ := if isNegative x then -q else q

variable {x y : Float}

theorem unitsPerOne_pos : (0 : ℚ) < unitsPerOne := Nat.cast_pos.mpr (twoTo_pos _)

theorem spacing_pos (x : Float) : 0 < spacing x := twoTo_pos _

theorem magnitude_mantissa (x : Float) : magnitude x = mantissa x * spacing x := by
  rw [magnitude, mantissa, spacing]
  split
  · next h =>
    rw [h]
    exact (Nat.mul_one _).symm
  · rfl

theorem twoTo_cast (n : Nat) : ((twoTo n : Nat) : ℚ) = 2 ^ n := Nat.cast_pow 2 n

theorem spacing_size (x : Float) : (2 : ℚ) ^ exponent x = spacing x / unitsPerOne := by
  have he : exponent x = ((biasedExponent x - 1 : Nat) : Int) - (1074 : Nat) := by
    rw [exponent]
    omega
  have hs : ((spacing x : Nat) : ℚ) = 2 ^ (biasedExponent x - 1) := twoTo_cast _
  have hu : ((unitsPerOne : Nat) : ℚ) = 2 ^ 1074 := twoTo_cast 1074
  rw [he, zpow_sub₀ two_ne_zero, zpow_natCast, zpow_natCast, hs, hu]

theorem size_mantissa (x : Float) : size x = mantissa x * 2 ^ exponent x := by
  rw [size, magnitude_mantissa, spacing_size, Nat.cast_mul, mul_div_assoc]

theorem mantissa_eq_zero : mantissa x = 0 ↔ magnitude x = 0 := by
  have hs := spacing_pos x
  rw [magnitude_mantissa, Nat.mul_eq_zero]
  omega

theorem size_eq_zero : size x = 0 ↔ mantissa x = 0 := by
  rw [mantissa_eq_zero, size, div_eq_zero_iff, or_iff_left unitsPerOne_pos.ne', Nat.cast_eq_zero]

theorem size_nonneg (x : Float) : 0 ≤ size x :=
  div_nonneg (Nat.cast_nonneg _) unitsPerOne_pos.le

theorem size_pos (h : mantissa x ≠ 0) : 0 < size x :=
  (size_nonneg x).lt_of_ne' (mt size_eq_zero.mp h)

theorem value_eq (hx : x.isFinite = true) : value x = signed x (size x) := by
  rw [value, signed, unpack_eq, if_neg ((isFinite_iff x).mp hx)]
  by_cases hm : mantissa x = 0
  · rw [dif_pos hm, size_eq_zero.mpr hm, neg_zero, ite_self]
  · rw [dif_neg hm, size_mantissa, signBit]
    by_cases hn : isNegative x = true <;> simp [hn, Sign.apply]

theorem exponent_le_of_ordinal (h : ordinal x ≤ ordinal y) : exponent x ≤ exponent y := by
  have hb : biasedExponent x ≤ biasedExponent y := by
    rw [biasedExponent_eq, biasedExponent_eq]
    exact Nat.div_le_div_right h
  rw [exponent, exponent]
  omega

section Compare

variable {α β : Type} [LinearOrder α] [LinearOrder β] {f : α → β}

theorem compare_map (hf : StrictMono f) (a b : α) : compare (f a) (f b) = compare a b := by
  rw [← cmp_eq_compare, ← cmp_eq_compare, hf.cmp_map_eq]

theorem compare_map_swap (hf : StrictAnti f) (a b : α) :
    compare (f a) (f b) = (compare a b).swap := by
  rw [← cmp_eq_compare, ← cmp_eq_compare, hf.cmp_map_eq, cmp_swap]

end Compare

/-- Exponents first, then mantissas, is the order of the magnitudes. -/
theorem compare_fields (x y : Float) :
    (compare (exponent x) (exponent y)).then (compare (mantissa x) (mantissa y)) =
      compare (magnitude x) (magnitude y) := by
  have hlt {x y : Float} (h : exponent x < exponent y) : magnitude x < magnitude y := by
    rw [magnitude_eq, magnitude_eq]
    apply sizeAt_strictMono
    by_contra hge
    exact absurd (exponent_le_of_ordinal (not_lt.mp hge)) (not_le.mpr h)
  rcases lt_trichotomy (exponent x) (exponent y) with h | h | h
  · rw [compare_lt_iff_lt.mpr h, compare_lt_iff_lt.mpr (hlt h)]
    rfl
  · have hs : spacing x = spacing y := by
      have hq := spacing_size x
      rw [h, spacing_size y] at hq
      exact_mod_cast ((div_left_inj' unitsPerOne_pos.ne').mp hq).symm
    have hmono : StrictMono fun m => m * spacing y :=
      fun _ _ h => Nat.mul_lt_mul_of_pos_right h (spacing_pos y)
    rw [compare_eq_iff_eq.mpr h, magnitude_mantissa, magnitude_mantissa, hs]
    exact (compare_map hmono _ _).symm
  · rw [compare_gt_iff_gt.mpr h, compare_gt_iff_gt.mpr (hlt h)]
    rfl

theorem compare_size (x y : Float) :
    compare (size x) (size y) = compare (magnitude x) (magnitude y) := by
  have hmono : StrictMono fun m : Nat => (m : ℚ) / unitsPerOne :=
    fun _ _ h => div_lt_div_of_pos_right (Nat.cast_lt.mpr h) unitsPerOne_pos
  exact compare_map hmono _ _

theorem compare_eq (hx : x.isFinite = true) (hy : y.isFinite = true) :
    x.toModel.unpack.compare y.toModel.unpack = some (compare (value x) (value y)) := by
  rw [value_eq hx, value_eq hy, signed, signed, unpack_eq, unpack_eq,
    if_neg ((isFinite_iff x).mp hx), if_neg ((isFinite_iff y).mp hy), signBit, signBit]
  by_cases hx0 : mantissa x = 0 <;> by_cases hy0 : mantissa y = 0
  · rw [dif_pos hx0, dif_pos hy0, size_eq_zero.mpr hx0, size_eq_zero.mpr hy0, neg_zero, ite_self,
      ite_self, compare_eq_iff_eq.mpr rfl]
    rfl
  · have hp := size_pos hy0
    rw [dif_pos hx0, dif_neg hy0, size_eq_zero.mpr hx0, neg_zero, ite_self]
    by_cases hn : isNegative y = true
    · rw [if_pos hn, if_pos hn, compare_gt_iff_gt.mpr (neg_lt_zero.mpr hp)]
      rfl
    · rw [if_neg hn, if_neg hn, compare_lt_iff_lt.mpr hp]
      rfl
  · have hp := size_pos hx0
    rw [dif_neg hx0, dif_pos hy0, size_eq_zero.mpr hy0, neg_zero, ite_self]
    by_cases hn : isNegative x = true
    · rw [if_pos hn, if_pos hn, compare_lt_iff_lt.mpr (neg_lt_zero.mpr hp)]
      rfl
    · rw [if_neg hn, if_neg hn, compare_gt_iff_gt.mpr hp]
      rfl
  · have hp := size_pos hx0
    have hq := size_pos hy0
    rw [dif_neg hx0, dif_neg hy0]
    by_cases hn : isNegative x = true <;> by_cases hk : isNegative y = true
    · rw [if_pos hn, if_pos hk, if_pos hn, if_pos hk,
        compare_map_swap (fun _ _ => neg_lt_neg) (size x) (size y), compare_size,
        ← compare_fields]
      rfl
    · rw [if_pos hn, if_neg hk, if_pos hn, if_neg hk,
        compare_lt_iff_lt.mpr ((neg_lt_zero.mpr hp).trans hq)]
      rfl
    · rw [if_neg hn, if_pos hk, if_neg hn, if_pos hk,
        compare_gt_iff_gt.mpr ((neg_lt_zero.mpr hq).trans hp)]
      rfl
    · rw [if_neg hn, if_neg hk, if_neg hn, if_neg hk, compare_size, ← compare_fields]
      rfl

theorem lt_iff (hx : x.isFinite = true) (hy : y.isFinite = true) : x < y ↔ value x < value y := by
  have h : x < y ↔ x.toModel.unpack.lt y.toModel.unpack = true := decide_eq_true_iff
  rw [h, UnpackedFloat.lt, compare_eq hx hy, ← compare_lt_iff_lt]
  simp

theorem le_iff (hx : x.isFinite = true) (hy : y.isFinite = true) : x ≤ y ↔ value x ≤ value y := by
  have h : x ≤ y ↔ x.toModel.unpack.le y.toModel.unpack = true := decide_eq_true_iff
  rw [h, UnpackedFloat.le, compare_eq hx hy, Option.any_some, ← compare_le_iff_le,
    Ordering.isLE_iff_ne_gt]

theorem beq_iff (hx : x.isFinite = true) (hy : y.isFinite = true) :
    (x == y) = true ↔ value x = value y := by
  have h : (x == y) = (x.toModel.unpack.compare y.toModel.unpack == some .eq) := rfl
  rw [h, compare_eq hx hy, ← compare_eq_iff_eq]
  simp

end LabelPrinter.Number

import Mathlib.Tactic.Linarith
import Mathlib.Algebra.Order.Ring.Abs
import LabelPrinter.Proofs.Number.Value
import LabelPrinter.Proofs.Number.Zero

/-!
Numbers rounded to the nearest double, ties to the even one.
-/

namespace LabelPrinter.Number

/-- Half a step beyond the largest double and further up, numbers are rounded to infinity. -/
def tooLarge : ℚ := 2 ^ 1024 - 2 ^ 970

/-- The finite double nearest to a number. Of two that are as near it is the one whose last bit is
zero. -/
structure Rounds (q : ℚ) (x : Float) : Prop where
  finite : x.isFinite = true
  inRange : |q| < tooLarge
  nearest : ∀ y : Float, y.isFinite = true → |q - value x| ≤ |q - value y|
  even : ∀ y : Float, y.isFinite = true → value y ≠ value x →
    |q - value x| = |q - value y| → x.toBits % 2 = 0

/-- Within half a step of the magnitude of a double, counted in units. -/
def Near (x : Float) (r : ℚ) : Prop :=
  if fraction x % 2 = 0 then
    magnitude x - spacingBelow x / 2 ≤ r ∧ r ≤ (magnitude x + spacing x / 2 : ℚ)
  else
    magnitude x - spacingBelow x / 2 < r ∧ r < (magnitude x + spacing x / 2 : ℚ)

section Distance

variable {r a b : ℚ}

theorem nearer_iff : |r - a| < |r - b| ↔ 0 < (b - a) * (a + b - 2 * r) := by
  rw [← sq_lt_sq]
  constructor <;> intro h <;> linarith

theorem asNear_of_half (h : 2 * r = a + b) : |r - a| = |r - b| := by
  rw [abs_eq_abs]
  exact .inr (by linarith)

end Distance

variable {x y : Float} {q r : ℚ} {n : Nat}

theorem spacingBelow_le (h : ordinal x ≠ 0) : spacingBelow x ≤ magnitude x := by
  obtain ⟨n, hn⟩ := Nat.exists_eq_succ_of_ne_zero h
  rw [spacingBelow_succ hn, magnitude_eq, hn, sizeAt_succ]
  exact Nat.le_add_left _ _

theorem fraction_parity (x : Float) : fraction x % 2 = ordinal x % 2 := by
  rw [fraction_eq, twoTo_fifty_two]
  omega

namespace Near

theorem lower (h : Near x r) : magnitude x - spacingBelow x / 2 ≤ r := by
  rw [Near] at h
  split at h
  · exact h.1
  · exact h.1.le

theorem upper (h : Near x r) : r ≤ magnitude x + spacing x / 2 := by
  rw [Near] at h
  split at h
  · exact h.2
  · exact h.2.le

theorem even_of_lower (h : Near x r) (hr : r = magnitude x - spacingBelow x / 2) :
    fraction x % 2 = 0 := by
  rw [Near] at h
  split at h
  · assumption
  · exact absurd hr h.1.ne'

theorem even_of_upper (h : Near x r) (hr : r = magnitude x + spacing x / 2) :
    fraction x % 2 = 0 := by
  rw [Near] at h
  split at h
  · assumption
  · exact absurd hr h.2.ne

theorem nearest_above (h : Near x r) (hn : ordinal x < n) :
    |r - magnitude x| < |r - sizeAt n| ∨
      |r - magnitude x| = |r - sizeAt n| ∧ fraction x % 2 = 0 ∧ n % 2 = 1 := by
  have hs : (0 : ℚ) < spacing x := Nat.cast_pos.mpr (spacing_pos x)
  have hr := h.upper
  have hnext : magnitude x + spacing x = sizeAt (ordinal x + 1) := by
    rw [magnitude_eq, spacing_eq, sizeAt_succ]
  -- only the next place can be as near, and only from the end of the interval
  rcases Nat.lt_or_eq_of_le (Nat.succ_le_of_lt hn) with hlt | rfl
  · have hfar : magnitude x + spacing x < sizeAt n := hnext ▸ sizeAt_strictMono hlt
    have hfar : (magnitude x + spacing x : ℚ) < sizeAt n := by exact_mod_cast hfar
    exact .inl (nearer_iff.mpr (mul_pos (by linarith) (by linarith)))
  · have hnext : (sizeAt (ordinal x + 1) : ℚ) = magnitude x + spacing x := by
      exact_mod_cast hnext.symm
    rw [Nat.succ_eq_add_one, hnext]
    rcases hr.lt_or_eq with hr | hr
    · exact .inl (nearer_iff.mpr (mul_pos (by linarith) (by linarith)))
    · have he := h.even_of_upper hr
      have hp := fraction_parity x
      exact .inr ⟨asNear_of_half (by linarith), he, by omega⟩

theorem nearest_below (h : Near x r) (hn : n < ordinal x) :
    |r - magnitude x| < |r - sizeAt n| ∨
      |r - magnitude x| = |r - sizeAt n| ∧ fraction x % 2 = 0 ∧ n % 2 = 1 := by
  obtain ⟨k, hk⟩ : ∃ k, ordinal x = k + 1 := ⟨ordinal x - 1, by omega⟩
  have hs : (0 : ℚ) < spacingBelow x := by
    rw [spacingBelow_succ hk]
    exact Nat.cast_pos.mpr (gapAt_pos k)
  have hr := h.lower
  have hprev : sizeAt k + spacingBelow x = magnitude x := by
    rw [magnitude_eq, hk, sizeAt_succ, spacingBelow_succ hk]
  have hprev' : (sizeAt k : ℚ) = magnitude x - spacingBelow x := by
    have hc : (sizeAt k + spacingBelow x : ℚ) = magnitude x := by exact_mod_cast hprev
    linarith
  rcases Nat.lt_or_eq_of_le (Nat.le_of_lt_succ (hk ▸ hn)) with hlt | rfl
  · have hfar : (sizeAt n : ℚ) < sizeAt k := Nat.cast_lt.mpr (sizeAt_strictMono hlt)
    exact .inl (nearer_iff.mpr (mul_pos_of_neg_of_neg (by linarith) (by linarith)))
  · rw [hprev']
    rcases hr.lt_or_eq with hr | hr
    · exact .inl (nearer_iff.mpr (mul_pos_of_neg_of_neg (by linarith) (by linarith)))
    · have he := h.even_of_lower hr.symm
      have hp := fraction_parity x
      exact .inr ⟨asNear_of_half (by linarith), he, by omega⟩

/-- What is within half a step of one double is nearer to it than to any other place, or halfway
between an even double and the odd one next to it. -/
theorem nearest (h : Near x r) (hn : n ≠ ordinal x) :
    |r - magnitude x| < |r - sizeAt n| ∨
      |r - magnitude x| = |r - sizeAt n| ∧ fraction x % 2 = 0 ∧ n % 2 = 1 := by
  rcases Nat.lt_or_gt_of_ne hn with hn | hn
  · exact h.nearest_below hn
  · exact h.nearest_above hn

theorem pos (h : Near x r) (hx : ordinal x ≠ 0) : 0 < r := by
  have hs : (spacingBelow x : ℚ) ≤ magnitude x := Nat.cast_le.mpr (spacingBelow_le hx)
  have hm : (0 : ℚ) < magnitude x := Nat.cast_pos.mpr (Nat.pos_of_ne_zero fun h0 =>
    hx (magnitude_eq_zero.mp h0))
  have hl := h.lower
  linarith

end Near

/-- Reading back is counted in whole quarters, over a scale that makes them whole. -/
theorem near_of_readsBack {s : Nat} (hs : 0 < s) (h : readsBack x n s = true) :
    Near x (n / (4 * s)) := by
  have hs' : (0 : ℚ) < 4 * s := by positivity
  have hlow : (4 * magnitude x - 2 * spacingBelow x : ℚ) * s ≤
      ((4 * magnitude x - 2 * spacingBelow x) * s : Nat) := by
    rw [Nat.cast_mul]
    apply mul_le_mul_of_nonneg_right _ (Nat.cast_nonneg s)
    rw [sub_le_iff_le_add]
    exact_mod_cast Nat.sub_le_iff_le_add.mp le_rfl
  rw [Near]
  simp only [readsBack] at h
  split at h
  · next he =>
    simp only [Bool.and_eq_true, decide_eq_true_eq] at h
    have hl : ((4 * magnitude x - 2 * spacingBelow x) * s : Nat) ≤ (n : ℚ) := by exact_mod_cast h.1
    have hu : (n : ℚ) ≤ (4 * magnitude x + 2 * spacing x) * s := by exact_mod_cast h.2
    rw [if_pos he, le_div_iff₀ hs', div_le_iff₀ hs']
    constructor <;> linarith
  · next he =>
    simp only [Bool.and_eq_true, decide_eq_true_eq] at h
    have hl : ((4 * magnitude x - 2 * spacingBelow x) * s : Nat) < (n : ℚ) := by exact_mod_cast h.1
    have hu : (n : ℚ) < (4 * magnitude x + 2 * spacing x) * s := by exact_mod_cast h.2
    rw [if_neg he, lt_div_iff₀ hs', div_lt_iff₀ hs']
    constructor <;> linarith

section Signed

variable {a b : ℚ}

theorem signed_zero (x : Float) : signed x 0 = 0 := by
  rw [signed, neg_zero, ite_self]

theorem abs_signed_sub (h : isNegative x = isNegative y) :
    |signed x a - signed y b| = |a - b| := by
  rw [signed, signed, h]
  split
  · rw [neg_sub_neg, abs_sub_comm]
  · rfl

theorem abs_signed_add (ha : 0 ≤ a) (hb : 0 ≤ b) (h : isNegative x ≠ isNegative y) :
    |signed x a - signed y b| = a + b := by
  have hsum := abs_of_nonneg (add_nonneg ha hb)
  rw [signed, signed]
  cases hx : isNegative x <;> cases hy : isNegative y <;> rw [hx, hy] at h
  · exact absurd rfl h
  · rwa [if_neg Bool.false_ne_true, if_pos rfl, sub_neg_eq_add]
  · rwa [if_pos rfl, if_neg Bool.false_ne_true, ← neg_add', abs_neg]
  · exact absurd rfl h

theorem abs_sub_le_signed (ha : 0 ≤ a) (hb : 0 ≤ b) (x y : Float) :
    |a - b| ≤ |signed x a - signed y b| := by
  by_cases h : isNegative x = isNegative y
  · exact (abs_signed_sub h).ge
  · rw [abs_signed_add ha hb h]
    exact abs_sub_le_iff.mpr ⟨by linarith, by linarith⟩

end Signed

theorem abs_sub_units (q : ℚ) (n : Nat) :
    |q * unitsPerOne - n| = |q - n / unitsPerOne| * unitsPerOne := by
  have hu := unitsPerOne_pos
  rw [← abs_of_pos hu, ← abs_mul, abs_of_pos hu, sub_mul, div_mul_cancel₀ _ hu.ne']

theorem size_of_ordinal (h : ordinal y = ordinal x) : size y = size x := by
  rw [size, size, magnitude_eq, magnitude_eq, h]

theorem Near.sizes (h : Near x (q * unitsPerOne)) (ho : ordinal y ≠ ordinal x) :
    |q - size x| < |q - size y| ∨
      |q - size x| = |q - size y| ∧ fraction x % 2 = 0 ∧ ordinal y % 2 = 1 := by
  have hn := h.nearest ho
  rw [← magnitude_eq y, abs_sub_units, abs_sub_units, mul_lt_mul_iff_left₀ unitsPerOne_pos,
    mul_left_inj' unitsPerOne_pos.ne'] at hn
  exact hn

theorem Near.values (h : Near x (q * unitsPerOne)) (hx : x.isFinite = true)
    (hy : y.isFinite = true) (hq : 0 ≤ q) (hv : value y ≠ value x) :
    |signed x q - value x| < |signed x q - value y| ∨
      |signed x q - value x| = |signed x q - value y| ∧ fraction x % 2 = 0 ∧
        ordinal y % 2 = 1 := by
  have hle := abs_sub_le_signed hq (size_nonneg y) x y
  rw [value_eq hx, value_eq hy] at hv ⊢
  rw [abs_signed_sub rfl]
  by_cases ho : ordinal y = ordinal x
  · -- of one size and yet not the same, so one of them is below zero and the other above
    have hsize := size_of_ordinal ho
    have hsign : isNegative x ≠ isNegative y := fun hs => hv (by rw [hsize, signed, signed, hs])
    have hx0 : size x ≠ 0 := fun h0 => hv (by rw [hsize, h0, signed_zero, signed_zero])
    have hpos : 0 < size x := (size_nonneg x).lt_of_ne' hx0
    have ho0 : ordinal x ≠ 0 := fun h0 => hx0 (by
      rw [size, magnitude_eq_zero.mpr h0, Nat.cast_zero, zero_div])
    have hq : 0 < q := pos_of_mul_pos_left (h.pos ho0) unitsPerOne_pos.le
    rw [abs_signed_add hq.le (size_nonneg y) hsign, hsize]
    exact .inl (abs_lt.mpr ⟨by linarith, by linarith⟩)
  · rcases h.sizes ho with hlt | ⟨heq, hpar⟩
    · exact .inl (hlt.trans_le hle)
    · rcases hle.lt_or_eq with hlt | hle
      · exact .inl (heq.trans_lt hlt)
      · exact .inr ⟨heq.trans hle, hpar⟩

theorem even_toBits : x.toBits % 2 = 0 ↔ ordinal x % 2 = 0 := by
  have h63 : twoTo 63 = 9223372036854775808 := by decide
  rw [← UInt64.toNat_inj, UInt64.toNat_mod, ordinal, h63]
  change x.toBits.toNat % 2 = 0 ↔ _
  omega

theorem ordinal_of_value (hx : x.isFinite = true) (hy : y.isFinite = true)
    (h : value y = value x) : ordinal y = ordinal x := by
  have hu := unitsPerOne_pos
  have hle := abs_sub_le_signed (size_nonneg y) (size_nonneg x) y x
  rw [← value_eq hx, ← value_eq hy, h, sub_self, abs_zero] at hle
  have hs : size y = size x := sub_eq_zero.mp (abs_eq_zero.mp (le_antisymm hle (abs_nonneg _)))
  rw [size, size, div_left_inj' hu.ne', Nat.cast_inj, magnitude_eq, magnitude_eq] at hs
  exact sizeAt_strictMono.injective hs

/-- The place of the largest double. -/
def last : Nat := 2047 * twoTo 52 - 1

theorem ordinal_le_last (hx : x.isFinite = true) : ordinal x ≤ last := by
  have hb := (isFinite_iff x).mp hx
  have h63 : twoTo 63 = 9223372036854775808 := by decide
  rw [biasedExponent_eq, twoTo_fifty_two] at hb
  have ho : ordinal x < 9223372036854775808 := h63 ▸ Nat.mod_lt _ (twoTo_pos 63)
  rw [last, twoTo_fifty_two]
  omega

theorem tooLarge_eq : tooLarge * unitsPerOne = sizeAt last + gapAt last / 2 := by
  have hdiv : last / twoTo 52 = 2046 := by
    rw [last, twoTo_fifty_two]
  have hmod : last % twoTo 52 = 4503599627370495 := by
    rw [last, twoTo_fifty_two]
  have hgap : ((gapAt last : Nat) : ℚ) = 2 ^ 2045 := by
    rw [gapAt, hdiv, twoTo_cast]
  have hsize : ((sizeAt last : Nat) : ℚ) = (2 ^ 53 - 1) * 2 ^ 2045 := by
    have h : sizeAt last = 9007199254740991 * gapAt last := by
      rw [sizeAt, gapAt, hdiv, hmod, twoTo_fifty_two, if_neg (by decide)]
    rw [h, Nat.cast_mul, hgap]
    norm_num
  have hunits : ((unitsPerOne : Nat) : ℚ) = 2 ^ 1074 := twoTo_cast 1074
  have hsplit : (2 : ℚ) ^ 2045 = 2 ^ 2044 * 2 := pow_succ 2 2044
  calc tooLarge * unitsPerOne
      = 2 ^ 2098 - 2 ^ 2044 := by rw [tooLarge, hunits, sub_mul, ← pow_add, ← pow_add]
    _ = 2 ^ 2044 * 2 ^ 54 - 2 ^ 2044 := by rw [← pow_add]
    _ = sizeAt last + gapAt last / 2 := by
      rw [hsize, hgap, hsplit]
      generalize (2 : ℚ) ^ 2044 = p
      ring

theorem Near.lt_tooLarge (h : Near x (q * unitsPerOne)) (hx : x.isFinite = true) :
    q < tooLarge := by
  rw [← mul_lt_mul_iff_left₀ unitsPerOne_pos, tooLarge_eq]
  have hgap (n : Nat) : (0 : ℚ) < gapAt n := Nat.cast_pos.mpr (gapAt_pos n)
  have hr := h.upper
  rw [magnitude_eq, spacing_eq] at hr
  rcases (ordinal_le_last hx).lt_or_eq with hlt | heq
  · have hnext : sizeAt (ordinal x + 1) ≤ sizeAt last := sizeAt_strictMono.monotone hlt
    rw [sizeAt_succ] at hnext
    have hnext : (sizeAt (ordinal x) + gapAt (ordinal x) : ℚ) ≤ sizeAt last := by
      exact_mod_cast hnext
    have h1 := hgap (ordinal x)
    have h2 := hgap last
    linarith
  · -- the largest double is odd, so halfway beyond it is out already
    have hne : q * unitsPerOne ≠ magnitude x + spacing x / 2 := fun hq => by
      have he := h.even_of_upper hq
      rw [fraction_parity, heq, last, twoTo_fifty_two] at he
      omega
    rw [magnitude_eq, spacing_eq] at hne
    rw [heq] at hr hne
    exact lt_of_le_of_ne hr hne

theorem Near.rounds_iff (h : Near x (q * unitsPerOne)) (hx : x.isFinite = true) (hq : 0 ≤ q) :
    Rounds (signed x q) y ↔ y.isFinite = true ∧ value y = value x := by
  constructor
  · intro hr
    refine ⟨hr.finite, ?_⟩
    by_contra hv
    have hle := hr.nearest x hx
    rcases h.values hx hr.finite hq hv with hlt | ⟨heq, -, hodd⟩
    · exact absurd hle (not_le.mpr hlt)
    · have heven := even_toBits.mp (hr.even x hx (Ne.symm hv) heq.symm)
      omega
  · rintro ⟨hy, hv⟩
    have habs : |signed x q| = q := by
      have hs := abs_signed_sub (a := q) (b := 0) (x := x) rfl
      rwa [signed_zero, sub_zero, sub_zero, abs_of_nonneg hq] at hs
    refine ⟨hy, by rw [habs]; exact h.lt_tooLarge hx, fun z hz => ?_, fun z hz hne heq => ?_⟩
    · rw [hv]
      by_cases hz' : value z = value x
      · rw [hz']
      · rcases h.values hx hz hq hz' with hlt | ⟨heq, -⟩
        · exact hlt.le
        · exact heq.le
    · rw [hv] at hne heq
      rcases h.values hx hz hq hne with hlt | ⟨-, heven, -⟩
      · exact absurd heq hlt.ne
      · rw [even_toBits, ordinal_of_value hx hy hv, ← fraction_parity]
        exact heven

end LabelPrinter.Number

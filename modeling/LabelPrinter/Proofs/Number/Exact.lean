import LabelPrinter.Proofs.Number.Numeral
import LabelPrinter.Proofs.Number.Whole

/-!
Finite doubles on the wire: each in plain decimals, a whole one of less than `2 ^ 63` exactly and
every one so that the nearest double to its text is itself.
-/

namespace LabelPrinter.Number

/-- A number text as an exact decimal. -/
def reading : List Char → ℚ
  | '-' :: t => -(numerator t / 10 ^ places t)
  | t => numerator t / 10 ^ places t

variable {x y : Float}

theorem reading_of_not_mem {t : List Char} (h : '-' ∉ t) :
    reading t = numerator t / 10 ^ places t := by
  rw [reading]
  rintro u rfl
  exact h List.mem_cons_self

theorem near_unsigned (x : Float) :
    Near x (numerator (unsigned x) / 10 ^ places (unsigned x) * unitsPerOne) := by
  have h := near_of_readsBack (tenTo_pos _) (readsBack_unsigned x)
  have hten : ((tenTo (places (unsigned x)) : Nat) : ℚ) = 10 ^ places (unsigned x) :=
    Nat.cast_pow 10 _
  rw [hten, Nat.cast_mul, Nat.cast_mul, Nat.cast_ofNat, mul_left_comm,
    mul_div_mul_left _ _ four_ne_zero, mul_div_right_comm] at h
  exact h

theorem unsigned_of_zero (hx : x.isFinite = true) (hm : magnitude x = 0) : unsigned x = ['0'] := by
  rw [unsigned, if_pos (by simp [isIntegral, hx, hm, twoTo_pos]), hm, Nat.zero_div]
  rfl

theorem reading_number (hx : x.isFinite = true) :
    reading (number x).toList = signed x (numerator (unsigned x) / 10 ^ places (unsigned x)) := by
  rw [number_toList hx, sign]
  by_cases hm : magnitude x = 0
  · have h0 : (numerator ['0'] : ℚ) = 0 := rfl
    rw [if_neg (fun h => h.2 hm), List.nil_append, reading_of_not_mem minus_not_mem_unsigned,
      unsigned_of_zero hx hm, h0, zero_div, signed_zero]
  · rw [signed]
    by_cases hn : isNegative x = true
    · rw [if_pos ⟨hn, hm⟩, if_pos hn]
      rfl
    · rw [if_neg (fun h => hn h.1), if_neg hn, List.nil_append,
        reading_of_not_mem minus_not_mem_unsigned]

theorem isFinite_of_beq (hx : x.isFinite = true) (h : (y == x) = true) : y.isFinite = true := by
  change x.toModel.unpack.isFinite = true at hx
  change y.toModel.unpack.beq x.toModel.unpack = true at h
  change y.toModel.unpack.isFinite = true
  cases hy : y.toModel.unpack with
  | notANumber =>
    rw [hy] at h
    cases h
  | infinity s =>
    rw [hy] at h
    cases hu : x.toModel.unpack with
    | notANumber | infinity _ =>
      rw [hu] at hx
      cases hx
    | zero _ | finite _ _ _ _ =>
      rw [hu] at h
      cases s <;> cases h
  | zero s => rfl
  | finite s n e hn => rfl

theorem rounds_number (hx : x.isFinite = true) :
    Rounds (reading (number x).toList) y ↔ (y == x) = true := by
  have hq : (0 : ℚ) ≤ numerator (unsigned x) / 10 ^ places (unsigned x) := by positivity
  rw [reading_number hx, (near_unsigned x).rounds_iff hx hq]
  constructor
  · rintro ⟨hy, hv⟩
    exact (beq_iff hy hx).mpr hv
  · intro h
    have hy := isFinite_of_beq hx h
    exact ⟨hy, (beq_iff hy hx).mp h⟩

/-- A text that is read as that number, by the nearest double. -/
def Reads (t : String) (x : Float) : Prop := ∀ y, Rounds (reading t.toList) y ↔ (y == x) = true

theorem eq_of_value (hx : x.isFinite = true) (hy : y.isFinite = true) (h0 : value x ≠ 0)
    (h : value y = value x) : y = x := by
  have ho := ordinal_of_value hx hy h
  refine eq_of_sign_of_ordinal ?_ ho
  by_contra hs
  -- the numbers would lie on both sides of zero, as far apart as the sum of their sizes
  have hsum := abs_signed_add (size_nonneg y) (size_nonneg x) hs
  rw [← value_eq hx, ← value_eq hy, h, sub_self, abs_zero, size_of_ordinal ho] at hsum
  have hx0 : size x = 0 := by linarith
  exact h0 (by rw [value_eq hx, hx0, signed_zero])

theorem Reads.eq {t : String} (h : Reads t x) (hx : x.isFinite = true) (h0 : value x ≠ 0) :
    Rounds (reading t.toList) y ↔ y = x := by
  rw [h y]
  constructor
  · intro hb
    have hy := isFinite_of_beq hx hb
    exact eq_of_value hx hy h0 ((beq_iff hy hx).mp hb)
  · rintro rfl
    exact (beq_iff hx hx).mpr rfl

/-- A double is told by its text, but for the sign of zero. -/
structure Exact (x : Float) (t : String) : Prop where
  numeral : IsNumeral t.toList
  pointed : '.' ∈ t.toList ↔ ∀ z : ℤ, value x ≠ z
  zero : value x = 0 → t = "0"
  whole : ∀ z : ℤ, value x = z → |z| < 2 ^ 63 → x.toModel.toInt64.toInt = z ∧ t = z.repr
  reads : Reads t x
  unique : ∀ y, y.isFinite = true → number y = t → (y == x) = true

theorem number_exact (hx : x.isFinite = true) : Exact x (number x) where
  numeral := isNumeral_number hx
  pointed := by rw [point_mem_number hx, ne_eq, isIntegral_iff hx, not_exists]
  zero := fun h => number_of_value hx (h.trans Int.cast_zero.symm) (by decide)
  whole := fun z hz hlt => ⟨toInt64_of_value hx hz hlt, number_of_value hx hz hlt⟩
  reads := fun y => rounds_number hx
  unique := fun y hy h => by
    rw [← rounds_number hx, ← h, rounds_number hy]
    exact (beq_iff hy hy).mpr rfl

theorem number_exact_at_two_pow_sixty_three :
    (Float.ofBits 0x43E0000000000000).isFinite = true ∧
      Exact (Float.ofBits 0x43E0000000000000) "9223372036854776000" := by
  have hx : (Float.ofBits 0x43E0000000000000).isFinite = true := rfl
  have ht : number (Float.ofBits 0x43E0000000000000) = "9223372036854776000" := by decide +kernel
  exact ⟨hx, ht ▸ number_exact hx⟩

end LabelPrinter.Number

import LabelPrinter.Command.Text
import LabelPrinter.Proofs.Number.Reading

/-!
What the wire tells of a double: all of it, but that the two zeros share one text.
-/

namespace LabelPrinter.Number

/-- Both zeros are the positive one. -/
def positiveZero (x : Float) : Float := if x == 0 then 0 else x

theorem magnitude_eq_zero {x : Float} : magnitude x = 0 ↔ ordinal x = 0 := by
  have h0 : sizeAt 0 = 0 := rfl
  rw [magnitude_eq, ← h0]
  exact sizeAt_strictMono.injective.eq_iff

theorem positiveZero_of_ordinal {x : Float} (h : ordinal x = 0) : positiveZero x = 0 := by
  have h63 : twoTo 63 = 9223372036854775808 := by decide
  have hlt := x.toBits.toNat_lt
  rw [ordinal, h63] at h
  have hbits : x.toBits = 0 ∨ x.toBits = 9223372036854775808 := by
    rw [← UInt64.toNat_inj, ← UInt64.toNat_inj]
    simp only [UInt64.toNat_ofNat]
    omega
  have hx : x = Float.ofBits 0 ∨ x = Float.ofBits 9223372036854775808 := by
    rcases hbits with hb | hb
    · exact .inl (toBits_injective hb)
    · exact .inr (toBits_injective hb)
  rcases hx with rfl | rfl <;> rfl

theorem positiveZero_eq_of_number {x y : Float} (hx : x.isFinite = true) (hy : y.isFinite = true)
    (h : number x = number y) : positiveZero x = positiveZero y := by
  have ht := congrArg String.toList h
  rw [number_toList hx, number_toList hy] at ht
  obtain ⟨hs, hu⟩ := sign_unsigned_inj ht
  have ho := ordinal_eq_of_unsigned hu
  by_cases h0 : ordinal x = 0
  · rw [positiveZero_of_ordinal h0, positiveZero_of_ordinal (ho.symm.trans h0)]
  · have hmx : magnitude x ≠ 0 := fun hm => h0 (magnitude_eq_zero.mp hm)
    have hmy : magnitude y ≠ 0 := fun hm => h0 (ho.trans (magnitude_eq_zero.mp hm))
    have hn : isNegative x = isNegative y := by
      simp only [sign, hmx, hmy, ne_eq, not_false_eq_true, and_true] at hs
      cases hnx : isNegative x <;> cases hny : isNegative y <;> simp_all
    rw [eq_of_sign_of_ordinal hn ho]

theorem isFinite_of_isMultiplier {m : Float} (h : Text.isMultiplier m = true) :
    m.isFinite = true := by
  have h0 : (0 : Float).toModel.unpack = .zero .positive := rfl
  have h10 : (10 : Float).toModel.unpack = .finite .positive (10 * 2 ^ 49) (-49) (by decide) := rfl
  simp only [Text.isMultiplier, Bool.and_eq_true, decide_eq_true_eq] at h
  have hlower : (Float.Model.UnpackedFloat.zero .positive).lt m.toModel.unpack = true := by
    rw [← h0]
    exact of_decide_eq_true h.1
  have hupper := of_decide_eq_true h.2
  change m.toModel.unpack.le (10 : Float).toModel.unpack = true at hupper
  rw [h10] at hupper
  change m.toModel.unpack.isFinite = true
  cases hm : m.toModel.unpack with
  | notANumber =>
    rw [hm] at hlower
    cases hlower
  | infinity s =>
    rw [hm] at hlower hupper
    cases s
    · cases hlower
    · cases hupper
  | zero s => rfl
  | finite s n e hn => rfl

theorem not_neg_iff {x : Float} (hx : x.isFinite = true) : ¬ x < 0 ↔ 0 ≤ x := by
  have hlt : x < 0 ↔ x.toModel.unpack.lt (.zero .positive) = true := decide_eq_true_iff
  have hle : 0 ≤ x ↔ (Float.Model.UnpackedFloat.zero .positive).le x.toModel.unpack = true :=
    decide_eq_true_iff
  change x.toModel.unpack.isFinite = true at hx
  rw [hlt, hle]
  cases h : x.toModel.unpack with
  | notANumber =>
    rw [h] at hx
    cases hx
  | infinity s =>
    rw [h] at hx
    cases hx
  | zero s => cases s <;> decide
  | finite s n e hn =>
    cases s with
    | negative => exact ⟨fun h => absurd rfl h, nofun⟩
    | positive => exact ⟨fun _ => rfl, fun _ => nofun⟩

end LabelPrinter.Number

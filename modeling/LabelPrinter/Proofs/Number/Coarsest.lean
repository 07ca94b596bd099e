import LabelPrinter.Proofs.Number.Reading
import LabelPrinter.Proofs.Number.Rounding

/-!
The shortest decimal of a double lies on the coarsest grid of powers of ten that has one for it. So
it has digits behind the point only where it must, and the last of them is not zero.
-/

namespace LabelPrinter.Number

section First

variable {α β : Type} {R : α → α → Prop} {f : α → Option β} {l : List α} {a : α} {b : β}

/-- Of a list in order a search finds nothing behind a place where it could have stopped. -/
theorem findSome_pairwise (hl : l.Pairwise R) (hb : l.findSome? f = some b) (ha : a ∈ l)
    (h : (f a).isSome = true) : ∃ c, f c = some b ∧ (c = a ∨ R c a) := by
  obtain ⟨before, c, after, rfl, hc, hnone⟩ := List.findSome?_eq_some_iff.mp hb
  refine ⟨c, hc, ?_⟩
  rcases List.mem_append.mp ha with ha | ha
  · rw [hnone a ha] at h
    cases h
  · rcases List.mem_cons.mp ha with ha | ha
    · exact .inl ha.symm
    · exact .inr (List.rel_of_pairwise_cons (List.pairwise_append.mp hl).2.1 ha)

end First

variable {x : Float} {k : Int} {a b c d s t : Nat}

theorem readsBack_between (ha : readsBack x a s = true) (hc : readsBack x c s = true)
    (hab : a ≤ b) (hbc : b ≤ c) : readsBack x b s = true := by
  simp only [readsBack] at ha hc ⊢
  split at ha
  · next he =>
    rw [if_pos he] at hc ⊢
    simp only [Bool.and_eq_true, decide_eq_true_eq] at ha hc ⊢
    exact ⟨ha.1.trans hab, hbc.trans hc.2⟩
  · next he =>
    rw [if_neg he] at hc ⊢
    simp only [Bool.and_eq_true, decide_eq_true_eq] at ha hc ⊢
    exact ⟨ha.1.trans_le hab, hbc.trans_lt hc.2⟩

theorem readsBack_scaled (ht : 0 < t) : readsBack x (a * t) (s * t) = readsBack x a s := by
  simp only [readsBack, ← Nat.mul_assoc]
  simp only [Nat.mul_le_mul_right_iff ht, Nat.mul_lt_mul_right ht]

/-- The decimal `d * 10 ^ k` reads back. -/
def OnGrid (x : Float) (k : Int) (d : Nat) : Prop :=
  readsBack x (d * (4 * unitsPerOne * tenTo k.toNat)) (tenTo (-k).toNat) = true

theorem OnGrid.isSome (h : OnGrid x k d) : (onGrid? x k).isSome = true := by
  rw [OnGrid] at h
  have hself := readsBack_self (x := x) (tenTo (-k).toNat) (tenTo_pos _)
  have hstep : 0 < 4 * unitsPerOne * tenTo k.toNat :=
    Nat.mul_pos (Nat.mul_pos (by decide) (twoTo_pos _)) (tenTo_pos _)
  simp only [onGrid?]
  generalize 4 * unitsPerOne * tenTo k.toNat = step at *
  generalize 4 * magnitude x * tenTo (-k).toNat = value at *
  have hdown : value / step * step ≤ value := Nat.div_mul_le_self _ _
  have hup : value < (value / step + 1) * step := by
    rw [Nat.mul_comm]
    exact Nat.lt_mul_div_succ value hstep
  -- the value reads back itself, so whatever lies between it and `d` steps does as well
  rcases Nat.lt_or_ge (value / step) d with hd | hd
  · have hr := readsBack_between hself h hup.le (Nat.mul_le_mul_right step hd)
    rw [hr]
    cases readsBack x (value / step * step) (tenTo (-k).toNat) <;> rfl
  · have hr := readsBack_between h hself (Nat.mul_le_mul_right step hd) hdown
    rw [hr]
    cases readsBack x ((value / step + 1) * step) (tenTo (-k).toNat) <;> rfl

theorem mem_gridExponents : k ∈ gridExponents ↔ -1074 ≤ k ∧ k ≤ 308 := by
  simp only [gridExponents, List.mem_map, List.mem_range]
  constructor
  · rintro ⟨n, hn, rfl⟩
    omega
  · rintro ⟨hl, hu⟩
    exact ⟨(308 - k).toNat, by omega, by omega⟩

theorem gridExponents_pairwise : gridExponents.Pairwise (· > ·) := by
  rw [gridExponents, List.pairwise_map]
  exact List.pairwise_lt_range.imp fun h => by omega

theorem coarsest (hk : k ∈ gridExponents) (h : OnGrid x k d) : k ≤ (shortest x).exponent := by
  have hs : ((onGrid? x k).map fun d => (⟨d, k⟩ : Decimal)).isSome = true := by
    rw [Option.isSome_map]
    exact h.isSome
  obtain ⟨e, he, hle⟩ := findSome_pairwise gridExponents_pairwise (shortest_found x) hk hs
  obtain ⟨_, _, he⟩ := Option.map_eq_some_iff.mp he
  rw [← he]
  rcases hle with rfl | hlt
  · exact le_rfl
  · exact Int.le_of_lt hlt

theorem shortest_reads (x : Float) : OnGrid x (shortest x).exponent (shortest x).digits :=
  readsBack_of_onGrid (shortest_onGrid x)

theorem exponent_mem (x : Float) : (shortest x).exponent ∈ gridExponents := by
  obtain ⟨k, hk, he⟩ := List.exists_of_findSome?_eq_some (shortest_found x)
  obtain ⟨_, _, he⟩ := Option.map_eq_some_iff.mp he
  rw [← he]
  exact hk

theorem onGrid_coarser (hk : k < 0) (h : OnGrid x k (d * 10)) : OnGrid x (k + 1) d := by
  have h0 : k.toNat = 0 := by omega
  have h1 : (k + 1).toNat = 0 := by omega
  have hs : tenTo (-k).toNat = tenTo (-(k + 1)).toNat * 10 := by
    have hn : (-k).toNat = (-(k + 1)).toNat + 1 := by omega
    rw [hn]
    exact Nat.pow_succ 10 _
  rw [OnGrid, h0, hs, Nat.mul_right_comm, readsBack_scaled (by decide)] at h
  rw [OnGrid, h1]
  exact h

theorem digits_mod_ten (h : (shortest x).exponent < 0) : (shortest x).digits % 10 ≠ 0 := by
  intro h0
  have hd : (shortest x).digits = (shortest x).digits / 10 * 10 := by omega
  have hr := shortest_reads x
  rw [hd] at hr
  have hmem := mem_gridExponents.mp (exponent_mem x)
  -- without the zero the decimal would lie on the next coarser grid
  have hle := coarsest (mem_gridExponents.mpr ⟨by omega, by omega⟩) (onGrid_coarser h hr)
  omega

theorem digits_ne_zero (h : magnitude x ≠ 0) : (shortest x).digits ≠ 0 := by
  intro h0
  have hr := shortest_reads x
  rw [OnGrid, h0, Nat.zero_mul] at hr
  have hn := near_of_readsBack (tenTo_pos _) hr
  rw [Nat.cast_zero, zero_div] at hn
  exact (hn.pos (mt magnitude_eq_zero.mpr h)).false

theorem onGrid_ones (h : unitsPerOne ∣ magnitude x) : OnGrid x 0 (magnitude x / unitsPerOne) := by
  have hself := readsBack_self (x := x) 1 Nat.one_pos
  have hq : magnitude x / unitsPerOne * (4 * unitsPerOne) = 4 * magnitude x := by
    rw [Nat.mul_left_comm, Nat.div_mul_cancel h]
  have h0 : tenTo 0 = 1 := rfl
  rw [OnGrid, Int.neg_zero, Int.toNat_zero, h0, Nat.mul_one, hq, ← Nat.mul_one (4 * _)]
  exact hself

theorem spacingBelow_le_spacing (x : Float) : spacingBelow x ≤ spacing x := by
  rw [spacingBelow]
  split
  · exact Nat.pow_le_pow_right (by decide) (Nat.sub_le_sub_left (by decide) _)
  · exact le_rfl

/-- Within half a step of a double there is no other multiple of the step. -/
theorem Near.eq_of_dvd (h : Near x d) (hd : spacing x ∣ d) : d = magnitude x := by
  obtain ⟨c, rfl⟩ := hd
  have hs : (0 : ℚ) < spacing x := Nat.cast_pos.mpr (spacing_pos x)
  have hb : (spacingBelow x : ℚ) ≤ spacing x := Nat.cast_le.mpr (spacingBelow_le_spacing x)
  have hl := h.lower
  have hu := h.upper
  rw [magnitude_mantissa, Nat.cast_mul, Nat.cast_mul] at hl hu
  have hlt : (c : ℚ) < mantissa x + 1 := by
    rw [← mul_lt_mul_iff_right₀ hs]
    linarith
  have hgt : (mantissa x : ℚ) < c + 1 := by
    rw [← mul_lt_mul_iff_right₀ hs]
    linarith
  have hlt : c < mantissa x + 1 := by exact_mod_cast hlt
  have hgt : mantissa x < c + 1 := by exact_mod_cast hgt
  have hc : c = mantissa x := by omega
  rw [magnitude_mantissa, hc, Nat.mul_comm]

theorem twoTo_dvd {m n : Nat} (h : m ≤ n) : twoTo m ∣ twoTo n := Nat.pow_dvd_pow 2 h

/-- A point is written only behind the whole part of what is not whole. -/
theorem exponent_nonneg : 0 ≤ (shortest x).exponent ↔ unitsPerOne ∣ magnitude x := by
  constructor
  · intro h
    -- spacings up to one divide one, and the larger ones are whole themselves
    by_cases hs : biasedExponent x - 1 ≤ 1074
    · have h0 : (-(shortest x).exponent).toNat = 0 := by omega
      have hn := near_of_readsBack (tenTo_pos _) (shortest_reads x)
      have hone : tenTo 0 = 1 := rfl
      have hq : (((shortest x).digits * (4 * unitsPerOne * tenTo (shortest x).exponent.toNat) :
          Nat) : ℚ) / (4 * (tenTo 0 : Nat)) =
          ((shortest x).digits * tenTo (shortest x).exponent.toNat * unitsPerOne : Nat) := by
        rw [hone]
        push_cast
        ring
      rw [h0, hq] at hn
      rw [← hn.eq_of_dvd ((twoTo_dvd hs).trans (Nat.dvd_mul_left _ _))]
      exact Nat.dvd_mul_left _ _
    · rw [magnitude_mantissa]
      exact (twoTo_dvd (Nat.le_of_not_le hs)).trans (Nat.dvd_mul_left _ _)
  · exact fun h => coarsest (mem_gridExponents.mpr ⟨by decide, by decide⟩) (onGrid_ones h)

end LabelPrinter.Number

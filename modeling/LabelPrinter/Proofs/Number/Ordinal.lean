import Mathlib.Order.Monotone.Basic
import Mathlib.Tactic.Ring
import LabelPrinter.Number.Shortest

/-!
The doubles of one sign in order. Their magnitudes grow with their place in it, each by the spacing
of the one before, so that no decimal reads back as two of them.
-/

namespace LabelPrinter.Number

def ordinal (x : Float) : Nat := x.toBits.toNat % twoTo 63

/-- The magnitude of the double at a place. -/
def sizeAt (n : Nat) : Nat :=
  if n / twoTo 52 = 0 then n % twoTo 52
  else (twoTo 52 + n % twoTo 52) * twoTo (n / twoTo 52 - 1)

/-- The distance from a place to the next. -/
def gapAt (n : Nat) : Nat := twoTo (n / twoTo 52 - 1)

theorem twoTo_pos (n : Nat) : 0 < twoTo n := Nat.pow_pos (by decide)

theorem tenTo_pos (n : Nat) : 0 < tenTo n := Nat.pow_pos (by decide)

theorem twoTo_succ (n : Nat) : twoTo (n + 1) = 2 * twoTo n := Nat.pow_succ'

theorem twoTo_fifty_two : twoTo 52 = 4503599627370496 := by decide

theorem fraction_eq (x : Float) : fraction x = ordinal x % twoTo 52 := by
  have h : twoTo 52 ∣ twoTo 63 := by decide
  rw [fraction, ordinal, Nat.mod_mod_of_dvd _ h]

theorem biasedExponent_eq (x : Float) : biasedExponent x = ordinal x / twoTo 52 := by
  have h : twoTo 63 = twoTo 52 * twoTo 11 := by decide
  rw [biasedExponent, ordinal, h, Nat.mod_mul_right_div_self]

theorem magnitude_eq (x : Float) : magnitude x = sizeAt (ordinal x) := by
  rw [magnitude, sizeAt, fraction_eq, biasedExponent_eq]

theorem spacing_eq (x : Float) : spacing x = gapAt (ordinal x) := by
  rw [spacing, gapAt, biasedExponent_eq]

theorem gapAt_pos (n : Nat) : 0 < gapAt n := twoTo_pos _

theorem next_in_binade {n : Nat} (h : n % twoTo 52 + 1 < twoTo 52) :
    (n + 1) / twoTo 52 = n / twoTo 52 ∧ (n + 1) % twoTo 52 = n % twoTo 52 + 1 := by
  rw [twoTo_fifty_two] at *
  omega

theorem next_binade {n : Nat} (h : ¬ n % twoTo 52 + 1 < twoTo 52) :
    (n + 1) / twoTo 52 = n / twoTo 52 + 1 ∧ (n + 1) % twoTo 52 = 0 ∧
      n % twoTo 52 + 1 = twoTo 52 := by
  rw [twoTo_fifty_two] at *
  omega

theorem sizeAt_succ (n : Nat) : sizeAt (n + 1) = sizeAt n + gapAt n := by
  by_cases h : n % twoTo 52 + 1 < twoTo 52
  · obtain ⟨hd, hm⟩ := next_in_binade h
    rw [sizeAt, sizeAt, gapAt, hd, hm]
    by_cases he : n / twoTo 52 = 0
    · rw [if_pos he, if_pos he, he]
      rfl
    · rw [if_neg he, if_neg he]
      ring
  · obtain ⟨hd, hm, hf⟩ := next_binade h
    rw [sizeAt, sizeAt, gapAt, hd, hm, if_neg (Nat.succ_ne_zero _), Nat.add_sub_cancel]
    by_cases he : n / twoTo 52 = 0
    · rw [if_pos he, he]
      exact hf.symm.trans rfl
    · obtain ⟨e, he'⟩ := Nat.exists_eq_succ_of_ne_zero he
      rw [if_neg he, he', Nat.succ_eq_add_one, Nat.add_sub_cancel, twoTo_succ e]
      rw [← Nat.add_one_mul, Nat.add_assoc, hf]
      ring

theorem sizeAt_strictMono : StrictMono sizeAt := by
  apply strictMono_nat_of_lt_succ
  intro n
  rw [sizeAt_succ]
  exact Nat.lt_add_of_pos_right (gapAt_pos n)

theorem spacingBelow_succ {x : Float} {n : Nat} (h : ordinal x = n + 1) :
    spacingBelow x = gapAt n := by
  rw [spacingBelow, spacing_eq, fraction_eq, biasedExponent_eq, h]
  by_cases hn : n % twoTo 52 + 1 < twoTo 52
  · obtain ⟨hd, hm⟩ := next_in_binade hn
    rw [if_neg (by omega), gapAt, gapAt, hd]
  · obtain ⟨hd, hm, -⟩ := next_binade hn
    by_cases he : 1 < (n + 1) / twoTo 52
    · rw [if_pos ⟨hm, he⟩, gapAt, hd]
      rfl
    · have h0 : n / twoTo 52 = 0 := by
        rw [hd] at he
        exact Nat.eq_zero_of_not_pos fun hp => he (Nat.succ_lt_succ hp)
      rw [if_neg (fun h => he h.2), gapAt, gapAt, hd, h0]

/-- What reads back as the smaller of two doubles lies below what reads back as the larger one,
save for one midpoint, and that belongs to the even one. -/
theorem bounds_apart {x y : Float} (h : ordinal x < ordinal y) :
    4 * magnitude x + 2 * spacing x ≤ 4 * magnitude y - 2 * spacingBelow y ∧
      (fraction x % 2 = 0 → fraction y % 2 = 0 →
        4 * magnitude x + 2 * spacing x < 4 * magnitude y - 2 * spacingBelow y) := by
  obtain ⟨n, hn⟩ : ∃ n, ordinal y = n + 1 := ⟨ordinal y - 1, by omega⟩
  have hx : magnitude x + spacing x = sizeAt (ordinal x + 1) := by
    rw [magnitude_eq, spacing_eq, sizeAt_succ]
  have hy : magnitude y = sizeAt n + spacingBelow y := by
    rw [magnitude_eq, hn, sizeAt_succ, spacingBelow_succ hn]
  have hxn : magnitude x ≤ sizeAt n := by
    rw [magnitude_eq]
    exact sizeAt_strictMono.monotone (by omega)
  have hxy : magnitude x + spacing x ≤ magnitude y := by
    rw [hx, magnitude_eq y]
    exact sizeAt_strictMono.monotone (by omega)
  refine ⟨by omega, fun hex hey => ?_⟩
  -- two even doubles are never neighbours, so there is another double between them
  have hne : ordinal x + 1 ≠ ordinal y := by
    intro heq
    rw [fraction_eq, twoTo_fifty_two] at hex hey
    omega
  have hlt : magnitude x + spacing x < magnitude y := by
    rw [hx, magnitude_eq y]
    exact sizeAt_strictMono (by omega)
  omega

theorem not_readsBack_both {x y : Float} {q s : Nat} (h : ordinal x < ordinal y) (hs : 0 < s)
    (hx : readsBack x q s = true) (hy : readsBack y q s = true) : False := by
  obtain ⟨hle, hlt⟩ := bounds_apart h
  have hle := Nat.mul_le_mul_right s hle
  simp only [readsBack] at hx hy
  split at hx <;> split at hy <;>
    simp only [Bool.and_eq_true, decide_eq_true_eq] at hx hy
  · have hlt := Nat.mul_lt_mul_of_pos_right (hlt ‹_› ‹_›) hs
    omega
  all_goals omega

theorem ordinal_eq_of_readsBack {x y : Float} {q s : Nat} (hs : 0 < s)
    (hx : readsBack x q s = true) (hy : readsBack y q s = true) : ordinal x = ordinal y := by
  rcases Nat.lt_trichotomy (ordinal x) (ordinal y) with h | h | h
  · exact (not_readsBack_both h hs hx hy).elim
  · exact h
  · exact (not_readsBack_both h hs hy hx).elim

theorem toBits_injective {x y : Float} (h : x.toBits = y.toBits) : x = y := by
  obtain ⟨⟨b, hb⟩⟩ := x
  obtain ⟨⟨c, hc⟩⟩ := y
  obtain rfl : b = c := h
  rfl

theorem eq_of_sign_of_ordinal {x y : Float} (hs : isNegative x = isNegative y)
    (ho : ordinal x = ordinal y) : x = y := by
  apply toBits_injective
  apply UInt64.toNat_inj.mp
  have h63 : twoTo 63 = 9223372036854775808 := by decide
  have hx := x.toBits.toNat_lt
  have hy := y.toBits.toNat_lt
  simp only [isNegative, decide_eq_decide] at hs
  simp only [ordinal, h63] at hs ho
  omega

end LabelPrinter.Number

import Mathlib.Data.List.TakeWhile
import LabelPrinter.Number.Shortest

/-!
Number texts read as exact decimals.
-/

namespace LabelPrinter.Number

/-- The digits of a text without its point. -/
def numerator (t : List Char) : Nat := Nat.ofDigitChars 10 (t.filter (· != '.')) 0

/-- How many digits stand behind the point. -/
def places (t : List Char) : Nat := (t.dropWhile (· != '.')).length - 1

def IsDecimal (t : List Char) : Prop := t ≠ [] ∧ ∀ c ∈ t, c.isDigit = true ∨ c = '.'

theorem isDigit_of_mem_written {n : Nat} {c : Char} (h : c ∈ Nat.toDigits 10 n) :
    c.isDigit = true :=
  Nat.isDigit_of_mem_toDigits (by decide) (by decide) h

theorem isDigit_of_mem_zeros {n : Nat} {c : Char} (h : c ∈ Decimal.zeros n) :
    c.isDigit = true := by
  rw [List.eq_of_mem_replicate h]
  decide

theorem not_point_of_isDigit {c : Char} (h : c.isDigit = true) : (c != '.') = true := by
  rw [bne_iff_ne]
  rintro rfl
  exact absurd h (by decide)

theorem filter_digits {t : List Char} (h : ∀ c ∈ t, c.isDigit = true) :
    t.filter (· != '.') = t :=
  List.filter_eq_self.mpr fun c hc => not_point_of_isDigit (h c hc)

theorem dropWhile_digits {t u : List Char} (h : ∀ c ∈ t, c.isDigit = true) :
    (t ++ '.' :: u).dropWhile (· != '.') = '.' :: u := by
  rw [List.dropWhile_append_of_pos fun c hc => not_point_of_isDigit (h c hc)]
  rfl

theorem places_digits {t : List Char} (h : ∀ c ∈ t, c.isDigit = true) : places t = 0 := by
  have h : t.dropWhile (· != '.') = [] :=
    List.dropWhile_eq_nil_iff.mpr fun c hc => not_point_of_isDigit (h c hc)
  rw [places, h]
  rfl

theorem repr_inj {m n : Nat} : m.repr = n.repr ↔ m = n := by
  refine ⟨fun h => ?_, congrArg _⟩
  have ht := congrArg String.toList h
  rw [Nat.toList_repr, Nat.toList_repr] at ht
  rw [← @Nat.ofDigitChars_ten_toDigits m, ht, Nat.ofDigitChars_ten_toDigits]

section Decimal

variable (d : Decimal)

/-- Digits enough that at least one of them stands in front of the point. -/
def padded : List Char :=
  Decimal.zeros ((-d.exponent).toNat + 1 - (Nat.toDigits 10 d.digits).length) ++
    Nat.toDigits 10 d.digits

theorem isDigit_of_mem_padded {c : Char} (h : c ∈ padded d) : c.isDigit = true := by
  rcases List.mem_append.mp h with h | h
  · exact isDigit_of_mem_zeros h
  · exact isDigit_of_mem_written h

theorem lt_length_padded : (-d.exponent).toNat < (padded d).length := by
  simp only [padded, Decimal.zeros, List.length_append, List.length_replicate]
  omega

theorem toChars_whole (h : 0 ≤ d.exponent) :
    d.toChars = Nat.toDigits 10 d.digits ++ Decimal.zeros d.exponent.toNat := by
  rw [Decimal.toChars, if_pos h]

theorem toChars_pointed (h : ¬ 0 ≤ d.exponent) :
    d.toChars = (padded d).take ((padded d).length - (-d.exponent).toNat) ++
      '.' :: (padded d).drop ((padded d).length - (-d.exponent).toNat) := by
  rw [Decimal.toChars, if_neg h]
  rfl

theorem isDigit_of_mem_whole {c : Char}
    (h : c ∈ Nat.toDigits 10 d.digits ++ Decimal.zeros d.exponent.toNat) : c.isDigit = true := by
  rcases List.mem_append.mp h with h | h
  · exact isDigit_of_mem_written h
  · exact isDigit_of_mem_zeros h

theorem isDecimal_toChars : IsDecimal d.toChars := by
  by_cases h : 0 ≤ d.exponent
  · rw [toChars_whole d h]
    refine ⟨?_, fun c hc => .inl (isDigit_of_mem_whole d hc)⟩
    exact List.append_ne_nil_of_left_ne_nil Nat.toDigits_ne_nil _
  · rw [toChars_pointed d h]
    refine ⟨List.append_ne_nil_of_right_ne_nil _ (List.cons_ne_nil _ _), fun c hc => ?_⟩
    rcases List.mem_append.mp hc with hc | hc
    · exact .inl (isDigit_of_mem_padded d (List.mem_of_mem_take hc))
    · rcases List.mem_cons.mp hc with hc | hc
      · exact .inr hc
      · exact .inl (isDigit_of_mem_padded d (List.mem_of_mem_drop hc))

theorem numerator_toChars : numerator d.toChars = d.digits * tenTo d.exponent.toNat := by
  by_cases h : 0 ≤ d.exponent
  · rw [toChars_whole d h, numerator, filter_digits fun c hc => isDigit_of_mem_whole d hc]
    rw [Nat.ofDigitChars_append, Nat.ofDigitChars_ten_toDigits, Decimal.zeros,
      Nat.ofDigitChars_replicate_zero, Nat.mul_comm]
    rfl
  · have hf : d.toChars.filter (· != '.') = padded d := by
      rw [toChars_pointed d h, List.filter_append, List.filter_cons_of_neg (by decide),
        ← List.filter_append, List.take_append_drop]
      exact filter_digits fun c hc => isDigit_of_mem_padded d hc
    have he : d.exponent.toNat = 0 := by omega
    rw [numerator, hf, padded, Nat.ofDigitChars_append, Decimal.zeros,
      Nat.ofDigitChars_replicate_zero, Nat.mul_zero, Nat.ofDigitChars_ten_toDigits, he]
    exact (Nat.mul_one _).symm

theorem places_toChars : places d.toChars = (-d.exponent).toNat := by
  by_cases h : 0 ≤ d.exponent
  · rw [toChars_whole d h, places_digits fun c hc => isDigit_of_mem_whole d hc]
    omega
  · have hl := lt_length_padded d
    rw [toChars_pointed d h, places,
      dropWhile_digits fun c hc => isDigit_of_mem_padded d (List.mem_of_mem_take hc)]
    rw [List.length_cons, List.length_drop]
    omega

end Decimal

end LabelPrinter.Number

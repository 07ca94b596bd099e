import LabelPrinter.Proofs.Number.Coarsest

/-!
How numbers are written: by the digits of positional notation and no more of them than are needed.
-/

namespace LabelPrinter.Number

/-- The digits in front of the point. Zero stands there only by itself. -/
structure IsWhole (t : List Char) : Prop where
  nonempty : t ≠ []
  digits : ∀ c ∈ t, c.isDigit = true
  leading : t.head? = some '0' → t = ['0']

/-- The digits behind the point. -/
structure IsFraction (t : List Char) : Prop where
  nonempty : t ≠ []
  digits : ∀ c ∈ t, c.isDigit = true
  trailing : t.getLast? ≠ some '0'

/-- A number without a sign. -/
inductive IsUnsigned : List Char → Prop
  | whole {w : List Char} : IsWhole w → IsUnsigned w
  | pointed {w f : List Char} : IsWhole w → IsFraction f → IsUnsigned (w ++ '.' :: f)

inductive IsNumeral : List Char → Prop
  | unsigned {t : List Char} : IsUnsigned t → IsNumeral t
  | negative {t : List Char} : IsUnsigned t → IsNumeral ('-' :: t)

section Digits

variable {n : Nat}

theorem head_toDigits (h : n ≠ 0) : (Nat.toDigits 10 n).head? ≠ some '0' := by
  induction n using Nat.strongRecOn with
  | ind n ih =>
    rcases Nat.lt_or_ge n 10 with hn | hn
    · rw [Nat.toDigits_of_lt_base hn, List.head?_cons, ne_eq, Option.some.injEq,
        Nat.digitChar_eq_zero]
      exact h
    · have hne : Nat.toDigits 10 (n / 10) ≠ [] := Nat.toDigits_ne_nil
      rw [Nat.toDigits_of_base_le (by decide) hn, List.head?_append_of_ne_nil _ hne]
      exact ih (n / 10) (by omega) (by omega)

theorem last_toDigits (n : Nat) : (Nat.toDigits 10 n).getLast? = some (n % 10).digitChar := by
  rcases Nat.lt_or_ge n 10 with hn | hn
  · rw [Nat.toDigits_of_lt_base hn, Nat.mod_eq_of_lt hn]
    rfl
  · rw [Nat.toDigits_of_base_le (by decide) hn, List.getLast?_concat]

theorem isWhole_toDigits (n : Nat) : IsWhole (Nat.toDigits 10 n) where
  nonempty := Nat.toDigits_ne_nil
  digits := fun _ hc => isDigit_of_mem_written hc
  leading := fun h => by
    by_cases h0 : n = 0
    · rw [h0]
      rfl
    · exact absurd h (head_toDigits h0)

end Digits

variable {d : Decimal} {x : Float}

theorem isWhole_toChars (h : 0 ≤ d.exponent) (hd : d.digits ≠ 0) : IsWhole d.toChars where
  nonempty := (isDecimal_toChars d).1
  digits := fun c hc => isDigit_of_mem_whole d (toChars_whole d h ▸ hc)
  leading := fun hz => by
    rw [toChars_whole d h, List.head?_append_of_ne_nil _ Nat.toDigits_ne_nil] at hz
    exact absurd hz (head_toDigits hd)

/-- In front of the point stands a digit of the number or, if there is none, one zero. -/
theorem isWhole_padded (hd : d.digits ≠ 0) :
    IsWhole ((padded d).take ((padded d).length - (-d.exponent).toNat)) where
  nonempty := by
    have hl := lt_length_padded d
    rw [ne_eq, List.take_eq_nil_iff, not_or, ← List.length_eq_zero_iff]
    omega
  digits := fun c hc => isDigit_of_mem_padded d (List.mem_of_mem_take hc)
  leading := fun hz => by
    have hl := lt_length_padded d
    rw [List.head?_take, if_neg (by omega)] at hz
    -- either no zero was put in front, or just so many that one digit is left here
    rcases Nat.eq_zero_or_pos ((-d.exponent).toNat + 1 - (Nat.toDigits 10 d.digits).length)
      with hn | hn
    · rw [padded, hn] at hz
      exact absurd hz (head_toDigits hd)
    · have hlen : (padded d).length = (-d.exponent).toNat + 1 := by
        simp only [padded, Decimal.zeros, List.length_append, List.length_replicate]
        omega
      have hone : (padded d).length - (-d.exponent).toNat = 1 := by omega
      rw [hone]
      cases hp : padded d with
      | nil => rw [hp] at hz; cases hz
      | cons c t =>
        rw [hp, List.head?_cons, Option.some.injEq] at hz
        rw [hz]
        rfl

theorem isFraction_padded (h : d.exponent < 0) (hd : d.digits % 10 ≠ 0) :
    IsFraction ((padded d).drop ((padded d).length - (-d.exponent).toNat)) where
  nonempty := by
    have hl := lt_length_padded d
    rw [ne_eq, List.drop_eq_nil_iff]
    omega
  digits := fun c hc => isDigit_of_mem_padded d (List.mem_of_mem_drop hc)
  trailing := by
    have hl := lt_length_padded d
    rw [List.getLast?_drop, if_neg (by omega), padded, List.getLast?_append, last_toDigits,
      Option.some_or, ne_eq, Option.some.injEq, Nat.digitChar_eq_zero]
    exact hd

/-- The wire form of a double without its sign has a point if and only if it is not whole. -/
theorem unsigned_shape (hx : x.isFinite = true) :
    (isIntegral x = true ∧ IsWhole (unsigned x)) ∨
      (isIntegral x ≠ true ∧ ∃ w f, unsigned x = w ++ '.' :: f ∧ IsWhole w ∧ IsFraction f) := by
  have hint : isIntegral x = true ↔ 0 ≤ (shortest x).exponent := by
    simp [exponent_nonneg, isIntegral, hx, Nat.dvd_iff_mod_eq_zero]
  by_cases hi : isIntegral x = true
  · refine .inl ⟨hi, ?_⟩
    rw [unsigned]
    split
    · exact isWhole_toDigits _
    · next h =>
      have hm : magnitude x ≠ 0 := fun h0 => h (by simp [hi, h0, twoTo_pos])
      exact isWhole_toChars (hint.mp hi) (digits_ne_zero hm)
  · have he : (shortest x).exponent < 0 := lt_of_not_ge (mt hint.mpr hi)
    have hd := digits_mod_ten he
    refine .inr ⟨hi, _, _, ?_, isWhole_padded fun h0 => hd (by rw [h0]), isFraction_padded he hd⟩
    rw [unsigned, if_neg (by simp [hi]), toChars_pointed _ he.not_ge]

theorem isNumeral_number (hx : x.isFinite = true) : IsNumeral (number x).toList := by
  have hu : IsUnsigned (unsigned x) := by
    rcases unsigned_shape hx with ⟨-, hw⟩ | ⟨-, w, f, heq, hw, hf⟩
    · exact .whole hw
    · rw [heq]
      exact .pointed hw hf
  rw [number_toList hx]
  rcases sign_eq x with hs | hs <;> rw [hs]
  · exact .negative hu
  · exact .unsigned hu

theorem point_mem_number (hx : x.isFinite = true) :
    '.' ∈ (number x).toList ↔ isIntegral x ≠ true := by
  have hs : '.' ∉ sign x := by
    rcases sign_eq x with hs | hs <;> rw [hs] <;> decide
  rw [number_toList hx, List.mem_append, or_iff_right hs]
  rcases unsigned_shape hx with ⟨hi, hw⟩ | ⟨hi, w, f, heq, -⟩
  · exact ⟨fun h => absurd (hw.digits _ h) (by decide), fun h => absurd hi h⟩
  · rw [heq]
    exact ⟨fun _ => hi, fun _ => List.mem_append_right _ List.mem_cons_self⟩

end LabelPrinter.Number

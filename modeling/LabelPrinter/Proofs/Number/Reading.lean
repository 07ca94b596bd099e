import LabelPrinter.Number.Shortest
import LabelPrinter.Proofs.Number.Decimal
import LabelPrinter.Proofs.Number.Ordinal

/-!
The search for the shortest decimal always ends with one, and the text of a finite double reads back
as that double.
-/

namespace LabelPrinter.Number

theorem readsBack_of_onGrid {x : Float} {k : Int} {d : Nat} (h : onGrid? x k = some d) :
    readsBack x (d * (4 * unitsPerOne * tenTo k.toNat)) (tenTo (-k).toNat) = true := by
  simp only [onGrid?] at h
  split at h
  · next hd hu =>
    rw [Option.some.injEq] at h
    subst h
    split
    · exact hd
    · exact hu
  · next hd _ =>
    rw [Option.some.injEq] at h
    subst h
    exact hd
  · next hu =>
    rw [Option.some.injEq] at h
    subst h
    exact hu
  · cases h

theorem readsBack_self {x : Float} (s : Nat) (hs : 0 < s) :
    readsBack x (4 * magnitude x * s) s = true := by
  have hlow : (4 * magnitude x - 2 * spacingBelow x) * s ≤ 4 * magnitude x * s :=
    Nat.mul_le_mul_right s (Nat.sub_le _ _)
  have hsp : 0 < spacing x := spacing_eq x ▸ gapAt_pos _
  have hhigh : 4 * magnitude x * s < (4 * magnitude x + 2 * spacing x) * s :=
    Nat.mul_lt_mul_of_pos_right (by omega) hs
  simp only [readsBack]
  split
  · simp only [Bool.and_eq_true, decide_eq_true_eq]
    exact ⟨hlow, hhigh.le⟩
  · next hodd =>
    have hb : 0 < spacingBelow x := by
      rw [spacingBelow, if_neg (by omega)]
      exact hsp
    have hm : 0 < magnitude x := by
      rw [magnitude]
      split
      · omega
      · exact Nat.mul_pos (Nat.add_pos_left (twoTo_pos _) _) (twoTo_pos _)
    simp only [Bool.and_eq_true, decide_eq_true_eq]
    exact ⟨Nat.mul_lt_mul_of_pos_right (by omega) hs, hhigh⟩

theorem tenTo_eq (n : Nat) : tenTo n = twoTo n * 5 ^ n := Nat.mul_pow 2 5 n

/-- The last grid holds every double, so the search never ends without a decimal. -/
theorem onGrid_last (x : Float) {n : Nat} (hn : unitsPerOne = twoTo n) :
    ∃ d, onGrid? x (-n) = some d := by
  have hscale : tenTo (Int.toNat (- -(n : Int))) = unitsPerOne * 5 ^ n := by
    rw [neg_neg, Int.toNat_natCast, hn, tenTo_eq]
  have hone : tenTo (Int.toNat (-(n : Int))) = 1 := by
    have h0 : Int.toNat (-(n : Int)) = 0 := by omega
    rw [h0]
    rfl
  have hstep : 0 < 4 * unitsPerOne * tenTo (Int.toNat (-(n : Int))) :=
    Nat.mul_pos (Nat.mul_pos (by decide) (twoTo_pos _)) (tenTo_pos _)
  have hvalue : 4 * magnitude x * tenTo (Int.toNat (- -(n : Int))) =
      magnitude x * 5 ^ n * (4 * unitsPerOne * tenTo (Int.toNat (-(n : Int)))) := by
    rw [hscale, hone]
    ring
  have hr := readsBack_self (x := x) (tenTo (Int.toNat (- -(n : Int)))) (tenTo_pos _)
  rw [hvalue] at hr
  simp only [onGrid?]
  rw [hvalue, Nat.mul_div_cancel _ hstep, hr]
  split
  · exact ⟨_, rfl⟩
  · exact ⟨_, rfl⟩
  · next h _ => cases h
  · next h _ => cases h

theorem last_mem_gridExponents : (-1074 : Int) ∈ gridExponents :=
  List.mem_map.mpr ⟨1382, List.mem_range.mpr (by decide), rfl⟩

theorem shortest_found (x : Float) :
    (gridExponents.findSome? fun k => (onGrid? x k).map fun d => ⟨d, k⟩) = some (shortest x) := by
  obtain ⟨d, hd⟩ : ∃ d, onGrid? x (-1074) = some d := onGrid_last x (n := 1074) rfl
  cases hf : gridExponents.findSome? fun k => (onGrid? x k).map fun d => (⟨d, k⟩ : Decimal) with
  | none =>
    have h := List.findSome?_eq_none_iff.mp hf (-1074) last_mem_gridExponents
    rw [hd] at h
    cases h
  | some e => rw [shortest, hf, Option.getD_some]

theorem shortest_onGrid (x : Float) :
    onGrid? x (shortest x).exponent = some (shortest x).digits := by
  obtain ⟨k, -, hk⟩ := List.exists_of_findSome?_eq_some (shortest_found x)
  obtain ⟨d, hd, he⟩ := Option.map_eq_some_iff.mp hk
  rw [← he]
  exact hd

/-- The wire form of a finite double without its sign. -/
def unsigned (x : Float) : List Char :=
  if isIntegral x && magnitude x / unitsPerOne < twoTo 63 then
    Nat.toDigits 10 (magnitude x / unitsPerOne)
  else (shortest x).toChars

def sign (x : Float) : List Char := if isNegative x ∧ magnitude x ≠ 0 then ['-'] else []

theorem isDecimal_unsigned (x : Float) : IsDecimal (unsigned x) := by
  rw [unsigned]
  split
  · exact ⟨Nat.toDigits_ne_nil, fun c hc => .inl (isDigit_of_mem_written hc)⟩
  · exact isDecimal_toChars _

theorem number_toList {x : Float} (hx : x.isFinite = true) :
    (number x).toList = sign x ++ unsigned x := by
  have hzero : magnitude x = 0 → isIntegral x = true ∧ magnitude x / unitsPerOne < twoTo 63 := by
    intro h
    simp [isIntegral, hx, h, twoTo_pos]
  rw [number, unsigned, sign]
  split
  · rw [String.toList_append, Nat.toList_repr]
    by_cases hm : magnitude x = 0 <;> by_cases hn : isNegative x = true <;> simp [hm, hn]
  · next h =>
    have hm : magnitude x ≠ 0 := fun h0 => h (by simpa using hzero h0)
    rw [String.toList_append, String.toList_ofList]
    by_cases hn : isNegative x = true <;> simp [hm, hn]

theorem readsBack_unsigned (x : Float) :
    readsBack x (numerator (unsigned x) * (4 * unitsPerOne)) (tenTo (places (unsigned x))) =
      true := by
  rw [unsigned]
  split
  · next h =>
    simp only [isIntegral, Bool.and_eq_true, decide_eq_true_eq] at h
    have hm : magnitude x / unitsPerOne * unitsPerOne = magnitude x :=
      Nat.div_mul_cancel (Nat.dvd_of_mod_eq_zero h.1.2)
    have hd : ∀ c ∈ Nat.toDigits 10 (magnitude x / unitsPerOne), c.isDigit = true :=
      fun c hc => isDigit_of_mem_written hc
    have hq : magnitude x / unitsPerOne * (4 * unitsPerOne) = 4 * magnitude x * tenTo 0 := by
      calc magnitude x / unitsPerOne * (4 * unitsPerOne)
          = 4 * (magnitude x / unitsPerOne * unitsPerOne) := by ring
        _ = 4 * magnitude x * tenTo 0 := by rw [hm]; exact (Nat.mul_one _).symm
    rw [places_digits hd, numerator, filter_digits hd, Nat.ofDigitChars_ten_toDigits, hq]
    exact readsBack_self _ (tenTo_pos _)
  · have hr := readsBack_of_onGrid (shortest_onGrid x)
    rw [numerator_toChars, places_toChars]
    have hq : ∀ d t : Nat, d * t * (4 * unitsPerOne) = d * (4 * unitsPerOne * t) := by
      intro d t
      ring
    rw [hq]
    exact hr

theorem minus_not_mem_unsigned {x : Float} : '-' ∉ unsigned x := by
  intro h
  rcases (isDecimal_unsigned x).2 _ h with h | h <;> exact absurd h (by decide)

theorem sign_eq (x : Float) : sign x = ['-'] ∨ sign x = [] := by
  rw [sign]
  split
  · exact .inl rfl
  · exact .inr rfl

theorem sign_unsigned_inj {x y : Float} (h : sign x ++ unsigned x = sign y ++ unsigned y) :
    sign x = sign y ∧ unsigned x = unsigned y := by
  have hx : '-' ∉ unsigned x := minus_not_mem_unsigned
  have hy : '-' ∉ unsigned y := minus_not_mem_unsigned
  rcases sign_eq x with hsx | hsx <;> rcases sign_eq y with hsy | hsy <;> rw [hsx, hsy] at h ⊢
  · exact ⟨rfl, (List.cons.inj h).2⟩
  · rw [List.nil_append] at h
    exact absurd (h ▸ List.mem_cons_self) hy
  · rw [List.nil_append] at h
    exact absurd (h ▸ List.mem_cons_self) hx
  · exact ⟨rfl, h⟩

theorem ordinal_eq_of_unsigned {x y : Float} (h : unsigned x = unsigned y) :
    ordinal x = ordinal y := by
  have hx := readsBack_unsigned x
  have hy := readsBack_unsigned y
  rw [h] at hx
  exact ordinal_eq_of_readsBack (tenTo_pos _) hx hy

end LabelPrinter.Number

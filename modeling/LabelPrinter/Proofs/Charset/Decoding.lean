import Mathlib.Tactic.SplitIfs
import LabelPrinter.Proofs.Charset.Encoding

/-!
Reading UTF-8 gives back the text that was written.
-/

namespace LabelPrinter.Utf8

/-- The byte behind the first that carries the last six bits of a number. -/
def trail (v : Nat) : UInt8 := UInt8.ofNat (v % 64 + 128)

theorem trail_toNat (v : Nat) : (trail v).toNat = v % 64 + 128 := by
  rw [trail, UInt8.toNat_ofNat']
  omega

theorem trail_between (v : Nat) : 0x80 ≤ trail v ∧ trail v ≤ 0xBF := by
  simp only [UInt8.le_iff_toNat_le, trail_toNat, UInt8.toNat_ofNat]
  omega

theorem bits_trail (v : Nat) : v / 64 * 64 + (trail v).toNat % 64 = v := by
  rw [trail_toNat]
  omega

variable {v owed : Nat} {low high : UInt8} {rest : List UInt8}

theorem decodeFrom_trail (h : low ≤ trail v ∧ trail v ≤ high) :
    decodeFrom (some ⟨owed + 2, low, high, v / 64⟩) (trail v :: rest) =
      decodeFrom (some ⟨owed + 1, 0x80, 0xBF, v⟩) rest := by
  simp [decodeFrom, step, h, bits_trail]

theorem decodeFrom_last (h : low ≤ trail v ∧ trail v ≤ high) :
    decodeFrom (some ⟨1, low, high, v / 64⟩) (trail v :: rest) =
      Char.ofNat v :: decodeFrom none rest := by
  simp [decodeFrom, step, h, bits_trail]

theorem start_eq (b : UInt8) :
    start b =
      if b.toNat < 0x80 then ([Char.ofNat b.toNat], none)
      else if b.toNat < 0xC2 then ([replacementChar], none)
      else if b.toNat < 0xE0 then ([], some ⟨1, 0x80, 0xBF, b.toNat % 32⟩)
      else if b.toNat = 0xE0 then ([], some ⟨2, 0xA0, 0xBF, b.toNat % 16⟩)
      else if b.toNat = 0xED then ([], some ⟨2, 0x80, 0x9F, b.toNat % 16⟩)
      else if b.toNat < 0xF0 then ([], some ⟨2, 0x80, 0xBF, b.toNat % 16⟩)
      else if b.toNat = 0xF0 then ([], some ⟨3, 0x90, 0xBF, b.toNat % 8⟩)
      else if b.toNat < 0xF4 then ([], some ⟨3, 0x80, 0xBF, b.toNat % 8⟩)
      else if b.toNat = 0xF4 then ([], some ⟨3, 0x80, 0x8F, b.toNat % 8⟩)
      else ([replacementChar], none) := by
  simp only [start, UInt8.lt_iff_toNat_lt, ← UInt8.toNat_inj, UInt8.toNat_ofNat, Nat.reducePow,
    Nat.reduceMod]

theorem start_two {b : UInt8} (hb : b.toNat = v / 64 + 0xC0) (hlow : 0x80 ≤ v) (hhigh : v < 0x800) :
    start b = ([], some ⟨1, 0x80, 0xBF, v / 64⟩) := by
  have hbits : b.toNat % 32 = v / 64 := by omega
  rw [start_eq, if_neg (by omega), if_neg (by omega), if_pos (by omega), hbits]

/-- The bounds of the second byte keep out what has a shorter form and the surrogates. -/
theorem start_three {b : UInt8} (hb : b.toNat = v / 64 / 64 + 0xE0) (hlow : 0x800 ≤ v)
    (hhigh : v < 0x10000) (hs : v < 0xD800 ∨ 0xDFFF < v) :
    ∃ low high, start b = ([], some ⟨2, low, high, v / 64 / 64⟩) ∧
      low ≤ trail (v / 64) ∧ trail (v / 64) ≤ high := by
  have hbits : b.toNat % 16 = v / 64 / 64 := by omega
  have h := trail_toNat (v / 64)
  rw [start_eq, if_neg (by omega), if_neg (by omega), if_neg (by omega), hbits]
  simp only [UInt8.le_iff_toNat_le, h]
  split_ifs
  · exact ⟨_, _, rfl, by simp only [UInt8.toNat_ofNat]; omega⟩
  · exact ⟨_, _, rfl, by simp only [UInt8.toNat_ofNat]; omega⟩
  · exact ⟨_, _, rfl, by simp only [UInt8.toNat_ofNat]; omega⟩
  all_goals omega

theorem start_four {b : UInt8} (hb : b.toNat = v / 64 / 64 / 64 + 0xF0) (hlow : 0x10000 ≤ v)
    (hhigh : v < 0x110000) :
    ∃ low high, start b = ([], some ⟨3, low, high, v / 64 / 64 / 64⟩) ∧
      low ≤ trail (v / 64 / 64) ∧ trail (v / 64 / 64) ≤ high := by
  have hbits : b.toNat % 8 = v / 64 / 64 / 64 := by omega
  have h := trail_toNat (v / 64 / 64)
  rw [start_eq, if_neg (by omega), if_neg (by omega), if_neg (by omega), if_neg (by omega),
    if_neg (by omega), if_neg (by omega), hbits]
  simp only [UInt8.le_iff_toNat_le, h]
  split_ifs
  · exact ⟨_, _, rfl, by simp only [UInt8.toNat_ofNat]; omega⟩
  · exact ⟨_, _, rfl, by simp only [UInt8.toNat_ofNat]; omega⟩
  · exact ⟨_, _, rfl, by simp only [UInt8.toNat_ofNat]; omega⟩
  · omega

theorem decodeFrom_start {b : UInt8} {t : Option Tail} (h : start b = ([], t)) :
    decodeFrom none (b :: rest) = decodeFrom t rest := by
  simp [decodeFrom, step, h]

theorem decodeFrom_encodeChar (c : Char) (rest : List UInt8) :
    decodeFrom none (String.utf8EncodeChar c ++ rest) = c :: decodeFrom none rest := by
  have hvalid : c.toNat < 0xD800 ∨ 0xDFFF < c.toNat ∧ c.toNat < 0x110000 := c.valid
  have hc : Char.ofNat c.toNat = c := Char.ofNat_toNat c
  have hmod (k : Nat) : (UInt8.ofNat k).toNat = k % 256 := UInt8.toNat_ofNat'
  generalize hv : c.toNat = v at hvalid hc
  simp only [String.utf8EncodeChar, Char.toNat_val, hv]
  split_ifs with h1 h2 h3
  · have hb : (UInt8.ofNat v).toNat = v := by rw [hmod]; omega
    simp only [List.singleton_append, decodeFrom, step, start_eq, hb]
    rw [if_pos (by omega), hc, List.singleton_append]
  · have hb : (UInt8.ofNat (v / 64 % 32 + 192)).toNat = v / 64 + 0xC0 := by rw [hmod]; omega
    simp only [List.cons_append, List.nil_append]
    rw [decodeFrom_start (start_two hb (by omega) (by omega))]
    exact (decodeFrom_last (trail_between v)).trans (congrArg (· :: _) hc)
  · have hb : (UInt8.ofNat (v / 4096 % 16 + 224)).toNat = v / 64 / 64 + 0xE0 := by rw [hmod]; omega
    obtain ⟨low, high, hs, hsecond⟩ := start_three hb (by omega) (by omega) (by omega)
    simp only [List.cons_append, List.nil_append]
    rw [decodeFrom_start hs]
    refine (decodeFrom_trail hsecond).trans ?_
    exact (decodeFrom_last (trail_between v)).trans (congrArg (· :: _) hc)
  · have hb : (UInt8.ofNat (v / 262144 % 8 + 240)).toNat = v / 64 / 64 / 64 + 0xF0 := by
      rw [hmod]
      omega
    have hthird : v / 4096 = v / 64 / 64 := by omega
    obtain ⟨low, high, hs, hsecond⟩ := start_four hb (by omega) (by omega)
    simp only [List.cons_append, List.nil_append]
    rw [decodeFrom_start hs, hthird]
    refine (decodeFrom_trail hsecond).trans ?_
    refine (decodeFrom_trail (trail_between (v / 64))).trans ?_
    exact (decodeFrom_last (trail_between v)).trans (congrArg (· :: _) hc)

theorem decode_encode (s : String) : decode (encode s) = s := by
  have h : decodeFrom none (s.toList.flatMap String.utf8EncodeChar) = s.toList := by
    induction s.toList with
    | nil => rfl
    | cons c l ih => rw [List.flatMap_cons, decodeFrom_encodeChar, ih]
  rw [decode, encode_eq_flatMap, h, String.ofList_toList]

end LabelPrinter.Utf8

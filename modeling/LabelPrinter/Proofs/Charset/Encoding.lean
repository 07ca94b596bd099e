import LabelPrinter.Charset.Utf8

/-!
UTF-8 encoding is one-to-one, cuts where the text is cut, and shows an ASCII byte only for the
ASCII character itself.
-/

namespace LabelPrinter.Utf8

def byte (c : Char) : UInt8 := UInt8.ofNat c.toNat

theorem encode_append (s t : String) : encode (s ++ t) = encode s ++ encode t := by
  simp [encode]

theorem encode_injective {s t : String} (h : encode s = encode t) : s = t := by
  apply String.toByteArray_inj.mp
  apply ByteArray.ext
  exact Array.toList_inj.mp h

theorem encode_eq_flatMap (s : String) : encode s = s.toList.flatMap String.utf8EncodeChar := by
  have h : (String.ofList s.toList).toByteArray.data.toList =
      s.toList.flatMap String.utf8EncodeChar := by
    rw [String.toByteArray_ofList, List.utf8Encode, List.data_toByteArray]
  rwa [String.ofList_toList] at h

theorem utf8EncodeChar_ascii {c : Char} (h : c.toNat < 128) :
    String.utf8EncodeChar c = [byte c] := by
  have hc : c.val.toNat ≤ 0x7f := Nat.le_of_lt_succ h
  simp only [String.utf8EncodeChar, if_pos hc, byte, Char.toNat]

theorem high_of_not_ascii {c : Char} (h : ¬ c.toNat < 128) {b : UInt8}
    (hb : b ∈ String.utf8EncodeChar c) : 128 ≤ b.toNat := by
  have hc : ¬ c.val.toNat ≤ 0x7f := fun hc => h (Nat.lt_succ_of_le hc)
  simp only [String.utf8EncodeChar, if_neg hc] at hb
  split at hb
  · simp only [List.mem_cons, List.not_mem_nil, or_false] at hb
    rcases hb with rfl | rfl <;> rw [UInt8.toNat_ofNat'] <;> omega
  · split at hb
    · simp only [List.mem_cons, List.not_mem_nil, or_false] at hb
      rcases hb with rfl | rfl | rfl <;> rw [UInt8.toNat_ofNat'] <;> omega
    · simp only [List.mem_cons, List.not_mem_nil, or_false] at hb
      rcases hb with rfl | rfl | rfl | rfl <;> rw [UInt8.toNat_ofNat'] <;> omega

theorem byte_toNat {c : Char} (h : c.toNat < 128) : (byte c).toNat = c.toNat := by
  rw [byte, UInt8.toNat_ofNat']
  omega

theorem mem_of_byte_mem_encode {c : Char} (h : c.toNat < 128) {s : String}
    (hs : byte c ∈ encode s) : c ∈ s.toList := by
  rw [encode_eq_flatMap, List.mem_flatMap] at hs
  obtain ⟨d, hd, hb⟩ := hs
  by_cases ha : d.toNat < 128
  · rw [utf8EncodeChar_ascii ha, List.mem_singleton] at hb
    have hn : c.toNat = d.toNat := by rw [← byte_toNat h, hb, byte_toNat ha]
    rwa [Char.toNat_inj.mp hn]
  · have := high_of_not_ascii ha hb
    rw [byte_toNat h] at this
    omega

theorem encode_ascii {s : String} (h : ∀ c ∈ s.toList, c.toNat < 128) :
    encode s = s.toList.map byte := by
  rw [encode_eq_flatMap]
  generalize s.toList = l at h
  induction l with
  | nil => rfl
  | cons c l ih =>
    have hc := utf8EncodeChar_ascii (h c List.mem_cons_self)
    have hl := ih fun d hd => h d (List.mem_cons_of_mem c hd)
    rw [List.flatMap_cons, hc, hl, List.map_cons, List.singleton_append]

end LabelPrinter.Utf8

import LabelPrinter.Charset
import LabelPrinter.Proofs.Charset.Decoding

/-!
Codecs in which an ASCII byte stands for its ASCII character and for nothing else. They read back
what they write, one character after the other.
-/

namespace LabelPrinter

theorem toNat_toUInt8 {n : Nat} (h : n < 256) : n.toUInt8.toNat = n := UInt8.toNat_ofNat_of_lt' h

namespace Windows1252

variable {c : Char} {b : UInt8}

theorem byte_cases (h : encodeChar? c = some b) :
    (b.toNat = c.toNat ∧ (c.toNat < 0x80 ∨ 0xA0 ≤ c.toNat)) ∨
      ∃ i, b.toNat = 0x80 + i ∧ i < 32 ∧ table[i]? = some c.toNat := by
  rw [encodeChar?] at h
  split_ifs at h with hplain
  · obtain rfl := Option.some.inj h
    simp only [Bool.or_eq_true, Bool.and_eq_true, decide_eq_true_eq] at hplain
    exact .inl ⟨toNat_toUInt8 (by omega), by omega⟩
  · obtain ⟨i, hi, rfl⟩ := Option.map_eq_some_iff.mp h
    obtain ⟨hlt, hget, -⟩ := List.findIdx?_eq_some_iff_getElem.mp hi
    have hlen : i < 32 := hlt
    refine .inr ⟨i, toNat_toUInt8 (by omega), hlen, ?_⟩
    rw [List.getElem?_eq_getElem hlt, of_decide_eq_true hget]

theorem decodeByte_encodeChar (h : encodeChar? c = some b) : decodeByte b = c := by
  have hc : Char.ofNat c.toNat = c := Char.ofNat_toNat c
  simp only [decodeByte, UInt8.le_iff_toNat_le, UInt8.lt_iff_toNat_lt, Bool.and_eq_true,
    decide_eq_true_eq, UInt8.toNat_ofNat, Nat.reducePow, Nat.reduceMod]
  obtain ⟨hb, hplain⟩ | ⟨i, hb, hi, hentry⟩ := byte_cases h
  · rw [hb, if_neg (by omega), hc]
  · rw [hb, if_pos (by omega), Nat.add_sub_cancel_left, hentry, Option.getD_some, hc]

end Windows1252

namespace CodePage

def IsAsciiCompatible : CodePage → Prop
  | .ascii | .utf8 | .latin1 | .windows1252 => True
  | .utf16 _ => False

/-- Every character of the text has a code. -/
def Represents (page : CodePage) (s : String) : Prop :=
  ∀ c ∈ s.toList, (page.encodeChar? c).isSome

/-- The code of a character, nothing if it has none. -/
def units (page : CodePage) (c : Char) : List UInt8 := (page.encodeChar? c).getD []

variable {page : CodePage} {c d : Char} {u : List UInt8} {trap : Trap} {s : String}

theorem encodeChar?_utf8 (c : Char) : encodeChar? .utf8 c = some (String.utf8EncodeChar c) := by
  rw [encodeChar?, Utf8.encode_eq_flatMap]
  simp

theorem encodeChar?_ascii (hpage : page.IsAsciiCompatible) (hc : c.toNat < 128) :
    page.encodeChar? c = some [Utf8.byte c] := by
  cases page with
  | ascii => exact if_pos hc
  | utf8 => rw [encodeChar?_utf8, Utf8.utf8EncodeChar_ascii hc]
  | latin1 => exact if_pos (by omega)
  | windows1252 =>
    rw [encodeChar?, Windows1252.encodeChar?, if_pos (by simp [hc])]
    rfl
  | utf16 order => exact hpage.elim

theorem high_of_encodeChar? (hpage : page.IsAsciiCompatible) (hc : ¬ c.toNat < 128)
    (h : page.encodeChar? c = some u) {b : UInt8} (hb : b ∈ u) : 128 ≤ b.toNat := by
  cases page with
  | ascii =>
    rw [encodeChar?, if_neg hc] at h
    cases h
  | utf8 =>
    rw [encodeChar?_utf8] at h
    obtain rfl := Option.some.inj h
    exact Utf8.high_of_not_ascii hc hb
  | latin1 =>
    rw [encodeChar?] at h
    split_ifs at h with hlt
    obtain rfl := Option.some.inj h
    obtain rfl := List.mem_singleton.mp hb
    rw [toNat_toUInt8 hlt]
    omega
  | windows1252 =>
    obtain ⟨a, ha, rfl⟩ := Option.map_eq_some_iff.mp h
    obtain rfl := List.mem_singleton.mp hb
    obtain ⟨hn, hplain⟩ | ⟨i, hn, -, -⟩ := Windows1252.byte_cases ha <;> omega
  | utf16 order => exact hpage.elim

theorem units_ascii (hpage : page.IsAsciiCompatible) (hc : c.toNat < 128) :
    page.units c = [Utf8.byte c] := by
  rw [units, encodeChar?_ascii hpage hc, Option.getD_some]

/-- The byte of an ASCII character is in the code of no other character. -/
theorem byte_not_mem_units (hpage : page.IsAsciiCompatible) (hc : c.toNat < 128) (hd : d ≠ c) :
    Utf8.byte c ∉ page.units d := by
  intro hb
  by_cases ha : d.toNat < 128
  · rw [units_ascii hpage ha, List.mem_singleton] at hb
    have hn : c.toNat = d.toNat := by rw [← Utf8.byte_toNat hc, hb, Utf8.byte_toNat ha]
    exact hd (Char.toNat_inj.mp hn.symm)
  · cases hu : page.encodeChar? d with
    | none => simp [units, hu] at hb
    | some u =>
      rw [units, hu, Option.getD_some] at hb
      have hhigh := high_of_encodeChar? hpage ha hu hb
      rw [Utf8.byte_toNat hc] at hhigh
      omega

theorem decode_cons (hpage : page.IsAsciiCompatible) (h : page.encodeChar? c = some u)
    (rest : List UInt8) :
    (page.decode (u ++ rest)).toList = c :: (page.decode rest).toList := by
  have hofNat : Char.ofNat c.toNat = c := Char.ofNat_toNat c
  cases page with
  | ascii =>
    rw [encodeChar?] at h
    split_ifs at h with hlt
    obtain rfl := Option.some.inj h
    have hb : c.toNat.toUInt8.toNat = c.toNat := toNat_toUInt8 (by omega)
    have hlow : c.toNat.toUInt8 < 0x80 := by
      rw [UInt8.lt_iff_toNat_lt, hb]
      exact hlt
    simp [decode, hlow, hb]
  | utf8 =>
    rw [encodeChar?_utf8] at h
    obtain rfl := Option.some.inj h
    simp [decode, Utf8.decode, Utf8.decodeFrom_encodeChar]
  | latin1 =>
    rw [encodeChar?] at h
    split_ifs at h with hlt
    obtain rfl := Option.some.inj h
    simp [decode, toNat_toUInt8 hlt]
  | windows1252 =>
    obtain ⟨b, hb, rfl⟩ := Option.map_eq_some_iff.mp h
    simp [decode, Windows1252.decodeByte_encodeChar hb]
  | utf16 order => exact hpage.elim

theorem decode_nil (page : CodePage) : page.decode [] = "" := by
  cases page with
  | ascii | utf8 | latin1 | windows1252 | utf16 order => rfl

theorem decode_units (hpage : page.IsAsciiCompatible) {l : List Char}
    (h : ∀ c ∈ l, (page.encodeChar? c).isSome) :
    page.decode (l.flatMap page.units) = String.ofList l := by
  apply String.toList_inj.mp
  rw [String.toList_ofList]
  induction l with
  | nil =>
    rw [List.flatMap_nil, decode_nil]
    rfl
  | cons c l ih =>
    rw [List.forall_mem_cons] at h
    obtain ⟨u, hu⟩ := Option.isSome_iff_exists.mp h.1
    have hunits : page.units c = u := by rw [units, hu, Option.getD_some]
    rw [List.flatMap_cons, hunits, decode_cons hpage hu, ih h.2]

/-- Nothing stands in for a character that has a code. -/
theorem encode_of_represents (h : page.Represents s) (trap : Trap) :
    page.encode trap s = .ok (s.toList.flatMap page.units) := by
  have hmap : (s.toList.mapM fun c => (page.encodeChar? c).or (trap.substitute? c)) =
      some (s.toList.map page.units) := by
    rw [Represents] at h
    generalize s.toList = l at h
    induction l with
    | nil => rfl
    | cons c l ih =>
      rw [List.forall_mem_cons] at h
      obtain ⟨u, hu⟩ := Option.isSome_iff_exists.mp h.1
      have hc : (page.encodeChar? c).or (trap.substitute? c) = some (page.units c) := by
        simp [units, hu]
      rw [List.mapM_cons, hc, ih h.2]
      rfl
  rw [encode, hmap, List.flatMap_def]

theorem mapM_eq_none {α β : Type} {f : α → Option β} {xs : List α} :
    xs.mapM f = none ↔ ∃ x ∈ xs, f x = none := by
  induction xs with
  | nil => simp
  | cons x xs ih =>
    simp only [List.mapM_cons, List.mem_cons, exists_eq_or_imp, ← ih]
    cases f x with
    | none => simp
    | some y => cases xs.mapM f <;> simp

/-- A text has no bytes if one of its characters has no code and the trap lets nothing stand in. -/
theorem encode_eq_error_iff {reason : String} :
    page.encode trap s = .error reason ↔ reason = "unrepresentable character" ∧
      ∃ c ∈ s.toList, page.encodeChar? c = none ∧ trap.substitute? c = none := by
  simp only [← Option.or_eq_none_iff, ← mapM_eq_none, encode]
  split
  case h_1 units h => simp [h]
  case h_2 h => simp [h, eq_comm]

theorem represents_iff : page.Represents s ↔ ∃ bytes, page.encode .strict s = .ok bytes := by
  constructor
  · intro h
    exact ⟨_, encode_of_represents h .strict⟩
  · rintro ⟨bytes, hb⟩ c hc
    rw [Option.isSome_iff_ne_none]
    intro hn
    have he : page.encode .strict s = .error "unrepresentable character" :=
      encode_eq_error_iff.mpr ⟨rfl, c, hc, hn, rfl⟩
    cases hb.symm.trans he

end CodePage

namespace Codec

/-- The codec is that of a code page that agrees with ASCII. -/
def IsAsciiCompatible (codec : Codec) : Prop :=
  ∃ page : CodePage, page.IsAsciiCompatible ∧ codec = page.codec

/-- Nothing has to stand in for any part of the text. -/
def Represents (codec : Codec) (s : String) : Prop := ∃ bytes, codec.encode .strict s = .ok bytes

end Codec

end LabelPrinter

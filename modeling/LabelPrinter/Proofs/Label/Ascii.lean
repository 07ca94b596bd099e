import LabelPrinter.Proofs.Charset.Units
import LabelPrinter.Proofs.Command.Written
import LabelPrinter.Proofs.Label.Outputs

/-!
A label of ASCII texts without bitmaps comes out in ASCII, so it has the same bytes in every codec
that agrees with ASCII.
-/

namespace LabelPrinter

theorem Utf8.ascii_of_encode {s : String} (h : ∀ b ∈ Utf8.encode s, b < 0x80) {c : Char}
    (hc : c ∈ s.toList) : c.toNat < 128 := by
  by_contra hn
  have hpos : 0 < (String.utf8EncodeChar c).length := by
    rw [String.length_utf8EncodeChar]
    exact c.utf8Size_pos
  obtain ⟨b, hb⟩ := List.exists_mem_of_length_pos hpos
  have hlow : b < 0x80 := by
    apply h
    rw [Utf8.encode_eq_flatMap]
    exact List.mem_flatMap_of_mem hc hb
  exact absurd (Utf8.high_of_not_ascii hn hb) (Nat.not_le_of_lt hlow)

theorem Charset.encode_ascii {charset : Charset} (hcodec : charset.codec.IsAsciiCompatible)
    {s : String} (hs : ∀ c ∈ s.toList, c.toNat < 128) : charset.encode s = .ok (Utf8.encode s) := by
  obtain ⟨page, hpage, hcodec⟩ := hcodec
  have hrep : page.Represents s := by
    intro c hc
    rw [CodePage.encodeChar?_ascii hpage (hs c hc)]
    rfl
  have hunits : s.toList.flatMap page.units = Utf8.encode s := by
    rw [Utf8.encode_ascii hs, List.map_eq_flatMap]
    apply List.flatMap_congr
    intro c hc
    exact CodePage.units_ascii hpage (hs c hc)
  have hencode : page.codec.encode charset.trap s = .ok (s.toList.flatMap page.units) :=
    CodePage.encode_of_represents hrep charset.trap
  rw [encode, hcodec, hencode, hunits]
  rfl

/-- No bitmap, and no text of the caller outside ASCII. -/
def Command.IsAscii (c : Command) : Prop := (∀ d, c ≠ .bitmap d) ∧ c.SpelledIn .ascii

theorem Command.ascii_of_render {c : Command} (hc : c.IsAscii) {bytes : List UInt8}
    (h : c.render = .ok bytes) : ∀ b ∈ bytes, b < 0x80 := by
  obtain ⟨l, -, hl, rfl⟩ | ⟨d, l, hd, -, -⟩ := render_line h
  · have hline : Alphabet.ascii.Spells l.text := hl.written.spelled .ascii hc.2
    have hfeed : Alphabet.ascii.Spells "\n" := by
      intro a ha
      obtain rfl : a = '\n' := by simpa using ha
      exact (by decide : '\n'.toNat < 128)
    have hs : ∀ a ∈ (l.text ++ "\n").toList, a.toNat < 128 :=
      Alphabet.spells_append.mpr ⟨hline, hfeed⟩
    intro b hb
    rw [Line.finish, Utf8.encode_ascii hs] at hb
    obtain ⟨a, ha, rfl⟩ := List.mem_map.mp hb
    rw [UInt8.lt_iff_toNat_lt, Utf8.byte_toNat (hs a ha)]
    exact hs a ha
  · exact absurd hd (hc.1 d)

namespace Label

def IsAscii (l : Label) : Prop := ∀ c ∈ l.commands, c.IsAscii

variable {l : Label} {charset : Charset}

theorem ascii_of_serialize (hl : l.IsAscii) {bytes : List UInt8} (h : l.serialize = .ok bytes) :
    ∀ b ∈ bytes, b < 0x80 := by
  rw [serialize_eq] at h
  obtain ⟨fs, hfs, rfl⟩ := Check.map_eq_ok.mp h
  have hall := fragments_eq_ok.mp hfs
  rw [IsAscii] at hl
  clear h hfs
  generalize l.commands = cs at hl hall
  induction hall with
  | nil => exact fun b hb => absurd hb List.not_mem_nil
  | @cons c f cs fs hc _ ih =>
    rw [List.forall_mem_cons] at hl
    rw [List.flatten_cons, List.forall_mem_append]
    exact ⟨Command.ascii_of_render hl.1 hc, ih hl.2⟩

theorem encode_toText (hcodec : charset.codec.IsAsciiCompatible) (hl : l.IsAscii) {s : String}
    (h : l.toText = .ok s) : ∃ bytes, l.serialize = .ok bytes ∧ charset.encode s = .ok bytes := by
  have hs := serialize_of_toText (fun c hc => (hl c hc).1) h
  have hascii := ascii_of_serialize hl hs
  exact ⟨_, hs, Charset.encode_ascii hcodec fun c hc => Utf8.ascii_of_encode hascii hc⟩

end Label

end LabelPrinter

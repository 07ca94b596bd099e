import LabelPrinter.Link.Order
import LabelPrinter.Proofs.Charset.Units
import LabelPrinter.Proofs.Label.Outputs

/-!
Which bytes a payload is sent as, and why it may have none.
-/

namespace LabelPrinter

/-- No bytes stand in for the character under the trap. -/
inductive Trap.Refuses : Trap → Char → Prop where
  | strict (c : Char) : Refuses .strict c
  | call {substitute? : String → Option (List UInt8)} {c : Char} :
      substitute? (String.singleton c) = none → Refuses (.call substitute?) c

theorem Trap.substitute?_eq_none_iff {trap : Trap} {c : Char} :
    trap.substitute? c = none ↔ trap.Refuses c := by
  constructor
  · intro h
    cases trap with
    | strict => exact .strict c
    | call substitute? => exact .call h
    | replace | ignore | reference => cases h
  · rintro (_ | h)
    · rfl
    · exact h

namespace Charset

variable {charset : Charset} {s : String}

/-- The codec has no bytes for the text under the trap, for this reason. -/
def CannotEncode (charset : Charset) (s reason : String) : Prop :=
  charset.codec.encode charset.trap s = .error reason

theorem encode_error_iff {e : Error} :
    charset.encode s = .error e ↔
      ∃ reason, e = .encoding reason ∧ charset.CannotEncode s reason := by
  rw [encode]
  simp only [CannotEncode]
  cases charset.codec.encode charset.trap s with
  | ok bytes => simp [Except.mapError]
  | error reason => simp [Except.mapError, eq_comm]

/-- With a code page it is always for a character that has no code, and that the trap refuses. -/
theorem cannotEncode_iff {page : CodePage} (h : charset.codec = page.codec) :
    (∃ reason, charset.CannotEncode s reason) ↔
      ∃ c ∈ s.toList, page.encodeChar? c = none ∧ charset.trap.Refuses c := by
  have hpage (reason : String) : charset.CannotEncode s reason ↔
      page.encode charset.trap s = .error reason := by rw [CannotEncode, h]; rfl
  simp only [hpage, CodePage.encode_eq_error_iff, Trap.substitute?_eq_none_iff, exists_eq_left]

end Charset

namespace Payload

/-- The payload is sent as these bytes: the message itself, the text in the charset or the
serialized label. -/
inductive Carries (charset : Charset) : Payload → List UInt8 → Prop where
  | message (bytes : List UInt8) : Carries charset (.message bytes) bytes
  | text {s : String} {bytes : List UInt8} :
      charset.encode s = .ok bytes → Carries charset (.text s) bytes
  | label {l : Label} {bytes : List UInt8} :
      l.serialize = .ok bytes → Carries charset (.label l) bytes

variable {charset : Charset} {p : Payload}

theorem encode_ok_iff {bytes : List UInt8} :
    p.encode charset = .ok bytes ↔ p.Carries charset bytes := by
  cases p with
  | message m =>
    constructor
    · intro h
      obtain rfl := Except.ok.inj h
      exact .message m
    · rintro ⟨⟩
      rfl
  | text s => exact ⟨.text, fun | .text h => h⟩
  | label l =>
    rw [encode]
    constructor
    · intro h
      cases hl : l.serialize with
      | error e => simp [hl, Except.mapError] at h
      | ok b =>
        rw [hl] at h
        obtain rfl : b = bytes := Except.ok.inj h
        exact .label hl
    · rintro (_ | _ | h)
      rw [h]
      rfl

theorem encode_validation_iff {e : ValidationError} :
    p.encode charset = .error (.validation e) ↔
      ∃ l, p = .label l ∧ Command.FirstError e l.commands := by
  cases p with
  | message m => simp [encode]
  | text s => simp [encode, Charset.encode_error_iff]
  | label l =>
    have h : l.serialize = .error e ↔ Command.FirstError e l.commands :=
      Label.serialize_error_iff.trans Label.fragments_error_iff
    simp only [label.injEq, exists_eq_left']
    rw [encode, ← h]
    cases l.serialize <;> simp [Except.mapError]

theorem encode_encoding_iff {reason : String} :
    p.encode charset = .error (.encoding reason) ↔
      ∃ s, p = .text s ∧ charset.CannotEncode s reason := by
  cases p with
  | message m => simp [encode]
  | text s => simp [encode, Charset.encode_error_iff]
  | label l =>
    rw [encode]
    cases l.serialize <;> simp [Except.mapError]

theorem encode_error_cases {e : Error} (h : p.encode charset = .error e) :
    (∃ v, e = .validation v) ∨ ∃ reason, e = .encoding reason := by
  cases p with
  | message m => exact absurd h nofun
  | text s =>
    obtain ⟨reason, he, -⟩ := Charset.encode_error_iff.mp h
    exact .inr ⟨reason, he⟩
  | label l =>
    rw [encode] at h
    cases hl : l.serialize with
    | error v => exact .inl ⟨v, by simpa [hl, Except.mapError, eq_comm] using h⟩
    | ok bytes => simp [hl, Except.mapError] at h

end Payload

end LabelPrinter

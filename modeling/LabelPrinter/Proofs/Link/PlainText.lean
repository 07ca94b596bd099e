import LabelPrinter.Proofs.Label.Ascii
import LabelPrinter.Proofs.Link.Payload
import LabelPrinter.Proofs.Link.Sender

/-!
Sending a label of ASCII texts comes to the same as sending its text, whatever stands in for
characters that have no code.
-/

namespace LabelPrinter

namespace Payload

variable {label : Label} {charset : Charset}

theorem encode_text_of_label (hcodec : charset.codec.IsAsciiCompatible) (hl : label.IsAscii)
    {s : String} (h : label.toText = .ok s) :
    (text s).encode charset = (Payload.label label).encode charset := by
  obtain ⟨bytes, hb, hs⟩ := Label.encode_toText hcodec hl h
  rw [encode, encode, hb, hs]
  rfl

theorem encode_label_of_error {e : ValidationError} (h : label.toText = .error e) :
    (Payload.label label).encode charset = .error (.validation e) := by
  rw [encode, Label.toText_error_iff.mp h]
  rfl

theorem ascii_of_encode (hl : label.IsAscii) {bytes : List UInt8}
    (h : (Payload.label label).encode charset = .ok bytes) : ∀ b ∈ bytes, b < 0x80 := by
  cases encode_ok_iff.mp h with
  | label hs => exact Label.ascii_of_serialize hl hs

end Payload

namespace Sender

variable {σ α ω ο : Type} {S : Sender σ α ω ο} {label : Label}

/-- Sends the text of the label. If it has none, nothing is asked of the connection. -/
def sendTextOf (S : Sender σ α ω ο) (s : σ) (label : Label) (w : ω) : ο :=
  match label.toText with
  | .ok text => S.act s (S.send (.text text) w)
  | .error e => S.rejection s (.validation e)

/-- Sending the label comes to the same as sending its text, and no byte is outside ASCII. -/
def SendsAsText (S : Sender σ α ω ο) (label : Label) : Prop :=
  ∀ (s : σ) (w : ω), (S.charset s).codec.IsAsciiCompatible →
    S.act s (S.send (.label label) w) = S.sendTextOf s label w ∧
      ∀ b ∈ S.written s (S.send (.label label) w), b < 0x80

theorem Encodes.sendsAsText (h : S.Encodes) (hl : label.IsAscii) : S.SendsAsText label := by
  intro s w hcodec
  constructor
  · rw [sendTextOf]
    cases ht : label.toText with
    | ok text => exact h.alike s _ _ w (Payload.encode_text_of_label hcodec hl ht).symm
    | error e => exact h.rejected s _ w _ (Payload.encode_label_of_error ht)
  · obtain hw | ⟨bytes, he, hw⟩ := h.written s (.label label) w
    · rw [hw]
      exact List.forall_mem_nil _
    · exact fun b hb => Payload.ascii_of_encode hl he b (hw.subset hb)

end Sender

namespace Label

/-- To send the label is to send its text: the message is the same, it is ASCII, and so is all
that comes of it on either kind of connection, whatever its state. -/
structure SentAsText (label : Label) : Prop where
  carries_iff : ∀ charset : Charset, charset.codec.IsAsciiCompatible → ∀ bytes,
    (Payload.label label).Carries charset bytes ↔
      ∃ s, label.toText = .ok s ∧ (Payload.text s).Carries charset bytes
  ascii : ∀ bytes, label.serialize = .ok bytes → ∀ b ∈ bytes, b < 0x80
  tcp : ∀ host service, (Tcp.sender host service).SendsAsText label
  usb : ∀ vendor product, (Usb.sender vendor product).SendsAsText label

theorem sent_as_text {label : Label} (hl : label.IsAscii) : label.SentAsText := by
  refine ⟨?_, fun bytes => ascii_of_serialize hl, ?_, ?_⟩
  · intro charset hcodec bytes
    simp only [← Payload.encode_ok_iff]
    constructor
    · intro h
      cases ht : label.toText with
      | ok s => exact ⟨s, rfl, (Payload.encode_text_of_label hcodec hl ht).trans h⟩
      | error e => cases (Payload.encode_label_of_error ht).symm.trans h
    · rintro ⟨s, ht, h⟩
      exact (Payload.encode_text_of_label hcodec hl ht).symm.trans h
  · exact fun host service => (Tcp.encodes host service).sendsAsText hl
  · exact fun vendor product => (Usb.encodes vendor product).sendsAsText hl

def parcel : Label :=
  ⟨[.clearBuffer, .barcode (.of 20 30 .code128 80 2 4 "AB-7"), .print (.of 2)]⟩

def printerSender : Sender Tcp.Link Tcp.Action Tcp.Write Tcp.Outcome :=
  Tcp.sender "192.0.2.7" 9100

/-- Connected, with a charset that knows more than ASCII and lets nothing stand in. -/
def printer : Tcp.Link :=
  printerSender.run [.init, .setCharset ⟨CodePage.windows1252.codec, .strict⟩,
    .connect .opened Tcp.nothingYet, .dialed]

theorem sent_as_text_parcel :
    parcel.IsAscii ∧ parcel.SentAsText ∧ printer.state = .connected ∧
      printer.charset.codec.IsAsciiCompatible ∧
      printer.send (.label parcel) .complete = printerSender.sendTextOf printer parcel .complete ∧
      (printerSender.sendTextOf printer parcel .complete).taken =
        Utf8.encode "CLS\nBARCODE 20,30,\"128\",80,0,0,2,4,\"AB-7\"\nPRINT 2\n" := by
  have hl : parcel.IsAscii := by
    simp [parcel, IsAscii, Command.IsAscii, Command.SpelledIn, Command.strings, Barcode.of]
  have hcodec : printer.charset.codec.IsAsciiCompatible := ⟨.windows1252, trivial, rfl⟩
  have hsent := sent_as_text hl
  have hsame : printer.send (.label parcel) .complete =
      printerSender.sendTextOf printer parcel .complete :=
    (hsent.tcp "192.0.2.7" 9100 printer .complete hcodec).1
  refine ⟨hl, hsent, rfl, hcodec, hsame, ?_⟩
  rw [← hsame]
  rfl

end Label

end LabelPrinter

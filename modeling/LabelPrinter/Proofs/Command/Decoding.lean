import LabelPrinter.Proofs.Command.Opening
import LabelPrinter.Proofs.Command.Decoding.Setup
import LabelPrinter.Proofs.Command.Decoding.Shape
import LabelPrinter.Proofs.Command.Decoding.Device
import LabelPrinter.Proofs.Command.Decoding.Stacked
import LabelPrinter.Proofs.Command.Decoding.Carrier

/-!
The command language is uniquely decodable.
-/

namespace LabelPrinter.Command

variable {c d : Command}

theorem sent_eq_of_text {l m : Line} (hm : c.mnemonic = d.mnemonic) (hc : c.Decodable)
    (hd : d.Decodable) (hcl : c.Sends l) (hdl : d.Sends m) (hb : ∀ e, c ≠ .bitmap e)
    (h : l.text = m.text) : c.sent = d.sent := by
  cases c <;> cases d <;> simp only [mnemonic, String.reduceEq] at hm
  case size.size => exact congrArg size (Size.sent_inj hcl hdl h)
  case gap.gap => exact congrArg gap (Gap.sent_inj hcl hdl h)
  case offset.offset => exact congrArg offset (Offset.sent_inj hcl hdl h)
  case speed.speed => exact congrArg speed (Speed.sent_inj hcl hdl h)
  case density.density => exact congrArg density (Density.line_inj hcl hdl h)
  case direction.direction => exact congrArg direction (Direction.line_inj hcl hdl h)
  case clearBuffer.clearBuffer => rfl
  case cut.cut => rfl
  case print.print => exact congrArg print (Print.line_inj hcl hdl h)
  case selfTest.selfTest =>
    subst hcl hdl
    exact congrArg selfTest (SelfTest.line_inj h)
  case bar.bar => exact congrArg bar (Bar.line_inj hcl hdl h)
  case box.box => exact congrArg box (Box.sent_inj hcl hdl h)
  case circle.circle => exact congrArg circle (Circle.line_inj hcl hdl h)
  case ellipse.ellipse => exact congrArg ellipse (Ellipse.line_inj hcl hdl h)
  case erase.erase => exact congrArg erase (Erase.line_inj hcl hdl h)
  case text.text => exact congrArg text (Text.sent_inj hc hd hcl hdl h)
  case barcode.barcode => exact congrArg barcode (Barcode.line_inj hcl hdl h)
  case codablock.codablock => exact hc.elim
  case tlc39.tlc39 => exact congrArg tlc39 (Tlc39.line_inj hc hd hcl hdl h)
  case qrCode.qrCode => exact congrArg qrCode (QrCode.line_inj hcl hdl h)
  case dataMatrix.dataMatrix => exact hc.elim
  case pdf417.pdf417 => exact congrArg pdf417 (Pdf417.line_inj hcl hdl h)
  case maxiCode.maxiCode => exact congrArg maxiCode (MaxiCode.sent_inj hc hd hcl hdl h)
  case aztec.aztec => exact congrArg aztec (Aztec.sent_inj hcl hdl h)
  case setting.setting => exact congrArg setting (DeviceSetting.line_inj hcl hdl h)
  case counter.counter => exact congrArg counter (Counter.line_inj hcl hdl h)
  case counterExpression.counterExpression =>
    exact congrArg counterExpression (CounterExpression.line_inj hcl hdl h)
  case poll.poll =>
    subst hcl hdl
    exact congrArg poll (StatusPoll.line_inj h)
  case bitmap.bitmap => exact absurd rfl (hb _)

/-- Commands that render to the same bytes are of one type and tell the printer the same. -/
theorem sent_eq_of_render {b : List UInt8} (hc : c.Decodable) (hd : d.Decodable)
    (hcb : c.render = .ok b) (hdb : d.render = .ok b) :
    c.mnemonic = d.mnemonic ∧ c.sent = d.sent := by
  have hm := mnemonic_eq_of_prefix (opening_prefix_of_render hcb) (opening_prefix_of_render hdb)
  refine ⟨hm, ?_⟩
  -- a raster is not a text, so bitmaps are compared by their bytes
  rcases render_line hcb with ⟨l, hb, hcl, hl⟩ | ⟨e, l, rfl, -, -⟩
  · rcases render_line hdb with ⟨m, -, hdl, hm'⟩ | ⟨e, m, rfl, -, -⟩
    · exact sent_eq_of_text hm hc hd hcl hdl hb (Line.finish_injective (hl.trans hm'.symm))
    · cases c with
      | bitmap c => exact absurd rfl (hb c)
      | _ => exact absurd hm (by simp [mnemonic])
  · rcases render_line hdb with ⟨m, hb, -, -⟩ | ⟨f, m, rfl, -, -⟩
    · cases d with
      | bitmap d => exact absurd rfl (hb d)
      | _ => exact absurd hm (by simp [mnemonic])
    · exact congrArg bitmap (Bitmap.render_inj hcb hdb)

/-- A box without rounded corners, said and left unsaid. -/
theorem sent_eq_of_render_square :
    (box (.of 1 2 3 4 5)).render = .ok (Utf8.encode "BOX 1,2,3,4,5,0\n") ∧
      (box ((Box.of 1 2 3 4 5).rounded 0)).render = .ok (Utf8.encode "BOX 1,2,3,4,5,0\n") ∧
      (box (.of 1 2 3 4 5)).mnemonic = (box ((Box.of 1 2 3 4 5).rounded 0)).mnemonic ∧
      (box (.of 1 2 3 4 5)).sent = (box ((Box.of 1 2 3 4 5).rounded 0)).sent := by
  have hc : (box (.of 1 2 3 4 5)).render = .ok (Utf8.encode "BOX 1,2,3,4,5,0\n") := rfl
  have hd : (box ((Box.of 1 2 3 4 5).rounded 0)).render =
      .ok (Utf8.encode "BOX 1,2,3,4,5,0\n") := rfl
  exact ⟨hc, hd, sent_eq_of_render trivial trivial hc hd⟩

end LabelPrinter.Command

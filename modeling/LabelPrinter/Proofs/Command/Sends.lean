import LabelPrinter.Proofs.Command.Lines
import LabelPrinter.Proofs.Command.SymbolLines
import LabelPrinter.Proofs.Line.Alphabet
import LabelPrinter.Proofs.Line.Fields

/-!
The line that a command goes out as.
-/

namespace LabelPrinter

namespace Command

/-- The line that a command goes out as, for a bitmap the one in front of its raster. -/
def Sends (l : Line) : Command → Prop
  | .size c => c.line = .ok l
  | .gap c => c.line = .ok l
  | .offset c => c.line = .ok l
  | .speed c => c.line = .ok l
  | .density c => c.line = .ok l
  | .direction c => c.line = .ok l
  | .clearBuffer => .of "CLS" [] = l
  | .cut => .of "CUT" [] = l
  | .print c => c.line = .ok l
  | .selfTest c => c.line = l
  | .bar c => c.line = .ok l
  | .box c => c.line = .ok l
  | .circle c => c.line = .ok l
  | .ellipse c => c.line = .ok l
  | .erase c => c.line = .ok l
  | .text c => c.line = .ok l
  | .barcode c => c.line = .ok l
  | .codablock c => c.line = .ok l
  | .tlc39 c => c.line = .ok l
  | .qrCode c => c.line = .ok l
  | .dataMatrix c => c.line = .ok l
  | .pdf417 c => c.line = .ok l
  | .maxiCode c => c.line = .ok l
  | .aztec c => c.line = .ok l
  | .setting c => c.line = .ok l
  | .counter c => c.line = .ok l
  | .counterExpression c => c.line = .ok l
  | .poll c => c.line = l
  | .bitmap c => ∃ x y w h, c = ⟨some x, some y, some w, some h, c.mode, c.data⟩ ∧
      Bitmap.header x y w h c.mode = l

theorem render_line {c : Command} {b : List UInt8} (h : c.render = .ok b) :
    (∃ l, (∀ d, c ≠ .bitmap d) ∧ c.Sends l ∧ l.finish = b) ∨
      ∃ d l, c = .bitmap d ∧ c.Sends l ∧ Utf8.encode (l.text ++ ",") ++ d.data ++ [10] = b := by
  cases c with
  | clearBuffer => exact .inl ⟨_, nofun, rfl, Except.ok.inj h⟩
  | cut => exact .inl ⟨_, nofun, rfl, Except.ok.inj h⟩
  | selfTest c => exact .inl ⟨_, nofun, rfl, Except.ok.inj h⟩
  | poll c => exact .inl ⟨_, nofun, rfl, Except.ok.inj h⟩
  | bitmap c =>
    obtain ⟨x, y, w, k, hc, -, rfl⟩ := Bitmap.render_eq_ok.mp h
    exact .inr ⟨c, _, rfl, ⟨x, y, w, k, hc, rfl⟩, rfl⟩
  | _ c =>
    obtain ⟨l, hl, rfl⟩ := Check.map_eq_ok.mp h
    exact .inl ⟨l, nofun, hl, rfl⟩

/-- The texts of the caller in a command. -/
def strings : Command → List String
  | .text c => c.font.toList ++ c.content.toList
  | .barcode c => c.content.toList
  | .codablock c => c.content.toList
  | .tlc39 c => c.serial.toList ++ c.additional.toList
  | .qrCode c => c.content.toList
  | .dataMatrix c => c.content.toList
  | .pdf417 c => c.content.toList
  | .maxiCode c => c.postcode.toList ++ c.content.toList
  | .aztec c => c.content.toList
  | .counterExpression c => c.expression.toList
  | _ => []

def SpelledIn (A : Alphabet) (c : Command) : Prop := ∀ s ∈ c.strings, A.Spells s

def OneLine (c : Command) : Prop := ∀ s ∈ c.strings, '\n' ∉ s.toList

end Command

end LabelPrinter

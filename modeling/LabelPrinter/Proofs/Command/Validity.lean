import LabelPrinter.Proofs.Command.Lines
import LabelPrinter.Proofs.Command.SymbolLines
import LabelPrinter.Proofs.Number.Zero

/-!
Which commands can be rendered: those with all that the catalog requires, within its ranges.
-/

namespace LabelPrinter

open Check

/-- A size or a speed. -/
def IsExtent (x : Float) : Prop := x.isFinite = true ∧ 0 < x

/-- A gap or its offset. -/
def IsSpacing (x : Float) : Prop := x.isFinite = true ∧ 0 ≤ x

def Size.Complete (c : Size) : Prop :=
  (∃ w ∈ c.width, IsExtent w) ∧ ∃ h ∈ c.height, IsExtent h

theorem Size.has_line_iff {c : Size} : (∃ l, c.line = .ok l) ↔ c.Complete := by
  obtain ⟨w, h, u⟩ := c
  simp only [line_eq_ok, Complete, IsExtent, Option.mem_def]
  constructor
  · rintro ⟨_, w, h, ⟨⟩, hw, hh, ⟨hw0, hh0⟩, rfl⟩
    exact ⟨⟨w, rfl, hw, hw0⟩, h, rfl, hh, hh0⟩
  · rintro ⟨⟨w, rfl, hw, hw0⟩, h, rfl, hh, hh0⟩
    exact ⟨_, w, h, rfl, hw, hh, ⟨hw0, hh0⟩, rfl⟩

def Gap.Complete (c : Gap) : Prop :=
  (∃ d ∈ c.distance, IsSpacing d) ∧ ∃ o ∈ c.offset, IsSpacing o

theorem Gap.has_line_iff {c : Gap} : (∃ l, c.line = .ok l) ↔ c.Complete := by
  obtain ⟨d, o, u⟩ := c
  simp only [line_eq_ok, Complete, IsSpacing, Option.mem_def]
  constructor
  · rintro ⟨_, d, o, ⟨⟩, hd, ho, ⟨hd0, ho0⟩, rfl⟩
    exact ⟨⟨d, rfl, hd, (Number.not_neg_iff hd).mp hd0⟩, o, rfl, ho, (Number.not_neg_iff ho).mp ho0⟩
  · rintro ⟨⟨d, rfl, hd, hd0⟩, o, rfl, ho, ho0⟩
    exact ⟨_, d, o, rfl, hd, ho, ⟨(Number.not_neg_iff hd).mpr hd0, (Number.not_neg_iff ho).mpr ho0⟩,
      rfl⟩

def Offset.Complete (c : Offset) : Prop := ∃ d ∈ c.distance, d.isFinite = true

theorem Offset.has_line_iff {c : Offset} : (∃ l, c.line = .ok l) ↔ c.Complete := by
  obtain ⟨d, u⟩ := c
  simp [line_eq_ok, Complete]

def Speed.Complete (c : Speed) : Prop := ∃ s ∈ c.speed, IsExtent s

theorem Speed.has_line_iff {c : Speed} : (∃ l, c.line = .ok l) ↔ c.Complete := by
  obtain ⟨s⟩ := c
  simp [line_eq_ok, Complete, IsExtent]

def Density.Complete (c : Density) : Prop := ∃ d ∈ c.darkness, d ≤ 15

theorem Density.has_line_iff {c : Density} : (∃ l, c.line = .ok l) ↔ c.Complete := by
  obtain ⟨d⟩ := c
  simp [line_eq_ok, Complete]

def Direction.Complete (c : Direction) : Prop := ∃ d ∈ c.direction, d ≤ 1

theorem Direction.has_line_iff {c : Direction} : (∃ l, c.line = .ok l) ↔ c.Complete := by
  obtain ⟨d, m⟩ := c
  simp [line_eq_ok, Complete]

def Print.Complete (c : Print) : Prop := c.sets.isSome

theorem Print.has_line_iff {c : Print} : (∃ l, c.line = .ok l) ↔ c.Complete := by
  obtain ⟨s, n⟩ := c
  simp [line_eq_ok, Complete, Option.isSome_iff_exists]

def Bar.Complete (c : Bar) : Prop :=
  c.x.isSome ∧ c.y.isSome ∧ c.width.isSome ∧ c.height.isSome

theorem Bar.has_line_iff {c : Bar} : (∃ l, c.line = .ok l) ↔ c.Complete := by
  obtain ⟨x, y, w, h⟩ := c
  simp [line_eq_ok, of, Complete, Option.isSome_iff_exists]

def Box.Complete (c : Box) : Prop :=
  c.x.isSome ∧ c.y.isSome ∧ c.xEnd.isSome ∧ c.yEnd.isSome ∧ c.thickness.isSome

theorem Box.has_line_iff {c : Box} : (∃ l, c.line = .ok l) ↔ c.Complete := by
  obtain ⟨x, y, x', y', t, r⟩ := c
  simp [line_eq_ok, Complete, Option.isSome_iff_exists]

def Circle.Complete (c : Circle) : Prop :=
  c.x.isSome ∧ c.y.isSome ∧ c.diameter.isSome ∧ c.thickness.isSome

theorem Circle.has_line_iff {c : Circle} : (∃ l, c.line = .ok l) ↔ c.Complete := by
  obtain ⟨x, y, d, t⟩ := c
  simp [line_eq_ok, of, Complete, Option.isSome_iff_exists]

def Ellipse.Complete (c : Ellipse) : Prop :=
  c.x.isSome ∧ c.y.isSome ∧ c.width.isSome ∧ c.height.isSome ∧ c.thickness.isSome

theorem Ellipse.has_line_iff {c : Ellipse} : (∃ l, c.line = .ok l) ↔ c.Complete := by
  obtain ⟨x, y, w, h, t⟩ := c
  simp [line_eq_ok, of, Complete, Option.isSome_iff_exists]

def Erase.Complete (c : Erase) : Prop :=
  c.x.isSome ∧ c.y.isSome ∧ c.width.isSome ∧ c.height.isSome

theorem Erase.has_line_iff {c : Erase} : (∃ l, c.line = .ok l) ↔ c.Complete := by
  obtain ⟨x, y, w, h⟩ := c
  simp [line_eq_ok, of, Complete, Option.isSome_iff_exists]

def Barcode.Complete (c : Barcode) : Prop :=
  c.x.isSome ∧ c.y.isSome ∧ c.symbology.isSome ∧ c.height.isSome ∧ c.narrow.isSome ∧
    c.wide.isSome ∧ c.content.isSome

theorem Barcode.has_line_iff {c : Barcode} : (∃ l, c.line = .ok l) ↔ c.Complete := by
  obtain ⟨x, y, symbology, height, readable, rotation, narrow, wide, alignment, content⟩ := c
  simp [line_eq_ok, Complete, Option.isSome_iff_exists]

def Codablock.Complete (c : Codablock) : Prop :=
  c.x.isSome ∧ c.y.isSome ∧ c.content.isSome

theorem Codablock.has_line_iff {c : Codablock} : (∃ l, c.line = .ok l) ↔ c.Complete := by
  obtain ⟨x, y, rotation, rowHeight, moduleWidth, content⟩ := c
  simp [line_eq_ok, Complete, Option.isSome_iff_exists]

namespace Tlc39

def dimensions (c : Tlc39) : List (Option Nat) :=
  [c.height, c.narrow, c.wide, c.cellWidth, c.cellHeight]

/-- The sizes given are an initial segment of all: one that is there has all others before it. -/
def Complete (c : Tlc39) : Prop :=
  c.x.isSome ∧ c.y.isSome ∧ c.rotation.isSome ∧
    (∃ e ∈ c.eci, 100000 ≤ e ∧ e ≤ 999999) ∧ c.serial.isSome ∧
    c.dimensions.Pairwise fun before size => size.isSome → before.isSome

theorem inOrder_iff {c : Tlc39} :
    c.InOrder ↔ c.dimensions.Pairwise fun before size => size.isSome → before.isSome := by
  rw [InOrder, dimensions]
  cases c.height <;> cases c.narrow <;> cases c.wide <;> cases c.cellWidth <;>
    cases c.cellHeight <;> simp

theorem has_line_iff {c : Tlc39} : (∃ l, c.line = .ok l) ↔ c.Complete := by
  have heci (n : Nat) : isEci n = true ↔ 100000 ≤ n ∧ n ≤ 999999 := by simp [isEci]
  rw [Complete, ← inOrder_iff]
  obtain ⟨x, y, rotation, height, narrow, wide, cellWidth, cellHeight, eci, serial, additional⟩ := c
  simp only [line_eq_ok, heci, Option.isSome_iff_exists, Option.mem_def]
  constructor
  · rintro ⟨_, x, y, r, e, s, ⟨⟩, ho, he, rfl⟩
    exact ⟨⟨x, rfl⟩, ⟨y, rfl⟩, ⟨r, rfl⟩, ⟨e, rfl, he⟩, ⟨s, rfl⟩, ho⟩
  · rintro ⟨⟨x, rfl⟩, ⟨y, rfl⟩, ⟨r, rfl⟩, ⟨e, rfl, he⟩, ⟨s, rfl⟩, ho⟩
    exact ⟨_, x, y, r, e, s, rfl, ho, he, rfl⟩

end Tlc39

def QrCode.Complete (c : QrCode) : Prop :=
  c.x.isSome ∧ c.y.isSome ∧ c.ecc.isSome ∧ c.cellWidth.isSome ∧ c.mode.isSome ∧
    c.rotation.isSome ∧ (∀ m ∈ c.mask, m ≤ 8) ∧ c.content.isSome

theorem QrCode.has_line_iff {c : QrCode} : (∃ l, c.line = .ok l) ↔ c.Complete := by
  obtain ⟨x, y, ecc, cellWidth, mode, rotation, justification, model, mask, area, content⟩ := c
  have hmask : mask.all (· ≤ 8) = true ↔ ∀ m ∈ mask, m ≤ 8 := by cases mask <;> simp
  simp only [line_eq_ok, Complete, hmask, Option.isSome_iff_exists]
  constructor
  · rintro ⟨_, x, y, e, w, m, r, t, ⟨⟩, hm, rfl⟩
    exact ⟨⟨x, rfl⟩, ⟨y, rfl⟩, ⟨e, rfl⟩, ⟨w, rfl⟩, ⟨m, rfl⟩, ⟨r, rfl⟩, hm, t, rfl⟩
  · rintro ⟨⟨x, rfl⟩, ⟨y, rfl⟩, ⟨e, rfl⟩, ⟨w, rfl⟩, ⟨m, rfl⟩, ⟨r, rfl⟩, hm, t, rfl⟩
    exact ⟨_, x, y, e, w, m, r, t, rfl, hm, rfl⟩

def DataMatrix.Complete (c : DataMatrix) : Prop :=
  c.x.isSome ∧ c.y.isSome ∧ c.width.isSome ∧ c.height.isSome ∧ c.content.isSome

theorem DataMatrix.has_line_iff {c : DataMatrix} : (∃ l, c.line = .ok l) ↔ c.Complete := by
  obtain ⟨x, y, width, height, escape, moduleSize, rotation, rectangle, rows, cols, content⟩ := c
  simp [line_eq_ok, Complete, Option.isSome_iff_exists]

def Pdf417.Complete (c : Pdf417) : Prop :=
  c.x.isSome ∧ c.y.isSome ∧ c.width.isSome ∧ c.height.isSome ∧ c.rotation.isSome ∧
    ∃ t ∈ c.content, t.length ≤ 2048

theorem Pdf417.has_line_iff {c : Pdf417} : (∃ l, c.line = .ok l) ↔ c.Complete := by
  obtain ⟨x, y, width, height, rotation, p, e, m, u, w, h, r, cc, t, n, content⟩ := c
  simp only [line_eq_ok, Complete, maxContent, Option.isSome_iff_exists, Option.mem_def]
  constructor
  · rintro ⟨_, x, y, w, h, r, t, ⟨⟩, ht, rfl⟩
    exact ⟨⟨x, rfl⟩, ⟨y, rfl⟩, ⟨w, rfl⟩, ⟨h, rfl⟩, ⟨r, rfl⟩, t, rfl, ht⟩
  · rintro ⟨⟨x, rfl⟩, ⟨y, rfl⟩, ⟨w, rfl⟩, ⟨h, rfl⟩, ⟨r, rfl⟩, t, rfl, ht⟩
    exact ⟨_, x, y, w, h, r, t, rfl, ht, rfl⟩

def Aztec.Complete (c : Aztec) : Prop :=
  c.x.isSome ∧ c.y.isSome ∧ c.rotation.isSome ∧
    (∀ s ∈ c.moduleSize, 1 ≤ s ∧ s ≤ 20) ∧
    (∀ e ∈ c.errorControl, e ≤ 99 ∨ 101 ≤ e ∧ e ≤ 104 ∨ 201 ≤ e ∧ e ≤ 232 ∨ e = 300) ∧
    (∀ m ∈ c.multi, 1 ≤ m ∧ m ≤ 26) ∧ c.content.isSome

theorem Aztec.has_line_iff {c : Aztec} : (∃ l, c.line = .ok l) ↔ c.Complete := by
  obtain ⟨x, y, rotation, size, error, escape, menu, multi, reversed, bytes, content⟩ := c
  have hsize : (1 ≤ size.getD 6 ∧ size.getD 6 ≤ 20) ↔ ∀ s ∈ size, 1 ≤ s ∧ s ≤ 20 := by
    cases size <;> simp
  have herror : isErrorControl (error.getD 0) = true ↔
      ∀ e ∈ error, e ≤ 99 ∨ 101 ≤ e ∧ e ≤ 104 ∨ 201 ≤ e ∧ e ≤ 232 ∨ e = 300 := by
    cases error <;> simp [isErrorControl, or_assoc]
  have hmulti : (1 ≤ multi.getD 6 ∧ multi.getD 6 ≤ 26) ↔ ∀ m ∈ multi, 1 ≤ m ∧ m ≤ 26 := by
    cases multi <;> simp
  simp only [line_eq_ok, Complete, hsize, herror, hmulti, Option.isSome_iff_exists]
  constructor
  · rintro ⟨_, x, y, r, t, ⟨⟩, hs, he, hm, rfl⟩
    exact ⟨⟨x, rfl⟩, ⟨y, rfl⟩, ⟨r, rfl⟩, hs, he, hm, t, rfl⟩
  · rintro ⟨⟨x, rfl⟩, ⟨y, rfl⟩, ⟨r, rfl⟩, hs, he, hm, t, rfl⟩
    exact ⟨_, x, y, r, t, rfl, hs, he, hm, rfl⟩

def CutterMode.Complete : CutterMode → Prop
  | .pieces n => 0 < n
  | .off | .batch => True

theorem CutterMode.has_value_iff {m : CutterMode} : (∃ v, m.value = .ok v) ↔ m.Complete := by
  cases m <;> simp [value_eq_ok, Complete]

def DeviceSetting.Complete : DeviceSetting → Prop
  | .partialCutter mode | .cutter mode => mode.Complete
  | .back _ | .peel _ | .head _ | .encoder _ => True

theorem DeviceSetting.has_line_iff {c : DeviceSetting} : (∃ l, c.line = .ok l) ↔ c.Complete := by
  cases c <;> simp [line_eq_ok, value, Complete, CutterMode.has_value_iff]

def Counter.Complete (c : Counter) : Prop := (∃ n ∈ c.counter, n ≤ 60) ∧ c.step.isSome

theorem Counter.has_line_iff {c : Counter} : (∃ l, c.line = .ok l) ↔ c.Complete := by
  obtain ⟨n, k⟩ := c
  simp only [line_eq_ok, of, Complete, maxCounter, Option.isSome_iff_exists, Option.mem_def]
  constructor
  · rintro ⟨_, n, k, ⟨⟩, hn, rfl⟩
    exact ⟨⟨n, rfl, hn⟩, k, rfl⟩
  · rintro ⟨⟨n, rfl, hn⟩, k, rfl⟩
    exact ⟨_, n, k, rfl, hn, rfl⟩

def CounterExpression.Complete (c : CounterExpression) : Prop :=
  (∃ n ∈ c.counter, n ≤ 60) ∧ c.expression.isSome

theorem CounterExpression.has_line_iff {c : CounterExpression} :
    (∃ l, c.line = .ok l) ↔ c.Complete := by
  obtain ⟨n, e⟩ := c
  simp only [line_eq_ok, of, Complete, maxCounter, Option.isSome_iff_exists, Option.mem_def]
  constructor
  · rintro ⟨_, n, e, ⟨⟩, hn, rfl⟩
    exact ⟨⟨n, rfl, hn⟩, e, rfl⟩
  · rintro ⟨⟨n, rfl, hn⟩, e, rfl⟩
    exact ⟨_, n, e, rfl, hn, rfl⟩

def Bitmap.Complete (c : Bitmap) : Prop :=
  c.x.isSome ∧ c.y.isSome ∧ ∃ w ∈ c.widthBytes, ∃ h ∈ c.height, c.data.length = w * h

theorem Bitmap.has_bytes_iff {c : Bitmap} : (∃ b, c.render = .ok b) ↔ c.Complete := by
  obtain ⟨x, y, w, h, mode, data⟩ := c
  simp only [render_eq_ok, Complete, Option.isSome_iff_exists, Option.mem_def]
  constructor
  · rintro ⟨_, x, y, w, h, ⟨⟩, hd, rfl⟩
    exact ⟨⟨x, rfl⟩, ⟨y, rfl⟩, w, rfl, h, rfl, hd⟩
  · rintro ⟨⟨x, rfl⟩, ⟨y, rfl⟩, w, rfl, h, rfl, hd⟩
    exact ⟨_, x, y, w, h, rfl, hd, rfl⟩

namespace Command

/-- All that the catalog requires of a command. TEXT and MAXICODE have rules of their own. -/
def Complete : Command → Prop
  | .size c => c.Complete
  | .gap c => c.Complete
  | .offset c => c.Complete
  | .speed c => c.Complete
  | .density c => c.Complete
  | .direction c => c.Complete
  | .print c => c.Complete
  | .bar c => c.Complete
  | .box c => c.Complete
  | .circle c => c.Complete
  | .ellipse c => c.Complete
  | .erase c => c.Complete
  | .barcode c => c.Complete
  | .codablock c => c.Complete
  | .tlc39 c => c.Complete
  | .qrCode c => c.Complete
  | .dataMatrix c => c.Complete
  | .pdf417 c => c.Complete
  | .aztec c => c.Complete
  | .setting c => c.Complete
  | .counter c => c.Complete
  | .counterExpression c => c.Complete
  | .bitmap c => c.Complete
  | .clearBuffer | .cut | .selfTest _ | .poll _ | .text _ | .maxiCode _ => True

theorem render_ok_iff_complete {c : Command} (ht : c.mnemonic ≠ "TEXT")
    (hm : c.mnemonic ≠ "MAXICODE") : (∃ b, c.render = .ok b) ↔ c.Complete := by
  have hline (x : Checked Line) : (∃ b, Line.finish <$> x = .ok b) ↔ ∃ l, x = .ok l := by
    simp
  cases c with
  | size c => exact (hline _).trans Size.has_line_iff
  | gap c => exact (hline _).trans Gap.has_line_iff
  | offset c => exact (hline _).trans Offset.has_line_iff
  | speed c => exact (hline _).trans Speed.has_line_iff
  | density c => exact (hline _).trans Density.has_line_iff
  | direction c => exact (hline _).trans Direction.has_line_iff
  | print c => exact (hline _).trans Print.has_line_iff
  | bar c => exact (hline _).trans Bar.has_line_iff
  | box c => exact (hline _).trans Box.has_line_iff
  | circle c => exact (hline _).trans Circle.has_line_iff
  | ellipse c => exact (hline _).trans Ellipse.has_line_iff
  | erase c => exact (hline _).trans Erase.has_line_iff
  | barcode c => exact (hline _).trans Barcode.has_line_iff
  | codablock c => exact (hline _).trans Codablock.has_line_iff
  | tlc39 c => exact (hline _).trans Tlc39.has_line_iff
  | qrCode c => exact (hline _).trans QrCode.has_line_iff
  | dataMatrix c => exact (hline _).trans DataMatrix.has_line_iff
  | pdf417 c => exact (hline _).trans Pdf417.has_line_iff
  | aztec c => exact (hline _).trans Aztec.has_line_iff
  | setting c => exact (hline _).trans DeviceSetting.has_line_iff
  | counter c => exact (hline _).trans Counter.has_line_iff
  | counterExpression c => exact (hline _).trans CounterExpression.has_line_iff
  | bitmap c => exact Bitmap.has_bytes_iff
  | clearBuffer | cut | selfTest | poll => exact ⟨fun _ => trivial, fun _ => ⟨_, rfl⟩⟩
  | text => exact absurd rfl ht
  | maxiCode => exact absurd rfl hm

theorem aztec_error_control_edge :
    (∃ b, (aztec { x := some 0, y := some 0, rotation := some .none, errorControl := some 104,
                   content := some "" }).render = .ok b) ∧
      ¬ ∃ b, (aztec { x := some 0, y := some 0, rotation := some .none, errorControl := some 105,
                      content := some "" }).render = .ok b := by
  rw [render_ok_iff_complete (by decide) (by decide),
    render_ok_iff_complete (by decide) (by decide)]
  simp [Complete, Aztec.Complete]

/-- The command in front of a message is the one that was rejected. -/
theorem render_blames (c : Command) : Blames c.mnemonic c.render := by
  cases c with
  | size c => simp [render, mnemonic, Size.line]
  | gap c => simp [render, mnemonic, Gap.line]
  | offset c => simp [render, mnemonic, Offset.line]
  | speed c => simp [render, mnemonic, Speed.line]
  | density c => simp [render, mnemonic, Density.line]
  | direction c => simp [render, mnemonic, Direction.line]
  | print c => simp [render, mnemonic, Print.line]
  | bar c => simp [render, mnemonic, Bar.line]
  | circle c => simp [render, mnemonic, Circle.line]
  | ellipse c => simp [render, mnemonic, Ellipse.line]
  | erase c => simp [render, mnemonic, Erase.line]
  | text c => simp [render, mnemonic, Text.line]
  | codablock c => simp [render, mnemonic, Codablock.line]
  | tlc39 c => simp [render, mnemonic, Tlc39.line, Tlc39.checkSizes]
  | qrCode c => simp [render, mnemonic, QrCode.line]
  | pdf417 c => simp [render, mnemonic, Pdf417.line]
  | aztec c => simp [render, mnemonic, Aztec.line]
  | counter c => simp [render, mnemonic, Counter.line]
  | counterExpression c => simp [render, mnemonic, CounterExpression.line]
  | bitmap c => simp [render, mnemonic, Bitmap.render]
  | clearBuffer | cut | selfTest | poll => simp [render]
  | box c =>
    have hcorner : Blames "BOX" c.corner := by
      rw [Box.corner]
      split <;> simp
    simp [render, mnemonic, Box.line, hcorner]
  | barcode c =>
    have hwidths : Blames "BARCODE" c.barWidths := by
      rw [Barcode.barWidths]
      split <;> simp
    simp [render, mnemonic, Barcode.line, hwidths]
  | dataMatrix c =>
    have hanchor : Blames "DMATRIX" c.anchor := by
      rw [DataMatrix.anchor]
      split <;> simp
    simp [render, mnemonic, DataMatrix.line, hanchor]
  | maxiCode c =>
    have hmessage (mode : Nat) (content : String) : Blames "MAXICODE" (c.message mode content) := by
      rw [MaxiCode.message]
      split
      · simp [MaxiCode.address]
      · split <;> simp
    simp [render, mnemonic, MaxiCode.line, hmessage]
  | setting c =>
    have hmode (m : CutterMode) : Blames "SET" m.value := by
      cases m <;> simp [CutterMode.value]
    cases c <;> simp [render, mnemonic, DeviceSetting.line, DeviceSetting.value, hmode]

end Command

end LabelPrinter

import LabelPrinter.Proofs.Command.Schema
import LabelPrinter.Proofs.Command.Validity

/-!
An optional parameter that is cleared takes its field off the line and nothing else.
-/

namespace LabelPrinter

open Check

theorem given_nat {o : Option Nat} (h : o.isSome = true) : ∃ s, given o .nat = [.field s] := by
  obtain ⟨n, rfl⟩ := Option.isSome_iff_exists.mp h
  exact ⟨n.repr, rfl⟩

theorem given_eq_nil {α : Type} {o : Option α} {part : α → Part} : given o part = [] ↔ o = none := by
  rw [given, Option.toList_eq_nil_iff, Option.map_eq_none_iff]

def Print.schema : Schema Print where
  head := "PRINT"
  wrap := .print
  line := Print.line
  parameters := [
    .fixed sets .nat fun c => { c with sets := none },
    .option .free copies Nat.repr (fun c => { c with copies := none }) fun _ => rfl]

theorem Print.schema_lawful : Print.schema.Lawful where
  render_eq _ := rfl
  line_eq c l h := by
    obtain ⟨sets, copies⟩ := c
    obtain ⟨n, ⟨⟩, rfl⟩ := Print.line_eq_ok.mp h
    rw [← List.append_nil (given copies .nat)]
    rfl
  begun := by
    refine ⟨_, _, rfl, rfl, fun c l h => ?_⟩
    exact given_nat (Print.has_line_iff.mp ⟨l, h⟩)
  apart := by simp [schema, Parameter.Apart]
  spares c l h := by
    have hc := Print.has_line_iff.mp ⟨l, h⟩
    simp only [schema, Schema.spares_nil, Schema.spares_fixed, Schema.spares_free, and_true]
    exact Print.has_line_iff.mpr hc

def Direction.schema : Schema Direction where
  head := "DIRECTION"
  wrap := .direction
  line := Direction.line
  parameters := [
    .fixed direction .nat fun c => { c with direction := none },
    .option .free mirror (fun b => if b then "1" else "0") (fun c => { c with mirror := none })
      fun _ => rfl]

theorem Direction.schema_lawful : Direction.schema.Lawful where
  render_eq _ := rfl
  line_eq c l h := by
    obtain ⟨direction, mirror⟩ := c
    obtain ⟨d, ⟨⟩, -, rfl⟩ := Direction.line_eq_ok.mp h
    rw [← List.append_nil (given mirror .flag)]
    rfl
  begun := by
    refine ⟨_, _, rfl, rfl, fun c l h => ?_⟩
    obtain ⟨d, hc, -⟩ := Direction.line_eq_ok.mp h
    rw [hc]
    exact ⟨_, rfl⟩
  apart := by simp [schema, Parameter.Apart]
  spares c l h := by
    have hc := Direction.has_line_iff.mp ⟨l, h⟩
    simp only [schema, Schema.spares_nil, Schema.spares_fixed, Schema.spares_free, and_true]
    exact Direction.has_line_iff.mpr hc

def Text.schema : Schema Text where
  head := "TEXT"
  wrap := .text
  line := Text.line
  parameters := [
    .fixed x .nat fun c => { c with x := none },
    .fixed y .nat fun c => { c with y := none },
    .fixed font .quoted fun c => { c with font := none },
    .fixed (some <| rotation ·) (.nat ·.degrees) fun c => { c with rotation := .none },
    .fixed xMultiplier .number fun c => { c with xMultiplier := none },
    .fixed yMultiplier .number fun c => { c with yMultiplier := none },
    .option .free alignment (·.code.repr) (fun c => { c with alignment := none }) fun _ => rfl,
    .fixed content .quoted fun c => { c with content := none }]

theorem Text.schema_lawful : Text.schema.Lawful where
  render_eq _ := rfl
  line_eq c l h := by
    obtain ⟨x, y, font, rotation, xm, ym, alignment, content⟩ := c
    obtain ⟨x, y, font, xm, ym, content, ⟨⟩, -, -, rfl⟩ := Text.line_eq_ok.mp h
    rw [List.append_assoc]
    rfl
  begun := by
    refine ⟨_, _, rfl, rfl, fun c l h => ?_⟩
    obtain ⟨x, y, font, xm, ym, content, hc, -⟩ := Text.line_eq_ok.mp h
    rw [hc]
    exact ⟨_, rfl⟩
  apart := by simp [schema, Parameter.Apart]
  spares c l h := by
    obtain ⟨x, y, font, xm, ym, content, hc, hx, hy, -⟩ := Text.line_eq_ok.mp h
    simp only [schema, Schema.spares_nil, Schema.spares_fixed, Schema.spares_free, and_true]
    refine ⟨_, Text.line_eq_ok.mpr ⟨x, y, font, xm, ym, content, ?_, hx, hy, rfl⟩⟩
    rw [hc]

def Barcode.schema : Schema Barcode where
  head := "BARCODE"
  wrap := .barcode
  line := Barcode.line
  parameters := [
    .fixed x .nat fun c => { c with x := none },
    .fixed y .nat fun c => { c with y := none },
    .fixed symbology (.quoted ·.code) fun c => { c with symbology := none },
    .fixed height .nat fun c => { c with height := none },
    .fixed (some <| humanReadable ·) (.nat ·.code) fun c => { c with humanReadable := .none },
    .fixed (some <| rotation ·) (.nat ·.degrees) fun c => { c with rotation := .none },
    .fixed narrow .nat fun c => { c with narrow := none },
    .fixed wide .nat fun c => { c with wide := none },
    .option .free alignment (·.code.repr) (fun c => { c with alignment := none }) fun _ => rfl,
    .fixed content .quoted fun c => { c with content := none }]

theorem Barcode.schema_lawful : Barcode.schema.Lawful where
  render_eq _ := rfl
  line_eq c l h := by
    obtain ⟨x, y, symbology, height, readable, rotation, narrow, wide, alignment, content⟩ := c
    obtain ⟨x, y, s, h, n, w, content, ⟨⟩, rfl⟩ := Barcode.line_eq_ok.mp h
    rw [List.append_assoc]
    rfl
  begun := by
    refine ⟨_, _, rfl, rfl, fun c l h => ?_⟩
    exact given_nat (Barcode.has_line_iff.mp ⟨l, h⟩).1
  apart := by simp [schema, Parameter.Apart]
  spares c l h := by
    have hc := Barcode.has_line_iff.mp ⟨l, h⟩
    simp only [schema, Schema.spares_nil, Schema.spares_fixed, Schema.spares_free, and_true]
    exact Barcode.has_line_iff.mpr hc

def Codablock.schema : Schema Codablock where
  head := "CODABLOCK"
  wrap := .codablock
  line := Codablock.line
  parameters := [
    .fixed x .nat fun c => { c with x := none },
    .fixed y .nat fun c => { c with y := none },
    .fixed (some <| rotation ·) (.nat ·.degrees) fun c => { c with rotation := .none },
    .option .free rowHeight Nat.repr (fun c => { c with rowHeight := none }) fun _ => rfl,
    .option .free moduleWidth Nat.repr (fun c => { c with moduleWidth := none }) fun _ => rfl,
    .fixed content .quoted fun c => { c with content := none }]

theorem Codablock.schema_lawful : Codablock.schema.Lawful where
  render_eq _ := rfl
  line_eq c l h := by
    obtain ⟨x, y, rotation, rowHeight, moduleWidth, content⟩ := c
    obtain ⟨x, y, content, ⟨⟩, rfl⟩ := Codablock.line_eq_ok.mp h
    simp only [List.append_assoc]
    rfl
  begun := by
    refine ⟨_, _, rfl, rfl, fun c l h => ?_⟩
    exact given_nat (Codablock.has_line_iff.mp ⟨l, h⟩).1
  apart := by simp [schema, Parameter.Apart]
  spares c l h := by
    have hc := Codablock.has_line_iff.mp ⟨l, h⟩
    simp only [schema, Schema.spares_nil, Schema.spares_fixed, Schema.spares_free,
      Codablock.has_line_iff, and_true]
    exact ⟨hc, hc⟩

/-- All that goes into the symbol is one field. -/
def Tlc39.message (c : Tlc39) : Option String :=
  c.eci.bind fun eci => c.serial.map fun serial => eci.repr ++ "," ++ serial ++ c.extra

theorem Tlc39.InOrder.clear {c : Tlc39} (h : c.InOrder) :
    (c.narrow = none → InOrder { c with height := none }) ∧
      (c.wide = none → InOrder { c with narrow := none }) ∧
      (c.cellWidth = none → InOrder { c with wide := none }) ∧
      (c.cellHeight = none → InOrder { c with cellWidth := none }) ∧
      InOrder { c with cellHeight := none } := by
  obtain ⟨hnarrow, hwide, hcellWidth, hcellHeight⟩ := h
  refine ⟨fun hn => ⟨?_, hwide, hcellWidth, hcellHeight⟩,
    fun hn => ⟨nofun, ?_, hcellWidth, hcellHeight⟩, fun hn => ⟨hnarrow, nofun, ?_, hcellHeight⟩,
    fun hn => ⟨hnarrow, hwide, nofun, ?_⟩, ⟨hnarrow, hwide, hcellWidth, nofun⟩⟩
  all_goals
    intro hs
    rw [hn] at hs
    cases hs

def Tlc39.schema : Schema Tlc39 where
  head := "TLC39"
  wrap := .tlc39
  line := Tlc39.line
  parameters := [
    .fixed x .nat fun c => { c with x := none },
    .fixed y .nat fun c => { c with y := none },
    .fixed rotation (.nat ·.degrees) fun c => { c with rotation := none },
    .option .chained height Nat.repr (fun c => { c with height := none }) fun _ => rfl,
    .option .chained narrow Nat.repr (fun c => { c with narrow := none }) fun _ => rfl,
    .option .chained wide Nat.repr (fun c => { c with wide := none }) fun _ => rfl,
    .option .chained cellWidth Nat.repr (fun c => { c with cellWidth := none }) fun _ => rfl,
    .option .chained cellHeight Nat.repr (fun c => { c with cellHeight := none }) fun _ => rfl,
    .fixed message .quoted fun c => { c with eci := none, serial := none, additional := none }]

theorem Tlc39.schema_lawful : Tlc39.schema.Lawful where
  render_eq _ := rfl
  line_eq c l h := by
    obtain ⟨x, y, rotation, height, narrow, wide, cellWidth, cellHeight, eci, serial, extra⟩ := c
    obtain ⟨x, y, rotation, eci, serial, ⟨⟩, -, -, rfl⟩ := Tlc39.line_eq_ok.mp h
    simp only [List.append_assoc]
    rfl
  begun := by
    refine ⟨_, _, rfl, rfl, fun c l h => ?_⟩
    exact given_nat (Tlc39.has_line_iff.mp ⟨l, h⟩).1
  apart := by simp [schema, Parameter.Apart, message, extra]
  spares c l h := by
    obtain ⟨hx, hy, hr, he, hs, ho⟩ := Tlc39.has_line_iff.mp ⟨l, h⟩
    obtain ⟨hheight, hnarrow, hwide, hcellWidth, hcellHeight⟩ := (inOrder_iff.mpr ho).clear
    simp only [schema, Schema.spares_nil, Schema.spares_fixed, Schema.spares_chained,
      Tlc39.has_line_iff, and_true]
    refine ⟨fun hq => ?_, fun hq => ?_, fun hq => ?_, fun hq => ?_, fun _ => ?_⟩
    · have hn := given_eq_nil.mp (hq _ List.mem_cons_self rfl)
      exact ⟨hx, hy, hr, he, hs, inOrder_iff.mp (hheight hn)⟩
    · have hn := given_eq_nil.mp (hq _ List.mem_cons_self rfl)
      exact ⟨hx, hy, hr, he, hs, inOrder_iff.mp (hnarrow hn)⟩
    · have hn := given_eq_nil.mp (hq _ List.mem_cons_self rfl)
      exact ⟨hx, hy, hr, he, hs, inOrder_iff.mp (hwide hn)⟩
    · have hn := given_eq_nil.mp (hq _ List.mem_cons_self rfl)
      exact ⟨hx, hy, hr, he, hs, inOrder_iff.mp (hcellWidth hn)⟩
    · exact ⟨hx, hy, hr, he, hs, inOrder_iff.mp hcellHeight⟩

def QrCode.schema : Schema QrCode where
  head := "QRCODE"
  wrap := .qrCode
  line := QrCode.line
  parameters := [
    .fixed x .nat fun c => { c with x := none },
    .fixed y .nat fun c => { c with y := none },
    .fixed ecc (.field ·.code) fun c => { c with ecc := none },
    .fixed cellWidth .nat fun c => { c with cellWidth := none },
    .fixed mode (.field ·.code) fun c => { c with mode := none },
    .fixed rotation (.nat ·.degrees) fun c => { c with rotation := none },
    .option .free justification ("J" ++ ·.repr) (fun c => { c with justification := none })
      fun _ => rfl,
    .option .free model QrModel.code (fun c => { c with model := none }) fun _ => rfl,
    .option .free mask ("S" ++ ·.repr) (fun c => { c with mask := none }) fun _ => rfl,
    .option .free area ("X" ++ ·.repr) (fun c => { c with area := none }) fun _ => rfl,
    .fixed content .quoted fun c => { c with content := none }]

theorem QrCode.schema_lawful : QrCode.schema.Lawful where
  render_eq _ := rfl
  line_eq c l h := by
    obtain ⟨x, y, ecc, cellWidth, mode, rotation, justification, model, mask, area, content⟩ := c
    obtain ⟨x, y, ecc, cellWidth, mode, rotation, content, ⟨⟩, -, rfl⟩ := QrCode.line_eq_ok.mp h
    simp only [List.append_assoc]
    rfl
  begun := by
    refine ⟨_, _, rfl, rfl, fun c l h => ?_⟩
    exact given_nat (QrCode.has_line_iff.mp ⟨l, h⟩).1
  apart := by simp [schema, Parameter.Apart]
  spares c l h := by
    have hc := QrCode.has_line_iff.mp ⟨l, h⟩
    simp only [schema, Schema.spares_nil, Schema.spares_fixed, Schema.spares_free,
      QrCode.has_line_iff, and_true]
    refine ⟨hc, hc, ?_, hc⟩
    obtain ⟨hx, hy, he, hw, hm, hr, -, ht⟩ := hc
    refine ⟨hx, hy, he, hw, hm, hr, ?_, ht⟩
    intro m hmask
    exact absurd hmask (Option.not_mem_none m)

def DataMatrix.schema : Schema DataMatrix where
  head := "DMATRIX"
  wrap := .dataMatrix
  line := DataMatrix.line
  parameters := [
    .fixed x .nat fun c => { c with x := none },
    .fixed y .nat fun c => { c with y := none },
    .fixed width .nat fun c => { c with width := none },
    .fixed height .nat fun c => { c with height := none },
    .option .free escape ("c" ++ ·.repr) (fun c => { c with escape := none }) fun _ => rfl,
    .option .free moduleSize ("x" ++ ·.repr) (fun c => { c with moduleSize := none }) fun _ => rfl,
    .option .free rotation ("r" ++ ·.degrees.repr) (fun c => { c with rotation := none })
      fun _ => rfl,
    .option .free rectangle ("a" ++ ·.toNat.repr) (fun c => { c with rectangle := none })
      fun _ => rfl,
    .option .free rows Nat.repr (fun c => { c with rows := none }) fun _ => rfl,
    .option .free cols Nat.repr (fun c => { c with cols := none }) fun _ => rfl,
    .fixed content .quoted fun c => { c with content := none }]

theorem DataMatrix.schema_lawful : DataMatrix.schema.Lawful where
  render_eq _ := rfl
  line_eq c l h := by
    obtain ⟨x, y, width, height, escape, moduleSize, rotation, rectangle, rows, cols, content⟩ := c
    obtain ⟨x, y, width, height, content, ⟨⟩, rfl⟩ := DataMatrix.line_eq_ok.mp h
    simp only [List.append_assoc]
    rfl
  begun := by
    refine ⟨_, _, rfl, rfl, fun c l h => ?_⟩
    exact given_nat (DataMatrix.has_line_iff.mp ⟨l, h⟩).1
  apart := by simp [schema, Parameter.Apart]
  spares c l h := by
    have hc := DataMatrix.has_line_iff.mp ⟨l, h⟩
    simp only [schema, Schema.spares_nil, Schema.spares_fixed, Schema.spares_free,
      DataMatrix.has_line_iff, and_true]
    exact ⟨hc, hc, hc, hc, hc, hc⟩

theorem Pdf417.contentPart_eq (c : Pdf417) :
    c.contentPart = if c.expressionLength.isSome then .field else .quoted := by
  funext content
  rw [contentPart]
  split_ifs
  · rfl
  · rfl

/-- An announced length decides in which form the content is sent. -/
def Pdf417.message : Parameter Pdf417 where
  need := .fixed
  parts c := given c.expressionLength (.tagged "L") ++ given c.content c.contentPart
  clear c := { c with expressionLength := none, content := none }
  single h := absurd rfl h

def Pdf417.schema : Schema Pdf417 where
  head := "PDF417"
  wrap := .pdf417
  line := Pdf417.line
  parameters := [
    .fixed x .nat fun c => { c with x := none },
    .fixed y .nat fun c => { c with y := none },
    .fixed width .nat fun c => { c with width := none },
    .fixed height .nat fun c => { c with height := none },
    .fixed rotation (.nat ·.degrees) fun c => { c with rotation := none },
    .option .free compression ("P" ++ ·.repr) (fun c => { c with compression := none }) fun _ => rfl,
    .option .free errorLevel ("E" ++ ·.repr) (fun c => { c with errorLevel := none }) fun _ => rfl,
    .option .free centerPattern ("M" ++ ·.repr) (fun c => { c with centerPattern := none })
      fun _ => rfl,
    .option .free humanReadable (fun u => (captionPlace u).text) (fun c => { c with humanReadable := none })
      fun _ => rfl,
    .option .free moduleWidth ("W" ++ ·.repr) (fun c => { c with moduleWidth := none }) fun _ => rfl,
    .option .free barHeight ("H" ++ ·.repr) (fun c => { c with barHeight := none }) fun _ => rfl,
    .option .free maxRows ("R" ++ ·.repr) (fun c => { c with maxRows := none }) fun _ => rfl,
    .option .free maxCols ("C" ++ ·.repr) (fun c => { c with maxCols := none }) fun _ => rfl,
    .option .free truncated ("T" ++ ·.toNat.repr) (fun c => { c with truncated := none })
      fun _ => rfl,
    message]

theorem Pdf417.schema_lawful : Pdf417.schema.Lawful where
  render_eq _ := rfl
  line_eq c l h := by
    obtain ⟨x, y, width, height, rotation, p, e, m, u, w, h, r, cc, t, n, content⟩ := c
    obtain ⟨x, y, width, height, rotation, content, hc, -, rfl⟩ := Pdf417.line_eq_ok.mp h
    rw [hc]
    simp only [List.append_assoc]
    rw [← List.append_nil (given n (.tagged "L") ++ [_])]
    rfl
  begun := by
    refine ⟨_, _, rfl, rfl, fun c l h => ?_⟩
    exact given_nat (Pdf417.has_line_iff.mp ⟨l, h⟩).1
  apart := by simp [schema, Parameter.Apart, message, contentPart_eq]
  spares c l h := by
    have hc := Pdf417.has_line_iff.mp ⟨l, h⟩
    simp only [schema, Schema.spares_fixed, Schema.spares_free, Pdf417.has_line_iff]
    exact ⟨hc, hc, hc, hc, hc, hc, hc, hc, hc, fun h => absurd rfl h, trivial⟩

def Aztec.schema : Schema Aztec where
  head := "AZTEC"
  wrap := .aztec
  line := Aztec.line
  parameters := [
    .fixed x .nat fun c => { c with x := none },
    .fixed y .nat fun c => { c with y := none },
    .fixed rotation (.nat ·.degrees) fun c => { c with rotation := none },
    .fixed (fun c => some (c.moduleSize.getD 6)) .nat fun c => { c with moduleSize := none },
    .fixed (fun c => some (c.errorControl.getD 0)) .nat fun c => { c with errorControl := none },
    .fixed (fun c => some (c.escapeFlag.getD 0)) .nat fun c => { c with escapeFlag := none },
    .fixed (fun c => some (c.menu.getD false)) .flag fun c => { c with menu := none },
    .fixed (fun c => some (c.multi.getD 6)) .nat fun c => { c with multi := none },
    .fixed (fun c => some (c.reversed.getD false)) .flag fun c => { c with reversed := none },
    .option .free bytes Nat.repr (fun c => { c with bytes := none }) fun _ => rfl,
    .fixed content .quoted fun c => { c with content := none }]

theorem Aztec.schema_lawful : Aztec.schema.Lawful where
  render_eq _ := rfl
  line_eq c l h := by
    obtain ⟨x, y, rotation, size, error, escape, menu, multi, reversed, bytes, content⟩ := c
    obtain ⟨x, y, rotation, content, hc, -, -, -, rfl⟩ := Aztec.line_eq_ok.mp h
    rw [hc]
    simp only [List.append_assoc]
    rfl
  begun := by
    refine ⟨_, _, rfl, rfl, fun c l h => ?_⟩
    exact given_nat (Aztec.has_line_iff.mp ⟨l, h⟩).1
  apart := by simp [schema, Parameter.Apart]
  spares c l h := by
    have hc := Aztec.has_line_iff.mp ⟨l, h⟩
    simp only [schema, Schema.spares_nil, Schema.spares_fixed, Schema.spares_free,
      Aztec.has_line_iff, and_true]
    exact hc

/-- In each of the ten commands with optional parameters, such a parameter is one field of its own. -/
theorem Command.optional_parameters_clear :
    Print.schema.Clears ∧ Direction.schema.Clears ∧ Text.schema.Clears ∧ Barcode.schema.Clears ∧
      Codablock.schema.Clears ∧ Tlc39.schema.Clears ∧ QrCode.schema.Clears ∧
      DataMatrix.schema.Clears ∧ Pdf417.schema.Clears ∧ Aztec.schema.Clears :=
  ⟨Print.schema_lawful.clears, Direction.schema_lawful.clears, Text.schema_lawful.clears,
    Barcode.schema_lawful.clears, Codablock.schema_lawful.clears, Tlc39.schema_lawful.clears,
    QrCode.schema_lawful.clears, DataMatrix.schema_lawful.clears, Pdf417.schema_lawful.clears,
    Aztec.schema_lawful.clears⟩

end LabelPrinter

import LabelPrinter.Proofs.Command.Checks

/-!
When a text, barcode or matrix command has a line, and which.
-/

namespace LabelPrinter

open Check

variable {l : Line}

theorem Text.line_eq_ok {c : Text} : c.line = .ok l ↔
    ∃ x y font xm ym content,
      c = ⟨some x, some y, some font, c.rotation, some xm, some ym, c.alignment, some content⟩ ∧
      isMultiplier xm = true ∧ isMultiplier ym = true ∧
      .of "TEXT" ([.nat x, .nat y, .quoted font, .nat c.rotation.degrees, .number xm, .number ym] ++
        given c.alignment (fun a => .nat a.code) ++ [.quoted content]) = l := by
  obtain ⟨x, y, font, rotation, xm, ym, alignment, content⟩ := c
  simp only [Text.line, bind_eq_ok, position_eq_ok, require_eq_ok, pure_eq_ok,
    Option.filter_eq_some_iff]
  constructor
  · rintro ⟨⟨x, y⟩, ⟨rfl, rfl⟩, font, rfl, xm, ⟨rfl, hx⟩, ym, ⟨rfl, hy⟩, content, rfl, rfl⟩
    exact ⟨x, y, font, xm, ym, content, rfl, hx, hy, rfl⟩
  · rintro ⟨x, y, font, xm, ym, content, ⟨⟩, hx, hy, rfl⟩
    exact ⟨(x, y), ⟨rfl, rfl⟩, font, rfl, xm, ⟨rfl, hx⟩, ym, ⟨rfl, hy⟩, content, rfl, rfl⟩

theorem Barcode.barWidths_eq_ok {c : Barcode} {p : Nat × Nat} :
    c.barWidths = .ok p ↔ c.narrow = some p.1 ∧ c.wide = some p.2 := by
  obtain ⟨a, b⟩ := p
  rw [barWidths]
  cases c.narrow <;> cases c.wide <;> simp

theorem Barcode.line_eq_ok {c : Barcode} : c.line = .ok l ↔
    ∃ x y symbology height narrow wide content,
      c = ⟨some x, some y, some symbology, some height, c.humanReadable, c.rotation, some narrow,
        some wide, c.alignment, some content⟩ ∧
      .of "BARCODE" ([.nat x, .nat y, .quoted symbology.code, .nat height,
        .nat c.humanReadable.code, .nat c.rotation.degrees, .nat narrow, .nat wide] ++
        given c.alignment (fun a => .nat a.code) ++ [.quoted content]) = l := by
  obtain ⟨x, y, symbology, height, readable, rotation, narrow, wide, alignment, content⟩ := c
  simp only [Barcode.line, Barcode.barWidths_eq_ok, bind_eq_ok, position_eq_ok, require_eq_ok,
    pure_eq_ok]
  constructor
  · rintro ⟨⟨x, y⟩, ⟨rfl, rfl⟩, symbology, rfl, height, rfl, ⟨narrow, wide⟩, ⟨rfl, rfl⟩, content,
      rfl, rfl⟩
    exact ⟨x, y, symbology, height, narrow, wide, content, rfl, rfl⟩
  · rintro ⟨x, y, symbology, height, narrow, wide, content, ⟨⟩, rfl⟩
    exact ⟨(x, y), ⟨rfl, rfl⟩, symbology, rfl, height, rfl, (narrow, wide), ⟨rfl, rfl⟩, content,
      rfl, rfl⟩

theorem Codablock.line_eq_ok {c : Codablock} : c.line = .ok l ↔
    ∃ x y content,
      c = ⟨some x, some y, c.rotation, c.rowHeight, c.moduleWidth, some content⟩ ∧
      .of "CODABLOCK" ([.nat x, .nat y, .nat c.rotation.degrees] ++ given c.rowHeight .nat ++
        given c.moduleWidth .nat ++ [.quoted content]) = l := by
  obtain ⟨x, y, rotation, rowHeight, moduleWidth, content⟩ := c
  simp only [Codablock.line, bind_eq_ok, position_eq_ok, require_eq_ok, pure_eq_ok]
  constructor
  · rintro ⟨⟨x, y⟩, ⟨rfl, rfl⟩, content, rfl, rfl⟩
    exact ⟨x, y, content, rfl, rfl⟩
  · rintro ⟨x, y, content, ⟨⟩, rfl⟩
    exact ⟨(x, y), ⟨rfl, rfl⟩, content, rfl, rfl⟩

/-- The additional data of a symbol, with the comma before it. -/
def Tlc39.extra (c : Tlc39) : String :=
  match c.additional with
  | some a => "," ++ a
  | none => ""

/-- A size is given only if all sizes before it are. -/
def Tlc39.InOrder (c : Tlc39) : Prop :=
  (c.narrow.isSome → c.height.isSome) ∧ (c.wide.isSome → c.narrow.isSome) ∧
    (c.cellWidth.isSome → c.wide.isSome) ∧ (c.cellHeight.isSome → c.cellWidth.isSome)

theorem Tlc39.checkSizes_eq_ok {c : Tlc39} {u : Unit} : c.checkSizes = .ok u ↔ c.InOrder := by
  simp [Tlc39.checkSizes, Tlc39.InOrder]
  cases c.height <;> cases c.narrow <;> cases c.wide <;> cases c.cellWidth <;>
    cases c.cellHeight <;> simp

theorem Tlc39.line_eq_ok {c : Tlc39} : c.line = .ok l ↔
    ∃ x y rotation eci serial,
      c = ⟨some x, some y, some rotation, c.height, c.narrow, c.wide, c.cellWidth, c.cellHeight,
        some eci, some serial, c.additional⟩ ∧ c.InOrder ∧ isEci eci = true ∧
      .of "TLC39" ([.nat x, .nat y, .nat rotation.degrees] ++
        given c.height .nat ++ given c.narrow .nat ++ given c.wide .nat ++
        given c.cellWidth .nat ++ given c.cellHeight .nat ++
        [.quoted (eci.repr ++ "," ++ serial ++ c.extra)]) = l := by
  obtain ⟨x, y, rotation, height, narrow, wide, cellWidth, cellHeight, eci, serial, additional⟩ := c
  simp only [Tlc39.line, Tlc39.checkSizes_eq_ok, bind_eq_ok, position_eq_ok, require_eq_ok,
    pure_eq_ok, Option.filter_eq_some_iff]
  constructor
  · rintro ⟨⟨x, y⟩, ⟨rfl, rfl⟩, r, rfl, _, ho, e, ⟨rfl, he⟩, s, rfl, rfl⟩
    exact ⟨x, y, r, e, s, rfl, ho, he, rfl⟩
  · rintro ⟨x, y, r, e, s, ⟨⟩, ho, he, rfl⟩
    exact ⟨(x, y), ⟨rfl, rfl⟩, r, rfl, (), ho, e, ⟨rfl, he⟩, s, rfl, rfl⟩

theorem QrCode.line_eq_ok {c : QrCode} : c.line = .ok l ↔
    ∃ x y ecc cellWidth mode rotation content,
      c = ⟨some x, some y, some ecc, some cellWidth, some mode, some rotation, c.justification,
        c.model, c.mask, c.area, some content⟩ ∧ c.mask.all (· ≤ 8) = true ∧
      .of "QRCODE" ([.nat x, .nat y, .field ecc.code, .nat cellWidth, .field mode.code,
        .nat rotation.degrees] ++
        given c.justification (.tagged "J") ++ given c.model (fun m => .field m.code) ++
        given c.mask (.tagged "S") ++ given c.area (.tagged "X") ++ [.quoted content]) = l := by
  obtain ⟨x, y, ecc, cellWidth, mode, rotation, justification, model, mask, area, content⟩ := c
  simp only [QrCode.line, bind_eq_ok, position_eq_ok, require_eq_ok, ensure_eq_ok, pure_eq_ok]
  constructor
  · rintro ⟨⟨x, y⟩, ⟨rfl, rfl⟩, ecc, rfl, cellWidth, rfl, mode, rfl, rotation, rfl, _, hm, content,
      rfl, rfl⟩
    exact ⟨x, y, ecc, cellWidth, mode, rotation, content, rfl, hm, rfl⟩
  · rintro ⟨x, y, ecc, cellWidth, mode, rotation, content, ⟨⟩, hm, rfl⟩
    exact ⟨(x, y), ⟨rfl, rfl⟩, ecc, rfl, cellWidth, rfl, mode, rfl, rotation, rfl, (), hm, content,
      rfl, rfl⟩

theorem DataMatrix.anchor_eq_ok {c : DataMatrix} {p : Nat × Nat} :
    c.anchor = .ok p ↔ c.x = some p.1 ∧ c.y = some p.2 := by
  obtain ⟨a, b⟩ := p
  rw [anchor]
  cases c.x <;> cases c.y <;> simp

theorem DataMatrix.line_eq_ok {c : DataMatrix} : c.line = .ok l ↔
    ∃ x y width height content,
      c = ⟨some x, some y, some width, some height, c.escape, c.moduleSize, c.rotation,
        c.rectangle, c.rows, c.cols, some content⟩ ∧
      .of "DMATRIX" ([.nat x, .nat y, .nat width, .nat height] ++
        given c.escape (.tagged "c") ++ given c.moduleSize (.tagged "x") ++
        given c.rotation (fun r => .tagged "r" r.degrees) ++
        given c.rectangle (fun a => .tagged "a" a.toNat) ++
        given c.rows .nat ++ given c.cols .nat ++ [.quoted content]) = l := by
  obtain ⟨x, y, width, height, escape, moduleSize, rotation, rectangle, rows, cols, content⟩ := c
  simp only [DataMatrix.line, DataMatrix.anchor_eq_ok, bind_eq_ok, require_eq_ok, pure_eq_ok]
  constructor
  · rintro ⟨⟨x, y⟩, ⟨rfl, rfl⟩, width, rfl, height, rfl, content, rfl, rfl⟩
    exact ⟨x, y, width, height, content, rfl, rfl⟩
  · rintro ⟨x, y, width, height, content, ⟨⟩, rfl⟩
    exact ⟨(x, y), ⟨rfl, rfl⟩, width, rfl, height, rfl, content, rfl, rfl⟩

theorem Pdf417.line_eq_ok {c : Pdf417} : c.line = .ok l ↔
    ∃ x y width height rotation content,
      c = { c with x := some x, y := some y, width := some width, height := some height,
                   rotation := some rotation, content := some content } ∧
      content.length ≤ maxContent ∧
      .of "PDF417" ([.nat x, .nat y, .nat width, .nat height, .nat rotation.degrees] ++
        given c.compression (.tagged "P") ++ given c.errorLevel (.tagged "E") ++
        given c.centerPattern (.tagged "M") ++ given c.humanReadable captionPlace ++
        given c.moduleWidth (.tagged "W") ++ given c.barHeight (.tagged "H") ++
        given c.maxRows (.tagged "R") ++ given c.maxCols (.tagged "C") ++
        given c.truncated (fun t => .tagged "T" t.toNat) ++
        given c.expressionLength (.tagged "L") ++ [c.contentPart content]) = l := by
  obtain ⟨x, y, width, height, rotation, p, e, m, u, w, h, r, cc, t, n, content⟩ := c
  simp only [Pdf417.line, bind_eq_ok, position_eq_ok, require_eq_ok, ensure_eq_ok, pure_eq_ok,
    decide_eq_true_eq]
  constructor
  · rintro ⟨⟨x, y⟩, ⟨rfl, rfl⟩, width, rfl, height, rfl, rotation, rfl, content, rfl, _, hl, rfl⟩
    exact ⟨x, y, width, height, rotation, content, rfl, hl, rfl⟩
  · rintro ⟨x, y, width, height, rotation, content, ⟨⟩, hl, rfl⟩
    exact ⟨(x, y), ⟨rfl, rfl⟩, width, rfl, height, rfl, rotation, rfl, content, rfl, (), hl, rfl⟩

namespace MaxiCode

def bare (c : MaxiCode) (content : String) : List Part :=
  match c.expressionLength with
  | some n => [.tagged "L" n, .field content]
  | none => [.quoted content]

variable {mode : Nat} {content : String} {parts : List Part}

theorem address_eq_ok {s k : Nat} {p : String} : address mode s k p = .ok parts ↔
    (mode = 2 → k = usa → p.length = 10) ∧ (mode = 3 → p.length = 6) ∧
      [.nat s, .nat k, if mode = 3 then .quoted p else .field p] = parts := by
  have husa : (!(decide (mode = 2) && decide (k = usa) && p.length != 10)) = true ↔
      (mode = 2 → k = usa → p.length = 10) := by
    by_cases h : mode = 2 <;> by_cases hk : k = usa <;> simp [h, hk]
  have hsix : (!(decide (mode = 3) && p.length != 6)) = true ↔ (mode = 3 → p.length = 6) := by
    by_cases h : mode = 3 <;> simp [h]
  simp only [address, bind_eq_ok, ensure_eq_ok, pure_eq_ok, husa, hsix]
  constructor
  · rintro ⟨_, h2, _, h3, rfl⟩
    exact ⟨h2, h3, rfl⟩
  · rintro ⟨h2, h3, rfl⟩
    exact ⟨(), h2, (), h3, rfl⟩

theorem message_eq_ok {c : MaxiCode} (h : isStructured mode = true → c.hasAddress = true) :
    c.message mode content = .ok parts ↔
      isStructured mode = true ∧ (∃ s k p, c.serviceClass = some s ∧ c.country = some k ∧
        c.postcode = some p ∧ (mode = 2 → k = usa → p.length = 10) ∧ (mode = 3 → p.length = 6) ∧
        [.nat s, .nat k, if mode = 3 then .quoted p else .field p, .quoted content] = parts) ∨
      isStructured mode = false ∧ c.bare content = parts := by
  cases hm : isStructured mode with
  | false =>
    rw [message, bare, hm]
    cases c.expressionLength <;> simp
  | true =>
    have ha := h hm
    simp only [hasAddress, Bool.and_eq_true, Option.isSome_iff_exists] at ha
    obtain ⟨⟨⟨s, hs⟩, k, hk⟩, p, hp⟩ := ha
    rw [message, hm, hs, hk, hp]
    simp only [bind_eq_ok, address_eq_ok, pure_eq_ok]
    constructor
    · rintro ⟨_, ⟨h2, h3, rfl⟩, rfl⟩
      exact .inl ⟨trivial, s, k, p, rfl, rfl, rfl, h2, h3, rfl⟩
    · rintro (⟨-, s, k, p, ⟨⟩, ⟨⟩, ⟨⟩, h2, h3, rfl⟩ | ⟨h, -⟩)
      · exact ⟨_, ⟨h2, h3, rfl⟩, rfl⟩
      · cases h

theorem line_eq_ok {c : MaxiCode} : c.line = .ok l ↔
    ∃ x y mode content parts,
      c = { c with x := some x, y := some y, mode := some mode, content := some content } ∧
      (2 ≤ mode ∧ mode ≤ 5) ∧ (isStructured mode = true → c.hasAddress = true) ∧
      c.message mode content = .ok parts ∧
      .of "MAXICODE" ([.nat x, .nat y, .nat mode] ++ parts) = l := by
  obtain ⟨x, y, mode, serviceClass, country, postcode, expressionLength, content⟩ := c
  have hguard (a b : Bool) : (!a || b) = true ↔ (a = true → b = true) := by cases a <;> simp
  simp only [MaxiCode.line, bind_eq_ok, position_eq_ok, require_eq_ok, ensure_eq_ok, pure_eq_ok,
    Bool.and_eq_true, decide_eq_true_eq, hguard]
  constructor
  · rintro ⟨⟨x, y⟩, ⟨rfl, rfl⟩, mode, rfl, _, ha, _, hm, content, rfl, parts, hp, rfl⟩
    exact ⟨x, y, mode, content, parts, rfl, hm, ha, hp, rfl⟩
  · rintro ⟨x, y, mode, content, parts, ⟨⟩, hm, ha, hp, rfl⟩
    exact ⟨(x, y), ⟨rfl, rfl⟩, mode, rfl, (), ha, (), hm, content, rfl, parts, hp, rfl⟩

end MaxiCode

theorem Aztec.line_eq_ok {c : Aztec} : c.line = .ok l ↔
    ∃ x y rotation content,
      c = { c with x := some x, y := some y, rotation := some rotation, content := some content } ∧
      (1 ≤ c.moduleSize.getD 6 ∧ c.moduleSize.getD 6 ≤ 20) ∧
      isErrorControl (c.errorControl.getD 0) = true ∧
      (1 ≤ c.multi.getD 6 ∧ c.multi.getD 6 ≤ 26) ∧
      .of "AZTEC" ([.nat x, .nat y, .nat rotation.degrees, .nat (c.moduleSize.getD 6),
        .nat (c.errorControl.getD 0), .nat (c.escapeFlag.getD 0), .flag (c.menu.getD false),
        .nat (c.multi.getD 6), .flag (c.reversed.getD false)] ++
        given c.bytes .nat ++ [.quoted content]) = l := by
  obtain ⟨x, y, rotation, size, error, escape, menu, multi, reversed, bytes, content⟩ := c
  simp only [Aztec.line, bind_eq_ok, position_eq_ok, require_eq_ok, ensure_eq_ok, pure_eq_ok,
    Bool.and_eq_true, decide_eq_true_eq]
  constructor
  · rintro ⟨⟨x, y⟩, ⟨rfl, rfl⟩, rotation, rfl, _, hs, _, he, _, hm, content, rfl, rfl⟩
    exact ⟨x, y, rotation, content, rfl, hs, he, hm, rfl⟩
  · rintro ⟨x, y, rotation, content, ⟨⟩, hs, he, hm, rfl⟩
    exact ⟨(x, y), ⟨rfl, rfl⟩, rotation, rfl, (), hs, (), he, (), hm, content, rfl, rfl⟩

def Bitmap.header (x y w h : Nat) (mode : BitmapMode) : Line :=
  .of "BITMAP" [.nat x, .nat y, .nat w, .nat h, .nat mode.code]

theorem Bitmap.render_eq_ok {c : Bitmap} {b : List UInt8} : c.render = .ok b ↔
    ∃ x y w h, c = ⟨some x, some y, some w, some h, c.mode, c.data⟩ ∧ c.data.length = w * h ∧
      Utf8.encode ((header x y w h c.mode).text ++ ",") ++ c.data ++ Utf8.encode "\n" = b := by
  obtain ⟨x, y, w, h, mode, data⟩ := c
  simp only [Bitmap.render, header, bind_eq_ok, position_eq_ok, require_eq_ok, ensure_eq_ok,
    pure_eq_ok, decide_eq_true_eq]
  constructor
  · rintro ⟨⟨x, y⟩, ⟨rfl, rfl⟩, w, rfl, h, rfl, _, hd, rfl⟩
    exact ⟨x, y, w, h, rfl, hd, rfl⟩
  · rintro ⟨x, y, w, h, ⟨⟩, hd, rfl⟩
    exact ⟨(x, y), ⟨rfl, rfl⟩, w, rfl, h, rfl, (), hd, rfl⟩

end LabelPrinter

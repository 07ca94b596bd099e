import LabelPrinter.Proofs.Command.Sends

/-!
How the line of a command begins, and that its characters are those of the parameters and otherwise
printable. So it is one line unless a parameter of it is not.
-/

namespace LabelPrinter.Command

open Alphabet

/-- What the line of a command begins with, up to its first parameter. -/
def opening : Command → String
  | .clearBuffer => "CLS"
  | .cut => "CUT"
  | .selfTest _ => "SELFTEST"
  | .setting c => "SET " ++ c.name ++ " "
  | .counter _ => "SET COUNTER "
  | .counterExpression _ => "@"
  | .poll _ => "\x1b!"
  | c => c.mnemonic ++ " "

structure Written (c : Command) (l : Line) : Prop where
  opens : c.opening.toList <+: l.text.toList
  spelled : ∀ A : Alphabet, c.SpelledIn A → A.Spells l.text

theorem Written.oneLine {c : Command} {l : Line} (h : c.Written l) (ho : c.OneLine) :
    '\n' ∉ l.text.toList := by
  intro hl
  refine h.spelled .oneLine ?_ _ hl rfl
  intro s hs a ha hn
  exact ho s hs (hn ▸ ha)

variable {A : Alphabet} {c : Command} {head : String} {p : Part} {ps : List Part}

theorem written_fields (ho : c.opening = head ++ " ") (hp : p.IsField)
    (hh : head.toList.all isPrintable = true)
    (hps : ∀ A : Alphabet, c.SpelledIn A → A.SpellsParts (p :: ps)) :
    c.Written (.of head (p :: ps)) := by
  refine ⟨?_, fun A h => spells_line (spells_of_printable hh) (hps A h)⟩
  obtain ⟨s, rfl⟩ := hp
  rw [Line.of_field, ho, String.toList_append, List.append_assoc]
  exact (List.prefix_append_right_inj _).mpr ⟨s.toList ++ ps.flatMap Part.later, rfl⟩

theorem written_const {l : Line} (ho : c.opening.toList <+: l.text.toList)
    (hl : l.text.toList.all isPrintable = true) : c.Written l :=
  ⟨ho, fun _ _ => spells_of_printable hl⟩

theorem spells_value {d : DeviceSetting} {v : String} (h : d.value = .ok v) : A.Spells v := by
  have cutter : ∀ m : CutterMode, m.value = .ok v → A.Spells v := by
    intro m hm
    rcases CutterMode.value_eq_ok.mp hm with ⟨-, rfl⟩ | ⟨-, rfl⟩ | ⟨n, -, -, rfl⟩
    · exact spells_of_printable rfl
    · exact spells_of_printable rfl
    · exact spells_repr
  have switch : ∀ on : Bool, .ok (if on then "ON" else "OFF") = (.ok v : Check.Checked String) →
      A.Spells v := by
    intro on hv
    obtain rfl := Except.ok.inj hv
    cases on <;> exact spells_of_printable rfl
  cases d with
  | partialCutter m => exact cutter m h
  | cutter m => exact cutter m h
  | back on => exact switch on h
  | peel on => exact switch on h
  | head on => exact switch on h
  | encoder on => exact switch on h

section Texts

variable {l : Line}

theorem forall_mem_some {P : String → Prop} {s : String} :
    (∀ t ∈ (some s).toList, P t) ↔ P s := List.forall_mem_singleton

theorem written_text {c : Text} (h : c.line = .ok l) : (text c).Written l := by
  obtain ⟨x, y, font, xm, ym, content, hc, hx, hy, rfl⟩ := Text.line_eq_ok.mp h
  refine written_fields rfl ⟨_, rfl⟩ rfl fun A hs => ?_
  rw [SpelledIn, strings, hc, List.forall_mem_append, forall_mem_some, forall_mem_some] at hs
  have hxm : A.Spells (Part.number xm).text := spells_number (Number.isFinite_of_isMultiplier hx)
  have hym : A.Spells (Part.number ym).text := spells_number (Number.isFinite_of_isMultiplier hy)
  simp [hs, hxm, hym]

theorem written_barcode {c : Barcode} (h : c.line = .ok l) : (barcode c).Written l := by
  obtain ⟨x, y, s, k, n, w, content, hc, rfl⟩ := Barcode.line_eq_ok.mp h
  refine written_fields rfl ⟨_, rfl⟩ rfl fun A hs => ?_
  rw [SpelledIn, strings, hc, forall_mem_some] at hs
  have hcode : A.Spells s.code := by cases s <;> exact spells_of_printable rfl
  simp [hs, hcode]

theorem written_codablock {c : Codablock} (h : c.line = .ok l) : (codablock c).Written l := by
  obtain ⟨x, y, content, hc, rfl⟩ := Codablock.line_eq_ok.mp h
  refine written_fields rfl ⟨_, rfl⟩ rfl fun A hs => ?_
  rw [SpelledIn, strings, hc, forall_mem_some] at hs
  simp [hs]

theorem written_tlc39 {c : Tlc39} (h : c.line = .ok l) : (tlc39 c).Written l := by
  obtain ⟨x, y, r, e, s, hc, -, -, rfl⟩ := Tlc39.line_eq_ok.mp h
  refine written_fields rfl ⟨_, rfl⟩ rfl fun A hs => ?_
  rw [SpelledIn, strings, hc, List.forall_mem_append, forall_mem_some] at hs
  have hextra : A.Spells c.extra := by
    rw [Tlc39.extra]
    cases ha : c.additional with
    | none => exact spells_of_printable rfl
    | some a =>
      have h := hs.2 a (by simp [ha])
      simp [h]
  simp [hs.1, hextra]

theorem written_qrCode {c : QrCode} (h : c.line = .ok l) : (qrCode c).Written l := by
  obtain ⟨x, y, e, w, m, r, content, hc, -, rfl⟩ := QrCode.line_eq_ok.mp h
  refine written_fields rfl ⟨_, rfl⟩ rfl fun A hs => ?_
  rw [SpelledIn, strings, hc, forall_mem_some] at hs
  have he : A.Spells e.code := by cases e <;> exact spells_of_printable rfl
  have hm : A.Spells m.code := by cases m <;> exact spells_of_printable rfl
  have hd (d : QrModel) : A.Spells d.code := by cases d <;> exact spells_of_printable rfl
  simp [hs, Part.text_field, he, hm, hd]

theorem written_dataMatrix {c : DataMatrix} (h : c.line = .ok l) : (dataMatrix c).Written l := by
  obtain ⟨x, y, w, k, content, hc, rfl⟩ := DataMatrix.line_eq_ok.mp h
  refine written_fields rfl ⟨_, rfl⟩ rfl fun A hs => ?_
  rw [SpelledIn, strings, hc, forall_mem_some] at hs
  simp [hs]

theorem written_pdf417 {c : Pdf417} (h : c.line = .ok l) : (pdf417 c).Written l := by
  obtain ⟨x, y, w, k, r, content, hc, -, rfl⟩ := Pdf417.line_eq_ok.mp h
  refine written_fields rfl ⟨_, rfl⟩ rfl fun A hs => ?_
  rw [SpelledIn, strings, hc, forall_mem_some] at hs
  have hplace (u : Nat × Nat × Nat) : A.Spells (Pdf417.captionPlace u).text := by
    simp [Pdf417.captionPlace, Part.text]
  have hcontent : A.Spells (c.contentPart content).text := by
    cases he : c.expressionLength <;> simp [Pdf417.contentPart, he, hs, Part.text_field]
  simp [hplace, hcontent]

theorem written_maxiCode {c : MaxiCode} (h : c.line = .ok l) : (maxiCode c).Written l := by
  obtain ⟨x, y, m, content, parts, hc, -, hm, hparts, rfl⟩ := MaxiCode.line_eq_ok.mp h
  refine written_fields rfl ⟨_, rfl⟩ rfl fun A hs => ?_
  rw [SpelledIn, strings, hc, List.forall_mem_append, forall_mem_some] at hs
  have hmessage : A.SpellsParts parts := by
    rcases (MaxiCode.message_eq_ok hm).mp hparts with ⟨-, s, k, p, -, -, hp, -, -, rfl⟩ | ⟨-, rfl⟩
    · have hp : A.Spells p := hs.1 p (by simp [hp])
      by_cases h3 : m = 3 <;> simp [hp, hs.2, h3, Part.text_field]
    · cases he : c.expressionLength <;> simp [MaxiCode.bare, he, hs.2, Part.text_field]
  simp [hmessage]

theorem written_aztec {c : Aztec} (h : c.line = .ok l) : (aztec c).Written l := by
  obtain ⟨x, y, r, content, hc, -, -, -, rfl⟩ := Aztec.line_eq_ok.mp h
  refine written_fields rfl ⟨_, rfl⟩ rfl fun A hs => ?_
  rw [SpelledIn, strings, hc, forall_mem_some] at hs
  simp [hs]

theorem written_counterExpression {c : CounterExpression} (h : c.line = .ok l) :
    (counterExpression c).Written l := by
  obtain ⟨n, e, hc, -, rfl⟩ := CounterExpression.line_eq_ok.mp h
  refine ⟨⟨(n.repr ++ "=" ++ quote e).toList,
    by simp [opening, Line.of, Line.add, Line.start]⟩, fun A hs => ?_⟩
  rw [SpelledIn, strings, hc, CounterExpression.of, forall_mem_some] at hs
  exact spells_line (by simp) (by simp [Part.text, quote, hs])

end Texts

theorem written_setting {d : DeviceSetting} {l : Line} (h : d.line = .ok l) :
    (setting d).Written l := by
  obtain ⟨v, hv, rfl⟩ := DeviceSetting.line_eq_ok.mp h
  refine ⟨⟨v.toList, by simp [opening, Line.of, Line.add, Line.start]⟩, fun A _ => ?_⟩
  have hn : A.Spells d.name := by cases d <;> simp [DeviceSetting.name]
  have hw : A.Spells v := spells_value hv
  exact spells_line (spells_of_printable rfl) (by simp [Part.text, hn, hw])

theorem written_counter {c : Counter} {l : Line} (h : c.line = .ok l) : (counter c).Written l := by
  obtain ⟨n, k, -, -, rfl⟩ := Counter.line_eq_ok.mp h
  refine ⟨⟨("@" ++ n.repr ++ " " ++ Counter.signed k).toList,
    by simp [opening, Line.of, Line.add, Line.start]⟩, fun A _ => ?_⟩
  have hk : A.Spells (Counter.signed k) := by by_cases hk : k < 0 <;> simp [Counter.signed, hk]
  exact spells_line (spells_of_printable rfl) (by simp [Part.text, hk])

theorem Sends.written {l : Line} (h : c.Sends l) : c.Written l := by
  cases c with
  | size c =>
    obtain ⟨w, k, -, hw, hk, -, rfl⟩ := Size.line_eq_ok.mp h
    exact written_fields rfl ⟨_, rfl⟩ rfl (by simp [spells_length, hw, hk])
  | gap c =>
    obtain ⟨d, o, -, hd, ho, -, rfl⟩ := Gap.line_eq_ok.mp h
    exact written_fields rfl ⟨_, rfl⟩ rfl (by simp [spells_length, hd, ho])
  | offset c =>
    obtain ⟨d, -, hd, rfl⟩ := Offset.line_eq_ok.mp h
    exact written_fields rfl ⟨_, rfl⟩ rfl (by simp [spells_length, hd])
  | speed c =>
    obtain ⟨s, -, hs, -, rfl⟩ := Speed.line_eq_ok.mp h
    exact written_fields rfl ⟨_, rfl⟩ rfl (by simp [spells_number, hs])
  | density c =>
    obtain ⟨d, -, -, rfl⟩ := Density.line_eq_ok.mp h
    exact written_fields rfl ⟨_, rfl⟩ rfl (by simp)
  | direction c =>
    obtain ⟨d, -, -, rfl⟩ := Direction.line_eq_ok.mp h
    exact written_fields rfl ⟨_, rfl⟩ rfl (by simp)
  | clearBuffer =>
    obtain rfl : .of "CLS" [] = l := h
    exact written_const (by decide) rfl
  | cut =>
    obtain rfl : .of "CUT" [] = l := h
    exact written_const (by decide) rfl
  | print c =>
    obtain ⟨s, -, rfl⟩ := Print.line_eq_ok.mp h
    exact written_fields rfl ⟨_, rfl⟩ rfl (by simp)
  | selfTest c =>
    obtain rfl : c.line = l := h
    obtain ⟨page⟩ := c
    rcases page with _ | page
    · exact written_const (by decide) rfl
    · cases page <;> exact written_const (by decide) rfl
  | bar c =>
    obtain ⟨x, y, w, k, -, rfl⟩ := Bar.line_eq_ok.mp h
    exact written_fields rfl ⟨_, rfl⟩ rfl (by simp)
  | box c =>
    obtain ⟨x, y, x', y', t, -, rfl⟩ := Box.line_eq_ok.mp h
    exact written_fields rfl ⟨_, rfl⟩ rfl (by simp)
  | circle c =>
    obtain ⟨x, y, d, t, -, rfl⟩ := Circle.line_eq_ok.mp h
    exact written_fields rfl ⟨_, rfl⟩ rfl (by simp)
  | ellipse c =>
    obtain ⟨x, y, w, k, t, -, rfl⟩ := Ellipse.line_eq_ok.mp h
    exact written_fields rfl ⟨_, rfl⟩ rfl (by simp)
  | erase c =>
    obtain ⟨x, y, w, k, -, rfl⟩ := Erase.line_eq_ok.mp h
    exact written_fields rfl ⟨_, rfl⟩ rfl (by simp)
  | text c => exact written_text h
  | barcode c => exact written_barcode h
  | codablock c => exact written_codablock h
  | tlc39 c => exact written_tlc39 h
  | qrCode c => exact written_qrCode h
  | dataMatrix c => exact written_dataMatrix h
  | pdf417 c => exact written_pdf417 h
  | maxiCode c => exact written_maxiCode h
  | aztec c => exact written_aztec h
  | setting c => exact written_setting h
  | counter c => exact written_counter h
  | counterExpression c => exact written_counterExpression h
  | poll c =>
    obtain rfl : c.line = l := h
    cases c <;> exact written_const (by decide) rfl
  | bitmap c =>
    obtain ⟨x, y, w, k, -, rfl⟩ := h
    exact written_fields rfl ⟨_, rfl⟩ rfl (by simp)

end LabelPrinter.Command

import LabelPrinter.Proofs.Command.Sent

/-!
Texts, barcodes, QR codes and Aztec codes read back from their lines.
-/

namespace LabelPrinter

open Number LabelPrinter.Part Line

variable {l m : Line}

@[simp]
theorem Rotation.degrees_inj {a b : Rotation} : a.degrees = b.degrees ↔ a = b := by
  cases a <;> cases b <;> decide

@[simp]
theorem Alignment.code_inj {a b : Alignment} : a.code = b.code ↔ a = b := by
  cases a <;> cases b <;> decide

@[simp]
theorem HumanReadable.code_inj {a b : HumanReadable} : a.code = b.code ↔ a = b := by
  cases a <;> cases b <;> decide

@[simp]
theorem ErrorCorrection.code_inj {a b : ErrorCorrection} : a.code = b.code ↔ a = b := by
  cases a <;> cases b <;> decide

@[simp]
theorem QrMode.code_inj {a b : QrMode} : a.code = b.code ↔ a = b := by
  cases a <;> cases b <;> decide

@[simp]
theorem QrModel.code_inj {a b : QrModel} : a.code = b.code ↔ a = b := by
  cases a <;> cases b <;> decide

namespace Symbology

def all : List Symbology :=
  [.code128, .code128M, .ean128, .code25, .code25C, .code39, .code39C, .code39S, .code93, .ean13,
    .ean13Plus2, .ean13Plus5, .ean8, .ean8Plus2, .ean8Plus5, .codabar, .postnet, .upcA,
    .upcAPlus2, .upcAPlus5, .upcE, .upcEPlus2, .upcEPlus5, .chinaPost, .msi, .msiC, .plessey,
    .itf14, .ean14, .code11, .telepen, .telepenNumeric, .planet, .code49, .identcode, .leitcode]

def ofCode? (code : String) : Option Symbology := all.find? (·.code = code)

theorem ofCode_code (s : Symbology) : ofCode? s.code = some s := by
  cases s <;> rfl

theorem code_injective {s t : Symbology} (h : s.code = t.code) : s = t := by
  have hs := ofCode_code s
  rw [h, ofCode_code t] at hs
  exact (Option.some.inj hs).symm

theorem quote_not_mem_code (s : Symbology) : '"' ∉ s.code.toList := by
  cases s <;> decide

end Symbology

theorem Line.of_placed_cancel {head a b : String} {x y x' y' : Nat} {ws us : List Part}
    (ha : '"' ∉ a.toList) (hb : '"' ∉ b.toList)
    (h : (of head ([.nat x, .nat y] ++ .quoted a :: ws)).text =
      (of head ([.nat x', .nat y'] ++ .quoted b :: us)).text) :
    x = x' ∧ y = y' ∧ a = b ∧ ws.flatMap later = us.flatMap later := by
  obtain ⟨hxy, hrest⟩ := of_cancel (by simp) (by simp) (by simp [plain_nat]) (by simp [plain_nat])
    (marked_quoted (List.mem_singleton.mpr rfl) a ws)
    (marked_quoted (List.mem_singleton.mpr rfl) b us) h
  simp only [List.cons.injEq, nat_inj, and_true] at hxy
  obtain ⟨hab, hw⟩ := quoted_cancel ha hb hrest
  exact ⟨hxy.1, hxy.2, hab, hw⟩

theorem Text.sent_inj {c d : Text} (hfc : ∀ s ∈ c.font, '"' ∉ s.toList)
    (hfd : ∀ s ∈ d.font, '"' ∉ s.toList) (hc : c.line = .ok l) (hd : d.line = .ok m)
    (h : l.text = m.text) : c.sent = d.sent := by
  obtain ⟨x, y, f, xm, ym, t, ec, hx, hy, rfl⟩ := line_eq_ok.mp hc
  obtain ⟨x', y', f', xm', ym', t', ed, hx', hy', rfl⟩ := line_eq_ok.mp hd
  have hx := isFinite_of_isMultiplier hx
  have hy := isFinite_of_isMultiplier hy
  have hx' := isFinite_of_isMultiplier hx'
  have hy' := isFinite_of_isMultiplier hy'
  obtain ⟨rfl, rfl, rfl, hrest⟩ :=
    of_placed_cancel (hfc f (by rw [ec]; rfl)) (hfd f' (by rw [ed]; rfl)) h
  obtain ⟨hp, rfl⟩ := content_cancel (by simp [plain_nat, plain_number, hx, hy])
    (by simp [plain_nat, plain_number, hx', hy']) hrest
  simp only [List.append_eq, List.cons_append, List.nil_append, List.cons.injEq, nat_inj,
    Rotation.degrees_inj] at hp
  obtain ⟨hr, hxm, hym, ha⟩ := hp
  have hxm := positiveZero_eq_of_number hx hx' (Part.field.inj hxm)
  have hym := positiveZero_eq_of_number hy hy' (Part.field.inj hym)
  have ha := given_inj (fun a b hab => Alignment.code_inj.mp (nat_inj.mp hab)) ha
  rw [ec, ed]
  simp [sent, hr, hxm, hym, ha]

theorem Barcode.line_inj {c d : Barcode} (hc : c.line = .ok l) (hd : d.line = .ok m)
    (h : l.text = m.text) : c = d := by
  obtain ⟨x, y, s, k, n, w, t, ec, rfl⟩ := line_eq_ok.mp hc
  obtain ⟨x', y', s', k', n', w', t', ed, rfl⟩ := line_eq_ok.mp hd
  obtain ⟨rfl, rfl, hs, hrest⟩ :=
    of_placed_cancel s.quote_not_mem_code s'.quote_not_mem_code h
  obtain ⟨hp, rfl⟩ := content_cancel (by simp [plain_nat]) (by simp [plain_nat]) hrest
  simp only [List.append_eq, List.cons_append, List.nil_append, List.cons.injEq, nat_inj,
    Rotation.degrees_inj, HumanReadable.code_inj] at hp
  obtain ⟨rfl, hh, hr, rfl, rfl, ha⟩ := hp
  have ha := given_inj (fun a b hab => Alignment.code_inj.mp (nat_inj.mp hab)) ha
  rw [ec, ed, Symbology.code_injective hs, hh, hr, ha]

theorem ErrorCorrection.plain (e : ErrorCorrection) : (Part.field e.code).Plain ['"'] := by
  cases e <;> simp [Plain, code]

theorem QrMode.plain (o : QrMode) : (Part.field o.code).Plain ['"'] := by
  cases o <;> simp [Plain, code]

theorem QrModel.plain (q : QrModel) : (Part.field q.code).Plain ['"'] := by
  cases q <;> simp [Plain, code]

theorem QrCode.options (c : QrCode) :
    List.Forall₂ (fun t e => Optional t.1 t.2 e) [('J', 1), ('M', 1), ('S', 1), ('X', 1)]
      [given c.justification (.tagged "J"), given c.model (fun m => .field m.code),
        given c.mask (.tagged "S"), given c.area (.tagged "X")] := by
  have hm : ∀ q : QrModel, (Part.field q.code).head? = some 'M' := by
    intro q
    cases q <;> rfl
  exact .cons (optional_given fun n => tagged_head rfl n) (.cons (optional_given hm)
    (.cons (optional_given fun n => tagged_head rfl n)
      (.cons (optional_given fun n => tagged_head rfl n) .nil)))

theorem QrCode.line_inj {c d : QrCode} (hc : c.line = .ok l) (hd : d.line = .ok m)
    (h : l.text = m.text) : c = d := by
  obtain ⟨x, y, e, w, o, r, t, ec, -, rfl⟩ := line_eq_ok.mp hc
  obtain ⟨x', y', e', w', o', r', t', ed, -, rfl⟩ := line_eq_ok.mp hd
  obtain ⟨hp, rfl⟩ := of_quoted_inj (by simp) (by simp)
    (by simp [or_imp, forall_and, plain_nat, plain_tagged, e.plain, o.plain, QrModel.plain])
    (by simp [or_imp, forall_and, plain_nat, plain_tagged, e'.plain, o'.plain, QrModel.plain]) h
  simp only [List.append_assoc, List.cons_append, List.nil_append, List.cons.injEq, nat_inj,
    Part.field.injEq, ErrorCorrection.code_inj, QrMode.code_inj, Rotation.degrees_inj] at hp
  obtain ⟨rfl, rfl, rfl, rfl, rfl, rfl, hrest⟩ := hp
  have hopt := options_inj (by decide) c.options d.options (by simpa using hrest)
  simp only [List.cons.injEq, and_true] at hopt
  obtain ⟨hj, hm, hs, ha⟩ := hopt
  rw [ec, ed, given_inj (fun a b => tagged_inj.mp) hj,
    given_inj (fun a b hab => QrModel.code_inj.mp (Part.field.inj hab)) hm,
    given_inj (fun a b => tagged_inj.mp) hs, given_inj (fun a b => tagged_inj.mp) ha]

theorem Aztec.sent_inj {c d : Aztec} (hc : c.line = .ok l) (hd : d.line = .ok m)
    (h : l.text = m.text) : c.sent = d.sent := by
  obtain ⟨x, y, r, t, ec, -, -, -, rfl⟩ := line_eq_ok.mp hc
  obtain ⟨x', y', r', t', ed, -, -, -, rfl⟩ := line_eq_ok.mp hd
  obtain ⟨hp, rfl⟩ := of_quoted_inj (by simp) (by simp) (by simp [plain_nat, plain_flag])
    (by simp [plain_nat, plain_flag]) h
  simp only [List.cons_append, List.nil_append, List.cons.injEq, nat_inj, flag_inj,
    Rotation.degrees_inj] at hp
  obtain ⟨rfl, rfl, rfl, hs, he, hf, hm, hn, hr, hb⟩ := hp
  have hb := given_inj (fun a b => nat_inj.mp) hb
  rw [ec, ed]
  simp [sent, hs, he, hf, hm, hn, hr, hb]

end LabelPrinter

import LabelPrinter.Proofs.Command.Written

/-!
Commands of different types do not begin alike.
-/

namespace LabelPrinter.Command

/-- Every mnemonic with the ways its lines begin. -/
def openings : List (String × String) :=
  [("SIZE", "SIZE "), ("GAP", "GAP "), ("OFFSET", "OFFSET "), ("SPEED", "SPEED "),
    ("DENSITY", "DENSITY "), ("DIRECTION", "DIRECTION "), ("CLS", "CLS"), ("CUT", "CUT"),
    ("PRINT", "PRINT "), ("SELFTEST", "SELFTEST"), ("BAR", "BAR "), ("BOX", "BOX "),
    ("CIRCLE", "CIRCLE "), ("ELLIPSE", "ELLIPSE "), ("ERASE", "ERASE "), ("TEXT", "TEXT "),
    ("BARCODE", "BARCODE "), ("CODABLOCK", "CODABLOCK "), ("TLC39", "TLC39 "),
    ("QRCODE", "QRCODE "), ("DMATRIX", "DMATRIX "), ("PDF417", "PDF417 "),
    ("MAXICODE", "MAXICODE "), ("AZTEC", "AZTEC "), ("SET", "SET PARTIAL_CUTTER "),
    ("SET", "SET CUTTER "), ("SET", "SET BACK "), ("SET", "SET PEEL "), ("SET", "SET HEAD "),
    ("SET", "SET ENCODER "), ("SET COUNTER", "SET COUNTER "), ("@n", "@"), ("ESC !", "\x1b!"),
    ("BITMAP", "BITMAP ")]

variable {c d : Command}

theorem opening_mem (c : Command) : (c.mnemonic, c.opening) ∈ openings := by
  cases c with
  | setting s => cases s <;> simp [openings, mnemonic, opening, DeviceSetting.name]
  | _ => simp [openings, mnemonic, opening]

theorem openings_differ : ∀ p ∈ openings, ∀ q ∈ openings,
    Utf8.encode p.2 <+: Utf8.encode q.2 → p.1 = q.1 := by
  decide +kernel

theorem mnemonic_eq_of_prefix {b : List UInt8} (hc : Utf8.encode c.opening <+: b)
    (hd : Utf8.encode d.opening <+: b) : c.mnemonic = d.mnemonic := by
  rcases Nat.le_total (Utf8.encode c.opening).length (Utf8.encode d.opening).length with hl | hl
  · have hp := List.prefix_of_prefix_length_le hc hd hl
    exact openings_differ _ (opening_mem c) _ (opening_mem d) hp
  · have hp := List.prefix_of_prefix_length_le hd hc hl
    exact (openings_differ _ (opening_mem d) _ (opening_mem c) hp).symm

theorem Sends.opening_prefix {l : Line} (h : c.Sends l) :
    Utf8.encode c.opening <+: Utf8.encode l.text := by
  obtain ⟨t, ht⟩ := h.written.opens
  have hl : l.text = c.opening ++ String.ofList t := by
    apply String.toList_inj.mp
    rw [String.toList_append, String.toList_ofList, ht]
  rw [hl, Utf8.encode_append]
  exact List.prefix_append _ _

theorem opening_prefix_of_render {b : List UInt8} (h : c.render = .ok b) :
    Utf8.encode c.opening <+: b := by
  rcases render_line h with ⟨l, -, hl, rfl⟩ | ⟨d, l, -, hl, rfl⟩
  · rw [Line.finish, Utf8.encode_append]
    exact hl.opening_prefix.trans (List.prefix_append _ _)
  · rw [Utf8.encode_append, List.append_assoc, List.append_assoc]
    exact hl.opening_prefix.trans (List.prefix_append _ _)

end LabelPrinter.Command

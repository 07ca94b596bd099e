import Mathlib.Data.List.Basic
import LabelPrinter.Proofs.Command.Sent
import LabelPrinter.Proofs.Label.Header

/-!
Shapes, whose parameters are all integers, and bitmaps read back from their lines.
-/

namespace LabelPrinter

open LabelPrinter.Part Line

variable {l m : Line} {head : String}

theorem Line.of_nats_inj {xs ys : List Nat} (hx : xs ≠ []) (hy : ys ≠ [])
    (h : (of head (xs.map nat)).text = (of head (ys.map nat)).text) : xs = ys := by
  have hp : ∀ zs : List Nat, ∀ p ∈ zs.map nat, p.Plain [] := by
    intro zs p hp
    obtain ⟨n, -, rfl⟩ := List.mem_map.mp hp
    exact plain_nat (by simp) n
  have hmap := of_inj (by simpa using hx) (by simpa using hy) (hp xs) (hp ys) h
  exact List.map_injective_iff.mpr (fun a b => nat_inj.mp) hmap

theorem Bar.line_inj {c d : Bar} (hc : c.line = .ok l) (hd : d.line = .ok m)
    (h : l.text = m.text) : c = d := by
  obtain ⟨x, y, w, k, rfl, rfl⟩ := line_eq_ok.mp hc
  obtain ⟨x', y', w', k', rfl, rfl⟩ := line_eq_ok.mp hd
  have hn : [x, y, w, k] = [x', y', w', k'] := of_nats_inj (by simp) (by simp) h
  simpa [of] using hn

theorem Box.sent_inj {c d : Box} (hc : c.line = .ok l) (hd : d.line = .ok m)
    (h : l.text = m.text) : c.sent = d.sent := by
  obtain ⟨x, y, v, w, t, ec, rfl⟩ := line_eq_ok.mp hc
  obtain ⟨x', y', v', w', t', ed, rfl⟩ := line_eq_ok.mp hd
  have hn : [x, y, v, w, t, c.radius.getD 0] = [x', y', v', w', t', d.radius.getD 0] :=
    of_nats_inj (by simp) (by simp) h
  rw [ec, ed]
  simpa [sent] using hn

theorem Circle.line_inj {c d : Circle} (hc : c.line = .ok l) (hd : d.line = .ok m)
    (h : l.text = m.text) : c = d := by
  obtain ⟨x, y, r, t, rfl, rfl⟩ := line_eq_ok.mp hc
  obtain ⟨x', y', r', t', rfl, rfl⟩ := line_eq_ok.mp hd
  have hn : [x, y, r, t] = [x', y', r', t'] := of_nats_inj (by simp) (by simp) h
  simpa [of] using hn

theorem Ellipse.line_inj {c d : Ellipse} (hc : c.line = .ok l) (hd : d.line = .ok m)
    (h : l.text = m.text) : c = d := by
  obtain ⟨x, y, w, k, t, rfl, rfl⟩ := line_eq_ok.mp hc
  obtain ⟨x', y', w', k', t', rfl, rfl⟩ := line_eq_ok.mp hd
  have hn : [x, y, w, k, t] = [x', y', w', k', t'] := of_nats_inj (by simp) (by simp) h
  simpa [of] using hn

theorem Erase.line_inj {c d : Erase} (hc : c.line = .ok l) (hd : d.line = .ok m)
    (h : l.text = m.text) : c = d := by
  obtain ⟨x, y, w, k, rfl, rfl⟩ := line_eq_ok.mp hc
  obtain ⟨x', y', w', k', rfl, rfl⟩ := line_eq_ok.mp hd
  have hn : [x, y, w, k] = [x', y', w', k'] := of_nats_inj (by simp) (by simp) h
  simpa [of] using hn

theorem BitmapMode.code_inj {a b : BitmapMode} (h : a.code = b.code) : a = b := by
  cases a <;> cases b <;> first | rfl | cases h

/-- The header is over where its fifth comma stands, so any raster may follow. -/
theorem Bitmap.render_inj {c d : Bitmap} {b : List UInt8} (hc : c.render = .ok b)
    (hd : d.render = .ok b) : c = d := by
  obtain ⟨x, y, w, k, ec, -, rfl⟩ := render_eq_ok.mp hc
  obtain ⟨x', y', w', k', ed, -, h⟩ := render_eq_ok.mp hd
  rw [List.append_assoc, List.append_assoc] at h
  have hr := congrArg Reader.raster? h
  rw [Reader.raster_header, Reader.raster_header, Option.some.injEq, Prod.mk.injEq] at hr
  have htext := Utf8.encode_injective (List.append_left_inj _ |>.mp (hr.2 ▸ h))
  have hn : [x', y', w', k', d.mode.code] = [x, y, w, k, c.mode.code] :=
    of_nats_inj (by simp) (by simp) ((String.append_left_inj _).mp htext)
  have hdata := List.append_cancel_right hr.2
  simp only [List.cons.injEq, and_true] at hn
  obtain ⟨rfl, rfl, rfl, rfl, hm⟩ := hn
  rw [ec, ed, BitmapMode.code_inj hm, hdata]

end LabelPrinter

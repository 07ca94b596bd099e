import LabelPrinter.Proofs.Command.Sent

/-!
Device commands read back from their lines, word by word.
-/

namespace LabelPrinter

open LabelPrinter.Part Line

variable {l m : Line}

theorem CutterMode.value_inj {c d : CutterMode} {v : String} (hc : c.value = .ok v)
    (hd : d.value = .ok v) : c = d := by
  have head : ∀ n : Nat, n.repr ≠ "OFF" ∧ n.repr ≠ "BATCH" := by
    intro n
    constructor
    · intro h
      exact absurd (digit_of_mem_repr (n := n) (c := 'O') (by simp [h])) (by decide)
    · intro h
      exact absurd (digit_of_mem_repr (n := n) (c := 'B') (by simp [h])) (by decide)
  rcases value_eq_ok.mp hc with ⟨rfl, hv⟩ | ⟨rfl, hv⟩ | ⟨n, rfl, -, hv⟩ <;>
    rcases value_eq_ok.mp hd with ⟨rfl, hw⟩ | ⟨rfl, hw⟩ | ⟨k, rfl, -, hw⟩
  · rfl
  · exact absurd (hv.trans hw.symm) (by decide)
  · exact absurd (hw.trans hv.symm) (head k).1
  · exact absurd (hv.trans hw.symm) (by decide)
  · rfl
  · exact absurd (hw.trans hv.symm) (head k).2
  · exact absurd (hv.trans hw.symm) (head n).1
  · exact absurd (hv.trans hw.symm) (head n).2
  · rw [Number.repr_inj.mp (hv.trans hw.symm)]

theorem DeviceSetting.eq_of_name_of_value {c d : DeviceSetting} {v : String}
    (hn : c.name = d.name) (hc : c.value = .ok v) (hd : d.value = .ok v) : c = d := by
  have switch : ∀ p q : Bool, (.ok (if p then "ON" else "OFF") : Check.Checked String) = .ok v →
      (.ok (if q then "ON" else "OFF") : Check.Checked String) = .ok v → p = q := by
    intro p q hp hq
    have hpq := Except.ok.inj (hp.trans hq.symm)
    cases p <;> cases q <;> first | rfl | exact absurd hpq (by decide)
  cases c <;> cases d <;> simp only [name, String.reduceEq] at hn
  · rw [CutterMode.value_inj hc hd]
  · rw [CutterMode.value_inj hc hd]
  · rw [switch _ _ hc hd]
  · rw [switch _ _ hc hd]
  · rw [switch _ _ hc hd]
  · rw [switch _ _ hc hd]

theorem DeviceSetting.line_inj {c d : DeviceSetting} (hc : c.line = .ok l) (hd : d.line = .ok m)
    (h : l.text = m.text) : c = d := by
  obtain ⟨v, hv, rfl⟩ := line_eq_ok.mp hc
  obtain ⟨w, hw, rfl⟩ := line_eq_ok.mp hd
  have hname : ∀ d : DeviceSetting, ' ' ∉ d.name.toList := by
    intro d
    cases d <;> simp [name]
  have ht := congrArg String.toList h
  rw [of_words (by simp [Part.IsField]), of_words (by simp [Part.IsField])] at ht
  simp only [List.flatMap_cons, List.flatMap_nil, List.append_nil, later, List.cons_append] at ht
  have hrest := (List.cons.inj (List.append_cancel_left ht)).2
  obtain ⟨hn, hvw⟩ := peel_until (hname c) (hname d) stops_here stops_here hrest
  rw [String.toList_inj.mp (List.cons.inj hvw).2] at hv
  exact eq_of_name_of_value (String.toList_inj.mp hn) hv hw

theorem Counter.signed_inj {a b : Int} (h : signed a = signed b) : a = b := by
  have ht := congrArg String.toList h
  by_cases ha : a < 0 <;> by_cases hb : b < 0 <;>
    simp only [signed, ha, hb, if_true, if_false, String.toList_append] at ht
  · have := Number.repr_inj.mp (String.toList_inj.mp (List.append_cancel_left ht))
    omega
  · exact absurd (List.cons.inj ht).1 (by decide)
  · exact absurd (List.cons.inj ht).1 (by decide)
  · have := Number.repr_inj.mp (String.toList_inj.mp (List.append_cancel_left ht))
    omega

theorem Counter.line_inj {c d : Counter} (hc : c.line = .ok l) (hd : d.line = .ok m)
    (h : l.text = m.text) : c = d := by
  obtain ⟨n, i, rfl, -, rfl⟩ := line_eq_ok.mp hc
  obtain ⟨k, j, rfl, -, rfl⟩ := line_eq_ok.mp hd
  have ht := congrArg String.toList h
  rw [of_words (by simp [Part.IsField]), of_words (by simp [Part.IsField])] at ht
  have hrest : n.repr.toList ++ ' ' :: (signed i).toList =
      k.repr.toList ++ ' ' :: (signed j).toList := by
    simpa [later] using ht
  obtain ⟨rfl, hs⟩ := repr_peel (stops_cons (by decide)) (stops_cons (by decide)) hrest
  rw [signed_inj (String.toList_inj.mp (List.cons.inj hs).2)]

theorem CounterExpression.line_inj {c d : CounterExpression} (hc : c.line = .ok l)
    (hd : d.line = .ok m) (h : l.text = m.text) : c = d := by
  obtain ⟨n, e, rfl, -, rfl⟩ := line_eq_ok.mp hc
  obtain ⟨k, f, rfl, -, rfl⟩ := line_eq_ok.mp hd
  have ht := congrArg String.toList h
  rw [of_words (by simp [Part.IsField]), of_words (by simp [Part.IsField])] at ht
  have hrest : n.repr.toList ++ '=' :: '"' :: (e.toList ++ ['"']) =
      k.repr.toList ++ '=' :: '"' :: (f.toList ++ ['"']) := by
    simpa [later, quote] using ht
  obtain ⟨rfl, hs⟩ := repr_peel (stops_cons (by decide)) (stops_cons (by decide)) hrest
  have hef : e.toList = f.toList := by simpa using hs
  rw [String.toList_inj.mp hef]

theorem StatusPoll.line_inj {c d : StatusPoll} (h : c.line.text = d.line.text) : c = d := by
  cases c <;> cases d <;> first | rfl | exact absurd h (by decide)

end LabelPrinter

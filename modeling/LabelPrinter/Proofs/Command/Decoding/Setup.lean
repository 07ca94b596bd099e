import LabelPrinter.Proofs.Command.Sent

/-!
Set-up and job commands read back from their lines.
-/

namespace LabelPrinter

open Number LabelPrinter.Part Line

variable {l m : Line}

theorem Measure.suffix_inj {u v : Measure} (h : u.suffix = v.suffix) : u = v := by
  cases u <;> cases v <;> first | rfl | exact absurd h (by decide)

theorem Measure.stops_suffix (u : Measure) :
    Stops (fun c => c.isDigit = true ∨ c = '.' ∨ c = '-') u.suffix.toList := by
  cases u <;> intro c hc <;> simp [Measure.suffix] at hc
  all_goals
    subst hc
    decide

theorem Measure.length_inj {u v : Measure} {x y : Float} (hx : x.isFinite = true)
    (hy : y.isFinite = true) (h : u.length x = v.length y) :
    u = v ∧ positiveZero x = positiveZero y := by
  have ht := congrArg String.toList (Part.field.inj h)
  rw [String.toList_append, String.toList_append] at ht
  obtain ⟨hn, hs⟩ := peel (fun c hc => mem_number hx hc) (fun c hc => mem_number hy hc)
    u.stops_suffix v.stops_suffix ht
  exact ⟨suffix_inj (String.toList_inj.mp hs),
    positiveZero_eq_of_number hx hy (String.toList_inj.mp hn)⟩

theorem Size.sent_inj {c d : Size} (hc : c.line = .ok l) (hd : d.line = .ok m)
    (h : l.text = m.text) : c.sent = d.sent := by
  obtain ⟨w, k, ec, hw, hk, -, rfl⟩ := line_eq_ok.mp hc
  obtain ⟨w', k', ed, hw', hk', -, rfl⟩ := line_eq_ok.mp hd
  have hp := of_inj (by simp) (by simp) (by simp [plain_length, hw, hk])
    (by simp [plain_length, hw', hk']) h
  rw [List.cons.injEq, List.cons.injEq] at hp
  obtain ⟨hu, hwid⟩ := Measure.length_inj hw hw' hp.1
  obtain ⟨-, hhei⟩ := Measure.length_inj hk hk' hp.2.1
  rw [ec, ed]
  simp [sent, hu, hwid, hhei]

theorem Gap.sent_inj {c d : Gap} (hc : c.line = .ok l) (hd : d.line = .ok m)
    (h : l.text = m.text) : c.sent = d.sent := by
  obtain ⟨x, o, ec, hx, ho, -, rfl⟩ := line_eq_ok.mp hc
  obtain ⟨x', o', ed, hx', ho', -, rfl⟩ := line_eq_ok.mp hd
  have hp := of_inj (by simp) (by simp) (by simp [plain_length, hx, ho])
    (by simp [plain_length, hx', ho']) h
  rw [List.cons.injEq, List.cons.injEq] at hp
  obtain ⟨hu, hdist⟩ := Measure.length_inj hx hx' hp.1
  obtain ⟨-, hoff⟩ := Measure.length_inj ho ho' hp.2.1
  rw [ec, ed]
  simp [sent, hu, hdist, hoff]

theorem Offset.sent_inj {c d : Offset} (hc : c.line = .ok l) (hd : d.line = .ok m)
    (h : l.text = m.text) : c.sent = d.sent := by
  obtain ⟨x, ec, hx, rfl⟩ := line_eq_ok.mp hc
  obtain ⟨x', ed, hx', rfl⟩ := line_eq_ok.mp hd
  have hp := of_inj (by simp) (by simp) (by simp [plain_length, hx]) (by simp [plain_length, hx']) h
  obtain ⟨hu, hdist⟩ := Measure.length_inj hx hx' (List.cons.inj hp).1
  rw [ec, ed]
  simp [sent, hu, hdist]

theorem Speed.sent_inj {c d : Speed} (hc : c.line = .ok l) (hd : d.line = .ok m)
    (h : l.text = m.text) : c.sent = d.sent := by
  obtain ⟨s, rfl, hs, -, rfl⟩ := line_eq_ok.mp hc
  obtain ⟨t, rfl, ht, -, rfl⟩ := line_eq_ok.mp hd
  have hp := of_inj (by simp) (by simp) (by simp [plain_number, hs]) (by simp [plain_number, ht]) h
  have hz := positiveZero_eq_of_number hs ht (Part.field.inj (List.cons.inj hp).1)
  rw [sent, sent, Option.map_some, Option.map_some, hz]

theorem Density.line_inj {c d : Density} (hc : c.line = .ok l) (hd : d.line = .ok m)
    (h : l.text = m.text) : c = d := by
  obtain ⟨x, rfl, -, rfl⟩ := line_eq_ok.mp hc
  obtain ⟨y, rfl, -, rfl⟩ := line_eq_ok.mp hd
  have hp := of_inj (by simp) (by simp) (by simp [plain_nat]) (by simp [plain_nat]) h
  simpa using hp

theorem Direction.line_inj {c d : Direction} (hc : c.line = .ok l) (hd : d.line = .ok m)
    (h : l.text = m.text) : c = d := by
  obtain ⟨x, ec, -, rfl⟩ := line_eq_ok.mp hc
  obtain ⟨y, ed, -, rfl⟩ := line_eq_ok.mp hd
  have hp := of_inj (by simp) (by simp) (by simp [plain_nat, plain_flag])
    (by simp [plain_nat, plain_flag]) h
  obtain ⟨hx, hm⟩ := List.cons.inj hp
  rw [ec, ed, nat_inj.mp hx, given_inj (fun a b => flag_inj.mp) hm]

theorem Print.line_inj {c d : Print} (hc : c.line = .ok l) (hd : d.line = .ok m)
    (h : l.text = m.text) : c = d := by
  obtain ⟨x, ec, rfl⟩ := line_eq_ok.mp hc
  obtain ⟨y, ed, rfl⟩ := line_eq_ok.mp hd
  have hp := of_inj (by simp) (by simp) (by simp [plain_nat]) (by simp [plain_nat]) h
  obtain ⟨hx, hm⟩ := List.cons.inj hp
  rw [ec, ed, nat_inj.mp hx, given_inj (fun a b => nat_inj.mp) hm]

theorem SelfTest.line_inj {c d : SelfTest} (h : c.line.text = d.line.text) : c = d := by
  have key : ∀ p q : Option SelfTestPage,
      (SelfTest.line ⟨p⟩).text = (SelfTest.line ⟨q⟩).text → p = q := by
    intro p q hpq
    rcases p with _ | p <;> rcases q with _ | q
    · rfl
    · cases q <;> exact absurd hpq (by decide)
    · cases p <;> exact absurd hpq (by decide)
    · cases p <;> cases q <;> first | rfl | exact absurd hpq (by decide)
  obtain ⟨p⟩ := c
  obtain ⟨q⟩ := d
  rw [key p q h]

end LabelPrinter

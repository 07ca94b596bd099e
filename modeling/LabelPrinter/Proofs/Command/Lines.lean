import LabelPrinter.Proofs.Command.Checks

/-!
When a set-up, job, shape or device command has a line, and which.
-/

namespace LabelPrinter

open Check

variable {l : Line}

theorem Size.line_eq_ok {c : Size} : c.line = .ok l ↔
    ∃ w h, c = ⟨some w, some h, c.unit⟩ ∧ w.isFinite = true ∧ h.isFinite = true ∧
      (0 < w ∧ 0 < h) ∧ .of "SIZE" [c.unit.length w, c.unit.length h] = l := by
  obtain ⟨w, h, u⟩ := c
  simp only [Size.line, bind_eq_ok, require_eq_ok, finite_eq_ok, ensure_eq_ok, pure_eq_ok,
    Bool.and_eq_true, decide_eq_true_eq]
  constructor
  · rintro ⟨w, rfl, _, ⟨hw, rfl⟩, h, rfl, _, ⟨hh, rfl⟩, _, hpos, rfl⟩
    exact ⟨w, h, rfl, hw, hh, hpos, rfl⟩
  · rintro ⟨w, h, ⟨⟩, hw, hh, hpos, rfl⟩
    exact ⟨w, rfl, w, ⟨hw, rfl⟩, h, rfl, h, ⟨hh, rfl⟩, (), hpos, rfl⟩

theorem Gap.line_eq_ok {c : Gap} : c.line = .ok l ↔
    ∃ d o, c = ⟨some d, some o, c.unit⟩ ∧ d.isFinite = true ∧ o.isFinite = true ∧
      (¬ d < 0 ∧ ¬ o < 0) ∧ .of "GAP" [c.unit.length d, c.unit.length o] = l := by
  obtain ⟨d, o, u⟩ := c
  simp only [Gap.line, bind_eq_ok, require_eq_ok, finite_eq_ok, ensure_eq_ok, pure_eq_ok,
    Bool.not_eq_true', Bool.or_eq_false_iff, decide_eq_false_iff_not]
  constructor
  · rintro ⟨d, rfl, _, ⟨hd, rfl⟩, o, rfl, _, ⟨ho, rfl⟩, _, hpos, rfl⟩
    exact ⟨d, o, rfl, hd, ho, hpos, rfl⟩
  · rintro ⟨d, o, ⟨⟩, hd, ho, hpos, rfl⟩
    exact ⟨d, rfl, d, ⟨hd, rfl⟩, o, rfl, o, ⟨ho, rfl⟩, (), hpos, rfl⟩

theorem Offset.line_eq_ok {c : Offset} : c.line = .ok l ↔
    ∃ d, c = ⟨some d, c.unit⟩ ∧ d.isFinite = true ∧ .of "OFFSET" [c.unit.length d] = l := by
  obtain ⟨d, u⟩ := c
  simp only [Offset.line, bind_eq_ok, require_eq_ok, finite_eq_ok, pure_eq_ok]
  constructor
  · rintro ⟨d, rfl, _, ⟨hd, rfl⟩, rfl⟩
    exact ⟨d, rfl, hd, rfl⟩
  · rintro ⟨d, ⟨⟩, hd, rfl⟩
    exact ⟨d, rfl, d, ⟨hd, rfl⟩, rfl⟩

theorem Speed.line_eq_ok {c : Speed} : c.line = .ok l ↔
    ∃ s, c = ⟨some s⟩ ∧ s.isFinite = true ∧ 0 < s ∧ .of "SPEED" [.number s] = l := by
  obtain ⟨s⟩ := c
  simp only [Speed.line, bind_eq_ok, require_eq_ok, finite_eq_ok, ensure_eq_ok, pure_eq_ok,
    decide_eq_true_eq]
  constructor
  · rintro ⟨s, rfl, _, ⟨hs, rfl⟩, _, hpos, rfl⟩
    exact ⟨s, rfl, hs, hpos, rfl⟩
  · rintro ⟨s, ⟨⟩, hs, hpos, rfl⟩
    exact ⟨s, rfl, s, ⟨hs, rfl⟩, (), hpos, rfl⟩

theorem Density.line_eq_ok {c : Density} : c.line = .ok l ↔
    ∃ d, c = ⟨some d⟩ ∧ d ≤ 15 ∧ .of "DENSITY" [.nat d] = l := by
  obtain ⟨d⟩ := c
  simp [Density.line]

theorem Direction.line_eq_ok {c : Direction} : c.line = .ok l ↔
    ∃ d, c = ⟨some d, c.mirror⟩ ∧ d ≤ 1 ∧ .of "DIRECTION" (.nat d :: given c.mirror .flag) = l := by
  obtain ⟨d, m⟩ := c
  simp [Direction.line]

theorem Print.line_eq_ok {c : Print} : c.line = .ok l ↔
    ∃ s, c = ⟨some s, c.copies⟩ ∧ .of "PRINT" (.nat s :: given c.copies .nat) = l := by
  obtain ⟨s, n⟩ := c
  simp [Print.line]

theorem Bar.line_eq_ok {c : Bar} : c.line = .ok l ↔
    ∃ x y w h, c = .of x y w h ∧ .of "BAR" [.nat x, .nat y, .nat w, .nat h] = l := by
  obtain ⟨x, y, w, h⟩ := c
  simp only [Bar.line, Bar.of, bind_eq_ok, position_eq_ok, require_eq_ok, pure_eq_ok]
  constructor
  · rintro ⟨⟨x, y⟩, ⟨rfl, rfl⟩, w, rfl, h, rfl, rfl⟩
    exact ⟨x, y, w, h, rfl, rfl⟩
  · rintro ⟨x, y, w, h, ⟨⟩, rfl⟩
    exact ⟨(x, y), ⟨rfl, rfl⟩, w, rfl, h, rfl, rfl⟩

theorem Box.corner_eq_ok {c : Box} {p : Nat × Nat} :
    c.corner = .ok p ↔ c.xEnd = some p.1 ∧ c.yEnd = some p.2 := by
  obtain ⟨x, y, x', y', t, r⟩ := c
  obtain ⟨a, b⟩ := p
  cases x' <;> cases y' <;> simp [Box.corner]

theorem Box.line_eq_ok {c : Box} : c.line = .ok l ↔
    ∃ x y x' y' t, c = ⟨some x, some y, some x', some y', some t, c.radius⟩ ∧
      .of "BOX" [.nat x, .nat y, .nat x', .nat y', .nat t, .nat (c.radius.getD 0)] = l := by
  obtain ⟨x, y, x', y', t, r⟩ := c
  simp only [Box.line, Box.corner_eq_ok, bind_eq_ok, position_eq_ok, require_eq_ok, pure_eq_ok]
  constructor
  · rintro ⟨⟨x, y⟩, ⟨rfl, rfl⟩, ⟨x', y'⟩, ⟨rfl, rfl⟩, t, rfl, rfl⟩
    exact ⟨x, y, x', y', t, rfl, rfl⟩
  · rintro ⟨x, y, x', y', t, ⟨⟩, rfl⟩
    exact ⟨(x, y), ⟨rfl, rfl⟩, (x', y'), ⟨rfl, rfl⟩, t, rfl, rfl⟩

theorem Circle.line_eq_ok {c : Circle} : c.line = .ok l ↔
    ∃ x y d t, c = .of x y d t ∧ .of "CIRCLE" [.nat x, .nat y, .nat d, .nat t] = l := by
  obtain ⟨x, y, d, t⟩ := c
  simp only [Circle.line, Circle.of, bind_eq_ok, position_eq_ok, require_eq_ok, pure_eq_ok]
  constructor
  · rintro ⟨⟨x, y⟩, ⟨rfl, rfl⟩, d, rfl, t, rfl, rfl⟩
    exact ⟨x, y, d, t, rfl, rfl⟩
  · rintro ⟨x, y, d, t, ⟨⟩, rfl⟩
    exact ⟨(x, y), ⟨rfl, rfl⟩, d, rfl, t, rfl, rfl⟩

theorem Ellipse.line_eq_ok {c : Ellipse} : c.line = .ok l ↔
    ∃ x y w h t, c = .of x y w h t ∧
      .of "ELLIPSE" [.nat x, .nat y, .nat w, .nat h, .nat t] = l := by
  obtain ⟨x, y, w, h, t⟩ := c
  simp only [Ellipse.line, Ellipse.of, bind_eq_ok, position_eq_ok, require_eq_ok, pure_eq_ok]
  constructor
  · rintro ⟨⟨x, y⟩, ⟨rfl, rfl⟩, w, rfl, h, rfl, t, rfl, rfl⟩
    exact ⟨x, y, w, h, t, rfl, rfl⟩
  · rintro ⟨x, y, w, h, t, ⟨⟩, rfl⟩
    exact ⟨(x, y), ⟨rfl, rfl⟩, w, rfl, h, rfl, t, rfl, rfl⟩

theorem Erase.line_eq_ok {c : Erase} : c.line = .ok l ↔
    ∃ x y w h, c = .of x y w h ∧ .of "ERASE" [.nat x, .nat y, .nat w, .nat h] = l := by
  obtain ⟨x, y, w, h⟩ := c
  simp only [Erase.line, Erase.of, bind_eq_ok, position_eq_ok, require_eq_ok, pure_eq_ok]
  constructor
  · rintro ⟨⟨x, y⟩, ⟨rfl, rfl⟩, w, rfl, h, rfl, rfl⟩
    exact ⟨x, y, w, h, rfl, rfl⟩
  · rintro ⟨x, y, w, h, ⟨⟩, rfl⟩
    exact ⟨(x, y), ⟨rfl, rfl⟩, w, rfl, h, rfl, rfl⟩

theorem DeviceSetting.line_eq_ok {c : DeviceSetting} : c.line = .ok l ↔
    ∃ v, c.value = .ok v ∧ .of "SET" [.word c.name, .word v] = l := by
  simp [DeviceSetting.line]

theorem CutterMode.value_eq_ok {m : CutterMode} {v : String} : m.value = .ok v ↔
    m = .off ∧ "OFF" = v ∨ m = .batch ∧ "BATCH" = v ∨
      ∃ n, m = .pieces n ∧ 0 < n ∧ n.repr = v := by
  cases m <;> simp [CutterMode.value]

theorem Counter.line_eq_ok {c : Counter} : c.line = .ok l ↔
    ∃ n k, c = .of n k ∧ n ≤ maxCounter ∧
      .of "SET" [.word "COUNTER", .word ("@" ++ n.repr), .word (signed k)] = l := by
  obtain ⟨n, k⟩ := c
  simp only [Counter.line, Counter.of, bind_eq_ok, require_eq_ok, ensure_eq_ok, pure_eq_ok,
    decide_eq_true_eq]
  constructor
  · rintro ⟨n, rfl, _, hn, k, rfl, rfl⟩
    exact ⟨n, k, rfl, hn, rfl⟩
  · rintro ⟨n, k, ⟨⟩, hn, rfl⟩
    exact ⟨n, rfl, (), hn, k, rfl, rfl⟩

theorem CounterExpression.line_eq_ok {c : CounterExpression} : c.line = .ok l ↔
    ∃ n e, c = .of n e ∧ n ≤ maxCounter ∧
      .of ("@" ++ n.repr) [.raw "=", .raw (quote e)] = l := by
  obtain ⟨n, e⟩ := c
  simp only [CounterExpression.line, CounterExpression.of, bind_eq_ok, require_eq_ok, ensure_eq_ok,
    pure_eq_ok, decide_eq_true_eq]
  constructor
  · rintro ⟨n, rfl, _, hn, e, rfl, rfl⟩
    exact ⟨n, e, rfl, hn, rfl⟩
  · rintro ⟨n, e, ⟨⟩, hn, rfl⟩
    exact ⟨n, rfl, (), hn, e, rfl, rfl⟩

end LabelPrinter

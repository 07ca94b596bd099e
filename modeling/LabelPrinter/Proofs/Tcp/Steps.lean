import LabelPrinter.Proofs.Tcp.Cycle

/-!
What single steps of a connection do to its worker and tell the client listeners.
-/

namespace LabelPrinter.Tcp

/-- What the worker of a closed session still tells before it ends. -/
def parting : Option Worker → List ClientEvent
  | none | some (.dialing _ (.failed _)) | some (.dialing _ .opened) => []
  | some (.dialing _ (.unusable e)) => [.failing ⟨"unable to set up socket", .io e⟩]
  | some (.reading _ _) | some (.leaving none) => [.lost]
  | some (.leaving (some f)) => [.failing f, .lost]

theorem dialed_idle {l : Link} (h : ¬∃ charset dial, l.worker = some (.dialing charset dial)) :
    l.dialed = (l, []) := by
  unfold Link.dialed
  split
  case h_4 => rfl
  all_goals exact absurd ⟨_, _, by assumption⟩ h

theorem read_idle {l : Link} (h : ¬∃ charset framer, l.worker = some (.reading charset framer))
    (r : Read) : l.read r = (l, []) := by
  unfold Link.read
  split
  case h_4 => rfl
  all_goals exact absurd ⟨_, _, by assumption⟩ h

theorem finish_idle {l : Link} (h : ¬∃ f, l.worker = some (.leaving f)) :
    l.finish = (l, []) := by
  unfold Link.finish
  split
  case h_2 => rfl
  exact absurd ⟨_, by assumption⟩ h

theorem received_quiet (charset : Charset) (lines : List (List UInt8)) :
    (lines.map (Link.received charset)).filterMap Event.client? = [] := by
  induction lines with
  | nil => rfl
  | cons line lines ih => rwa [List.map_cons, List.filterMap_cons_none rfl]

theorem reading_of_isReading {l : Link} {a : Action} (h : Turn.isReading ⟨l, a⟩ = true) :
    ∃ charset framer, l.worker = some (.reading charset framer) := by
  unfold Turn.isReading at h
  split at h
  case h_1 charset framer hw => exact ⟨charset, framer, hw⟩
  exact absurd h Bool.false_ne_true

/-- What becomes of a worker whose read ends: it reads on, it leaves because the session is over, or
it leaves because of the error. -/
theorem read_cases {l : Link} {charset : Charset} {framer : LineFramer}
    (hw : l.worker = some (.reading charset framer)) (r : Read) :
    (l.read r).2.filterMap Event.client? = [] ∧
      ((∃ framer, (l.read r).1 = { l with worker := some (.reading charset framer) } ∧
          l.isAlive = true ∧ r ≠ .ok []) ∨
        ((l.read r).1 = { l with worker := some (.leaving none) } ∧
          (r = .ok [] ∨ l.isAlive = false)) ∨
        ∃ e, (l.read r).1 = { l with worker := some (.leaving (some (lostRead e))) } ∧
          r = .error e ∧ e.kind.isIdle = false ∧ l.isAlive = true) := by
  have hon (framer : LineFramer) (hr : r ≠ .ok []) (h : (l.read r).1 = l.goOn charset framer) :
      (∃ framer, (l.read r).1 = { l with worker := some (.reading charset framer) } ∧
          l.isAlive = true ∧ r ≠ .ok []) ∨
        ((l.read r).1 = { l with worker := some (.leaving none) } ∧
          (r = .ok [] ∨ l.isAlive = false)) := by
    rw [h, Link.goOn]
    cases hb : l.isAlive
    · exact .inr ⟨rfl, .inr rfl⟩
    · exact .inl ⟨framer, rfl, rfl, hr⟩
  cases r with
  | ok bytes =>
    cases bytes with
    | nil => exact ⟨by simp [Link.read, hw], .inr (.inl ⟨by simp [Link.read, hw], .inl rfl⟩)⟩
    | cons b bytes =>
      refine ⟨?_, (hon (framer.push (b :: bytes)).2 (by simp) ?_).elim .inl (.inr ∘ .inl)⟩
      · simp only [Link.read, hw]
        exact received_quiet _ _
      · simp [Link.read, hw]
  | error e =>
    by_cases hi : e.kind.isIdle = true
    · refine ⟨by simp [Link.read, hw, hi], (hon framer (by simp) ?_).elim .inl (.inr ∘ .inl)⟩
      simp [Link.read, hw, hi]
    · refine ⟨by simp [Link.read, hw, hi], .inr ?_⟩
      cases hb : l.isAlive
      · exact .inl ⟨by simp [Link.read, hw, hi, Link.readFault, hb], .inr rfl⟩
      · exact .inr ⟨e, by simp [Link.read, hw, hi, Link.readFault, hb, lostRead], rfl,
          Bool.not_eq_true _ ▸ hi, rfl⟩

theorem read_closed {l : Link} (h : l.isAlive = false) {charset : Charset} {framer : LineFramer}
    (hw : l.worker = some (.reading charset framer)) (r : Read) :
    (l.read r).1 = { l with worker := some (.leaving none) } ∧
      (l.read r).2.filterMap Event.client? = [] := by
  obtain ⟨hq, ⟨_, _, hb, _⟩ | ⟨hr, _⟩ | ⟨_, _, _, _, hb⟩⟩ := read_cases hw r
  · exact absurd hb (by simp [h])
  · exact ⟨hr, hq⟩
  · exact absurd hb (by simp [h])

theorem finish_leaving {l : Link} {f : Option Fault} (hw : l.worker = some (.leaving f)) :
    l.finish.1 = { l.close with worker := none } ∧
      l.finish.2.filterMap Event.client? = parting l.worker := by
  cases f <;> simp [Link.finish, hw, farewell, Event.client?, parting]

/-- A call that waits for a worker goes through if there is none. -/
theorem join_none {l : Link} (hw : l.worker = none) (last : Read) : l.join last = (l, []) := by
  have hd : l.dialed = (l, []) := dialed_idle (by simp [hw])
  have hr : l.read last = (l, []) := read_idle (by simp [hw]) last
  have hf : l.finish = (l, []) := finish_idle (by simp [hw])
  simp [Link.join, Step.andThen, hd, hr, hf]

theorem join_parting (l : Link) (last : Read) (h : l.isAlive = false) :
    (l.join last).1.worker = none ∧ (l.join last).1.address = l.address ∧
      (l.join last).2.filterMap Event.client? = parting l.worker := by
  have hend (m : Link) (hm : m.worker = none) : m.read last = (m, []) ∧ m.finish = (m, []) :=
    ⟨read_idle (by simp [hm]) last, finish_idle (by simp [hm])⟩
  cases hw : l.worker with
  | none => simp [join_none hw, hw, parting]
  | some w =>
    cases w with
    | dialing charset dial =>
      cases dial with
      | failed e => simp [Link.join, Step.andThen, Link.dialed, hw, h, hend, parting]
      | unusable e =>
        simp [Link.join, Step.andThen, Link.dialed, hw, hend, parting, Link.failing, Event.client?,
          Link.close]
      | opened => simp [Link.join, Step.andThen, Link.dialed, hw, h, hend, parting]
    | reading charset framer =>
      obtain ⟨hr, hq⟩ := read_closed h hw last
      have hd : l.dialed = (l, []) := dialed_idle (by simp [hw])
      obtain ⟨hf, hp⟩ := finish_leaving (l := (l.read last).1) (f := none) (by rw [hr])
      rw [hr] at hf hp
      simp [Link.join, Step.andThen, hd, hr, hq, hf, hp, parting, Link.close]
    | leaving f =>
      have hd : l.dialed = (l, []) := dialed_idle (by simp [hw])
      have hr : l.read last = (l, []) := read_idle (by simp [hw]) last
      obtain ⟨hf, hp⟩ := finish_leaving hw
      simp [Link.join, Step.andThen, hd, hr, hf, hp, hw, Link.close]

theorem isAlive_close (l : Link) : l.close.isAlive = false := by
  cases hs : l.session <;> simp [Link.close, Link.isAlive, Session.close, hs]

theorem send_quiet (l : Link) (payload : Payload) (write : Write) :
    (l.next (.send payload write)).address = l.address ∧
      (l.next (.send payload write)).worker = l.worker ∧
      (l.next (.send payload write)).isAlive =
        (l.isAlive && !Turn.closes ⟨l, .send payload write⟩) ∧
      Turn.lifecycle ⟨l, .send payload write⟩ = [] := by
  cases he : payload.encode l.charset with
  | error e =>
    cases write <;> simp [Link.next, Link.act, Link.send, he, Turn.closes, Turn.lifecycle,
      Except.isOk, Except.toBool]
  | ok message =>
    by_cases hc : l.isConnected = true
    · cases write with
      | complete =>
        simp [Link.next, Link.act, Link.send, he, hc, Turn.closes, Turn.lifecycle, Event.client?]
      | broken n e =>
        have hn : l.next (.send payload (.broken n e)) = l.close := by
          simp [Link.next, Link.act, Link.send, he, hc]
        rw [hn, isAlive_close]
        simp [Link.close, Link.act, Link.send, he, hc, Turn.closes, Turn.lifecycle, Except.isOk,
          Except.toBool, Event.client?]
    · cases write <;> simp [Link.next, Link.act, Link.send, he, hc, Turn.closes, Turn.lifecycle]

theorem connect_same {l : Link} {dial : Dial} {last : Read}
    (hn : Turn.started? ⟨l, .connect dial last⟩ = none) :
    l.next (.connect dial last) = l ∧ Turn.lifecycle ⟨l, .connect dial last⟩ = [] := by
  by_cases hi : l.initialized = true
  · have ha : l.isAlive = true := by simpa [Turn.started?, hi] using hn
    simp [Link.next, Link.act, Link.connect, Turn.lifecycle, hi, ha]
  · simp [Link.next, Link.act, Link.connect, Turn.lifecycle, hi]

theorem started_eq_some {l : Link} {a : Action} {dial : Dial}
    (h : Turn.started? ⟨l, a⟩ = some dial) :
    l.initialized = true ∧ l.isAlive = false ∧ ∃ last, a = .connect dial last := by
  cases a with
  | connect d last =>
    by_cases hl : l.initialized = true ∧ l.isAlive = false
    · have hd : d = dial := by simpa [Turn.started?, hl] using h
      exact ⟨hl.1, hl.2, last, by rw [hd]⟩
    · simp_all [Turn.started?]
  | _ => simp [Turn.started?] at h

theorem first?_eq_some {l : Link} {a : Action} {c : Cycle} (h : Turn.first? ⟨l, a⟩ = some c) :
    l.initialized = true ∧ l.isAlive = false ∧
      ∃ dial last, a = .connect dial last ∧ c = { dial := dial } := by
  obtain ⟨dial, hs, rfl⟩ := Option.map_eq_some_iff.mp h
  obtain ⟨hi, ha, last, rfl⟩ := started_eq_some hs
  exact ⟨hi, ha, dial, last, rfl, rfl⟩

theorem lifecycle_idle {l : Link} (hw : l.worker = none) (a : Action) :
    Turn.lifecycle ⟨l, a⟩ = [] := by
  cases a with
  | init | disconnect | setCharset _ => rfl
  | connect dial last =>
    simp only [Turn.lifecycle, Link.act, Link.connect, join_none hw]
    split_ifs <;> rfl
  | shutdown last =>
    have hj : l.close.join last = (l.close, []) := join_none (l := l.close) hw last
    simp [Turn.lifecycle, Link.act, Link.shutdown, hj]
  | send payload write => exact (send_quiet l payload write).2.2.2
  | dialed | read _ | finish =>
    simp [Turn.lifecycle, Link.act, Link.silently, Link.dialed, Link.read, Link.finish, hw]

theorem idle_next {l : Link} (hw : l.worker = none) {a : Action}
    (hn : Turn.started? ⟨l, a⟩ = none) :
    (l.next a).worker = none ∧ (l.next a).address = l.address := by
  cases a with
  | init | disconnect | setCharset _ => exact ⟨hw, rfl⟩
  | connect dial last =>
    rw [(connect_same hn).1]
    exact ⟨hw, rfl⟩
  | shutdown last =>
    obtain ⟨hj, hs, -⟩ := join_parting l.close last (isAlive_close l)
    exact ⟨hj, hs⟩
  | send payload write =>
    obtain ⟨hs, hl, -⟩ := send_quiet l payload write
    exact ⟨hl.trans hw, hs⟩
  | dialed | read _ | finish =>
    simp [Link.next, Link.act, Link.silently, Link.dialed, Link.read, Link.finish, hw]

end LabelPrinter.Tcp

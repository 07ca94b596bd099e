import LabelPrinter.Proofs.Usb.Steps

/-!
The invariant of a session over the bus: what has been told of it fits where its reader stands.
-/

namespace LabelPrinter.Usb

namespace Cycle

/-- The read that ended last has found an error that is not passing. -/
def Fails (c : Cycle) : Prop := ∃ r ∈ c.readings.getLast?, Reading.isFatal r = true

/-- The loop has ended for a reason, and before its last read there was none. -/
structure Ended (c : Cycle) : Prop where
  cause : c.Closed ∨ c.Fails
  before : ∀ r ∈ c.readings.dropLast, Reading.alive r = true ∧ Reading.isFatal r = false

structure Over (c : Cycle) : Prop where
  log_eq : c.log = c.story
  ended : c.Ended

/-- Whether the session is alive when a read ends depends on what has been done to it by then. -/
def Marked (c : Cycle) : Prop :=
  ∀ before t after, c.turns = before ++ t :: after → ∀ r ∈ Turn.reading? t,
    (r.alive = true ↔ ∀ u ∈ before ++ [t], Turn.closes u = false)

theorem not_closed (c : Cycle) : ¬c.Closed ↔ ∀ u ∈ c.turns, Turn.closes u = false := by
  simp [Closed]

theorem Marked.add {c : Cycle} (h : c.Marked) {t : Turn}
    (ht : ∀ r ∈ Turn.reading? t, (r.alive = true ↔ ¬(c.add t).Closed)) : (c.add t).Marked := by
  intro before u after hu r hr
  obtain rfl | ⟨after, v, rfl⟩ := after.eq_nil_or_concat
  · obtain ⟨rfl, rfl⟩ : before = c.turns ∧ u = t := by simpa [Cycle.add, eq_comm] using hu
    exact (ht r hr).trans (not_closed _)
  · refine h before u after ?_ r hr
    have hu : c.turns ++ [t] = (before ++ u :: after) ++ [v] := by simpa [Cycle.add] using hu
    exact (List.append_inj' hu rfl).1

section

variable {c : Cycle} {t : Turn}

theorem readings_unread (hr : Turn.reading? t = none) : (c.add t).readings = c.readings := by
  rw [readings_add, hr]
  exact List.append_nil _

theorem course_unread (hr : Turn.reading? t = none) : (c.add t).course = c.course := by
  rw [course_add, hr]
  exact List.append_nil _

theorem fault?_unread (hr : Turn.reading? t = none) : (c.add t).fault? = c.fault? := by
  rw [fault?, fault?, readings_unread hr]

theorem fault?_read {r : Reading} (hr : Turn.reading? t = some r) :
    (c.add t).fault? = Reading.fault? r := by
  rw [fault?, readings_add, hr]
  simp

theorem Ended.unread (h : c.Ended) (hr : Turn.reading? t = none) : (c.add t).Ended := by
  refine ⟨?_, by rw [readings_unread hr]; exact h.before⟩
  rw [closed_add, Fails, readings_unread hr]
  exact h.cause.imp_left .inl

theorem Ended.read {r : Reading} (hr : Turn.reading? t = some r)
    (hb : ∀ d ∈ c.readings, d.alive = true ∧ d.isFatal = false)
    (h : (c.add t).Closed ∨ Reading.isFatal r = true) : (c.add t).Ended := by
  have hs : (c.add t).readings = c.readings ++ [r] := by rw [readings_add, hr]; rfl
  refine ⟨?_, by rw [hs, List.dropLast_concat]; exact hb⟩
  rw [Fails, hs, List.getLast?_concat]
  exact h.imp_right fun hf => ⟨r, rfl, hf⟩

theorem Over.of_farewell (he : (c.add t).Ended) (hl : c.log ++ Turn.told t =
    (c.add t).course ++ farewell (c.add t).fault?) : (c.add t).Over :=
  ⟨by rw [log_add, hl, story_eq], he⟩

theorem Over.unread (h : c.Over) (hq : Turn.told t = []) (hr : Turn.reading? t = none) :
    (c.add t).Over := by
  refine .of_farewell (h.ended.unread hr) ?_
  rw [hq, List.append_nil, h.log_eq, story_eq, course_unread hr, fault?_unread hr]

end

end Cycle

/-- What has been told of the latest session, as far as its reader has got. -/
def Told (c : Cycle) : Option Reader → Prop
  | none => c.Over
  | some (.starting charset) => charset = c.charset ∧ c.log = [] ∧ c.readings = []
  | some (.reading charset) => charset = c.charset ∧ c.log = c.course ∧
      ∀ r ∈ c.readings, r.alive = true ∧ r.isFatal = false
  | some (.leaving f) => f = c.fault? ∧ c.log = c.course ∧ c.Ended

namespace Told

variable {c : Cycle} {w : Option Reader} {t : Turn}

theorem unread (h : Told c w) (hq : Turn.told t = []) (hr : Turn.reading? t = none) :
    Told (c.add t) w := by
  have hlog : (c.add t).log = c.log := by rw [Cycle.log_add, hq, List.append_nil]
  match w with
  | none => exact Cycle.Over.unread h hq hr
  | some (.starting _) => exact ⟨h.1, hlog ▸ h.2.1, (Cycle.readings_unread hr).trans h.2.2⟩
  | some (.reading _) =>
    refine ⟨h.1, by rw [hlog, Cycle.course_unread hr, h.2.1], ?_⟩
    rw [Cycle.readings_unread hr]
    exact h.2.2
  | some (.leaving _) =>
    refine ⟨h.1.trans (Cycle.fault?_unread hr).symm, ?_, h.2.2.unread hr⟩
    rw [hlog, Cycle.course_unread hr, h.2.1]

theorem leave {f : Option Fault} (h : Told c (some (.leaving f))) (hq : Turn.told t = farewell f)
    (hr : Turn.reading? t = none) : (c.add t).Over := by
  obtain ⟨rfl, hl, he⟩ := h
  refine .of_farewell (he.unread hr) ?_
  rw [hq, hl, Cycle.course_unread hr, Cycle.fault?_unread hr]

/-- A call that waits for the reader completes what is told of the session. -/
theorem part (h : Told c w) {last : Read} (hq : Turn.told t = parting last w)
    (hr : Turn.reading? t = Reading.within ⟨last, false⟩ w) (hc : w.isSome = true → (c.add t).Closed) :
    (c.add t).Over := by
  match w with
  | none => exact Cycle.Over.unread h hq hr
  | some (.starting _) =>
    obtain ⟨-, hl, hs⟩ := h
    have he : (c.add t).readings = [] := (Cycle.readings_unread hr).trans hs
    refine .of_farewell ⟨.inl (hc rfl), by simp [he]⟩ ?_
    rw [hq, hl, Cycle.course, Cycle.fault?, he]
    rfl
  | some (.reading _) =>
    obtain ⟨rfl, hl, hb⟩ := h
    refine .of_farewell (.read hr hb (.inl (hc rfl))) ?_
    rw [hq, hl, Cycle.course_add, Cycle.fault?_read hr, hr, Reading.fault?_closed, List.append_assoc]
    rfl
  | some (.leaving f) => exact h.leave hq hr

end Told

structure Standing (l : Link) (c : Cycle) : Prop where
  alive : l.reader.isSome = true → (l.isAlive = true ↔ ¬c.Closed)
  told : Told c l.reader
  marked : c.Marked

section

variable {l : Link} {c : Cycle}

theorem Standing.closed (h : Standing l c) (hr : l.reader.isSome = true) (ha : l.isAlive = false) :
    c.Closed := by
  by_contra hn
  exact absurd ((h.alive hr).mpr hn) (by simp [ha])

theorem Standing.marks (h : Standing l c) (a : Action) :
    ∀ r ∈ Turn.reading? ⟨l, a⟩, (r.alive = true ↔ ¬(c.add ⟨l, a⟩).Closed) := by
  intro r hr
  rw [Cycle.closed_add]
  cases a with
  | read outcome =>
    obtain ⟨hl, rfl⟩ := Reading.within_eq_some hr
    simpa [Turn.closes] using h.alive hl
  | shutdown last =>
    obtain ⟨-, rfl⟩ := Reading.within_eq_some hr
    simp [Turn.closes]
  | connect last =>
    obtain ⟨hs, hr⟩ : (Turn.started? ⟨l, .connect last⟩).isSome = true ∧
        Reading.within ⟨last, false⟩ l.reader = some r := by simpa [Turn.reading?] using hr
    obtain ⟨hl, rfl⟩ := Reading.within_eq_some hr
    have ha : l.isAlive = false := by
      by_contra hn
      simp [Turn.started?, hn] at hs
    simp [h.closed hl ha]
  | init _ | disconnect | send _ _ | setCharset _ | start | finish =>
    exact absurd hr (by simp [Turn.reading?])

theorem Standing.quiet {m : Link} {a : Action} (h : Standing l c) (hw : m.reader = l.reader)
    (ha : m.isAlive = (l.isAlive && !Turn.closes ⟨l, a⟩)) (hq : Turn.told ⟨l, a⟩ = [])
    (hr : Turn.reading? ⟨l, a⟩ = none) : Standing m (c.add ⟨l, a⟩) where
  alive hm := by
    have hl := h.alive (hw ▸ hm)
    rw [ha, Cycle.closed_add, Bool.and_eq_true, hl]
    cases Turn.closes ⟨l, a⟩ <;> simp
  told := hw ▸ h.told.unread hq hr
  marked := h.marked.add (h.marks a)

/-- A reader that a step does not concern is left as it stands. -/
theorem Standing.idle {a : Action} (h : Standing l c) (hl : l.act a = Link.silently (l, []))
    (hc : Turn.closes ⟨l, a⟩ = false) (hr : Turn.reading? ⟨l, a⟩ = none) :
    Standing (l.next a) (c.add ⟨l, a⟩) := by
  have hn : l.next a = l := by rw [Link.next, hl, Link.silently]
  have hq : Turn.told ⟨l, a⟩ = [] := by rw [Turn.told, hl]; rfl
  rw [hn]
  exact h.quiet rfl (by rw [hc, Bool.not_false, Bool.and_true]) hq hr

theorem Standing.ended {m : Link} (hw : m.reader = none) (hc : c.Over) (hm : c.Marked) :
    Standing m c where
  alive hs := by simp [hw] at hs
  told := by rw [hw]; exact hc
  marked := hm

theorem Standing.start (h : Standing l c) : Standing (l.next .start) (c.add ⟨l, .start⟩) := by
  have hmarked := h.marked.add (h.marks .start)
  have hclosed : (c.add ⟨l, .start⟩).Closed ↔ c.Closed := by simp [Cycle.closed_add, Turn.closes]
  by_cases hl : ∃ charset, l.reader = some (.starting charset)
  · obtain ⟨charset, hl⟩ := hl
    have hread : Turn.reading? ⟨l, .start⟩ = none := rfl
    have hs := Link.start_starting hl
    have ha := h.alive (by simp [hl])
    have ht := h.told
    rw [hl] at ht
    obtain ⟨rfl, hlog, hnone⟩ := ht
    have hempty : (c.add ⟨l, .start⟩).readings = [] := (Cycle.readings_unread hread).trans hnone
    have hcourse : (c.add ⟨l, .start⟩).log = (c.add ⟨l, .start⟩).course := by
      rw [Cycle.log_add, hlog, Turn.told, Link.act, Link.silently, hs, Cycle.course, hempty]
      rfl
    have hnext : l.next .start = l.start.1 := rfl
    rw [hnext, hs]
    refine ⟨fun _ => ha.trans (not_congr hclosed).symm, ?_, hmarked⟩
    cases hb : l.isAlive with
    | true => exact ⟨rfl, hcourse, by simp [hempty]⟩
    | false =>
      have hc : c.Closed := h.closed (by simp [hl]) hb
      exact ⟨by rw [Cycle.fault?, hempty]; rfl, hcourse, .inl (hclosed.mpr hc), by simp [hempty]⟩
  · exact h.idle (by rw [Link.act, Link.start_idle hl]) rfl rfl

theorem Standing.read (h : Standing l c) (r : Read) :
    Standing (l.next (.read r)) (c.add ⟨l, .read r⟩) := by
  have hclosed : (c.add ⟨l, .read r⟩).Closed ↔ c.Closed := by simp [Cycle.closed_add, Turn.closes]
  by_cases hl : ∃ charset, l.reader = some (.reading charset)
  · have hmarked := h.marked.add (h.marks (.read r))
    obtain ⟨charset, hl⟩ := hl
    have hread : Turn.reading? ⟨l, .read r⟩ = some ⟨r, l.isAlive⟩ := by
      simp [Turn.reading?, Reading.within, hl]
    have hs := Link.read_reading hl r
    have ha := h.alive (by simp [hl])
    have ht := h.told
    rw [hl] at ht
    obtain ⟨rfl, hlog, hb⟩ := ht
    have hcourse : (c.add ⟨l, .read r⟩).log = (c.add ⟨l, .read r⟩).course := by
      rw [Cycle.log_add, hlog, Cycle.course_add, hread, Link.read_told hl]
      rfl
    have hnext : l.next (.read r) = (l.read r).1 := rfl
    rw [hnext, hs]
    refine ⟨fun _ => ha.trans (not_congr hclosed).symm, ?_, hmarked⟩
    dsimp only
    -- the read itself ends the loop, or the loop finds the session closed before the next one
    split_ifs with hd
    · refine ⟨(Cycle.fault?_read hread).symm, hcourse, .read hread hb ?_⟩
      rw [hclosed]
      obtain hf | hf : Reading.isFatal ⟨r, l.isAlive⟩ = true ∨ l.isAlive = false := by simpa using hd
      · exact .inr hf
      · exact .inl (h.closed (by simp [hl]) hf)
    · refine ⟨rfl, hcourse, ?_⟩
      intro d hm
      rw [Cycle.readings_add, hread] at hm
      obtain hm | rfl : d ∈ c.readings ∨ d = ⟨r, l.isAlive⟩ := by simpa using hm
      · exact hb d hm
      · simpa [and_comm] using hd
  · have hread : Turn.reading? ⟨l, .read r⟩ = none := Reading.within_eq_none hl _
    exact h.idle (by rw [Link.act, Link.read_idle hl]) rfl hread

theorem Standing.finish (h : Standing l c) : Standing (l.next .finish) (c.add ⟨l, .finish⟩) := by
  by_cases hl : ∃ f, l.reader = some (.leaving f)
  · have hmarked := h.marked.add (h.marks .finish)
    obtain ⟨f, hl⟩ := hl
    have hs := Link.finish_leaving hl
    have ht := h.told
    rw [hl] at ht
    have hq : Turn.told ⟨l, .finish⟩ = farewell f := by
      rw [Turn.told, Link.act, Link.silently, hs]
      exact farewell_byReader f
    have hnext : l.next .finish = l.finish.1 := rfl
    exact .ended (by rw [hnext, hs]) (ht.leave hq rfl) hmarked
  · exact h.idle (by rw [Link.act, Link.finish_idle hl]) rfl rfl

theorem Standing.shutdown (h : Standing l c) (last : Read) :
    Standing (l.next (.shutdown last)) (c.add ⟨l, .shutdown last⟩) := by
  have hc : (c.add ⟨l, .shutdown last⟩).Closed := by simp [Cycle.closed_add, Turn.closes]
  obtain ⟨hw, hq⟩ := Link.shutdown_parting l last
  exact .ended hw (h.told.part hq rfl fun _ => hc) (h.marked.add (h.marks (.shutdown last)))

theorem Standing.next (h : Standing l c) {a : Action} (hn : Turn.started? ⟨l, a⟩ = none) :
    Standing (l.next a) (c.add ⟨l, a⟩) := by
  cases a with
  | init bus =>
    obtain ⟨_, hs⟩ := l.init_frame bus
    refine h.quiet (by rw [hs]) ?_ (l.init_quiet bus) rfl
    simp [hs, Link.isAlive, Turn.closes]
  | connect last =>
    obtain ⟨hl, hq, hr⟩ := Link.connect_same hn
    refine h.quiet (by rw [hl]) ?_ hq hr
    simp [hl, Turn.closes]
  | disconnect =>
    refine h.quiet rfl ?_ rfl rfl
    simp [Turn.closes, Link.next, Link.act, Link.disconnect, Link.isAlive_close]
  | shutdown last => exact h.shutdown last
  | send payload outcomes =>
    obtain ⟨hw, ha, hq⟩ := l.send_quiet payload outcomes
    exact h.quiet hw ha hq rfl
  | setCharset charset =>
    refine h.quiet rfl ?_ rfl rfl
    simp [Turn.closes, Link.isAlive, Link.next, Link.act, Link.setCharset]
  | start => exact h.start
  | read r => exact h.read r
  | finish => exact h.finish

end

end LabelPrinter.Usb

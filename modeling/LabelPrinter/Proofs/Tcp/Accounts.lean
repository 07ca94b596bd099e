import LabelPrinter.Proofs.Tcp.Refinement

/-!
The bytes that the socket takes in a session against the messages reported as sent and as failed.
-/

namespace LabelPrinter

/-- A report on a message that was to be sent. -/
def Event.report? : Event → Option DataEvent
  | .data (.sent message) => some (.sent message)
  | .data (.sendFailed fault message) => some (.sendFailed fault message)
  | .data (.received _) | .client _ => none

namespace Tcp

namespace Turn

def reports (t : Turn) : List DataEvent := (t.state.act t.action).events.filterMap Event.report?

def taken (t : Turn) : List UInt8 := (t.state.act t.action).taken

end Turn

namespace Cycle

def reports (c : Cycle) : List DataEvent := c.turns.flatMap Turn.reports

def taken (c : Cycle) : List UInt8 := c.turns.flatMap Turn.taken

theorem reports_add (c : Cycle) (t : Turn) : (c.add t).reports = c.reports ++ Turn.reports t := by
  simp [add, reports]

theorem taken_add (c : Cycle) (t : Turn) : (c.add t).taken = c.taken ++ Turn.taken t := by
  simp [add, taken]

end Cycle

/-- What is reported of a session and the bytes that the socket has taken in it. Only the message
attempted last can have failed. -/
inductive Account : List DataEvent → List UInt8 → Prop where
  | clean (sent : List (List UInt8)) : Account (sent.map .sent) sent.flatten
  | broken (sent : List (List UInt8)) (fault : Fault) (message part : List UInt8) :
      part <+: message →
      Account (sent.map .sent ++ [.sendFailed fault message]) (sent.flatten ++ part)

theorem reports_dialed (l : Link) : l.dialed.2.filterMap Event.report? = [] := by
  unfold Link.dialed
  split
  · split_ifs <;> rfl
  · rfl
  · split_ifs <;> rfl
  · rfl

theorem reports_received (charset : Charset) (lines : List (List UInt8)) :
    (lines.map (Link.received charset)).filterMap Event.report? = [] := by
  induction lines with
  | nil => rfl
  | cons line lines ih => rwa [List.map_cons, List.filterMap_cons_none rfl]

theorem reports_read (l : Link) (r : Read) : (l.read r).2.filterMap Event.report? = [] := by
  unfold Link.read
  split
  · rfl
  · exact reports_received _ _
  · split_ifs <;> rfl
  · rfl

theorem reports_finish (l : Link) : l.finish.2.filterMap Event.report? = [] := by
  unfold Link.finish
  split
  case h_1 f _ => cases f <;> rfl
  case h_2 => rfl

theorem reports_join (l : Link) (last : Read) :
    (l.join last).2.filterMap Event.report? = [] := by
  simp only [Link.join, Step.andThen, List.filterMap_append, reports_dialed, reports_read,
    reports_finish, List.append_nil]

/-- Only a call that sends reports anything or gives the socket any bytes. -/
theorem silent_of_no_send (l : Link) {a : Action} (h : ∀ payload write, a ≠ .send payload write) :
    Turn.reports ⟨l, a⟩ = [] ∧ Turn.taken ⟨l, a⟩ = [] := by
  cases a with
  | init | disconnect | setCharset _ => exact ⟨rfl, rfl⟩
  | connect dial last =>
    simp only [Turn.reports, Turn.taken, Link.act, Link.connect]
    split_ifs
    · exact ⟨rfl, rfl⟩
    · exact ⟨rfl, rfl⟩
    · exact ⟨reports_join l last, rfl⟩
  | shutdown last => exact ⟨reports_join l.close last, rfl⟩
  | send payload write => exact absurd rfl (h payload write)
  | dialed => exact ⟨reports_dialed l, rfl⟩
  | read r => exact ⟨reports_read l r, rfl⟩
  | finish => exact ⟨reports_finish l, rfl⟩

theorem isAlive_of_next {l : Link} {a : Action} (hn : Turn.started? ⟨l, a⟩ = none)
    (h : (l.next a).isAlive = true) : l.isAlive = true := by
  have hclose (m : Link) (hs : m.session = l.close.session) : m.isAlive = false := by
    rw [Link.isAlive, hs]
    exact isAlive_close l
  cases a with
  | init | setCharset _ => exact h
  | connect dial last => rwa [(connect_same hn).1] at h
  | disconnect => exact absurd h (by simp [Link.next, Link.act, Link.disconnect, isAlive_close])
  | shutdown last => exact absurd h Bool.false_ne_true
  | send payload write =>
    rw [(send_quiet l payload write).2.2.1, Bool.and_eq_true] at h
    exact h.1
  | dialed =>
    change l.dialed.1.isAlive = true at h
    unfold Link.dialed at h
    split at h
    · split_ifs at h with ha
      · exact ha
      · exact h
    · exact absurd h (by simp [hclose])
    · split_ifs at h with ha
      · exact ha
      · exact h
    · exact h
  | read r =>
    obtain ⟨_, hr⟩ := l.read_frame r
    change (l.read r).1.isAlive = true at h
    rwa [hr] at h
  | finish =>
    change l.finish.1.isAlive = true at h
    unfold Link.finish at h
    split at h
    · exact absurd h (by simp [hclose])
    · exact h

/-- As long as a session is alive, nothing has failed in it. -/
structure Solvent (l : Link) (c : Cycle) : Prop where
  sound : Sound l
  account : Account c.reports c.taken
  clean : l.isAlive = true → ∃ sent : List (List UInt8),
    c.reports = sent.map .sent ∧ c.taken = sent.flatten

namespace Solvent

variable {l : Link} {c : Cycle}

theorem of_clean (h : Sound l) (hc : ∃ sent : List (List UInt8),
    c.reports = sent.map .sent ∧ c.taken = sent.flatten) : Solvent l c := by
  refine ⟨h, ?_, fun _ => hc⟩
  obtain ⟨sent, hr, ht⟩ := hc
  rw [hr, ht]
  exact .clean sent

theorem same (h : Solvent l c) {m : Link} {d : Cycle} (hm : Sound m)
    (ha : m.isAlive = true → l.isAlive = true) (hr : d.reports = c.reports ++ [])
    (ht : d.taken = c.taken ++ []) : Solvent m d := by
  rw [List.append_nil] at hr ht
  refine ⟨hm, ?_, ?_⟩
  · rw [hr, ht]
    exact h.account
  · rw [hr, ht]
    exact fun hl => h.clean (ha hl)

theorem send (h : Solvent l c) (payload : Payload) (write : Write) :
    Solvent (l.next (.send payload write)) (c.add ⟨l, .send payload write⟩) := by
  have hsound := h.sound.next (.send payload write)
  have hr := c.reports_add ⟨l, .send payload write⟩
  have ht := c.taken_add ⟨l, .send payload write⟩
  have ho := sending l payload write
  change Sound (l.send payload write).link at hsound
  change (c.add _).reports = c.reports ++ (l.send payload write).events.filterMap _ at hr
  change (c.add _).taken = c.taken ++ (l.send payload write).taken at ht
  change Solvent (l.send payload write).link _
  generalize l.send payload write = o at ho hsound hr ht ⊢
  cases ho with
  | unsendable e _ => exact h.same hsound id hr ht
  | refused message _ _ => exact h.same hsound id hr ht
  -- a connected session is alive, so nothing has failed in it so far
  | sent message _ hc =>
    obtain ⟨sent, hs, hf⟩ := h.clean (h.sound.alive hc)
    refine .of_clean hsound ⟨sent ++ [message], ?_, ?_⟩
    · rw [hr, hs, List.map_append]
      rfl
    · rw [ht, hf, List.flatten_append, List.flatten_singleton]
  | broken message n e _ hc =>
    obtain ⟨sent, hs, hf⟩ := h.clean (h.sound.alive hc)
    refine ⟨hsound, ?_, fun ha => absurd ha (by simp [isAlive_close])⟩
    rw [hr, ht, hs, hf]
    exact .broken sent _ message (message.take n) (List.take_prefix n message)

theorem next (h : Solvent l c) {a : Action} (hn : Turn.started? ⟨l, a⟩ = none) :
    Solvent (l.next a) (c.add ⟨l, a⟩) := by
  by_cases ha : ∃ payload write, a = .send payload write
  · obtain ⟨payload, write, rfl⟩ := ha
    exact h.send payload write
  · obtain ⟨hr, ht⟩ := silent_of_no_send l (by simpa using ha)
    refine h.same (h.sound.next a) (isAlive_of_next hn) ?_ ?_
    · rw [Cycle.reports_add, hr]
    · rw [Cycle.taken_add, ht]

end Solvent

end Tcp

end LabelPrinter

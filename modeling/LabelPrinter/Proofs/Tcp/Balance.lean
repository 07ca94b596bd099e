import LabelPrinter.Proofs.Tcp.Accounts
import LabelPrinter.Proofs.Tcp.Writing

/-!
Every message that is to be sent is reported once, the reports of a session agree with the bytes
that its socket has taken, and after a failed message nothing is sent until the next session.
-/

namespace LabelPrinter.Tcp

/-- What sending a message comes to if the socket takes it in these chunks. -/
inductive Accounted (l : Link) (message : List UInt8) (chunks : List Chunk) : Outcome → Prop where
  | refused : l.state ≠ .connected →
      Accounted l message chunks { link := l, reply := .error .notConnected }
  | sent : l.state = .connected → writeAll message chunks = (message, none) →
      Accounted l message chunks
        { link := l, reply := .ok (), events := [.data (.sent message)], taken := message }
  | failed (part left : List UInt8) (e : IoError) : l.state = .connected →
      writeAll message chunks = (part, some e) → message = part ++ left → left ≠ [] →
      l.close.state = .disconnected →
      Accounted l message chunks
        { link := l.close
          reply := .ok ()
          events := [.data (.sendFailed ⟨"failed to send message", .io e⟩ message)]
          taken := part }

theorem Sound.accounted {l : Link} (h : Sound l) {payload : Payload} {message : List UInt8}
    (he : payload.encode l.charset = .ok message) (chunks : List Chunk) :
    Accounted l message chunks (l.send payload (.of message chunks)) := by
  have ho := sending l payload (.of message chunks)
  generalize l.send payload (.of message chunks) = o at ho ⊢
  -- which of the two reports is made is up to the chunks alone
  generalize hw : Write.of message chunks = write at ho
  cases ho with
  | unsendable e hu => exact absurd (he.symm.trans hu) (by simp)
  | refused m _ hc =>
    refine .refused fun hs => ?_
    exact absurd (h.isConnected_iff.mpr hs) (by simp [hc])
  | sent m hm hc =>
    obtain rfl : m = message := Except.ok.inj (hm.symm.trans he)
    exact .sent (h.isConnected_iff.mp hc) (Write.of_complete hw)
  | broken m n e hm hc =>
    obtain rfl : m = message := Except.ok.inj (hm.symm.trans he)
    obtain ⟨left, hl, hpart, hall⟩ := Write.of_broken hw
    have hs := h.isConnected_iff.mp hc
    refine .failed _ left e hs hall hpart hl ?_
    rw [h.state_close, hs]
    rfl

theorem send_of_error {l : Link} {payload : Payload} {write : Write} {e : Error}
    (h : (l.send payload write).reply = .error e) :
    l.send payload write = { link := l, reply := .error e } := by
  have ho := sending l payload write
  generalize l.send payload write = o at ho h ⊢
  cases ho with
  | unsendable _ _ | refused _ _ _ =>
    obtain rfl := Except.error.inj h
    rfl
  | sent _ _ _ | broken _ _ _ _ _ => exact absurd h nofun

theorem send_unconnected {l : Link} (h : l.isConnected = false) (payload : Payload)
    (write : Write) :
    (l.send payload write).events = [] ∧ (l.send payload write).taken = [] ∧
      (l.send payload write).link = l := by
  have ho := sending l payload write
  generalize l.send payload write = o at ho ⊢
  cases ho with
  | unsendable _ _ | refused _ _ _ => exact ⟨rfl, rfl, rfl⟩
  | sent _ _ hc | broken _ _ _ _ hc => exact absurd hc (by simp [h])

theorem silent_of_not_alive {l : Link} (h : Sound l) (ha : l.isAlive = false) (a : Action) :
    Turn.reports ⟨l, a⟩ = [] ∧ Turn.taken ⟨l, a⟩ = [] := by
  by_cases hs : ∃ payload write, a = .send payload write
  · obtain ⟨payload, write, rfl⟩ := hs
    have hc : l.isConnected = false := by
      by_contra hn
      simp [h.alive (by simpa using hn)] at ha
    obtain ⟨hq, ht, -⟩ := send_unconnected hc payload write
    exact ⟨by rw [Turn.reports, Link.act, hq]; rfl, ht⟩
  · exact silent_of_no_send l (by simpa using hs)

theorem Solvent.started {l : Link} {a : Action} {c : Cycle} (h : Sound l)
    (hc : Turn.first? ⟨l, a⟩ = some c) : Solvent (l.next a) c := by
  obtain ⟨-, -, dial, last, -, rfl⟩ := first?_eq_some hc
  exact .of_clean (h.next a) ⟨[], rfl, rfl⟩

theorem settling : Stretching Link.next Turn.first? Cycle.add
    (fun l => Sound l ∧ l.isAlive = false) Solvent (fun c => Account c.reports c.taken) where
  idle l a h hn := by
    refine ⟨h.1.next a, ?_⟩
    by_contra ha
    have hl := isAlive_of_next (Option.map_eq_none_iff.mp hn) (by simpa using ha)
    simp [h.2] at hl
  first l a d h hd := .started h.1 hd
  standing l a c h hn := h.next (Option.map_eq_none_iff.mp hn)
  ending l a c d h hd := by
    obtain ⟨-, -, dial, last, rfl, -⟩ := first?_eq_some hd
    obtain ⟨hr, ht⟩ := silent_of_no_send l (a := .connect dial last) nofun
    refine ⟨?_, .started h.sound hd⟩
    rw [Cycle.reports_add, Cycle.taken_add, hr, ht, List.append_nil, List.append_nil]
    exact h.account

section

variable {l : Link}

theorem reports_in_turn (h : Sound l) (ha : l.isAlive = false) (actions : List Action) :
    (turns Link.next l actions).flatMap Turn.reports =
      (cycles (turns Link.next l actions)).flatMap Cycle.reports := by
  apply settling.told ⟨h, ha⟩ _ _ Cycle.reports_add
  · exact fun l a h => (silent_of_not_alive h.1 h.2 a).1
  · intro t c hc
    obtain ⟨_, -, rfl⟩ := Option.map_eq_some_iff.mp hc
    rfl

theorem taken_in_turn (h : Sound l) (ha : l.isAlive = false) (actions : List Action) :
    (turns Link.next l actions).flatMap Turn.taken =
      (cycles (turns Link.next l actions)).flatMap Cycle.taken := by
  apply settling.told ⟨h, ha⟩ _ _ Cycle.taken_add
  · exact fun l a h => (silent_of_not_alive h.1 h.2 a).2
  · intro t c hc
    obtain ⟨_, -, rfl⟩ := Option.map_eq_some_iff.mp hc
    rfl

theorem account_of_mem (h : Sound l) (ha : l.isAlive = false) (actions : List Action) :
    ∀ c ∈ cycles (turns Link.next l actions), Account c.reports c.taken := by
  exact (settling.run ⟨h, ha⟩ actions).all (fun _ hc => hc) fun _ hs => hs.account

end

namespace Turn

def establishes (t : Turn) : Bool := (lifecycle t).contains .established

/-- A message is reported as failed. -/
def Breaks (t : Turn) : Prop := ∃ fault message, .sendFailed fault message ∈ reports t

end Turn

theorem isConnected_close (l : Link) : l.close.isConnected = false := by
  cases hs : l.session <;> simp [Link.close, Link.isConnected, Session.close, hs]

theorem isConnected_next {l : Link} {a : Action} (h : l.isConnected = false)
    (he : Turn.establishes ⟨l, a⟩ = false) : (l.next a).isConnected = false := by
  have hclose (m : Link) (hm : m.session = l.close.session) : m.isConnected = false := by
    rw [Link.isConnected, hm]
    exact isConnected_close l
  cases a with
  | init | setCharset _ => exact h
  | connect dial last =>
    simp only [Link.next, Link.act, Link.connect]
    split_ifs
    · exact h
    · exact h
    · rfl
  | disconnect => exact hclose _ rfl
  | shutdown last => rfl
  | send payload write =>
    change (l.send payload write).link.isConnected = false
    rwa [(send_unconnected h payload write).2.2]
  | dialed =>
    change l.dialed.1.isConnected = false
    unfold Link.dialed
    split
    case h_1 =>
      split_ifs
      · exact hclose _ rfl
      · exact h
    case h_2 => exact hclose _ rfl
    case h_3 hw =>
      split_ifs with ha
      · simp [Turn.establishes, Turn.lifecycle, Link.act, Link.silently, Link.dialed, hw, ha,
          Event.client?] at he
      · exact h
    case h_4 => exact h
  | read r =>
    obtain ⟨_, hr⟩ := l.read_frame r
    change (l.read r).1.isConnected = false
    rwa [hr]
  | finish =>
    change l.finish.1.isConnected = false
    unfold Link.finish
    split
    · exact hclose _ rfl
    · exact h

theorem unconnected_until_established {l : Link} (h : l.isConnected = false)
    (actions : List Action) :
    ∀ u ∈ (turns Link.next l actions).takeWhile (!Turn.establishes ·),
      u.state.isConnected = false := by
  induction actions generalizing l with
  | nil => simp [turns]
  | cons a actions ih =>
    rw [turns, List.takeWhile_cons]
    split_ifs with he
    · rintro u (_ | ⟨_, hu⟩)
      · exact h
      · exact ih (isConnected_next h (by simpa using he)) u hu
    · simp

theorem isConnected_of_breaks {t : Turn} (h : t.Breaks) :
    (t.state.next t.action).isConnected = false := by
  obtain ⟨l, a⟩ := t
  obtain ⟨fault, failed, h⟩ := h
  by_cases hs : ∃ payload write, a = .send payload write
  · obtain ⟨payload, write, rfl⟩ := hs
    have ho := sending l payload write
    change _ ∈ (l.send payload write).events.filterMap Event.report? at h
    change (l.send payload write).link.isConnected = false
    generalize l.send payload write = o at ho h ⊢
    cases ho with
    | unsendable _ _ | refused _ _ _ => exact absurd h List.not_mem_nil
    | sent message _ _ => exact absurd h (by simp [Event.report?])
    | broken _ _ _ _ _ => exact isConnected_close l
  · rw [(silent_of_no_send l (by simpa using hs)).1] at h
    exact absurd h List.not_mem_nil

/-- What sending comes to in a run. -/
structure Balanced (ts : List Turn) : Prop where
  refused : ∀ t ∈ ts, ∀ payload write e, t.action = .send payload write →
    (t.state.act t.action).reply = .error e →
    t.state.act t.action = { link := t.state, reply := .error e }
  each : ∀ t ∈ ts, ∀ payload message chunks, t.action = .send payload (.of message chunks) →
    payload.encode t.state.charset = .ok message →
    Accounted t.state message chunks (t.state.act t.action)
  /-- What is reported of one session comes before all that is reported of the next. -/
  reports_in_turn : ts.flatMap Turn.reports = (cycles ts).flatMap Cycle.reports
  taken_in_turn : ts.flatMap Turn.taken = (cycles ts).flatMap Cycle.taken
  accounts : ∀ c ∈ cycles ts, Account c.reports c.taken
  barred : ∀ before t later, ts = before ++ t :: later → t.Breaks →
    ∀ u ∈ later.takeWhile (!Turn.establishes ·), ∀ payload write message,
      u.action = .send payload write → payload.encode u.state.charset = .ok message →
      u.state.act u.action = { link := u.state, reply := .error .notConnected }

theorem sends_balanced (host : String) (service : Nat) (actions : List Action) :
    Balanced (turns Link.next (Link.of host service) actions) := by
  have hsound : Sound (Link.of host service) := .of_unused rfl rfl
  have halive : (Link.of host service).isAlive = false := rfl
  generalize Link.of host service = l at hsound halive
  refine ⟨?_, ?_, ?_, ?_, ?_, ?_⟩
  · intro t _ payload write e ha hr
    rw [ha] at hr ⊢
    exact send_of_error hr
  · intro t ht payload message chunks ha he
    have hs := turns_kept Link.next hsound (fun _ a h => h.next a) actions t ht
    rw [ha]
    exact hs.accounted he chunks
  · exact reports_in_turn hsound halive actions
  · exact taken_in_turn hsound halive actions
  · exact account_of_mem hsound halive actions
  · intro before t later hts hb u hu payload write message ha he
    obtain ⟨rest, rfl⟩ := turns_of_eq_append Link.next hts
    have hc := unconnected_until_established (isConnected_of_breaks hb) rest u hu
    rw [ha]
    simp [Link.act, Link.send, he, hc]

end LabelPrinter.Tcp

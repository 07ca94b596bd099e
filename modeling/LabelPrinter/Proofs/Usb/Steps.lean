import LabelPrinter.Proofs.Usb.Cycle

/-!
What single steps of a connection over the bus do to its reader, and what the reader tells.
-/

namespace LabelPrinter.Usb

theorem Reading.fault?_closed (r : Read) : Reading.fault? ⟨r, false⟩ = none := by
  cases r <;> simp [fault?]

theorem Reading.within_eq_some {r s : Reading} {w : Option Reader} (h : r.within w = some s) :
    w.isSome = true ∧ s = r := by
  match w with
  | some (.reading _) => exact ⟨rfl, (Option.some.inj h).symm⟩
  | none | some (.starting _) | some (.leaving _) => exact absurd h nofun

theorem Reading.within_eq_none {w : Option Reader} (h : ¬∃ charset, w = some (.reading charset))
    (r : Reading) : r.within w = none := by
  match w with
  | some (.reading charset) => exact absurd ⟨charset, rfl⟩ h
  | none | some (.starting _) | some (.leaving _) => rfl

theorem Reading.heard?_byReader (charset : Charset) (r : Reading) :
    (r.heard? charset).toList.filter Event.byReader = (r.heard? charset).toList := by
  unfold heard?
  split
  · rfl
  · rfl
  · rfl

theorem farewell_byReader (f : Option Fault) : (farewell f).filter Event.byReader = farewell f := by
  cases f <;> rfl

/-- What the reader of a closed session still tells before it ends. -/
def parting (last : Read) : Option Reader → List Event
  | none => []
  | some (.starting _) => [.client .established, .client .lost]
  | some (.reading charset) => (Reading.heard? charset ⟨last, false⟩).toList ++ [.client .lost]
  | some (.leaving f) => farewell f

namespace Link

theorem start_idle {l : Link} (h : ¬∃ charset, l.reader = some (.starting charset)) :
    l.start = (l, []) := by
  unfold start
  split
  case h_2 => rfl
  exact absurd ⟨_, by assumption⟩ h

theorem read_idle {l : Link} (h : ¬∃ charset, l.reader = some (.reading charset)) (r : Read) :
    l.read r = (l, []) := by
  unfold read
  split
  case h_4 => rfl
  all_goals exact absurd ⟨_, by assumption⟩ h

theorem finish_idle {l : Link} (h : ¬∃ f, l.reader = some (.leaving f)) :
    l.finish = (l, []) := by
  unfold finish
  split
  case h_2 => rfl
  exact absurd ⟨_, by assumption⟩ h

theorem isAlive_close (l : Link) : l.close.isAlive = false := by
  cases hs : l.session <;> simp [close, isAlive, Session.close, hs]

theorem start_frame (l : Link) : ∃ r, l.start.1 = { l with reader := r } := by
  unfold start
  split
  · exact ⟨_, rfl⟩
  · exact ⟨_, rfl⟩

theorem read_frame (l : Link) (r : Read) : ∃ w, (l.read r).1 = { l with reader := w } := by
  unfold read
  split
  · exact ⟨_, rfl⟩
  · exact ⟨_, rfl⟩
  · split_ifs
    · exact ⟨_, rfl⟩
    · exact ⟨_, rfl⟩
  · exact ⟨_, rfl⟩

theorem finish_frame (l : Link) :
    ∃ s r, l.finish.1 = { l with session := s, reader := r } := by
  unfold finish
  split
  · exact ⟨_, _, rfl⟩
  · exact ⟨_, _, rfl⟩

theorem join_frame (l : Link) (last : Read) :
    ∃ s r, (l.join last).1 = { l with session := s, reader := r } := by
  obtain ⟨_, hd⟩ := l.start_frame
  obtain ⟨_, hr⟩ := l.start.1.read_frame last
  obtain ⟨s, w, hf⟩ := (l.start.1.read last).1.finish_frame
  refine ⟨s, w, hf.trans ?_⟩
  rw [hr, hd]

theorem start_starting {l : Link} {charset : Charset} (h : l.reader = some (.starting charset)) :
    l.start = ({ l with reader := some (if l.isAlive then .reading charset else .leaving none) },
      [.client .established]) := by
  simp only [start, h, goOn]

/-- The reader leaves with the read that tells it to, or as soon as its session is over. -/
theorem read_reading {l : Link} {charset : Charset} (h : l.reader = some (.reading charset))
    (r : Read) :
    l.read r =
      ({ l with reader := some (if Reading.isFatal ⟨r, l.isAlive⟩ || !l.isAlive then
          .leaving (Reading.fault? ⟨r, l.isAlive⟩) else .reading charset) },
        (Reading.heard? charset ⟨r, l.isAlive⟩).toList) := by
  match r with
  | .ok [] =>
    cases ha : l.isAlive <;>
      simp [read, h, goOn, ha, Reading.isFatal, Reading.fault?, Reading.heard?]
  | .ok (b :: bytes) =>
    cases ha : l.isAlive <;>
      simp [read, h, goOn, ha, Reading.isFatal, Reading.fault?, Reading.heard?]
  | .error e =>
    by_cases ht : e = .timeout
    · cases ha : l.isAlive <;>
        simp [read, h, goOn, ha, ht, Reading.isFatal, Reading.fault?, Reading.heard?]
    by_cases hi : e = .interrupted
    · cases ha : l.isAlive <;>
        simp [read, h, goOn, ha, hi, Reading.isFatal, Reading.fault?, Reading.heard?]
    · cases ha : l.isAlive <;> by_cases hn : e = .noDevice <;>
        simp [read, h, ha, ht, hi, hn, readFault, Reading.isFatal, Reading.fault?, Reading.heard?]

theorem finish_leaving {l : Link} {f : Option Fault} (h : l.reader = some (.leaving f)) :
    l.finish = ({ l.close with reader := none }, farewell f) := by
  simp only [finish, h]

theorem join_closed {l : Link} (h : l.isAlive = false) (last : Read) :
    (l.join last).1.reader = none ∧ (l.join last).2 = parting last l.reader := by
  have hleave (m : Link) (f : Option Fault) (hm : m.reader = some (.leaving f)) :
      m.read last = (m, []) ∧ m.finish = ({ m.close with reader := none }, farewell f) :=
    ⟨read_idle (by simp [hm]) last, finish_leaving hm⟩
  cases hr : l.reader with
  | none =>
    have hs : l.start = (l, []) := start_idle (by simp [hr])
    have hd : l.read last = (l, []) := read_idle (by simp [hr]) last
    have hf : l.finish = (l, []) := finish_idle (by simp [hr])
    simp [join, Step.andThen, hs, hd, hf, hr, parting]
  | some r =>
    cases r with
    | starting charset =>
      have hs := start_starting hr
      rw [h, if_neg Bool.false_ne_true] at hs
      obtain ⟨hd, hf⟩ := hleave l.start.1 none (by rw [hs])
      simp only [join, Step.andThen, hd, hf]
      simp [hs, parting, farewell]
    | reading charset =>
      have hs : l.start = (l, []) := start_idle (by simp [hr])
      have hd := read_reading hr last
      rw [h, Bool.not_false, Bool.or_true, if_pos rfl, Reading.fault?_closed] at hd
      have hf := (hleave (l.read last).1 none (by rw [hd])).2
      simp only [join, Step.andThen, hs, hf]
      simp [hd, parting, farewell]
    | leaving f =>
      have hs : l.start = (l, []) := start_idle (by simp [hr])
      obtain ⟨hd, hf⟩ := hleave l f hr
      simp [join, Step.andThen, hs, hd, hf, parting]

theorem parting_byReader (last : Read) (w : Option Reader) :
    (parting last w).filter Event.byReader = parting last w := by
  match w with
  | none | some (.starting _) => rfl
  | some (.leaving f) => exact farewell_byReader f
  | some (.reading charset) =>
    rw [parting, List.filter_append, Reading.heard?_byReader]
    rfl

theorem read_told {l : Link} {charset : Charset} (h : l.reader = some (.reading charset))
    (r : Read) :
    Turn.told ⟨l, .read r⟩ = (Reading.heard? charset ⟨r, l.isAlive⟩).toList := by
  rw [Turn.told, act, silently, read_reading h, Reading.heard?_byReader]

theorem shutdown_parting (l : Link) (last : Read) :
    (l.next (.shutdown last)).reader = none ∧
      Turn.told ⟨l, .shutdown last⟩ = parting last l.reader := by
  obtain ⟨hw, hq⟩ := join_closed (isAlive_close l) last
  have hr : l.close.reader = l.reader := rfl
  rw [hr] at hq
  rw [Turn.told, next, act, shutdown]
  dsimp only
  split
  · exact ⟨hw, by rw [hq, parting_byReader]⟩
  · exact ⟨hw, by rw [hq, parting_byReader]⟩

end Link

/-- All that can come of a call that sends. -/
inductive Sending (l : Link) (payload : Payload) (outcomes : List Transfer) : Outcome → Prop where
  | unsendable (e : Error) : payload.encode l.charset = .error e →
      Sending l payload outcomes { link := l, reply := .error e }
  | refused (message : List UInt8) : payload.encode l.charset = .ok message →
      (l.isConnected && l.claimed.isSome) = false →
      Sending l payload outcomes { link := l, reply := .error .notConnected }
  | sent (message : List UInt8) (c : Claimed) : payload.encode l.charset = .ok message →
      l.isConnected = true → l.claimed = some c → (transmit message outcomes).fault = none →
      Sending l payload outcomes
        { link := l
          events := [.data (.sent message)]
          calls := Link.writes c (transmit message outcomes)
          transmission := some (transmit message outcomes) }
  | failed (message : List UInt8) (c : Claimed) (e : UsbError) :
      payload.encode l.charset = .ok message → l.isConnected = true → l.claimed = some c →
      (transmit message outcomes).fault = some e →
      Sending l payload outcomes
        { link := if e = .timeout then l else l.close
          events := [.data (.sendFailed ⟨"failed to send message", .usb e⟩ message)]
          calls := Link.writes c (transmit message outcomes)
          transmission := some (transmit message outcomes) }

theorem sending (l : Link) (payload : Payload) (outcomes : List Transfer) :
    Sending l payload outcomes (l.send payload outcomes) := by
  unfold Link.send
  split
  case h_1 e he => exact .unsendable e he
  case h_2 message he =>
    split
    case h_1 c hc hl =>
      dsimp only
      split
      case h_1 hf => exact .sent message c he hc hl hf
      case h_2 e hf => exact .failed message c e he hc hl hf
    case h_2 hn =>
      refine .refused message he ?_
      match hc : l.isConnected, hl : l.claimed with
      | true, some c => exact absurd hl (hn c hc)
      | true, none => rfl
      | false, _ => rfl

namespace Link

theorem send_quiet (l : Link) (payload : Payload) (outcomes : List Transfer) :
    (l.next (.send payload outcomes)).reader = l.reader ∧
      (l.next (.send payload outcomes)).isAlive =
        (l.isAlive && !Turn.closes ⟨l, .send payload outcomes⟩) ∧
      Turn.told ⟨l, .send payload outcomes⟩ = [] := by
  rw [Turn.told, next, act]
  have ho := sending l payload outcomes
  generalize l.send payload outcomes = o at ho ⊢
  cases ho with
  | unsendable e he => exact ⟨rfl, by simp [Turn.closes, he], rfl⟩
  | refused message he hc =>
    refine ⟨rfl, ?_, rfl⟩
    simp only [Turn.closes, he, hc, Bool.false_and, Bool.not_false, Bool.and_true]
  | sent message c he hc hl hf => exact ⟨rfl, by simp [Turn.closes, he, hf], rfl⟩
  | failed message c e he hc hl hf =>
    by_cases ht : e = .timeout
    · exact ⟨by simp [ht], by simp [Turn.closes, he, hf, ht], rfl⟩
    · exact ⟨by simp [ht, close], by simp [Turn.closes, he, hc, hl, hf, ht, isAlive_close], rfl⟩

theorem init_frame (l : Link) (bus : Bus) :
    ∃ claimed, l.next (.init bus) = { l with claimed := claimed } := by
  rw [next, act, init]
  split
  · exact ⟨_, rfl⟩
  · dsimp only
    split
    · exact ⟨_, rfl⟩
    · exact ⟨_, rfl⟩

theorem init_quiet (l : Link) (bus : Bus) : Turn.told ⟨l, .init bus⟩ = [] := by
  rw [Turn.told, act, init]
  split
  · rfl
  · dsimp only
    split
    · rfl
    · rfl

theorem connect_same {l : Link} {last : Read} (hn : Turn.started? ⟨l, .connect last⟩ = none) :
    l.next (.connect last) = l ∧ Turn.told ⟨l, .connect last⟩ = [] ∧
      Turn.reading? ⟨l, .connect last⟩ = none := by
  refine ⟨?_, ?_, by simp [Turn.reading?, hn]⟩
  all_goals
    by_cases ha : l.isAlive = true
    · simp [next, Turn.told, act, connect, ha]
    · have hc : l.claimed = none := by simpa [Turn.started?, ha] using hn
      simp [next, Turn.told, act, connect, ha, hc]

theorem started_eq_some {l : Link} {a : Action} {charset : Charset}
    (h : Turn.started? ⟨l, a⟩ = some charset) :
    l.isAlive = false ∧ l.claimed.isSome = true ∧ charset = l.charset ∧
      ∃ last, a = .connect last := by
  cases a with
  | connect last =>
    by_cases hl : l.isAlive = false ∧ l.claimed.isSome = true
    · have hd : l.charset = charset := by simpa [Turn.started?, hl] using h
      exact ⟨hl.1, hl.2, hd.symm, last, rfl⟩
    · simp_all [Turn.started?]
  | _ => simp [Turn.started?] at h

theorem connect_started {l : Link} (ha : l.isAlive = false) (hc : l.claimed.isSome = true)
    (last : Read) :
    (l.next (.connect last)).reader = some (.starting l.charset) ∧
      (l.next (.connect last)).isAlive = true ∧
      Turn.told ⟨l, .connect last⟩ = parting last l.reader ∧
      Turn.reading? ⟨l, .connect last⟩ = Reading.within ⟨last, false⟩ l.reader := by
  obtain ⟨_, _, hj⟩ := l.join_frame last
  obtain ⟨-, hq⟩ := join_closed ha last
  obtain ⟨c, hc⟩ := Option.isSome_iff_exists.mp hc
  have hact : l.act (.connect last) =
      { link := { (l.join last).1 with
          session := some ⟨true, true⟩
          reader := some (.starting (l.join last).1.charset) }
        events := (l.join last).2 } := by simp [act, connect, ha, hc]
  refine ⟨?_, ?_, ?_, ?_⟩
  · rw [next, hact, hj]
  · rw [next, hact]
    rfl
  · rw [Turn.told, hact, hq, parting_byReader]
  · simp [Turn.reading?, Turn.started?, ha, hc]

end Link

theorem first?_eq_some {l : Link} {a : Action} {c : Cycle} (h : Turn.first? ⟨l, a⟩ = some c) :
    l.isAlive = false ∧ l.claimed.isSome = true ∧ c = { charset := l.charset } ∧
      ∃ last, a = .connect last := by
  obtain ⟨charset, hs, rfl⟩ := Option.map_eq_some_iff.mp h
  obtain ⟨ha, hc, rfl, he⟩ := Link.started_eq_some hs
  exact ⟨ha, hc, rfl, he⟩

theorem isAlive_of_next {l : Link} {a : Action} (hn : Turn.started? ⟨l, a⟩ = none)
    (h : (l.next a).isAlive = true) : l.isAlive = true := by
  cases a with
  | init bus =>
    obtain ⟨_, hs⟩ := l.init_frame bus
    rwa [hs] at h
  | connect last => rwa [(Link.connect_same hn).1] at h
  | disconnect => exact absurd h (by simp [Link.next, Link.act, Link.disconnect, Link.isAlive_close])
  | shutdown last =>
    have hs : (l.next (.shutdown last)).session = none := by
      rw [Link.next, Link.act, Link.shutdown]
      dsimp only
      split
      · rfl
      · rfl
    simp [Link.isAlive, hs] at h
  | send payload outcomes =>
    rw [(l.send_quiet payload outcomes).2.1, Bool.and_eq_true] at h
    exact h.1
  | setCharset charset => exact h
  | start =>
    obtain ⟨_, hs⟩ := l.start_frame
    change l.start.1.isAlive = true at h
    rwa [hs] at h
  | read r =>
    obtain ⟨_, hs⟩ := l.read_frame r
    change (l.read r).1.isAlive = true at h
    rwa [hs] at h
  | finish =>
    change l.finish.1.isAlive = true at h
    unfold Link.finish at h
    split at h
    · have hc : Link.isAlive { l.close with reader := none } = false := Link.isAlive_close l
      exact absurd h (by simp [hc])
    · exact h

end LabelPrinter.Usb

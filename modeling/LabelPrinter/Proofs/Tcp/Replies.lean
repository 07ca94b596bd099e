import LabelPrinter.Proofs.Reply.Lines
import LabelPrinter.Proofs.Tcp.Accounts

/-!
What is received in a session depends on the bytes that its socket brings and not on the reads that
they come in.
-/

namespace LabelPrinter

def Event.isReceived : Event → Bool
  | .data (.received _) => true
  | .data (.sent _) | .data (.sendFailed _ _) | .client _ => false

namespace Tcp

/-- The bytes that a read brings to a worker that is in one. -/
def Link.arrived (l : Link) (r : Read) : List UInt8 :=
  match l.worker, r with
  | some (.reading _ _), .ok bytes => bytes
  | _, _ => []

namespace Turn

/-- A call that waits for the worker lets it end its read. -/
def arrived (t : Turn) : List UInt8 :=
  match t.action with
  | .read r => t.state.arrived r
  | .shutdown last => t.state.arrived last
  | .connect _ last => if (started? t).isSome then t.state.arrived last else []
  | .init | .disconnect | .send _ _ | .setCharset _ | .dialed | .finish => []

/-- All that is told in a turn but the reports on messages that were to be sent. -/
def heard (t : Turn) : List Event := (t.state.act t.action).events.filter (·.report?.isNone)

end Turn

/-- A session with the charset that its worker keeps. -/
structure Reception extends Cycle where
  charset : Charset

def Turn.reception? (t : Turn) : Option Reception :=
  (started? t).map fun dial => { dial := dial, charset := t.state.charset }

namespace Reception

def add (r : Reception) (t : Turn) : Reception := { r with turns := r.turns ++ [t] }

def arrived (r : Reception) : List UInt8 := r.turns.flatMap Turn.arrived

def heard (r : Reception) : List Event := r.turns.flatMap Turn.heard

def received (r : Reception) : List Event := r.heard.filter Event.isReceived

theorem arrived_add (r : Reception) (t : Turn) :
    (r.add t).arrived = r.arrived ++ Turn.arrived t := by
  simp [add, arrived]

theorem heard_add (r : Reception) (t : Turn) : (r.add t).heard = r.heard ++ Turn.heard t := by
  simp [add, heard]

end Reception

def receptions (ts : List Turn) : List Reception := stretches Turn.reception? Reception.add ts

/-- What is received if these bytes come. -/
def answers (charset : Charset) (stream : List UInt8) : List Event :=
  (replyLines stream).map (Link.received charset)

/-- What is told of a session to which these bytes have come, once it is over. -/
inductive Over (charset : Charset) : List UInt8 → List Event → Prop where
  | abandoned : Over charset [] []
  | unopened (f : Fault) : Over charset [] [.client (.failing f)]
  | ended (stream : List UInt8) (f : Option Fault) :
      Over charset stream (.client .established :: answers charset stream ++ farewell f)

/-- What has been told of a session to which these bytes have come, as far as its worker has got. -/
def Hears (charset : Charset) (stream : List UInt8) (log : List Event) : Option Worker → Prop
  | none => Over charset stream log
  | some (.dialing kept _) => kept = charset ∧ stream = [] ∧ log = []
  | some (.reading kept framer) => kept = charset ∧ framer = (LineFramer.push {} stream).2 ∧
      log = .client .established :: answers charset stream
  | some (.leaving _) => log = .client .established :: answers charset stream

theorem answers_append {charset : Charset} {stream : List UInt8} {framer : LineFramer}
    (h : framer = (LineFramer.push {} stream).2) (bytes : List UInt8) :
    answers charset (stream ++ bytes) =
      answers charset stream ++ (framer.push bytes).1.map (Link.received charset) := by
  rw [answers, answers, ← LineFramer.push_lines, LineFramer.push_append, List.map_append,
    LineFramer.push_lines, h]

namespace Hears

variable {charset : Charset} {stream : List UInt8} {log : List Event} {l : Link}

theorem dialed (h : Hears charset stream log l.worker) :
    Hears charset stream (log ++ l.dialed.2) l.dialed.1.worker := by
  unfold Link.dialed
  split
  case h_1 kept e hw =>
    rw [hw] at h
    obtain ⟨rfl, rfl, rfl⟩ := h
    split_ifs
    · exact .unopened _
    · exact .abandoned
  case h_2 kept e hw =>
    rw [hw] at h
    obtain ⟨rfl, rfl, rfl⟩ := h
    exact .unopened _
  case h_3 kept hw =>
    rw [hw] at h
    obtain ⟨rfl, rfl, rfl⟩ := h
    split_ifs
    · exact ⟨rfl, rfl, rfl⟩
    · exact .abandoned
  case h_4 => rwa [List.append_nil]

theorem goOn {framer : LineFramer} (h : Hears charset stream log (some (.reading charset framer))) :
    Hears charset stream log (l.goOn charset framer).worker := by
  rw [Link.goOn]
  split_ifs
  · exact h
  · exact h.2.2

theorem read (h : Hears charset stream log l.worker) (r : Read) :
    Hears charset (stream ++ l.arrived r) (log ++ (l.read r).2) (l.read r).1.worker := by
  by_cases hl : ∃ kept framer, l.worker = some (.reading kept framer)
  · obtain ⟨kept, framer, hw⟩ := hl
    rw [hw] at h
    obtain ⟨rfl, hf, hlog⟩ := h
    cases r with
    | ok bytes =>
      have hb : l.arrived (.ok bytes) = bytes := by simp [Link.arrived, hw]
      rw [hb]
      cases bytes with
      | nil => simpa [Link.read, hw, Hears] using hlog
      | cons b bytes =>
        have hr : l.read (.ok (b :: bytes)) = (l.goOn kept (framer.push (b :: bytes)).2,
            (framer.push (b :: bytes)).1.map (Link.received kept)) := by
          simp [Link.read, hw]
        rw [hr, hlog]
        refine Hears.goOn ⟨rfl, ?_, ?_⟩
        · rw [hf, LineFramer.push_append]
        · rw [answers_append hf]
          rfl
    | error e =>
      have hb : l.arrived (.error e) = [] := by simp [Link.arrived, hw]
      rw [hb, List.append_nil]
      by_cases hi : e.kind.isIdle = true
      · have hr : l.read (.error e) = (l.goOn kept framer, []) := by simp [Link.read, hw, hi]
        rw [hr, List.append_nil]
        exact Hears.goOn ⟨rfl, hf, hlog⟩
      · simpa [Link.read, hw, hi, Hears] using hlog
  · have hb : l.arrived r = [] := by
      unfold Link.arrived
      split
      case h_1 hw => exact absurd ⟨_, _, hw⟩ hl
      case h_2 => rfl
    rw [read_idle hl, hb, List.append_nil, List.append_nil]
    exact h

theorem finish (h : Hears charset stream log l.worker) :
    Hears charset stream (log ++ l.finish.2) l.finish.1.worker := by
  unfold Link.finish
  split
  case h_1 f hw =>
    rw [hw] at h
    obtain rfl : log = _ := h
    exact .ended stream f
  case h_2 => rwa [List.append_nil]

/-- A closed session has no socket to read that its worker was not already reading. -/
theorem arrived_dialed (ha : l.isAlive = false) (r : Read) :
    l.dialed.1.arrived r = l.arrived r := by
  unfold Link.dialed
  split
  case h_1 hw => simp [Link.arrived, hw, ha]
  case h_2 hw => simp [Link.arrived, hw]
  case h_3 hw => simp [Link.arrived, hw, ha]
  case h_4 => rfl

theorem join (h : Hears charset stream log l.worker) (ha : l.isAlive = false) (last : Read) :
    Over charset (stream ++ l.arrived last) (log ++ (l.join last).2) := by
  have hj := ((h.dialed).read last).finish
  rw [arrived_dialed ha] at hj
  have hw := (join_parting l last ha).1
  simp only [Link.join, Step.andThen] at hw ⊢
  rw [hw] at hj
  rwa [← List.append_assoc, ← List.append_assoc]

end Hears

/-- Where the worker of the latest session stands fits what has been told of that session. -/
def Hearing (l : Link) (r : Reception) : Prop := Hears r.charset r.arrived r.heard l.worker

theorem heard_eq {l : Link} {a : Action}
    (h : (l.act a).events.filterMap Event.report? = []) :
    Turn.heard ⟨l, a⟩ = (l.act a).events := by
  rw [Turn.heard, List.filter_eq_self]
  intro e he
  rw [List.filterMap_eq_nil_iff.mp h e he]
  rfl

theorem heard_send (l : Link) (payload : Payload) (write : Write) :
    Turn.heard ⟨l, .send payload write⟩ = [] := by
  have ho := sending l payload write
  change (l.send payload write).events.filter _ = []
  generalize l.send payload write = o at ho ⊢
  cases ho with
  | unsendable _ _ | refused _ _ _ | sent _ _ _ | broken _ _ _ _ _ => rfl

theorem heard_connect {l : Link} {dial : Dial} {last : Read}
    (hn : Turn.started? ⟨l, .connect dial last⟩ = none) :
    Turn.heard ⟨l, .connect dial last⟩ = [] := by
  by_cases hi : l.initialized = true
  · have ha : l.isAlive = true := by simpa [Turn.started?, hi] using hn
    simp [Turn.heard, Link.act, Link.connect, hi, ha]
  · simp [Turn.heard, Link.act, Link.connect, hi]

theorem heard_idle {l : Link} (hw : l.worker = none) (a : Action) : Turn.heard ⟨l, a⟩ = [] := by
  cases a with
  | init | disconnect | setCharset _ => rfl
  | connect dial last =>
    simp only [Turn.heard, Link.act, Link.connect]
    split_ifs
    · rfl
    · rfl
    · rw [join_none hw]
      rfl
  | shutdown last =>
    have hj : l.close.join last = (l.close, []) := join_none (l := l.close) hw last
    simp [Turn.heard, Link.act, Link.shutdown, hj]
  | send payload write => exact heard_send l payload write
  | dialed | read _ | finish =>
    simp [Turn.heard, Link.act, Link.silently, Link.dialed, Link.read, Link.finish, hw]

namespace Hearing

variable {l : Link} {r : Reception}

theorem of_hears {a : Action} (h : Hears r.charset (r.arrived ++ Turn.arrived ⟨l, a⟩)
    (r.heard ++ Turn.heard ⟨l, a⟩) (l.next a).worker) : Hearing (l.next a) (r.add ⟨l, a⟩) := by
  rw [Hearing, Reception.arrived_add, Reception.heard_add]
  exact h

theorem same (h : Hearing l r) {a : Action} (hw : (l.next a).worker = l.worker)
    (ha : Turn.arrived ⟨l, a⟩ = []) (hq : Turn.heard ⟨l, a⟩ = []) :
    Hearing (l.next a) (r.add ⟨l, a⟩) := by
  apply of_hears
  rw [ha, hq, hw, List.append_nil, List.append_nil]
  exact h

theorem next (h : Hearing l r) {a : Action} (hn : Turn.started? ⟨l, a⟩ = none) :
    Hearing (l.next a) (r.add ⟨l, a⟩) := by
  cases a with
  | init | disconnect | setCharset _ => exact h.same rfl rfl rfl
  | connect dial last =>
    refine h.same (by rw [(connect_same hn).1]) ?_ (heard_connect hn)
    simp [Turn.arrived, hn]
  | shutdown last =>
    apply of_hears
    rw [heard_eq (l := l) (a := .shutdown last) (reports_join l.close last)]
    have hw : (l.next (.shutdown last)).worker = none :=
      (join_parting l.close last (isAlive_close l)).1
    rw [hw]
    exact Hears.join (l := l.close) h (isAlive_close l) last
  | send payload write =>
    exact h.same (send_quiet l payload write).2.1 rfl (heard_send l payload write)
  | dialed =>
    apply of_hears
    rw [heard_eq (l := l) (a := .dialed) (reports_dialed l), Turn.arrived, List.append_nil]
    exact Hears.dialed h
  | read x =>
    apply of_hears
    rw [heard_eq (l := l) (a := .read x) (reports_read l x)]
    exact Hears.read h x
  | finish =>
    apply of_hears
    rw [heard_eq (l := l) (a := .finish) (reports_finish l), Turn.arrived, List.append_nil]
    exact Hears.finish h

theorem start (h : Hearing l r) {a : Action} {dial : Dial}
    (hs : Turn.started? ⟨l, a⟩ = some dial) :
    Over r.charset (r.add ⟨l, a⟩).arrived (r.add ⟨l, a⟩).heard := by
  obtain ⟨hi, ha, last, rfl⟩ := started_eq_some hs
  have he : (l.act (.connect dial last)).events = (l.join last).2 := by
    simp [Link.act, Link.connect, hi, ha]
  rw [Reception.arrived_add, Reception.heard_add, heard_eq (he ▸ reports_join l last), he]
  have hb : Turn.arrived ⟨l, .connect dial last⟩ = l.arrived last := by simp [Turn.arrived, hs]
  rw [hb]
  exact Hears.join h ha last

theorem started {l : Link} {a : Action} {r : Reception} (h : Turn.reception? ⟨l, a⟩ = some r) :
    Hearing (l.next a) r := by
  obtain ⟨dial, hs, rfl⟩ := Option.map_eq_some_iff.mp h
  obtain ⟨hi, ha, last, rfl⟩ := started_eq_some hs
  obtain ⟨_, _, hj⟩ := l.join_frame last
  have hw : (l.next (.connect dial last)).worker = some (.dialing l.charset dial) := by
    simp [Link.next, Link.act, Link.connect, hi, ha, hj]
  rw [Hearing, hw]
  exact ⟨rfl, rfl, rfl⟩

end Hearing

theorem hearing : Stretching Link.next Turn.reception? Reception.add (fun l => l.worker = none)
    Hearing (fun r => Over r.charset r.arrived r.heard) where
  idle l a hw hn := (idle_next hw (Option.map_eq_none_iff.mp hn)).1
  first l a r _ hr := .started hr
  standing l a r h hn := h.next (Option.map_eq_none_iff.mp hn)
  ending l a r d h hd := by
    obtain ⟨dial, hs, -⟩ := Option.map_eq_some_iff.mp hd
    exact ⟨h.start hs, .started hd⟩

theorem filter_answers (charset : Charset) (stream : List UInt8) :
    (answers charset stream).filter Event.isReceived = answers charset stream := by
  rw [List.filter_eq_self]
  intro e he
  obtain ⟨line, -, rfl⟩ := List.mem_map.mp he
  rfl

theorem filter_farewell (f : Option Fault) : (farewell f).filter Event.isReceived = [] := by
  cases f <;> rfl

theorem Over.received {charset : Charset} {stream : List UInt8} {log : List Event}
    (h : Over charset stream log) : log.filter Event.isReceived = answers charset stream := by
  cases h with
  | abandoned | unopened f => rfl
  | ended f =>
    rw [List.filter_append, filter_farewell, List.append_nil,
      List.filter_cons_of_neg Bool.false_ne_true, filter_answers]

/-- What has been told of a session that need not be over. -/
inductive Underway (charset : Charset) : List UInt8 → List Event → Prop where
  | closed (stream : List UInt8) (log : List Event) : Over charset stream log →
      Underway charset stream log
  | dialing : Underway charset [] []
  | reading (stream : List UInt8) :
      Underway charset stream (.client .established :: answers charset stream)

theorem Hearing.underway {l : Link} {r : Reception} (h : Hearing l r) :
    Underway r.charset r.arrived r.heard := by
  rw [Hearing] at h
  match hw : l.worker with
  | none =>
    rw [hw] at h
    exact .closed _ _ h
  | some (.dialing _ _) =>
    rw [hw] at h
    rw [h.2.1, h.2.2]
    exact .dialing
  | some (.reading _ _) =>
    rw [hw] at h
    rw [h.2.2]
    exact .reading _
  | some (.leaving _) =>
    rw [hw] at h
    rw [show r.heard = _ from h]
    exact .reading _

theorem Underway.received {charset : Charset} {stream : List UInt8} {log : List Event}
    (h : Underway charset stream log) : log.filter Event.isReceived = answers charset stream := by
  cases h with
  | closed _ _ h => exact h.received
  | dialing => rfl
  | reading => rw [List.filter_cons_of_neg Bool.false_ne_true, filter_answers]

/-- The reads in which the bytes of a session come make no difference. -/
def Alike (ts us : List Turn) : Prop :=
  ∀ r ∈ receptions ts, ∀ s ∈ receptions us, r.charset = s.charset → r.arrived = s.arrived →
    r.received = s.received

end Tcp

end LabelPrinter

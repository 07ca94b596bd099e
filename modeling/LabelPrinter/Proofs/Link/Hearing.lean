import LabelPrinter.Proofs.Link.Sender
import LabelPrinter.Proofs.Tcp.Replies
import LabelPrinter.Proofs.Usb.Boundaries
import LabelPrinter.Proofs.Usb.SessionLog
import Mathlib.Data.List.DropRight

/-!
With which charset replies are read. A session keeps the one that the connection had when the
session was started, and what the caller sets later is for sending only.
-/

namespace LabelPrinter

theorem Event.filter_received {keeps : Event → Bool}
    (h : ∀ text, keeps (.data (.received text)) = true) (es : List Event) :
    (es.filter keeps).filter isReceived = es.filter isReceived := by
  rw [List.filter_filter]
  refine List.filter_congr fun e _ => ?_
  cases e with
  | client _ => rfl
  | data d =>
    cases d with
    | sent _ | sendFailed _ _ => rfl
    | received text => rw [h, Bool.and_true]

/-- What is received if these replies are read so. -/
def heardAs (charset : Charset) (replies : List (List UInt8)) : List Event :=
  replies.map fun bytes => .data (.received (charset.decode bytes))

/-- A kind of connection and what it hears. -/
structure Receiver (σ α ω ο : Type) extends Sender σ α ω ο where
  starts : Turn σ α → Bool
  chosen? : α → Option Charset
  /-- The replies that are complete with this turn, behind those before it. -/
  replies : List (Turn σ α) → Turn σ α → List (List UInt8)

namespace Receiver

variable {σ α ω ο : Type}

def received (R : Receiver σ α ω ο) (t : Turn σ α) : List Event :=
  (R.events t.state t.action).filter Event.isReceived

/-- The charset that is kept for a session from here on, if one is started. -/
def keeps? (R : Receiver σ α ω ο) (t : Turn σ α) : Option Charset :=
  if R.starts t then some (R.charset t.state) else none

/-- The charset that is kept for the latest session. -/
def kept (R : Receiver σ α ω ο) (ts : List (Turn σ α)) : Charset :=
  (ts.filterMap R.keeps?).getLastD (R.charset R.start)

/-- What the caller has set since the latest session was started. -/
def chosenSince (R : Receiver σ α ω ο) (ts : List (Turn σ α)) : List Charset :=
  (ts.rtakeWhile fun t => !R.starts t).filterMap fun t => R.chosen? t.action

/-- What a turn brings is read with the charset that is kept for the session, which is the current
one as long as no other has been set, or none that reads it otherwise. -/
structure Reads (R : Receiver σ α ω ο) (ts : List (Turn σ α)) (t : Turn σ α) : Prop where
  received_eq : R.received t = heardAs (R.kept ts) (R.replies ts t)
  charset_eq : R.charset t.state = (R.chosenSince ts).getLastD (R.kept ts)
  as_current_iff : R.received t = heardAs (R.charset t.state) (R.replies ts t) ↔
    ∀ bytes ∈ R.replies ts t, (R.charset t.state).decode bytes = (R.kept ts).decode bytes

theorem heardAs_inj {c d : Charset} {replies : List (List UInt8)} :
    heardAs c replies = heardAs d replies ↔ ∀ bytes ∈ replies, d.decode bytes = c.decode bytes := by
  simp only [heardAs, List.map_inj_left, Event.data.injEq, DataEvent.received.injEq]
  exact forall₂_congr fun _ _ => eq_comm

section Charset

variable {R : Receiver σ α ω ο} {ts : List (Turn σ α)} {t : Turn σ α}

theorem kept_snoc : R.kept (ts ++ [t]) = (R.keeps? t).getD (R.kept ts) := by
  rw [kept, List.filterMap_append, kept]
  cases h : R.keeps? t with
  | none => simp [h]
  | some c => simp [h, List.getLastD_eq_getLast?]

theorem chosenSince_snoc : R.chosenSince (ts ++ [t]) =
    if R.starts t then [] else R.chosenSince ts ++ (R.chosen? t.action).toList := by
  rw [chosenSince, List.rtakeWhile_concat]
  cases hs : R.starts t with
  | true => rfl
  | false =>
    rw [Bool.not_false, if_pos rfl, List.filterMap_append, chosenSince]
    cases h : R.chosen? t.action <;> simp [h]

/-- Only a call that sets a charset changes it, and no such call starts a session. -/
structure Lawful (R : Receiver σ α ω ο) : Prop where
  charset_next : ∀ s a, R.charset (R.next s a) = (R.chosen? a).getD (R.charset s)
  starts : ∀ t, R.starts t = true → R.chosen? t.action = none

theorem Lawful.charset_run (h : R.Lawful) (actions : List α) :
    R.charset (R.run actions) = (R.chosenSince (turns R.next R.start actions)).getLastD
      (R.kept (turns R.next R.start actions)) := by
  apply turns_invariant (I := fun ts s => R.charset s = (R.chosenSince ts).getLastD (R.kept ts))
  · rfl
  · intro ts s a hs
    rw [h.charset_next, hs, kept_snoc, chosenSince_snoc, keeps?]
    cases hstart : R.starts ⟨s, a⟩ with
    | true =>
      have hnone : R.chosen? a = none := h.starts _ hstart
      rw [hnone, if_pos rfl, if_pos rfl, Option.getD_none, Option.getD_some, hs]
      rfl
    | false =>
      rw [if_neg Bool.false_ne_true, if_neg Bool.false_ne_true, Option.getD_none]
      cases R.chosen? a <;> simp [List.getLastD_eq_getLast?]

theorem Reads.of_received {actions : List α} {a : α} (h : R.Lawful)
    (heard : R.received ⟨R.run actions, a⟩ = heardAs (R.kept (turns R.next R.start actions))
      (R.replies (turns R.next R.start actions) ⟨R.run actions, a⟩)) :
    R.Reads (turns R.next R.start actions) ⟨R.run actions, a⟩ := by
  refine ⟨heard, h.charset_run actions, ?_⟩
  rw [heard]
  exact heardAs_inj

end Charset

end Receiver

namespace Tcp

/-- The lines that the bytes of a turn complete, behind those that came in the session before. -/
def completed (r : Reception) (t : Turn) : List (List UInt8) :=
  (replyLines (r.arrived ++ Turn.arrived t)).drop (replyLines r.arrived).length

def receiver (host : String) (service : Nat) : Receiver Link Action Write Outcome where
  toSender := sender host service
  starts t := (Turn.started? t).isSome
  chosen?
    | .setCharset charset => some charset
    | _ => none
  replies ts t := ((receptions ts).getLast?.map (completed · t)).getD []

variable {host : String} {service : Nat}

theorem charset_act (l : Link) (a : Action) :
    (l.next a).charset = (((receiver host service).chosen? a).getD l.charset) := by
  cases a with
  | init | disconnect | setCharset _ => rfl
  | connect dial last =>
    obtain ⟨_, _, hj⟩ := l.join_frame last
    change (l.connect dial last).link.charset = l.charset
    rw [Link.connect]
    split_ifs
    · rfl
    · rfl
    · simp [hj]
  | shutdown last =>
    obtain ⟨_, _, hj⟩ := l.close.join_frame last
    change (l.close.join last).1.charset = l.charset
    rw [hj]
    rfl
  | send payload write =>
    have ho := sending l payload write
    change (l.send payload write).link.charset = l.charset
    generalize l.send payload write = o at ho ⊢
    cases ho with
    | unsendable _ _ | refused _ _ _ | sent _ _ _ | broken _ _ _ _ _ => rfl
  | dialed =>
    obtain ⟨_, _, hd⟩ := l.dialed_frame
    change l.dialed.1.charset = l.charset
    rw [hd]
  | read r =>
    obtain ⟨_, hr⟩ := l.read_frame r
    change (l.read r).1.charset = l.charset
    rw [hr]
  | finish =>
    obtain ⟨_, _, hf⟩ := l.finish_frame
    change l.finish.1.charset = l.charset
    rw [hf]

theorem receiver_lawful (host : String) (service : Nat) : (receiver host service).Lawful where
  charset_next := charset_act
  starts t h := by
    obtain ⟨dial, hd⟩ := Option.isSome_iff_exists.mp h
    obtain ⟨-, -, last, ha⟩ := started_eq_some hd
    rw [ha]
    rfl

theorem kept_eq (ts : List Turn) :
    (receiver host service).kept ts = ((receptions ts).map Reception.charset).getLastD {} := by
  have same (r : Reception) (t : Turn) : (r.add t).charset = r.charset := rfl
  rw [Receiver.kept, receptions, map_stretches same]
  congr 2
  funext t
  rw [Receiver.keeps?, Turn.reception?]
  cases h : Turn.started? t <;> simp [receiver, sender, h]

theorem received_add {l : Link} {r : Reception} (h : Hearing l r) (a : Action) :
    (r.add ⟨l, a⟩).received = answers r.charset (r.add ⟨l, a⟩).arrived := by
  cases hs : Turn.started? ⟨l, a⟩ with
  | none => exact (h.next hs).underway.received
  | some dial => exact (h.start hs).received

theorem received_heard (t : Turn) :
    (receiver host service).received t = (Turn.heard t).filter Event.isReceived :=
  (Event.filter_received (fun _ => rfl) _).symm

theorem heard_completed {l : Link} {r : Reception} (h : Hearing l r) (a : Action) :
    (Turn.heard ⟨l, a⟩).filter Event.isReceived = heardAs r.charset (completed r ⟨l, a⟩) := by
  have hbefore : r.received = answers r.charset r.arrived := h.underway.received
  have hafter := received_add h a
  -- the replies of the session are the answers to all its bytes before the turn and behind it, so
  -- the turn has told the difference
  have hsplit : (r.add ⟨l, a⟩).received =
      r.received ++ (Turn.heard ⟨l, a⟩).filter Event.isReceived := by
    rw [Reception.received, Reception.heard_add, List.filter_append]
    rfl
  rw [hsplit, Reception.arrived_add, hbefore] at hafter
  have hlength : (answers r.charset r.arrived).length = (replyLines r.arrived).length :=
    List.length_map _
  rw [heardAs, completed, List.map_drop, ← hlength]
  change _ = (answers r.charset _).drop _
  rw [← hafter, List.drop_left]

theorem heard_reached {l : Link} {rs : List Reception}
    (h : Reached (fun l : Link => l.worker = none) Hearing
      (fun r => Over r.charset r.arrived r.heard) rs l) (a : Action) :
    (Turn.heard ⟨l, a⟩).filter Event.isReceived = heardAs ((rs.map Reception.charset).getLastD {})
      ((rs.getLast?.map (completed · ⟨l, a⟩)).getD []) := by
  cases h with
  | idle hr hw =>
    rw [heard_idle hw, hr]
    rfl
  | running past r hr _ h =>
    rw [heard_completed h, hr, List.getLast?_concat, List.map_append, List.getLastD_eq_getLast?,
      List.map_singleton, List.getLast?_concat]
    rfl

theorem receiver_reads (host : String) (service : Nat) (actions : List Action) (a : Action) :
    (receiver host service).Reads (turns Link.next (Link.of host service) actions)
      ⟨actions.foldl Link.next (Link.of host service), a⟩ := by
  refine .of_received (receiver_lawful host service) ?_
  rw [received_heard, kept_eq]
  exact heard_reached (hearing.run (s := Link.of host service) rfl actions) a

end Tcp

namespace Usb

/-- What the read that ends in this turn has brought. -/
def brought (t : Turn) : List (List UInt8) :=
  match Turn.reading? t with
  | some ⟨.ok (b :: bytes), _⟩ => [b :: bytes]
  | _ => []

def receiver (vendor : Nat) (product : Option Nat) :
    Receiver Link Action (List Transfer) Outcome where
  toSender := sender vendor product
  starts t := (Turn.started? t).isSome
  chosen?
    | .setCharset charset => some charset
    | _ => none
  replies _ := brought

variable {vendor : Nat} {product : Option Nat}

theorem charset_act (l : Link) (a : Action) :
    (l.next a).charset = (((receiver vendor product).chosen? a).getD l.charset) := by
  cases a with
  | disconnect | setCharset _ => rfl
  | init bus =>
    obtain ⟨_, hc⟩ := l.init_frame bus
    rw [hc]
    rfl
  | connect last =>
    obtain ⟨_, _, hj⟩ := l.join_frame last
    change (l.connect last).link.charset = l.charset
    rw [Link.connect]
    split_ifs
    · rfl
    · rfl
    · simp [hj]
  | shutdown last =>
    obtain ⟨_, _, hj⟩ := l.close.join_frame last
    change (l.shutdown last).link.charset = l.charset
    have hcharset : (l.close.join last).1.charset = l.charset := by
      rw [hj]
      rfl
    rw [Link.shutdown]
    dsimp only
    split
    · exact hcharset
    · exact hcharset
  | send payload outcomes =>
    have ho := sending l payload outcomes
    change (l.send payload outcomes).link.charset = l.charset
    generalize l.send payload outcomes = o at ho ⊢
    cases ho with
    | unsendable _ _ | refused _ _ _ | sent _ _ _ _ _ _ => rfl
    | failed _ _ e _ _ _ _ =>
      dsimp only
      split_ifs
      · rfl
      · rfl
  | start =>
    obtain ⟨_, hs⟩ := l.start_frame
    change l.start.1.charset = l.charset
    rw [hs]
  | read r =>
    obtain ⟨_, hr⟩ := l.read_frame r
    change (l.read r).1.charset = l.charset
    rw [hr]
  | finish =>
    obtain ⟨_, _, hf⟩ := l.finish_frame
    change l.finish.1.charset = l.charset
    rw [hf]

theorem receiver_lawful (vendor : Nat) (product : Option Nat) :
    (receiver vendor product).Lawful where
  charset_next := charset_act
  starts t h := by
    obtain ⟨_, hd⟩ := Option.isSome_iff_exists.mp h
    obtain ⟨-, -, -, last, ha⟩ := Link.started_eq_some hd
    rw [ha]
    rfl

theorem kept_eq (ts : List Turn) :
    (receiver vendor product).kept ts = ((cycles ts).map Cycle.charset).getLastD {} := by
  rw [Receiver.kept, charsets_cycles]
  congr 2
  funext t
  cases h : Turn.started? t with
  | none => simp [Receiver.keeps?, receiver, h]
  | some charset =>
    obtain ⟨-, -, rfl, -⟩ := Link.started_eq_some h
    simp [Receiver.keeps?, receiver, sender, h]

theorem received_told (t : Turn) :
    (receiver vendor product).received t = (Turn.told t).filter Event.isReceived :=
  (Event.filter_received (fun _ => rfl) _).symm

theorem heard_brought (charset : Charset) (t : Turn) :
    ((Turn.reading? t).bind (Reading.heard? charset)).toList = heardAs charset (brought t) := by
  rw [brought]
  split
  case h_1 h => simp [h, Reading.heard?, heardAs]
  case h_2 hn =>
    cases hr : Turn.reading? t with
    | none => rfl
    | some r =>
      obtain ⟨outcome, alive⟩ := r
      cases outcome with
      | error _ => rfl
      | ok bytes => cases bytes with
        | nil => rfl
        | cons b bytes => exact absurd hr (hn b bytes alive)

section

variable {charset : Charset} {w : Option Reader}

theorem filter_heard (r : Reading) :
    (r.heard? charset).toList.filter Event.isReceived = (r.heard? charset).toList := by
  unfold Reading.heard?
  split
  · rfl
  · rfl
  · rfl

theorem filter_parting (h : ∀ c, w = some (.reading c) → c = charset) (last : Read) :
    (parting last w).filter Event.isReceived =
      ((Reading.within ⟨last, false⟩ w).bind (Reading.heard? charset)).toList := by
  match w with
  | none | some (.starting _) => rfl
  | some (.leaving f) => exact Tcp.filter_farewell f
  | some (.reading c) =>
    obtain rfl := h c rfl
    rw [parting, List.filter_append, filter_heard]
    exact List.append_nil _

theorem filter_told {l : Link} (h : ∀ c, l.reader = some (.reading c) → c = charset) (a : Action) :
    (Turn.told ⟨l, a⟩).filter Event.isReceived = heardAs charset (brought ⟨l, a⟩) := by
  rw [← heard_brought]
  cases a with
  | init bus =>
    rw [l.init_quiet bus]
    rfl
  | disconnect | setCharset _ => rfl
  | connect last =>
    cases hs : Turn.started? ⟨l, .connect last⟩ with
    | none =>
      obtain ⟨-, hq, hr⟩ := Link.connect_same hs
      rw [hq, hr]
      rfl
    | some _ =>
      obtain ⟨ha, hc, -, -⟩ := Link.started_eq_some hs
      obtain ⟨-, -, hq, hr⟩ := Link.connect_started ha hc last
      rw [hq, hr]
      exact filter_parting h last
  | shutdown last =>
    rw [(Link.shutdown_parting l last).2]
    exact filter_parting h last
  | send payload outcomes =>
    rw [(l.send_quiet payload outcomes).2.2]
    rfl
  | start =>
    by_cases hl : ∃ c, l.reader = some (.starting c)
    · obtain ⟨c, hl⟩ := hl
      rw [Turn.told, Link.act, Link.silently, Link.start_starting hl]
      rfl
    · rw [Turn.told, Link.act, Link.start_idle hl]
      rfl
  | read r =>
    by_cases hl : ∃ c, l.reader = some (.reading c)
    · obtain ⟨c, hl⟩ := hl
      obtain rfl := h c hl
      have hr : Turn.reading? ⟨l, .read r⟩ = some ⟨r, l.isAlive⟩ := by
        simp [Turn.reading?, Reading.within, hl]
      rw [Link.read_told hl, filter_heard, hr]
      rfl
    · have hr : Turn.reading? ⟨l, .read r⟩ = none := Reading.within_eq_none hl _
      rw [Turn.told, Link.act, Link.read_idle hl, hr]
      rfl
  | finish =>
    by_cases hl : ∃ f, l.reader = some (.leaving f)
    · obtain ⟨f, hl⟩ := hl
      rw [Turn.told, Link.act, Link.silently, Link.finish_leaving hl, farewell_byReader]
      exact Tcp.filter_farewell f
    · rw [Turn.told, Link.act, Link.finish_idle hl]
      rfl

end

theorem Standing.reading {l : Link} {c : Cycle} (h : Standing l c) {charset : Charset}
    (hr : l.reader = some (.reading charset)) : charset = c.charset := by
  have ht := h.told
  rw [hr] at ht
  exact ht.1

theorem told_reached {l : Link} {cs : List Cycle}
    (h : Reached (fun l : Link => l.reader = none) Standing (fun c => c.Over ∧ c.Marked) cs l)
    (a : Action) : (Turn.told ⟨l, a⟩).filter Event.isReceived =
      heardAs ((cs.map Cycle.charset).getLastD {}) (brought ⟨l, a⟩) := by
  apply filter_told
  intro charset hr
  cases h with
  | idle hc hn => cases hn.symm.trans hr
  | running past c hc _ h =>
    rw [hc, List.map_append, List.getLastD_eq_getLast?, List.map_singleton, List.getLast?_concat]
    exact h.reading hr

theorem receiver_reads (vendor : Nat) (product : Option Nat) (actions : List Action) (a : Action) :
    (receiver vendor product).Reads (turns Link.next { vendor, product } actions)
      ⟨actions.foldl Link.next { vendor, product }, a⟩ := by
  refine .of_received (receiver_lawful vendor product) ?_
  rw [received_told, kept_eq]
  exact told_reached (stretching.run (s := { vendor, product }) rfl actions) a

end Usb

namespace Receiver

/-- For a session the charset of its start is kept over both channels. -/
theorem reads_over_both_channels (host : String) (service vendor : Nat) (product : Option Nat) :
    (∀ actions a, (Tcp.receiver host service).Reads
      (turns Tcp.Link.next (Tcp.Link.of host service) actions)
      ⟨actions.foldl Tcp.Link.next (Tcp.Link.of host service), a⟩) ∧
    ∀ actions a, (Usb.receiver vendor product).Reads
      (turns Usb.Link.next { vendor, product } actions)
      ⟨actions.foldl Usb.Link.next { vendor, product }, a⟩ :=
  ⟨Tcp.receiver_reads host service, Usb.receiver_reads vendor product⟩

/-- The charset is set after the session has been started. -/
def tcpRetuned : List Tcp.Action :=
  [.init, .connect .opened Tcp.nothingYet, .dialed,
    .setCharset ⟨CodePage.windows1252.codec, .replace⟩]

def usbRetuned : List Usb.Action :=
  [.init (.ok [Usb.printer]), .connect (.ok []), .start,
    .setCharset ⟨CodePage.windows1252.codec, .replace⟩]

/-- The byte is an e with an acute accent in the charset that is in force when it is read. -/
theorem read_in_former_charset :
    (∃ l, tcpRetuned.foldl Tcp.Link.next (.of "192.0.2.7" 9100) = l ∧
      l.charset.decode [0xE9, 10] = "é\n" ∧
      (l.act (.read (.ok [0xE9, 10]))).events = [.data (.received "\uFFFD\n")]) ∧
    ∃ l, usbRetuned.foldl Usb.Link.next { vendor := 4611, product := some 560 } = l ∧
      l.charset.decode [0xE9] = "é" ∧
      (l.act (.read (.ok [0xE9]))).events = [.data (.received "\uFFFD")] :=
  ⟨⟨_, rfl, rfl, rfl⟩, _, rfl, rfl, rfl⟩

end Receiver

end LabelPrinter

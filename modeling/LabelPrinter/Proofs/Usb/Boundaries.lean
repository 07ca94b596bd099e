import LabelPrinter.Proofs.Usb.Sending
import Mathlib.Data.List.Basic

/-!
Where the messages of a session stand in the bytes that its endpoint has taken. A message that a
timeout cuts short does not end the session, so the next one is taken right behind what was taken
of it.
-/

namespace LabelPrinter.Usb

/-- What has become of a message that was offered to the endpoint. -/
structure Delivery where
  message : List UInt8
  taken : List UInt8
  fault : Option UsbError
  deriving DecidableEq, Repr

namespace Delivery

def of (message : List UInt8) (outcomes : List Transfer) : Delivery :=
  ⟨message, (transmit message outcomes).taken, (transmit message outcomes).fault⟩

def report (d : Delivery) : Event :=
  match d.fault with
  | none => .data (.sent d.message)
  | some e => .data (.sendFailed ⟨"failed to send message", .usb e⟩ d.message)

/-- The endpoint takes a message from its start, and all of it unless there is an error. -/
structure Sane (d : Delivery) : Prop where
  front : d.taken <+: d.message
  all : d.fault = none → d.taken = d.message
  part : d.fault = some .timeout → d.taken ≠ d.message

/-- The session goes on after this message. -/
def Survived (d : Delivery) : Prop := d.fault = none ∨ d.fault = some .timeout

end Delivery

theorem Delivery.sane_of (message : List UInt8) (outcomes : List Transfer) :
    (Delivery.of message outcomes).Sane := by
  obtain ⟨hfront, hall, hpart⟩ := transmit_taken message outcomes
  exact ⟨hfront, hall, hpart⟩

namespace Turn

/-- The message that is offered to the endpoint here, if one is. -/
def delivery? (t : Turn) : Option Delivery :=
  match t.action with
  | .send payload _ => do
    let message ← (payload.encode t.state.charset).toOption
    let course ← (t.state.act t.action).transmission
    return ⟨message, course.taken, course.fault⟩
  | _ => none

/-- What is told here of messages that were to be sent. -/
def reports (t : Turn) : List Event :=
  (t.state.act t.action).events.filter fun e => !e.byReader

end Turn

namespace Cycle

def deliveries (c : Cycle) : List Delivery := c.turns.filterMap Turn.delivery?

theorem deliveries_add (c : Cycle) (t : Turn) :
    (c.add t).deliveries = c.deliveries ++ (Turn.delivery? t).toList := by
  simp only [add, deliveries, List.filterMap_append]
  cases h : Turn.delivery? t <;> simp [h]

end Cycle

/-- All that a call that sends can come to. -/
theorem delivery_send (l : Link) (payload : Payload) (outcomes : List Transfer) :
    (Turn.delivery? ⟨l, .send payload outcomes⟩ = none ∧
        Turn.reports ⟨l, .send payload outcomes⟩ = [] ∧ l.next (.send payload outcomes) = l) ∨
      ∃ message, l.isConnected = true ∧
        Turn.delivery? ⟨l, .send payload outcomes⟩ = some (.of message outcomes) ∧
        Turn.reports ⟨l, .send payload outcomes⟩ = [(Delivery.of message outcomes).report] ∧
        ((l.next (.send payload outcomes)).isAlive = true →
          (Delivery.of message outcomes).Survived) := by
  simp only [Turn.delivery?, Turn.reports, Link.next, Link.act]
  have ho := sending l payload outcomes
  generalize l.send payload outcomes = o at ho ⊢
  cases ho with
  | unsendable e he => exact .inl ⟨by simp, rfl, rfl⟩
  | refused message he hc => exact .inl ⟨by simp, rfl, rfl⟩
  | sent message c he hc hl hf =>
    refine .inr ⟨message, hc, by rw [he]; rfl, ?_, fun _ => .inl hf⟩
    simp only [Delivery.report, Delivery.of, hf]
    rfl
  | failed message c e he hc hl hf =>
    refine .inr ⟨message, hc, by rw [he]; rfl, ?_, fun ha => .inr ?_⟩
    · simp only [Delivery.report, Delivery.of, hf]
      rfl
    · by_contra ht
      have hne : e ≠ .timeout := fun h => ht (h ▸ hf)
      rw [if_neg hne, Link.isAlive_close] at ha
      exact absurd ha Bool.false_ne_true

theorem byReader_of_no_send (l : Link) {a : Action}
    (h : ∀ payload outcomes, a ≠ .send payload outcomes) :
    (l.act a).events.filter Event.byReader = (l.act a).events := by
  cases a with
  | init bus =>
    rw [Link.act, Link.init]
    split
    · rfl
    · dsimp only
      split
      · rfl
      · rfl
  | connect last =>
    rw [Link.act, Link.connect]
    split_ifs with ha hc
    · rfl
    · rfl
    · dsimp only
      rw [(Link.join_closed (by simpa using ha) last).2, Link.parting_byReader]
  | disconnect | setCharset _ => rfl
  | shutdown last =>
    have hj := (Link.join_closed l.isAlive_close last).2
    rw [Link.act, Link.shutdown]
    dsimp only
    split
    · rw [hj, Link.parting_byReader]
    · rw [hj, Link.parting_byReader]
  | send payload outcomes => exact absurd rfl (h payload outcomes)
  | start =>
    rw [Link.act, Link.silently, Link.start]
    split
    · rfl
    · rfl
  | read r =>
    by_cases hr : ∃ charset, l.reader = some (.reading charset)
    · obtain ⟨charset, hr⟩ := hr
      rw [Link.act, Link.silently, Link.read_reading hr, Reading.heard?_byReader]
    · rw [Link.act, Link.silently, Link.read_idle hr]
      rfl
  | finish =>
    rw [Link.act, Link.silently, Link.finish]
    split
    · exact farewell_byReader _
    · rfl

theorem silent_of_no_send (l : Link) {a : Action}
    (h : ∀ payload outcomes, a ≠ .send payload outcomes) :
    Turn.delivery? ⟨l, a⟩ = none ∧ Turn.reports ⟨l, a⟩ = [] := by
  refine ⟨?_, ?_⟩
  · cases a with
    | send payload outcomes => exact absurd rfl (h payload outcomes)
    | _ => rfl
  · rw [Turn.reports, List.filter_eq_nil_iff]
    intro e he
    simp [List.filter_eq_self.mp (byReader_of_no_send l h) e he]

/-- As long as a session is alive, its messages have been sent or have timed out. -/
structure Keeping (l : Link) (c : Cycle) : Prop where
  sound : Sound l
  sane : ∀ d ∈ c.deliveries, d.Sane
  lived : ∀ d ∈ c.deliveries.dropLast, d.Survived
  alive : l.isAlive = true → ∀ d ∈ c.deliveries, d.Survived

namespace Keeping

variable {l : Link} {c : Cycle}

theorem same (h : Keeping l c) {a : Action} (hd : Turn.delivery? ⟨l, a⟩ = none)
    (ha : (l.next a).isAlive = true → l.isAlive = true) :
    Keeping (l.next a) (c.add ⟨l, a⟩) := by
  have hc : (c.add ⟨l, a⟩).deliveries = c.deliveries := by
    rw [Cycle.deliveries_add, hd]
    exact List.append_nil _
  exact ⟨h.sound.next a, hc ▸ h.sane, hc ▸ h.lived, fun hl => hc ▸ h.alive (ha hl)⟩

theorem send (h : Keeping l c) (payload : Payload) (outcomes : List Transfer) :
    Keeping (l.next (.send payload outcomes)) (c.add ⟨l, .send payload outcomes⟩) := by
  obtain ⟨hd, -, hn⟩ | ⟨message, hc, hd, -, ha⟩ := delivery_send l payload outcomes
  · exact h.same hd fun hl => hn ▸ hl
  · -- a connected session is alive, so it has survived all messages before this one
    have halive := h.alive (h.sound.flags ▸ hc)
    have hadd : (c.add ⟨l, .send payload outcomes⟩).deliveries =
        c.deliveries ++ [.of message outcomes] := by
      rw [Cycle.deliveries_add, hd]
      rfl
    refine ⟨h.sound.next _, ?_, ?_, fun hl => ?_⟩
    · rw [hadd, List.forall_mem_append, List.forall_mem_singleton]
      exact ⟨h.sane, Delivery.sane_of message outcomes⟩
    · rwa [hadd, List.dropLast_concat]
    · rw [hadd, List.forall_mem_append, List.forall_mem_singleton]
      exact ⟨halive, ha hl⟩

theorem next (h : Keeping l c) {a : Action} (hn : Turn.started? ⟨l, a⟩ = none) :
    Keeping (l.next a) (c.add ⟨l, a⟩) := by
  by_cases ha : ∃ payload outcomes, a = .send payload outcomes
  · obtain ⟨payload, outcomes, rfl⟩ := ha
    exact h.send payload outcomes
  · exact h.same (silent_of_no_send l (by simpa using ha)).1 (isAlive_of_next hn)

end Keeping

theorem Keeping.started {l : Link} {a : Action} {c : Cycle} (h : Sound l)
    (hc : Turn.first? ⟨l, a⟩ = some c) : Keeping (l.next a) c := by
  have hd : c.deliveries = [] := by rw [Cycle.deliveries, (first?_eq_some hc).2.2.1]; rfl
  refine ⟨h.next a, ?_, ?_, ?_⟩
  all_goals simp [hd]

theorem keeping : Stretching Link.next Turn.first? Cycle.add
    (fun l => Sound l ∧ l.isAlive = false) Keeping
    (fun c => (∀ d ∈ c.deliveries, d.Sane) ∧ ∀ d ∈ c.deliveries.dropLast, d.Survived) where
  idle l a h hn := by
    refine ⟨h.1.next a, ?_⟩
    by_contra ha
    have hl := isAlive_of_next (Option.map_eq_none_iff.mp hn) (by simpa using ha)
    simp [h.2] at hl
  first l a c h hc := .started h.1 hc
  standing l a c h hn := h.next (Option.map_eq_none_iff.mp hn)
  ending l a c d h hd := by
    obtain ⟨-, -, -, last, rfl⟩ := first?_eq_some hd
    have hs := (silent_of_no_send l (a := .connect last) nofun).1
    have hc : (c.add ⟨l, .connect last⟩).deliveries = c.deliveries := by
      rw [Cycle.deliveries_add, hs]
      exact List.append_nil _
    exact ⟨hc ▸ ⟨h.sane, h.lived⟩, .started h.sound hd⟩

theorem reports_eq (l : Link) (a : Action) :
    Turn.reports ⟨l, a⟩ = (Turn.delivery? ⟨l, a⟩).toList.map Delivery.report := by
  by_cases ha : ∃ payload outcomes, a = .send payload outcomes
  · obtain ⟨payload, outcomes, rfl⟩ := ha
    obtain ⟨hd, hr, -⟩ | ⟨message, -, hd, hr, -⟩ := delivery_send l payload outcomes
    · rw [hd, hr]
      rfl
    · rw [hd, hr]
      rfl
  · obtain ⟨hd, hr⟩ := silent_of_no_send l (by simpa using ha)
    rw [hd, hr]
    rfl

theorem delivery?_of_not_alive {l : Link} (h : Sound l) (ha : l.isAlive = false) (a : Action) :
    Turn.delivery? ⟨l, a⟩ = none := by
  by_cases hs : ∃ payload outcomes, a = .send payload outcomes
  · obtain ⟨payload, outcomes, rfl⟩ := hs
    obtain ⟨hd, -, -⟩ | ⟨_, hc, -, -, -⟩ := delivery_send l payload outcomes
    · exact hd
    · exact absurd (h.flags ▸ hc) (by simp [ha])
  · exact (silent_of_no_send l (by simpa using hs)).1

/-- The messages of these that were sent, one behind the other. -/
def sentBytes (ds : List Delivery) : List UInt8 :=
  (ds.filter (·.fault.isNone)).flatMap Delivery.message

theorem length_sentBytes_le {ds : List Delivery} (hs : ∀ d ∈ ds, d.Sane) :
    (sentBytes ds).length ≤ (ds.flatMap Delivery.taken).length := by
  induction ds with
  | nil => exact Nat.le_refl 0
  | cons d ds ih =>
    obtain ⟨hd, hds⟩ := List.forall_mem_cons.mp hs
    have hle := ih hds
    rw [List.flatMap_cons, List.length_append]
    cases hf : d.fault with
    | none =>
      have hsent : sentBytes (d :: ds) = d.message ++ sentBytes ds := by simp [sentBytes, hf]
      rw [hsent, List.length_append, hd.all hf]
      omega
    | some e =>
      have hsent : sentBytes (d :: ds) = sentBytes ds := by simp [sentBytes, hf]
      rw [hsent]
      omega

/-- What was taken is whole messages only if no timeout has cut one short. -/
theorem taken_eq_sentBytes_iff {ds : List Delivery} (hs : ∀ d ∈ ds, d.Sane)
    (hl : ∀ d ∈ ds, d.Survived) :
    ds.flatMap Delivery.taken = sentBytes ds ↔
      ∀ d ∈ ds, d.fault = some .timeout → d.taken = [] := by
  induction ds with
  | nil => simp [sentBytes]
  | cons d ds ih =>
    obtain ⟨hd, hds⟩ := List.forall_mem_cons.mp hs
    obtain ⟨hld, hlds⟩ := List.forall_mem_cons.mp hl
    rw [List.flatMap_cons, List.forall_mem_cons]
    obtain hf | hf := hld
    · have hsent : sentBytes (d :: ds) = d.message ++ sentBytes ds := by simp [sentBytes, hf]
      rw [hsent, hd.all hf, List.append_cancel_left_eq, ih hds hlds]
      simp [hf]
    · have hsent : sentBytes (d :: ds) = sentBytes ds := by simp [sentBytes, hf]
      rw [hsent]
      constructor
      · intro he
        have hlen := congrArg List.length he
        rw [List.length_append] at hlen
        have hle := length_sentBytes_le hds
        have hnil : d.taken = [] := List.eq_nil_of_length_eq_zero (by omega)
        rw [hnil, List.nil_append, ih hds hlds] at he
        exact ⟨fun _ => hnil, he⟩
      · rintro ⟨hnil, hrest⟩
        rw [hnil hf, List.nil_append]
        exact (ih hds hlds).mpr hrest

/-- Before the first byte of a message, only whole messages that were reported as sent are taken. -/
def Cycle.Aligned (c : Cycle) : Prop :=
  ∀ before d after, c.deliveries = before ++ d :: after → d.taken ≠ [] →
    ∃ sent : List (List UInt8), (∀ m ∈ sent, Event.data (.sent m) ∈ before.map Delivery.report) ∧
      before.flatMap Delivery.taken = sent.flatten

/-- The messages of a run and where they stand in what the endpoint has taken. -/
structure Delivered (ts : List Turn) : Prop where
  reported : ∀ t ∈ ts, Turn.reports t = (Turn.delivery? t).toList.map Delivery.report
  in_turn : ts.filterMap Turn.delivery? = (cycles ts).flatMap Cycle.deliveries
  sane : ∀ c ∈ cycles ts, ∀ d ∈ c.deliveries, d.Sane
  /-- Only a timeout leaves the session open to more messages. -/
  lived : ∀ c ∈ cycles ts, ∀ d ∈ c.deliveries.dropLast, d.Survived
  boundaries : ∀ c ∈ cycles ts, ∀ before d after, c.deliveries = before ++ d :: after →
    (before.flatMap Delivery.taken = sentBytes before ↔
      ∀ b ∈ before, b.fault = some .timeout → b.taken = [])
  aligned : ∀ c ∈ cycles ts,
    (∀ d ∈ c.deliveries.dropLast, d.fault = some .timeout → d.taken = []) → c.Aligned

theorem mem_dropLast_of_before {ds before after : List Delivery} {d : Delivery}
    (h : ds = before ++ d :: after) : ∀ b ∈ before, b ∈ ds.dropLast := by
  intro b hb
  rw [h, List.dropLast_append_cons]
  exact List.mem_append_left _ hb

theorem report_of_sent {ds : List Delivery} {m : List UInt8}
    (h : m ∈ (ds.filter (·.fault.isNone)).map Delivery.message) :
    Event.data (.sent m) ∈ ds.map Delivery.report := by
  obtain ⟨d, hd, rfl⟩ := List.mem_map.mp h
  obtain ⟨hmem, hf⟩ := List.mem_filter.mp hd
  refine List.mem_map.mpr ⟨d, hmem, ?_⟩
  rw [Delivery.report, Option.isNone_iff_eq_none.mp hf]

theorem messages_delivered (vendor : Nat) (product : Option Nat) (actions : List Action) :
    Delivered (turns Link.next { vendor, product } actions) := by
  have hstart : Sound { vendor, product } ∧ Link.isAlive { vendor, product } = false :=
    ⟨.of_unused rfl, rfl⟩
  generalize ({ vendor, product } : Link) = l at hstart ⊢
  have hrun := keeping.run hstart actions
  have hsane : ∀ c ∈ cycles (turns Link.next l actions), ∀ d ∈ c.deliveries, d.Sane :=
    hrun.all (fun _ h => h.1) fun _ h => h.sane
  have hlived : ∀ c ∈ cycles (turns Link.next l actions), ∀ d ∈ c.deliveries.dropLast, d.Survived :=
    hrun.all (fun _ h => h.2) fun _ h => h.lived
  have hbounds : ∀ c ∈ cycles (turns Link.next l actions), ∀ before d after,
      c.deliveries = before ++ d :: after → (before.flatMap Delivery.taken = sentBytes before ↔
        ∀ b ∈ before, b.fault = some .timeout → b.taken = []) := by
    intro c hc before d after he
    apply taken_eq_sentBytes_iff
    · exact fun b hb => hsane c hc b (he ▸ List.mem_append_left _ hb)
    · exact fun b hb => hlived c hc b (mem_dropLast_of_before he b hb)
  refine ⟨?_, ?_, hsane, hlived, hbounds, ?_⟩
  · rintro ⟨m, a⟩ _
    exact reports_eq m a
  · rw [List.filterMap_eq_flatMap_toList]
    apply keeping.told hstart _ _ Cycle.deliveries_add
    · intro m a hm
      rw [delivery?_of_not_alive hm.1 hm.2]
      rfl
    · intro t c hc
      rw [Cycle.deliveries, (first?_eq_some hc).2.2.1]
      rfl
  · intro c hc hw before d after he _
    refine ⟨(before.filter (·.fault.isNone)).map Delivery.message, ?_, ?_⟩
    · exact fun m hm => report_of_sent hm
    · rw [← List.flatMap_def]
      exact (hbounds c hc before d after he).mpr fun b hb => hw b (mem_dropLast_of_before he b hb)

/-- The first of two bytes is taken before the endpoint stops taking any. -/
def stalling : List Action :=
  [.init (.ok [printer]), .connect (.ok []), .send (.message [1, 2]) [.accepted 1, .accepted 0],
    .send (.message [3]) []]

theorem deliveries_stalling :
    (cycles (turns Link.next { vendor := 4611, product := none } stalling)).map Cycle.deliveries =
      [[⟨[1, 2], [1], some .timeout⟩, ⟨[3], [3], none⟩]] := by
  rfl

theorem spliced_behind_timeout :
    ¬ ∀ (vendor : Nat) (product : Option Nat) (actions : List Action),
      ∀ c ∈ cycles (turns Link.next { vendor, product } actions), c.Aligned := by
  intro h
  obtain ⟨c, hc, hd⟩ := List.mem_map.mp (deliveries_stalling ▸ List.mem_singleton_self _)
  obtain ⟨sent, hs, he⟩ := h 4611 none stalling c hc [_] _ [] hd (by simp)
  cases sent with
  | nil => exact absurd he (by decide)
  | cons m sent =>
    have hm := hs m List.mem_cons_self
    exact absurd hm (by simp [Delivery.report])

end LabelPrinter.Usb

import LabelPrinter.Proofs.Stretch
import LabelPrinter.Tcp.Link

/-!
The runs of a connection cut into its sessions, and what the client listeners are told of a session
that is over.
-/

namespace LabelPrinter

def Event.client? : Event → Option ClientEvent
  | .client e => some e
  | .data _ => none

namespace Tcp

def Link.next (l : Link) (a : Action) : Link := (l.act a).link

abbrev Turn := LabelPrinter.Turn Link Action

namespace Turn

def lifecycle (t : Turn) : List ClientEvent :=
  (t.state.act t.action).events.filterMap Event.client?

def started? (t : Turn) : Option Dial :=
  match t.action with
  | .connect dial _ => if t.state.initialized && !t.state.isAlive then some dial else none
  | _ => none

/-- A disconnect, a shutdown or a failed send. -/
def closes (t : Turn) : Bool :=
  match t.action with
  | .disconnect | .shutdown _ => true
  | .send payload (.broken _ _) =>
    (payload.encode t.state.charset).isOk && t.state.isConnected
  | _ => false

def isReading (t : Turn) : Bool :=
  match t.state.worker with
  | some (.reading _ _) => true
  | _ => false

/-- The worker reads that the peer has closed the socket. -/
def HangsUp (t : Turn) : Prop := t.isReading = true ∧ t.action = .read (.ok [])

end Turn

/-- A session with all that happens up to the start of the next one. That start is the last turn
here: it waits for the worker of this session. -/
structure Cycle where
  dial : Dial
  turns : List Turn := []

namespace Cycle

def add (c : Cycle) (t : Turn) : Cycle := { c with turns := c.turns ++ [t] }

def log (c : Cycle) : List ClientEvent := c.turns.flatMap Turn.lifecycle

def Closed (c : Cycle) : Prop := ∃ t ∈ c.turns, Turn.closes t = true

def HungUp (c : Cycle) : Prop := ∃ t ∈ c.turns, Turn.HangsUp t

/-- The dial has not ended. -/
def Dialing (c : Cycle) : Prop := ∀ t ∈ c.turns, t.action ≠ .dialed

/-- The dial is given up: what closes the session is a disconnect or a shutdown, and it comes before
the dial has ended. -/
def Abandoned (c : Cycle) : Prop :=
  ∃ before t after, c.turns = before ++ t :: after ∧
    (t.action = .disconnect ∨ ∃ last, t.action = .shutdown last) ∧ t.state.state = .connecting ∧
      ∀ u ∈ before, u.action ≠ .dialed ∧ Turn.closes u = false

/-- The dial ends before anything has closed the session. -/
def DialEnds (c : Cycle) : Prop :=
  ∃ before l after, c.turns = before ++ ⟨l, .dialed⟩ :: after ∧
    ∀ t ∈ before, Turn.closes t = false

/-- A read fails for good before anything has closed the session. -/
def ReadFails (c : Cycle) (e : IoError) : Prop :=
  ∃ before l after, c.turns = before ++ ⟨l, .read (.error e)⟩ :: after ∧
    Turn.isReading ⟨l, .read (.error e)⟩ = true ∧ l.isAlive = true ∧ e.kind.isIdle = false ∧
      ∀ t ∈ before, Turn.closes t = false

end Cycle

/-- The session that starts here, if one does. -/
def Turn.first? (t : Turn) : Option Cycle := (Turn.started? t).map fun dial => { dial := dial }

def cycles (ts : List Turn) : List Cycle := stretches Turn.first? Cycle.add ts

def lostRead (e : IoError) : Fault := ⟨"failed to read from printer", .io e⟩

/-- What the client listeners are told of a session from its start to its end, and why. -/
inductive Block (address : String) (c : Cycle) : List ClientEvent → Prop where
  | abandoned : c.Abandoned → ¬c.HungUp → Block address c []
  | unreachable (e : IoError) : c.dial = .failed e → c.DialEnds → ¬c.HungUp →
      Block address c [.failing ⟨"unable to connect to " ++ address, .io e⟩]
  | unusable (e : IoError) : c.dial = .unusable e → ¬c.HungUp →
      Block address c [.failing ⟨"unable to set up socket", .io e⟩]
  | lost : c.dial = .opened → c.DialEnds → c.HungUp ∨ c.Closed →
      Block address c [.established, .lost]
  | broken (e : IoError) : c.dial = .opened → c.DialEnds → c.ReadFails e → ¬c.HungUp →
      Block address c [.established, .failing (lostRead e), .lost]

namespace Cycle

theorem log_add (c : Cycle) (t : Turn) : (c.add t).log = c.log ++ Turn.lifecycle t := by
  simp [add, log]

theorem closed_add (c : Cycle) (t : Turn) :
    (c.add t).Closed ↔ c.Closed ∨ Turn.closes t = true := by
  simp [add, Closed, or_and_right, exists_or]

theorem hungUp_add (c : Cycle) (t : Turn) : (c.add t).HungUp ↔ c.HungUp ∨ Turn.HangsUp t := by
  simp [add, HungUp, or_and_right, exists_or]

theorem dialing_add (c : Cycle) (t : Turn) :
    (c.add t).Dialing ↔ c.Dialing ∧ t.action ≠ .dialed := by
  simp [add, Dialing, or_imp, forall_and]

theorem Abandoned.add {c : Cycle} (h : c.Abandoned) (t : Turn) : (c.add t).Abandoned := by
  obtain ⟨before, u, after, he, ha, hs, hb⟩ := h
  exact ⟨before, u, after ++ [t], by simp [Cycle.add, he], ha, hs, hb⟩

theorem Dialing.abandon {c : Cycle} (h : c.Dialing) (hc : ¬c.Closed) {t : Turn}
    (ha : t.action = .disconnect ∨ ∃ last, t.action = .shutdown last)
    (hs : t.state.state = .connecting) : (c.add t).Abandoned := by
  refine ⟨c.turns, t, [], rfl, ha, hs, fun u hu => ⟨h u hu, ?_⟩⟩
  exact Bool.not_eq_true _ ▸ fun hu' => hc ⟨u, hu, hu'⟩

theorem DialEnds.add {c : Cycle} (h : c.DialEnds) (t : Turn) : (c.add t).DialEnds := by
  obtain ⟨before, l, after, he, hb⟩ := h
  exact ⟨before, l, after ++ [t], by simp [Cycle.add, he], hb⟩

theorem dialEnds_of_not_closed {c : Cycle} (h : ¬c.Closed) (l : Link) :
    (c.add ⟨l, .dialed⟩).DialEnds :=
  ⟨c.turns, l, [], rfl, by simpa [Closed] using h⟩

theorem ReadFails.add {c : Cycle} {e : IoError} (h : c.ReadFails e) (t : Turn) :
    (c.add t).ReadFails e := by
  obtain ⟨before, l, after, he, hr, ha, hi, hb⟩ := h
  exact ⟨before, l, after ++ [t], by simp [Cycle.add, he], hr, ha, hi, hb⟩

end Cycle

theorem Block.add {address : String} {c : Cycle} {log : List ClientEvent}
    (h : Block address c log) {t : Turn} (ht : ¬Turn.HangsUp t) : Block address (c.add t) log := by
  have hu (hc : ¬c.HungUp) : ¬(c.add t).HungUp := by simp [Cycle.hungUp_add, hc, ht]
  cases h with
  | abandoned ha hn => exact .abandoned (ha.add t) (hu hn)
  | unreachable e hd he hn => exact .unreachable e hd (he.add t) (hu hn)
  | unusable e hd hn => exact .unusable e hd (hu hn)
  | lost hd he hc =>
    refine .lost hd (he.add t) ?_
    rw [Cycle.hungUp_add, Cycle.closed_add]
    tauto
  | broken e hd he hr hn => exact .broken e hd (he.add t) (hr.add t) (hu hn)

theorem dials_cycles (ts : List Turn) :
    (cycles ts).map Cycle.dial = ts.filterMap Turn.started? := by
  have same (c : Cycle) (t : Turn) : (c.add t).dial = c.dial := rfl
  rw [cycles, map_stretches same]
  simp [Turn.first?, Function.comp_def]

end Tcp

end LabelPrinter

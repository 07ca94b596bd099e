import LabelPrinter.Proofs.Stretch
import LabelPrinter.Usb.Link

/-!
The runs of a connection over the bus cut into its sessions, the reads that end in a session, and
what its reader tells of it.
-/

namespace LabelPrinter

/-- The others are what comes of a call that sends. -/
def Event.byReader : Event → Bool
  | .client _ | .data (.received _) => true
  | .data (.sent _) | .data (.sendFailed _ _) => false

namespace Usb

def Link.next (l : Link) (a : Action) : Link := (l.act a).link

abbrev Turn := LabelPrinter.Turn Link Action

/-- A read that has ended, and whether the session was still alive then. -/
structure Reading where
  outcome : Read
  alive : Bool

namespace Reading

/-- A read that finds nothing, for whatever reason, is not the last one of a session. -/
def isFatal (r : Reading) : Bool :=
  match r.outcome with
  | .ok _ => false
  | .error e => e ≠ .timeout && e ≠ .interrupted

def fault? (r : Reading) : Option Fault :=
  match r.outcome with
  | .ok _ => none
  | .error e =>
    if r.isFatal && e ≠ .noDevice && r.alive then some ⟨"failed to read from printer", .usb e⟩
    else none

def heard? (charset : Charset) (r : Reading) : Option Event :=
  match r.outcome with
  | .ok (b :: bytes) => some (.data (.received (charset.decode (b :: bytes))))
  | .ok [] | .error _ => none

/-- A read ends only where the reader is in one. -/
def within (r : Reading) : Option Reader → Option Reading
  | some (.reading _) => some r
  | none | some (.starting _) | some (.leaving _) => none

end Reading

namespace Turn

def told (t : Turn) : List Event := (t.state.act t.action).events.filter Event.byReader

/-- The charset of the session that starts here, if one does. -/
def started? (t : Turn) : Option Charset :=
  match t.action with
  | .connect _ => if !t.state.isAlive && t.state.claimed.isSome then some t.state.charset else none
  | _ => none

/-- A disconnect, a shutdown or a send that fails for good. -/
def closes (t : Turn) : Bool :=
  match t.action with
  | .disconnect | .shutdown _ => true
  | .send payload outcomes =>
    match payload.encode t.state.charset with
    | .ok message => t.state.isConnected && t.state.claimed.isSome &&
        (transmit message outcomes).fault.any (· ≠ .timeout)
    | .error _ => false
  | _ => false

/-- The read that ends here. A call that waits for the reader finds its session closed. -/
def reading? (t : Turn) : Option Reading :=
  match t.action with
  | .read r => Reading.within ⟨r, t.state.isAlive⟩ t.state.reader
  | .shutdown last => Reading.within ⟨last, false⟩ t.state.reader
  | .connect last =>
    if (started? t).isSome then Reading.within ⟨last, false⟩ t.state.reader else none
  | _ => none

end Turn

/-- A session with all that happens up to the start of the next one. That start is the last turn
here: it waits for the reader of this session. -/
structure Cycle where
  charset : Charset
  turns : List Turn := []

namespace Cycle

def add (c : Cycle) (t : Turn) : Cycle := { c with turns := c.turns ++ [t] }

def log (c : Cycle) : List Event := c.turns.flatMap Turn.told

def readings (c : Cycle) : List Reading := c.turns.filterMap Turn.reading?

def Closed (c : Cycle) : Prop := ∃ t ∈ c.turns, Turn.closes t = true

/-- What is told until the loop ends. -/
def course (c : Cycle) : List Event :=
  .client .established :: c.readings.filterMap (Reading.heard? c.charset)

def fault? (c : Cycle) : Option Fault := c.readings.getLast?.bind Reading.fault?

/-- All that is told of a session that is over. -/
def story (c : Cycle) : List Event :=
  c.course ++ (c.fault?.map fun f => .client (.failing f)).toList ++ [.client .lost]

end Cycle

/-- The session that starts here, if one does. -/
def Turn.first? (t : Turn) : Option Cycle :=
  (Turn.started? t).map fun charset => { charset := charset }

def cycles (ts : List Turn) : List Cycle := stretches Turn.first? Cycle.add ts

namespace Cycle

theorem log_add (c : Cycle) (t : Turn) : (c.add t).log = c.log ++ Turn.told t := by
  simp [add, log]

theorem readings_add (c : Cycle) (t : Turn) :
    (c.add t).readings = c.readings ++ (Turn.reading? t).toList := by
  simp only [add, readings, List.filterMap_append]
  cases h : Turn.reading? t <;> simp [h]

theorem closed_add (c : Cycle) (t : Turn) :
    (c.add t).Closed ↔ c.Closed ∨ Turn.closes t = true := by
  simp [add, Closed, or_and_right, exists_or]

theorem course_add (c : Cycle) (t : Turn) :
    (c.add t).course = c.course ++ ((Turn.reading? t).bind (Reading.heard? c.charset)).toList := by
  have hc : (c.add t).charset = c.charset := rfl
  rw [course, course, readings_add, hc]
  cases hr : Turn.reading? t with
  | none => simp
  | some r => cases hh : Reading.heard? c.charset r <;> simp [hh]

theorem story_eq (c : Cycle) : c.story = c.course ++ farewell c.fault? := by
  rw [story]
  cases c.fault? <;> simp [farewell]

end Cycle

theorem charsets_cycles (ts : List Turn) :
    (cycles ts).map Cycle.charset = ts.filterMap Turn.started? := by
  have same (c : Cycle) (t : Turn) : (c.add t).charset = c.charset := rfl
  rw [cycles, map_stretches same]
  simp [Turn.first?, Function.comp_def]

end Usb

end LabelPrinter

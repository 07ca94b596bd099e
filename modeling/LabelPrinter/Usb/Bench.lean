import LabelPrinter.Link.Order
import LabelPrinter.Listener
import LabelPrinter.Usb.Link

/-!
A connection at work on a bus of given devices, where every thread runs as far as it can after
each operation.
-/

namespace LabelPrinter.Usb

/-- A device at work: what its next writes do, what it answers to each completed write, what waits
to be read and what it has taken. -/
structure Station where
  device : Device
  outcomes : List Transfer := []
  replies : List (List UInt8) := []
  waiting : List Read := []
  taken : List UInt8 := []

def maxRead : Nat := 512

/-- The pieces in which a transfer is read. -/
def pieces : Nat → List UInt8 → List (List UInt8)
  | 0, bytes => [bytes]
  | fuel + 1, bytes =>
    if bytes.length ≤ maxRead then [bytes] else bytes.take maxRead :: pieces fuel (bytes.drop maxRead)

namespace Station

def emits (s : Station) (bytes : List UInt8) : Station :=
  { s with waiting := s.waiting ++ (pieces bytes.length bytes).map .ok }

def fails (s : Station) (e : UsbError) : Station := { s with waiting := s.waiting ++ [.error e] }

def receives (s : Station) (t : Transmission) : Station :=
  let replying := (s.replies.take t.completed).foldl emits s
  { replying with
    outcomes := t.unused
    replies := s.replies.drop t.completed
    taken := s.taken ++ t.taken }

end Station

/-- A connection with its listeners on a bus of such devices. -/
structure Bench where
  listError : Option UsbError := none
  stations : List Station := []
  link : Link
  listeners : Listeners
  calls : List Call := []

namespace Bench

def of (vendor : Nat) (product : Option Nat) (stations : List Station)
    (listError : Option UsbError) : Bench :=
  let link : Link := { vendor, product }
  { listError, stations, link, listeners := { endpoint := link.endpoint } }

def bus (b : Bench) : Bus :=
  match b.listError with
  | some e => .error e
  | none => .ok (b.stations.map (·.device))

def station? (b : Bench) (name : String) : Option Station :=
  b.stations.find? (·.device.name = name)

def modify (b : Bench) (name : String) (f : Station → Station) : Bench :=
  { b with stations := b.stations.map fun s => if s.device.name = name then f s else s }

def claimedName? (b : Bench) : Option String := b.link.claimed.map (·.device.name)

def claimedStation? (b : Bench) : Option Station := b.claimedName?.bind b.station?

def apply (b : Bench) (o : Outcome) : Bench :=
  let received := match b.claimedName?, o.transmission with
    | some name, some t => b.modify name (·.receives t)
    | _, _ => b
  { received with
    link := o.link
    listeners := b.listeners.raiseAll o.events
    calls := b.calls ++ o.calls }

/-- A read that finds nothing. -/
def nothingYet : Read := .error .timeout

def isReading (b : Bench) : Bool :=
  match b.link.reader with
  | some (.reading _) => true
  | _ => false

/-- Reads what waits, as long as the session lasts. -/
def readWaiting (b : Bench) (name : String) : List Read → Bench
  | [] => b.modify name fun s => { s with waiting := [] }
  | r :: rest =>
    if b.isReading && b.link.isAlive then readWaiting (b.apply (b.link.act (.read r))) name rest
    else b.modify name fun s => { s with waiting := r :: rest }

/-- The reader takes the steps that it can take by itself. -/
def settle (b : Bench) : Bench :=
  let b := b.apply (b.link.act .start)
  let b := match b.claimedStation? with
    | some s => b.readWaiting s.device.name s.waiting
    | none => b
  let b := b.apply (b.link.act (.read nothingYet))
  b.apply (b.link.act .finish)

def action (b : Bench) : Order → Action
  | .init => .init b.bus
  | .connect => .connect nothingYet
  | .disconnect => .disconnect
  | .shutdown => .shutdown nothingYet
  | .send payload => .send payload ((b.claimedStation?.map (·.outcomes)).getD [])
  | .setCharset charset => .setCharset charset

def order (b : Bench) (o : Order) : Bench × Except Error Unit :=
  let outcome := b.link.act (b.action o)
  ((b.apply outcome).settle, outcome.reply)

def deviceSays (b : Bench) (name : String) (bytes : List UInt8) : Bench :=
  (b.modify name (·.emits bytes)).settle

def deviceFails (b : Bench) (name : String) (e : UsbError) : Bench :=
  (b.modify name (·.fails e)).settle

/-- The session is closed just before a device fails; a reader that waits for that device is still
in its read. -/
def closesBeforeFailing (b : Bench) (name : String) (e : UsbError) : Bench :=
  let b := b.apply (b.link.act .disconnect)
  if b.isReading && b.claimedName? = some name then
    (b.apply (b.link.act (.read (.error e)))).settle
  else b.deviceFails name e

def setOutcomes (b : Bench) (name : String) (outcomes : List Transfer) : Bench :=
  b.modify name fun s => { s with outcomes }

/-- The bytes that a device has taken since the last time it was asked. -/
def takeTaken (b : Bench) (name : String) : Bench × List UInt8 :=
  (b.modify name fun s => { s with taken := [] }, ((b.station? name).map (·.taken)).getD [])

def takeCalls (b : Bench) : Bench × List Call := ({ b with calls := [] }, b.calls)

def info (b : Bench) : Bench × Except Error Info :=
  let attempt := b.link.info
  ({ b with calls := b.calls ++ attempt.calls }, attempt.result)

def drop (b : Bench) : Bench := b.apply (b.link.drop nothingYet)

end Bench

end LabelPrinter.Usb

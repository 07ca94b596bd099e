import LabelPrinter.Event
import LabelPrinter.Link.Order
import LabelPrinter.Link.State
import LabelPrinter.Usb.Claim
import LabelPrinter.Usb.Transfer

/-!
A printer on the bus, as a machine of the same kind as the one on a socket: claiming is part of
`init`, the session is open at once, and replies are handed on as they are read.
-/

namespace LabelPrinter.Usb

/-- What a bulk read brings; it may bring nothing. -/
abbrev Read := Except UsbError (List UInt8)

/-- Where the thread that polls the printer stands: not running yet, in a read, or on its way out.
It keeps the charset of the moment it was started. -/
inductive Reader where
  | starting (charset : Charset)
  | reading (charset : Charset)
  | leaving (fault : Option Fault)

structure Link where
  vendor : Nat
  product : Option Nat
  charset : Charset := {}
  timeout : Nat := 400
  claimed : Option Claimed := none
  session : Option Session := none
  reader : Option Reader := none

/-- What one step leads to: the link after it, what the caller gets, the events raised and the
calls made, each in order, and the course of the message if one was sent. -/
structure Outcome where
  link : Link
  reply : Except Error Unit := .ok ()
  events : List Event := []
  calls : List Call := []
  transmission : Option Transmission := none

def hexDigits (n : Nat) : String :=
  let digits := Nat.toDigits 16 n
  String.ofList (List.replicate (4 - digits.length) '0' ++ digits)

namespace Link

def endpoint (l : Link) : String :=
  "usb://" ++ hexDigits l.vendor ++ ":" ++
    match l.product with
    | some p => hexDigits p
    | none => "*"

def isAlive (l : Link) : Bool := l.session.any (·.alive)

def isConnected (l : Link) : Bool := l.session.any (·.connected)

def state (l : Link) : LinkState :=
  if l.claimed.isNone then .uninitialized
  else
    match l.session with
    | none => .initialized
    | some s => if s.connected then .connected else .disconnected

def close (l : Link) : Link := { l with session := l.session.map Session.close }

/-! Steps of the reader. A step that does not fit where the reader stands changes nothing. -/

/-- The reader looks at its session before every read and leaves once that is closed. -/
def goOn (l : Link) (charset : Charset) : Link :=
  { l with reader := some (if l.isAlive then .reading charset else .leaving none) }

/-- An unplugged printer is lost without a fault, and so is one whose session was closed before the
error came. -/
def readFault (l : Link) (e : UsbError) : Option Fault :=
  if e = .noDevice || !l.isAlive then none else some ⟨"failed to read from printer", .usb e⟩

def start (l : Link) : Step Link :=
  match l.reader with
  | some (.starting charset) => (l.goOn charset, [.client .established])
  | _ => (l, [])

/-- The read that the reader is in ends. -/
def read (l : Link) (r : Read) : Step Link :=
  match l.reader, r with
  | some (.reading charset), .ok [] => (l.goOn charset, [])
  | some (.reading charset), .ok bytes =>
    (l.goOn charset, [.data (.received (charset.decode bytes))])
  | some (.reading charset), .error e =>
    if e = .timeout || e = .interrupted then (l.goOn charset, [])
    else ({ l with reader := some (.leaving (l.readFault e)) }, [])
  | _, _ => (l, [])

/-- The reader ends. The session is closed before anyone is told. -/
def finish (l : Link) : Step Link :=
  match l.reader with
  | some (.leaving fault) => ({ l.close with reader := none }, farewell fault)
  | _ => (l, [])

/-- Waits for the reader of a closed session to end, with the read that it may still be in. -/
def join (l : Link) (last : Read) : Step Link := (l.start.andThen (read · last)).andThen finish

/-! Operations of the caller. -/

/-- Claims the printer unless it is held already. If that fails, nothing is held. -/
def init (l : Link) (bus : Bus) : Outcome :=
  match l.claimed with
  | some _ => { link := l }
  | none =>
    let attempt := claim bus l.vendor l.product
    match attempt.result with
    | .ok c => { link := { l with claimed := some c }, calls := attempt.calls }
    | .error e => { link := l, reply := .error e, calls := attempt.calls }

/-- Does nothing while a session is alive. Otherwise the last reader raises its last event before
the new one can raise any. -/
def connect (l : Link) (last : Read) : Outcome :=
  if l.isAlive then { link := l }
  else if l.claimed.isNone then { link := l, reply := .error .notInitialized }
  else
    let (l, events) := l.join last
    { link := { l with session := some ⟨true, true⟩, reader := some (.starting l.charset) }, events }

def disconnect (l : Link) : Outcome := { link := l.close }

/-- Gives the printer up even if releasing it fails. -/
def shutdown (l : Link) (last : Read) : Outcome :=
  let (l, events) := l.close.join last
  match l.claimed with
  | none => { link := { l with session := none }, events }
  | some c =>
    { link := { l with session := none, claimed := none }
      reply := c.device.release.mapError .usb
      events
      calls := c.giveUp }

def writes (c : Claimed) (t : Transmission) : List Call :=
  t.offered.map fun bytes => .write c.device.name c.out bytes.length

/-- A timeout is reported but leaves the session open; any other error closes it. -/
def send (l : Link) (payload : Payload) (outcomes : List Transfer) : Outcome :=
  match payload.encode l.charset with
  | .error e => { link := l, reply := .error e }
  | .ok message =>
    match l.isConnected, l.claimed with
    | true, some c =>
      let t := transmit message outcomes
      match t.fault with
      | none =>
        { link := l, events := [.data (.sent message)], calls := writes c t, transmission := some t }
      | some e =>
        { link := if e = .timeout then l else l.close
          events := [.data (.sendFailed ⟨"failed to send message", .usb e⟩ message)]
          calls := writes c t
          transmission := some t }
    | _, _ => { link := l, reply := .error .notConnected }

def setCharset (l : Link) (charset : Charset) : Outcome := { link := { l with charset } }

def info (l : Link) : Attempt Info :=
  match l.claimed with
  | some c => c.info
  | none => throw .notInitialized

/-- The connection is given up: what is open is closed, and the reader ends. -/
def drop (l : Link) (last : Read) : Outcome :=
  let (l, events) := l.close.join last
  { link := { l with claimed := none }
    events
    calls := (l.claimed.map Claimed.abandon).getD [] }

end Link

/-- One step of a connection, by its caller or by its reader. Operations that wait for the reader
carry how its last read ends, and those that reach the bus carry its answers. -/
inductive Action where
  | init (bus : Bus)
  | connect (last : Read)
  | disconnect
  | shutdown (last : Read)
  | send (payload : Payload) (outcomes : List Transfer)
  | setCharset (charset : Charset)
  | start
  | read (r : Read)
  | finish

namespace Link

def silently (x : Step Link) : Outcome := { link := x.1, events := x.2 }

def act (l : Link) : Action → Outcome
  | .init bus => l.init bus
  | .connect last => l.connect last
  | .disconnect => l.disconnect
  | .shutdown last => l.shutdown last
  | .send payload outcomes => l.send payload outcomes
  | .setCharset charset => l.setCharset charset
  | .start => silently l.start
  | .read r => silently (l.read r)
  | .finish => silently l.finish

end Link

end LabelPrinter.Usb

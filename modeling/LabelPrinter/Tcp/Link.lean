import LabelPrinter.Event
import LabelPrinter.Link.Order
import LabelPrinter.Link.State
import LabelPrinter.Reply.Framer

/-!
A printer on a socket. The caller's operations and the turns of the worker thread are the steps of
one machine; what the network does is part of the step. Where an operation waits for the thread,
the thread's remaining steps are part of the operation.
-/

namespace LabelPrinter.Tcp

/-- The number under which printers take jobs just as they come. -/
def defaultService : Nat := 9100

/-- How the attempt to open a socket ends. -/
inductive Dial where
  | failed (e : IoError)
  | unusable (e : IoError)
  | opened
  deriving DecidableEq, Repr

/-- What a read of the socket brings; no bytes mean that the peer has closed it. -/
abbrev Read := Except IoError (List UInt8)

def nothingYet : Read := .error .wouldBlock

/-- How writing a whole message ends. -/
inductive Write where
  | complete
  | broken (taken : Nat) (e : IoError)
  deriving DecidableEq, Repr

/-- Where the thread that owns the socket stands: in the dial, in a read, or on its way out. It
keeps the charset of the moment it was started. -/
inductive Worker where
  | dialing (charset : Charset) (dial : Dial)
  | reading (charset : Charset) (framer : LineFramer)
  | leaving (fault : Option Fault)

structure Link where
  address : String
  charset : Charset := {}
  connectTimeout : Nat := 5000
  pollInterval : Nat := 250
  initialized : Bool := false
  session : Option Session := none
  worker : Option Worker := none

/-- What one step leads to: the link after it, what the caller gets, the events raised in order
and the bytes that the socket took. -/
structure Outcome where
  link : Link
  reply : Except Error Unit := .ok ()
  events : List Event := []
  taken : List UInt8 := []

namespace Link

def of (host : String) (service : Nat) : Link := { address := host ++ ":" ++ service.repr }

def endpoint (l : Link) : String := "tcp://" ++ l.address

def isAlive (l : Link) : Bool := l.session.any (·.alive)

def isConnected (l : Link) : Bool := l.session.any (·.connected)

def state (l : Link) : LinkState :=
  if !l.initialized then .uninitialized
  else
    match l.session with
    | none => .initialized
    | some s => if s.connected then .connected else if s.alive then .connecting else .disconnected

def close (l : Link) : Link := { l with session := l.session.map Session.close }

/-! Steps of the worker. A step that does not fit where the worker stands changes nothing. -/

/-- The worker looks at its session before every read and leaves once that is closed. -/
def goOn (l : Link) (charset : Charset) (framer : LineFramer) : Link :=
  { l with worker := some (if l.isAlive then .reading charset framer else .leaving none) }

/-- An error that comes after the session was closed is the closing itself. -/
def readFault (l : Link) (e : IoError) : Option Fault :=
  if l.isAlive then some ⟨"failed to read from printer", .io e⟩ else none

def failing (context : String) (e : IoError) : Event := .client (.failing ⟨context, .io e⟩)

/-- The dial ends. If the session was closed meanwhile, neither a socket nor an error of the dial is
of any use. -/
def dialed (l : Link) : Step Link :=
  match l.worker with
  | some (.dialing _ (.failed e)) =>
    if l.isAlive then
      ({ l.close with worker := none }, [failing ("unable to connect to " ++ l.address) e])
    else ({ l with worker := none }, [])
  | some (.dialing _ (.unusable e)) =>
    ({ l.close with worker := none }, [failing "unable to set up socket" e])
  | some (.dialing charset .opened) =>
    if l.isAlive then
      ({ l with session := some ⟨true, true⟩, worker := some (.reading charset {}) },
        [.client .established])
    else ({ l with worker := none }, [])
  | _ => (l, [])

def received (charset : Charset) (line : List UInt8) : Event :=
  .data (.received (charset.decode line))

/-- The read that the worker is in ends. -/
def read (l : Link) (r : Read) : Step Link :=
  match l.worker, r with
  | some (.reading _ _), .ok [] => ({ l with worker := some (.leaving none) }, [])
  | some (.reading charset framer), .ok bytes =>
    let (lines, framer) := framer.push bytes
    (l.goOn charset framer, lines.map (received charset))
  | some (.reading charset framer), .error e =>
    if e.kind.isIdle then (l.goOn charset framer, [])
    else ({ l with worker := some (.leaving (l.readFault e)) }, [])
  | _, _ => (l, [])

/-- The worker ends. The session is closed before anyone is told. -/
def finish (l : Link) : Step Link :=
  match l.worker with
  | some (.leaving fault) => ({ l.close with worker := none }, farewell fault)
  | _ => (l, [])

/-- Waits for the worker of a closed session to end, with the read that it may still be in. -/
def join (l : Link) (last : Read) : Step Link := (l.dialed.andThen (read · last)).andThen finish

/-! Operations of the caller. -/

def init (l : Link) : Outcome := { link := { l with initialized := true } }

/-- Does nothing while a session is alive. Otherwise the last worker raises its last event before
the new one can raise any. -/
def connect (l : Link) (dial : Dial) (last : Read) : Outcome :=
  if !l.initialized then { link := l, reply := .error .notInitialized }
  else if l.isAlive then { link := l }
  else
    let (l, events) := l.join last
    { link := { l with session := some ⟨true, false⟩, worker := some (.dialing l.charset dial) }
      events }

def disconnect (l : Link) : Outcome := { link := l.close }

def shutdown (l : Link) (last : Read) : Outcome :=
  let (l, events) := l.close.join last
  { link := { l with session := none, initialized := false }, events }

def send (l : Link) (payload : Payload) (write : Write) : Outcome :=
  match payload.encode l.charset with
  | .error e => { link := l, reply := .error e }
  | .ok message =>
    if !l.isConnected then { link := l, reply := .error .notConnected }
    else
      match write with
      | .complete => { link := l, events := [.data (.sent message)], taken := message }
      | .broken n e =>
        { link := l.close
          events := [.data (.sendFailed ⟨"failed to send message", .io e⟩ message)]
          taken := message.take n }

def setCharset (l : Link) (charset : Charset) : Outcome := { link := { l with charset } }

/-- The connection is given up: what is open is closed, and the worker ends. -/
def drop (l : Link) (last : Read) : Outcome :=
  let (l, events) := l.close.join last
  { link := l, events }

end Link

/-- One step of a connection, by its caller or by its worker. Operations that wait for the worker
carry how its last read ends, and those that reach the network carry its answer. -/
inductive Action where
  | init
  | connect (dial : Dial) (last : Read)
  | disconnect
  | shutdown (last : Read)
  | send (payload : Payload) (write : Write)
  | setCharset (charset : Charset)
  | dialed
  | read (r : Read)
  | finish

namespace Link

def silently (x : Step Link) : Outcome := { link := x.1, events := x.2 }

def act (l : Link) : Action → Outcome
  | .init => l.init
  | .connect dial last => l.connect dial last
  | .disconnect => l.disconnect
  | .shutdown last => l.shutdown last
  | .send payload write => l.send payload write
  | .setCharset charset => l.setCharset charset
  | .dialed => silently l.dialed
  | .read r => silently (l.read r)
  | .finish => silently l.finish

end Link

end LabelPrinter.Tcp

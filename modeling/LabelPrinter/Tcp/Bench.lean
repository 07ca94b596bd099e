import LabelPrinter.Tcp.Link
import LabelPrinter.Link.Order
import LabelPrinter.Listener

/-!
A connection at work on a given network, where every thread runs as far as it can after each
operation.
-/

namespace LabelPrinter.Tcp

/-- What answers a dial. -/
inductive Network where
  | unreachable
  | refusing
  | listening
  deriving DecidableEq, Repr

/-- An answer that is there at once comes before the look at the timeout. -/
def Network.dial (n : Network) (l : Link) : Dial :=
  match n with
  | .unreachable => .failed .networkUnreachable
  | .refusing => .failed (if l.connectTimeout = 0 then .zeroTimeout else .connectionRefused)
  | .listening =>
    if l.connectTimeout = 0 then .failed .zeroTimeout
    else if l.pollInterval = 0 then .unusable .zeroTimeout
    else .opened

/-- A connection with its listeners on a network whose peer never says anything. -/
structure Bench where
  network : Network
  link : Link
  listeners : Listeners
  /-- The socket no longer takes anything. -/
  broken : Bool := false
  /-- What the peer has received. -/
  received : List UInt8 := []

namespace Bench

def of (network : Network) (host : String) (service : Nat) : Bench :=
  let link := Link.of host service
  { network, link, listeners := { endpoint := link.endpoint } }

def apply (b : Bench) (o : Outcome) : Bench :=
  { b with
    link := o.link
    listeners := b.listeners.raiseAll o.events
    received := b.received ++ o.taken }

/-- The worker takes the steps that it can take by itself. -/
def settle (b : Bench) : Bench :=
  [Action.dialed, .read nothingYet, .finish].foldl (fun b a => b.apply (b.link.act a)) b

def write (b : Bench) (payload : Payload) : Write :=
  match payload.encode b.link.charset with
  | .ok (_ :: _) => if b.broken then .broken 0 .brokenPipe else .complete
  | _ => .complete

def action (b : Bench) : Order → Action
  | .init => .init
  | .connect => .connect (b.network.dial b.link) nothingYet
  | .disconnect => .disconnect
  | .shutdown => .shutdown nothingYet
  | .send payload => .send payload (b.write payload)
  | .setCharset charset => .setCharset charset

def order (b : Bench) (o : Order) : Bench × Except Error Unit :=
  let outcome := b.link.act (b.action o)
  let after := (b.apply outcome).settle
  ({ after with broken := b.broken && after.link.isConnected }, outcome.reply)

/-- Shuts the sending half of the socket, if one is open, and says whether one was. -/
def breakWrite (b : Bench) : Bench × Bool :=
  ({ b with broken := b.link.isConnected }, b.link.isConnected)

def drop (b : Bench) : Bench := b.apply (b.link.drop nothingYet)

end Bench

end LabelPrinter.Tcp

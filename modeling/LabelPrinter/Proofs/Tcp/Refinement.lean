import LabelPrinter.Proofs.Link.Machine
import LabelPrinter.Proofs.Tcp.Flags

/-!
A connection over a socket runs the common machine.
-/

namespace LabelPrinter.Tcp

def Link.move (l : Link) : Action → Machine.Move
  | .init => .init true
  | .connect _ _ => .connect
  | .disconnect => .disconnect
  | .shutdown _ => .shutdown
  | .send payload write =>
    match payload.encode l.charset with
    | .ok _ => .send (write = .complete)
    | .error e => .unsendable e
  | .setCharset _ | .read _ => .other
  | .dialed =>
    match l.worker with
    | some (.dialing _ .opened) => .opened
    | some (.dialing _ (.failed _)) | some (.dialing _ (.unusable _)) => .refused
    | _ => .other
  | .finish =>
    match l.worker with
    | some (.leaving _) => .ended
    | _ => .other

def adapter (host : String) (service : Nat) : Adapter Link Action where
  start := .of host service
  next := Link.next
  reply l a := (l.act a).reply
  Still l a := l.act a = { link := l, reply := (l.act a).reply }
  state := Link.state
  isConnected := Link.isConnected
  move := Link.move
  opening := .connecting

namespace Sound

variable {l : Link} {host : String} {service : Nat}

theorem state_close (h : Sound l) :
    l.close.state = Machine.next .connecting l.state .disconnect := by
  obtain ⟨hi, hs⟩ | ⟨hi, hs | hs | hs | hs⟩ := h.session_cases
  all_goals simp [Link.close, Session.close, Link.state, hi, hs, Machine.next]

end Sound

end LabelPrinter.Tcp

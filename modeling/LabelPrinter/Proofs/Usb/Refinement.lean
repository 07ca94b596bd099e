import LabelPrinter.Proofs.Link.Machine
import LabelPrinter.Proofs.Usb.Flags

/-!
A connection over the bus runs the common machine.
-/

namespace LabelPrinter.Usb

def Link.move (l : Link) : Action → Machine.Move
  | .init bus => .init (claim bus l.vendor l.product).result.isOk
  | .connect _ => .connect
  | .disconnect => .disconnect
  | .shutdown _ => .shutdown
  | .send payload outcomes =>
    match payload.encode l.charset with
    | .ok message => .send ((transmit message outcomes).fault.all (· = .timeout))
    | .error e => .unsendable e
  | .setCharset _ | .start | .read _ => .other
  | .finish =>
    match l.reader with
    | some (.leaving _) => .ended
    | _ => .other

def adapter (vendor : Nat) (product : Option Nat) : Adapter Link Action where
  start := { vendor, product }
  next := Link.next
  reply l a := (l.act a).reply
  Still l a := l.act a = { link := l, reply := (l.act a).reply }
  state := Link.state
  isConnected := Link.isConnected
  move := Link.move
  opening := .connected

namespace Sound

variable {l : Link} {vendor : Nat} {product : Option Nat}

theorem state_close (h : Sound l) :
    l.close.state = Machine.next .connected l.state .disconnect := by
  obtain ⟨hc, hs⟩ | ⟨⟨c, hc⟩, hs | hs | hs⟩ := h.session_cases
  all_goals simp [Link.close, Session.close, Link.state, hs, hc, Machine.next]

end Sound

end LabelPrinter.Usb

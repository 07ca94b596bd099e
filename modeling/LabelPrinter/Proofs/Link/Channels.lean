import LabelPrinter.Proofs.Tcp.Refinement
import LabelPrinter.Proofs.Tcp.Strokes
import LabelPrinter.Proofs.Usb.Refinement
import LabelPrinter.Proofs.Usb.Strokes

/-!
A caller need not know by which channel a printer is reached: both kinds of connection run the
common machine, one opening its sessions in the dial and the other at once, and over either a caller
that connects again as soon as it is told of a loss gets a new session.
-/

namespace LabelPrinter

namespace Adapter

end Adapter

namespace Concurrent

theorem reconnects_over_both_channels (host : String) (service vendor : Nat)
    (product : Option Nat) :
    (Tcp.concurrent host service).Reconnects ∧ (Usb.concurrent vendor product).Reconnects :=
  ⟨reconnects_of_lawful (Tcp.lawful host service) (Tcp.faithful host service),
    reconnects_of_lawful (Usb.lawful vendor product) (Usb.faithful vendor product)⟩

/-- The caller disconnects after the worker has found its session alive and before that is
connected. -/
def late : List (Beat Tcp.Action) :=
  [.enter .init, .caller, .enter (.connect .opened Tcp.nothingYet), .caller, .enter .dialed,
    .enter .disconnect, .caller, .caller, .caller, .thread]

/-- The worker goes on up to the point where it tells of its end. -/
def parted : List (Beat Tcp.Action) := late ++ [.thread, .thread, .enter .finish, .thread, .thread]

-- the connection looks open for a while, but no longer when that is told
example :
    ((Tcp.concurrent "printer" 9100).after late).link.state = .connected ∧
      ((Tcp.concurrent "printer" 9100).after parted).link.state = .disconnected ∧
      (Tcp.concurrent "printer" 9100).told
        ⟨(Tcp.concurrent "printer" 9100).after parted, .thread⟩ = [.client .lost] :=
  ⟨rfl, rfl, rfl⟩

end Concurrent

end LabelPrinter

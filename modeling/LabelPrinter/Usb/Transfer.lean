import LabelPrinter.Fault

namespace LabelPrinter.Usb

/-- What becomes of one bulk write: the device takes some of what is offered, and the write may
fail all the same. -/
inductive Transfer where
  | accepted (count : Nat)
  | failed (count : Nat) (e : UsbError)
  deriving DecidableEq, Repr

namespace Transfer

def taken (offered : Nat) : Transfer → Nat
  | .accepted n | .failed n _ => min n offered

/-- A write cut short by a timeout or an interruption has written what was taken. -/
def result (offered : Nat) : Transfer → Except UsbError Nat
  | .accepted n => .ok (min n offered)
  | .failed n e =>
    if (e = .timeout || e = .interrupted) && 0 < min n offered then .ok (min n offered)
    else .error e

end Transfer

/-- The course of one message: what each write offered, the bytes that the device took, how many
writes it completed, the error that ended it and the outcomes that were not called for. -/
structure Transmission where
  offered : List (List UInt8) := []
  taken : List UInt8 := []
  completed : Nat := 0
  fault : Option UsbError := none
  unused : List Transfer := []
  deriving DecidableEq, Repr

/-- Offers what is left of the message until all of it is taken. A write that takes nothing counts
as a timeout. Writes behind the given outcomes take everything. -/
def transmit : List UInt8 → List Transfer → Transmission
  | [], outcomes => { unused := outcomes }
  | message@(_ :: _), [] => { offered := [message], taken := message, completed := 1 }
  | message@(_ :: _), t :: outcomes =>
    let completed := match t with
      | .accepted _ => 1
      | .failed _ _ => 0
    let taken := message.take (t.taken message.length)
    match t.result message.length with
    | .error e =>
      { offered := [message], taken, completed, fault := some e, unused := outcomes }
    | .ok 0 =>
      { offered := [message], taken, completed, fault := some .timeout, unused := outcomes }
    | .ok n =>
      let rest := transmit (message.drop n) outcomes
      { rest with
        offered := message :: rest.offered
        taken := taken ++ rest.taken
        completed := completed + rest.completed }

end LabelPrinter.Usb

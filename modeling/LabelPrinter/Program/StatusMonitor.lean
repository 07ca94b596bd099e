import LabelPrinter.Program.Console
import LabelPrinter.Program.UsbLabel

namespace LabelPrinter.Program

open Usb

def monitorName : String := "monitor"

def statusProduct : Nat := 0x0230

/-- What the status listener prints for the events that have come in. -/
def printStatus (b : Bench) : Bench × String :=
  let (listeners, told) := (b.listeners.settle fun _ => false).takeTold
  ({ b with listeners },
    String.join (told.flatMap fun t => t.data.map fun e => (StatusPrinter.onData e).printed))

/-- Polls for the status until the connection is gone. A write that fails for good is among the
outcomes given to the printer, so there are at most as many polls as outcomes. -/
def poll : Nat → Bench → String → Bench × Except Error Unit × String
  | 0, b, printed => (b, .ok (), printed)
  | polls + 1, b, printed =>
    if b.link.isConnected then
      match b.order (.send (.label ⟨[.poll .status]⟩)) with
      | (b, .error e) => (b, .error e, printed)
      | (b, .ok _) => poll polls (printStatus b).1 (printed ++ (printStatus b).2)
    else (b, .ok (), printed)

def polls (b : Bench) : Nat := ((b.claimedStation?.map (·.outcomes.length)).getD 0) + 1

/-- Prints the status of a printer again and again. -/
def statusMonitor (stations : List Station) (listError : Option UsbError) : BenchRun :=
  let b := Bench.of printerVendor (some statusProduct) stations listError
  let b := { b with listeners := b.listeners.addData monitorName }
  match b.order .init with
  | (b, .error e) => .abort b e ""
  | (b, .ok _) =>
    match b.order .connect with
    | (b, .error e) => .abort b e ""
    | (b, .ok _) =>
      match poll (polls b) b "" with
      | (b, .error e, printed) => .abort b e printed
      | (b, .ok _, printed) => .leave (b.order .shutdown) printed

end LabelPrinter.Program

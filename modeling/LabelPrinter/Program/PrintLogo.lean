import LabelPrinter.Program.PrintLabel

namespace LabelPrinter.Program

open Tcp

def logoLabel (logo : Gray) : Label :=
  ⟨[.size (.of 50 40 .metric), .clearBuffer,
    .bitmap (.ofGray 40 20 logo Bitmap.defaultThreshold), .print (.of 1)]⟩

/-- Prints a logo, if it can be read. A connection that does not open is waited for without end, so
that there is no finished run. -/
def printLogo (logo : Except IoError Gray) (network : Network) (host : String) :
    Option NetworkRun :=
  match logo with
  | .error e => some { result := .error e.text }
  | .ok logo =>
    let (b, _) := (Bench.of network host defaultService).order .init
    let (b, _) := b.order .connect
    if b.link.isConnected then
      let (b, _) := b.order (.send (.label (logoLabel logo)))
      let (b, result) := b.order .shutdown
      some { result := result.mapError Error.message, received := b.received }
    else none

end LabelPrinter.Program

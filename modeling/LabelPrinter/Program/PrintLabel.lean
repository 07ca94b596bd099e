import LabelPrinter.Program.Console
import LabelPrinter.Tcp.Bench

namespace LabelPrinter.Program

open Tcp

def consoleName : String := "console"

def orderLabel : Label :=
  ⟨[.size (.of 4 3 .english), .gap (.of 0.12 0 .english), .speed (.of 4), .density (.of 8),
    .clearBuffer, .box ((Box.of 10 10 790 590 3).rounded 20),
    .text ((Text.of 40 40 "3" "Order 10042").scaled 2 2),
    .barcode (.of 40 140 .code128 100 2 2 "10042"),
    .qrCode (.of 560 140 .m 6 "https://example.com/o/10042"), .print (.of 1)]⟩

/-- What a program on a network did: how it ended, in words if that was an error, what it printed
and what the printer got. -/
structure NetworkRun where
  result : Except String Unit
  printed : String := ""
  received : List UInt8 := []

def react (b : Bench) : Bench × Reaction :=
  let (listeners, told) := (b.listeners.settle fun _ => false).takeTold
  let reactions := told.flatMap fun t => t.client.map Console.onClient ++ t.data.map Console.onData
  ({ b with listeners },
    { printed := String.join (reactions.map (·.printed)), ready := reactions.flatMap (·.ready) })

/-- Prints one label as soon as the connection is open, and nothing if it cannot be opened. -/
def printLabel (network : Network) (host : String) : NetworkRun :=
  let b := Bench.of network host defaultService
  let b := { b with
    listeners := (b.listeners.addClient consoleName).addData consoleName }
  let (b, _) := b.order .init
  let (b, _) := b.order .connect
  let (b, opened) := react b
  let (b, _) := if opened.ready.head?.getD false then b.order (.send (.label orderLabel)) else (b, .ok ())
  let (b, sent) := react b
  let (b, result) := b.order .shutdown
  let (b, closed) := react b
  { result := result.mapError Error.message
    printed := opened.printed ++ sent.printed ++ closed.printed
    received := b.received }

end LabelPrinter.Program

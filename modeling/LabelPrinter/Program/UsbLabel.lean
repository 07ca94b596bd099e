import LabelPrinter.Program.UsbIds
import LabelPrinter.Usb.Bench

namespace LabelPrinter.Program

open Usb

/-- What a program did on a bench, with the bench as it leaves it. -/
structure BenchRun where
  bench : Bench
  result : Except Error Unit
  printed : String := ""

/-- Ends a program with an error, which drops its connection. -/
def BenchRun.abort (b : Bench) (e : Error) (printed : String) : BenchRun :=
  { bench := b.drop, result := .error e, printed }

def BenchRun.leave (x : Bench × Except Error Unit) (printed : String) : BenchRun :=
  { bench := x.1.drop, result := x.2, printed }

def printerVendor : Nat := 0x1203

def productLabel (product : String) : Label :=
  ⟨[.size (.of 60 40 .metric), .direction (.of 1), .setting (.cutter .batch), .clearBuffer,
    .text (.of 20 20 "4" product), .print (.of 2)]⟩

/-- Prints a label with the name of the first printer of the vendor. -/
def usbLabel (stations : List Station) (listError : Option UsbError) : BenchRun :=
  match (Bench.of printerVendor none stations listError).order .init with
  | (b, .error e) => .abort b e ""
  | (b, .ok _) =>
    match b.info with
    | (b, .error e) => .abort b e ""
    | (b, .ok info) =>
      let printed := hexDigits info.vendor ++ ":" ++ hexDigits info.product ++ " " ++
        info.manufacturer ++ " " ++ info.productName ++ "\n"
      match b.order .connect with
      | (b, .error e) => .abort b e printed
      | (b, .ok _) =>
        match b.order (.send (.label (productLabel info.productName))) with
        | (b, .error e) => .abort b e printed
        | (b, .ok _) => .leave (b.order .shutdown) printed

end LabelPrinter.Program

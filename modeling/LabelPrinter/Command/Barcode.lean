import LabelPrinter.Command.Check
import LabelPrinter.Command.Layout

namespace LabelPrinter

open Check

inductive Symbology where
  | code128
  | code128M
  | ean128
  | code25
  | code25C
  | code39
  | code39C
  | code39S
  | code93
  | ean13
  | ean13Plus2
  | ean13Plus5
  | ean8
  | ean8Plus2
  | ean8Plus5
  | codabar
  | postnet
  | upcA
  | upcAPlus2
  | upcAPlus5
  | upcE
  | upcEPlus2
  | upcEPlus5
  | chinaPost
  | msi
  | msiC
  | plessey
  | itf14
  | ean14
  | code11
  | telepen
  | telepenNumeric
  | planet
  | code49
  | identcode
  | leitcode
  deriving DecidableEq, Repr

def Symbology.code : Symbology → String
  | .code128 => "128"
  | .code128M => "128M"
  | .ean128 => "EAN128"
  | .code25 => "25"
  | .code25C => "25C"
  | .code39 => "39"
  | .code39C => "39C"
  | .code39S => "39S"
  | .code93 => "93"
  | .ean13 => "EAN13"
  | .ean13Plus2 => "EAN13+2"
  | .ean13Plus5 => "EAN13+5"
  | .ean8 => "EAN8"
  | .ean8Plus2 => "EAN8+2"
  | .ean8Plus5 => "EAN8+5"
  | .codabar => "CODA"
  | .postnet => "POST"
  | .upcA => "UPCA"
  | .upcAPlus2 => "UPCA+2"
  | .upcAPlus5 => "UPCA+5"
  | .upcE => "UPCE"
  | .upcEPlus2 => "UPCE+2"
  | .upcEPlus5 => "UPCE+5"
  | .chinaPost => "CPOST"
  | .msi => "MSI"
  | .msiC => "MSIC"
  | .plessey => "PLESSEY"
  | .itf14 => "ITF14"
  | .ean14 => "EAN14"
  | .code11 => "11"
  | .telepen => "TELEPEN"
  | .telepenNumeric => "TELEPENN"
  | .planet => "PLANET"
  | .code49 => "CODE49"
  | .identcode => "DPI"
  | .leitcode => "DPL"

/-- Where the readable text under the bars stands, if there is any. -/
inductive HumanReadable where
  | none
  | left
  | center
  | right
  deriving DecidableEq, Repr

def HumanReadable.code : HumanReadable → Nat
  | .none => 0
  | .left => 1
  | .center => 2
  | .right => 3

structure Barcode where
  x : Option Nat := none
  y : Option Nat := none
  symbology : Option Symbology := none
  height : Option Nat := none
  humanReadable : HumanReadable := .none
  rotation : Rotation := .none
  narrow : Option Nat := none
  wide : Option Nat := none
  alignment : Option Alignment := none
  content : Option String := none
  deriving DecidableEq, Repr

namespace Barcode

def of (x y : Nat) (symbology : Symbology) (height narrow wide : Nat) (content : String) :
    Barcode :=
  { x := some x, y := some y, symbology := some symbology, height := some height,
    narrow := some narrow, wide := some wide, content := some content }

def barWidths (c : Barcode) : Checked (Nat × Nat) :=
  match c.narrow, c.wide with
  | some n, some w => .ok (n, w)
  | _, _ => .error ⟨"BARCODE", "narrow and wide bar widths are required"⟩

def line (c : Barcode) : Checked Line := do
  let (x, y) ← position "BARCODE" c.x c.y
  let symbology ← require "BARCODE" c.symbology "code type is required"
  let height ← require "BARCODE" c.height "height is required"
  let (narrow, wide) ← c.barWidths
  let content ← require "BARCODE" c.content "content is required"
  return .of "BARCODE" ([.nat x, .nat y, .quoted symbology.code, .nat height,
    .nat c.humanReadable.code, .nat c.rotation.degrees, .nat narrow, .nat wide] ++
    given c.alignment (fun a => .nat a.code) ++ [.quoted content])

end Barcode

end LabelPrinter

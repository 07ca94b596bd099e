import LabelPrinter.Command.Check
import LabelPrinter.Command.Layout

namespace LabelPrinter

open Check

inductive ErrorCorrection where
  | l
  | m
  | q
  | h
  deriving DecidableEq, Repr

def ErrorCorrection.code : ErrorCorrection → String
  | .l => "L"
  | .m => "M"
  | .q => "Q"
  | .h => "H"

inductive QrMode where
  | auto
  | manual
  deriving DecidableEq, Repr

def QrMode.code : QrMode → String
  | .auto => "A"
  | .manual => "M"

inductive QrModel where
  | m1
  | m2
  deriving DecidableEq, Repr

def QrModel.code : QrModel → String
  | .m1 => "M1"
  | .m2 => "M2"

structure QrCode where
  x : Option Nat := none
  y : Option Nat := none
  ecc : Option ErrorCorrection := none
  cellWidth : Option Nat := none
  mode : Option QrMode := none
  rotation : Option Rotation := none
  justification : Option Nat := none
  model : Option QrModel := none
  mask : Option Nat := none
  area : Option Nat := none
  content : Option String := none
  deriving DecidableEq, Repr

namespace QrCode

def of (x y : Nat) (ecc : ErrorCorrection) (cellWidth : Nat) (content : String) : QrCode :=
  { x := some x, y := some y, ecc := some ecc, cellWidth := some cellWidth,
    mode := some .auto, rotation := some .none, content := some content }

def line (c : QrCode) : Checked Line := do
  let (x, y) ← position "QRCODE" c.x c.y
  let ecc ← require "QRCODE" c.ecc "please specify error correction level"
  let cellWidth ← require "QRCODE" c.cellWidth "please specify cell width in dots"
  let mode ← require "QRCODE" c.mode "please specify encoding mode"
  let rotation ← require "QRCODE" c.rotation "please specify rotation"
  ensure "QRCODE" (c.mask.all (· ≤ 8)) "mask must be 0~8"
  let content ← require "QRCODE" c.content "content is required"
  return .of "QRCODE" ([.nat x, .nat y, .field ecc.code, .nat cellWidth, .field mode.code,
    .nat rotation.degrees] ++
    given c.justification (.tagged "J") ++ given c.model (fun m => .field m.code) ++
    given c.mask (.tagged "S") ++ given c.area (.tagged "X") ++ [.quoted content])

end QrCode

structure DataMatrix where
  x : Option Nat := none
  y : Option Nat := none
  width : Option Nat := none
  height : Option Nat := none
  escape : Option Nat := none
  moduleSize : Option Nat := none
  rotation : Option Rotation := none
  rectangle : Option Bool := none
  rows : Option Nat := none
  cols : Option Nat := none
  content : Option String := none
  deriving DecidableEq, Repr

namespace DataMatrix

def of (x y width height : Nat) (content : String) : DataMatrix :=
  { x := some x, y := some y, width := some width, height := some height,
    content := some content }

def anchor (c : DataMatrix) : Checked (Nat × Nat) :=
  match c.x, c.y with
  | some x, some y => .ok (x, y)
  | _, _ => .error ⟨"DMATRIX", "x and y co-ordinates are required"⟩

def line (c : DataMatrix) : Checked Line := do
  let (x, y) ← c.anchor
  let width ← require "DMATRIX" c.width "please specify the width"
  let height ← require "DMATRIX" c.height "please specify height"
  let content ← require "DMATRIX" c.content "content is required"
  return .of "DMATRIX" ([.nat x, .nat y, .nat width, .nat height] ++
    given c.escape (.tagged "c") ++ given c.moduleSize (.tagged "x") ++
    given c.rotation (fun r => .tagged "r" r.degrees) ++
    given c.rectangle (fun a => .tagged "a" a.toNat) ++
    given c.rows .nat ++ given c.cols .nat ++ [.quoted content])

end DataMatrix

structure MaxiCode where
  x : Option Nat := none
  y : Option Nat := none
  mode : Option Nat := none
  serviceClass : Option Nat := none
  country : Option Nat := none
  postcode : Option String := none
  expressionLength : Option Nat := none
  content : Option String := none
  deriving DecidableEq, Repr

namespace MaxiCode

def usa : Nat := 840

/-- Modes 2 and 3 carry an address in front of the content. -/
def isStructured (mode : Nat) : Bool := mode = 2 || mode = 3

def hasAddress (c : MaxiCode) : Bool :=
  c.serviceClass.isSome && c.country.isSome && c.postcode.isSome

def address (mode serviceClass country : Nat) (postcode : String) : Checked (List Part) := do
  ensure "MAXICODE" (!(mode = 2 && country = usa && postcode.length != 10))
    "post for USA is in 99999,9999 format"
  ensure "MAXICODE" (!(mode = 3 && postcode.length != 6)) "post for mode is 6 alphanumeric"
  return [.nat serviceClass, .nat country,
    if mode = 3 then .quoted postcode else .field postcode]

def message (c : MaxiCode) (mode : Nat) (content : String) : Checked (List Part) :=
  match isStructured mode, c.serviceClass, c.country, c.postcode with
  | true, some serviceClass, some country, some postcode => do
    return (← address mode serviceClass country postcode) ++ [.quoted content]
  | _, _, _, _ =>
    match c.expressionLength with
    | some n => .ok [.tagged "L" n, .field content]
    | none => .ok [.quoted content]

def line (c : MaxiCode) : Checked Line := do
  let (x, y) ← position "MAXICODE" c.x c.y
  let mode ← require "MAXICODE" c.mode "please specify a mode"
  ensure "MAXICODE" (!isStructured mode || c.hasAddress)
    "class, country and post must be specified for mode 2 and 3"
  ensure "MAXICODE" (2 ≤ mode && mode ≤ 5) "mode must be 2,3,4 or 5"
  let content ← require "MAXICODE" c.content "content is required"
  let message ← c.message mode content
  return .of "MAXICODE" ([.nat x, .nat y, .nat mode] ++ message)

end MaxiCode

structure Aztec where
  x : Option Nat := none
  y : Option Nat := none
  rotation : Option Rotation := none
  moduleSize : Option Nat := none
  errorControl : Option Nat := none
  escapeFlag : Option Nat := none
  menu : Option Bool := none
  multi : Option Nat := none
  reversed : Option Bool := none
  bytes : Option Nat := none
  content : Option String := none
  deriving DecidableEq, Repr

namespace Aztec

def isErrorControl (n : Nat) : Bool :=
  n ≤ 99 || (101 ≤ n && n ≤ 104) || (201 ≤ n && n ≤ 232) || n = 300

def line (c : Aztec) : Checked Line := do
  let (x, y) ← position "AZTEC" c.x c.y
  let rotation ← require "AZTEC" c.rotation "rotation is required"
  let moduleSize := c.moduleSize.getD 6
  ensure "AZTEC" (1 ≤ moduleSize && moduleSize ≤ 20) "invalid module size value"
  let errorControl := c.errorControl.getD 0
  ensure "AZTEC" (isErrorControl errorControl) "invalid error control parameter"
  let multi := c.multi.getD 6
  ensure "AZTEC" (1 ≤ multi && multi ≤ 26) "multi must be 1~26"
  let content ← require "AZTEC" c.content "content is required"
  return .of "AZTEC" ([.nat x, .nat y, .nat rotation.degrees, .nat moduleSize, .nat errorControl,
    .nat (c.escapeFlag.getD 0), .flag (c.menu.getD false), .nat multi,
    .flag (c.reversed.getD false)] ++
    given c.bytes .nat ++ [.quoted content])

end Aztec

end LabelPrinter

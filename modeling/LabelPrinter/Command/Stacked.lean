import LabelPrinter.Command.Check
import LabelPrinter.Command.Layout

namespace LabelPrinter

open Check

structure Codablock where
  x : Option Nat := none
  y : Option Nat := none
  rotation : Rotation := .none
  rowHeight : Option Nat := none
  moduleWidth : Option Nat := none
  content : Option String := none
  deriving DecidableEq, Repr

def Codablock.line (c : Codablock) : Checked Line := do
  let (x, y) ← position "CODABLOCK" c.x c.y
  let content ← require "CODABLOCK" c.content "content is required"
  return .of "CODABLOCK" ([.nat x, .nat y, .nat c.rotation.degrees] ++
    given c.rowHeight .nat ++ given c.moduleWidth .nat ++ [.quoted content])

structure Tlc39 where
  x : Option Nat := none
  y : Option Nat := none
  rotation : Option Rotation := none
  height : Option Nat := none
  narrow : Option Nat := none
  wide : Option Nat := none
  cellWidth : Option Nat := none
  cellHeight : Option Nat := none
  eci : Option Nat := none
  serial : Option String := none
  additional : Option String := none
  deriving DecidableEq, Repr

namespace Tlc39

/-- Sizes are told apart by their place alone, so one may be given only behind all those before
it. -/
def checkSizes (c : Tlc39) : Checked Unit := do
  let height := c.height.isSome
  let narrow := height && c.narrow.isSome
  let wide := narrow && c.wide.isSome
  let cellWidth := wide && c.cellWidth.isSome
  ensure "TLC39" (c.narrow.isNone || height) "height must be specified with narrow"
  ensure "TLC39" (c.wide.isNone || narrow) "height and narrow must be specified with wide"
  ensure "TLC39" (c.cellWidth.isNone || wide)
    "height, narrow and wide must be specified with cellWidth"
  ensure "TLC39" (c.cellHeight.isNone || cellWidth)
    "height, narrow, wide and cellWidth must be specified with cellHeight"

def isEci (n : Nat) : Bool := 100000 ≤ n && n ≤ 999999

def line (c : Tlc39) : Checked Line := do
  let (x, y) ← position "TLC39" c.x c.y
  let rotation ← require "TLC39" c.rotation "please specify rotation"
  c.checkSizes
  let eci ← require "TLC39" (c.eci.filter isEci) "ECI number is required and must be 6 digits"
  let serial ← require "TLC39" c.serial "Serial number is required"
  let additional := match c.additional with
    | some a => "," ++ a
    | none => ""
  return .of "TLC39" ([.nat x, .nat y, .nat rotation.degrees] ++
    given c.height .nat ++ given c.narrow .nat ++ given c.wide .nat ++
    given c.cellWidth .nat ++ given c.cellHeight .nat ++
    [.quoted (eci.repr ++ "," ++ serial ++ additional)])

end Tlc39

structure Pdf417 where
  x : Option Nat := none
  y : Option Nat := none
  width : Option Nat := none
  height : Option Nat := none
  rotation : Option Rotation := none
  compression : Option Nat := none
  errorLevel : Option Nat := none
  centerPattern : Option Nat := none
  humanReadable : Option (Nat × Nat × Nat) := none
  moduleWidth : Option Nat := none
  barHeight : Option Nat := none
  maxRows : Option Nat := none
  maxCols : Option Nat := none
  truncated : Option Bool := none
  expressionLength : Option Nat := none
  content : Option String := none
  deriving DecidableEq, Repr

namespace Pdf417

def maxContent : Nat := 2048

def captionPlace (place : Nat × Nat × Nat) : Part :=
  .field ("U" ++ place.1.repr ++ "," ++ place.2.1.repr ++ "," ++ place.2.2.repr)

/-- Content whose length is announced goes out without quotes. -/
def contentPart (c : Pdf417) (content : String) : Part :=
  if c.expressionLength.isSome then .field content else .quoted content

def line (c : Pdf417) : Checked Line := do
  let (x, y) ← position "PDF417" c.x c.y
  let width ← require "PDF417" c.width "please specify width"
  let height ← require "PDF417" c.height "please specify height"
  let rotation ← require "PDF417" c.rotation "please specify rotation"
  let content ← require "PDF417" c.content "please specify content"
  ensure "PDF417" (content.length ≤ maxContent) "content is more than 2048 characters"
  return .of "PDF417" ([.nat x, .nat y, .nat width, .nat height, .nat rotation.degrees] ++
    given c.compression (.tagged "P") ++ given c.errorLevel (.tagged "E") ++
    given c.centerPattern (.tagged "M") ++ given c.humanReadable captionPlace ++
    given c.moduleWidth (.tagged "W") ++ given c.barHeight (.tagged "H") ++
    given c.maxRows (.tagged "R") ++ given c.maxCols (.tagged "C") ++
    given c.truncated (fun t => .tagged "T" t.toNat) ++
    given c.expressionLength (.tagged "L") ++ [c.contentPart content])

end Pdf417

end LabelPrinter

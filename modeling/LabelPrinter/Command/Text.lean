import LabelPrinter.Command.Check
import LabelPrinter.Command.Layout

namespace LabelPrinter

open Check

structure Text where
  x : Option Nat := none
  y : Option Nat := none
  font : Option String := none
  rotation : Rotation := .none
  xMultiplier : Option Float := none
  yMultiplier : Option Float := none
  alignment : Option Alignment := none
  content : Option String := none
  deriving DecidableEq, Repr

namespace Text

/-- Unscaled text. -/
def of (x y : Nat) (font content : String) : Text :=
  { x := some x, y := some y, font := some font, content := some content,
    xMultiplier := some 1, yMultiplier := some 1 }

def scaled (c : Text) (xMultiplier yMultiplier : Float) : Text :=
  { c with xMultiplier := some xMultiplier, yMultiplier := some yMultiplier }

def isMultiplier (m : Float) : Bool := 0 < m && m ≤ 10

def line (c : Text) : Checked Line := do
  let (x, y) ← position "TEXT" c.x c.y
  let font ← require "TEXT" c.font "font is required"
  let xMultiplier ← require "TEXT" (c.xMultiplier.filter isMultiplier)
    "Available xMultiplication factors: 1~10"
  let yMultiplier ← require "TEXT" (c.yMultiplier.filter isMultiplier)
    "Available yMultiplication factors: 1~10"
  let content ← require "TEXT" c.content "content is required"
  return .of "TEXT" ([.nat x, .nat y, .quoted font, .nat c.rotation.degrees,
    .number xMultiplier, .number yMultiplier] ++
    given c.alignment (fun a => .nat a.code) ++ [.quoted content])

end Text

end LabelPrinter

import LabelPrinter.Command.Check
import LabelPrinter.Command.Layout

namespace LabelPrinter

open Check

structure Size where
  width : Option Float := none
  height : Option Float := none
  unit : Measure := .english
  deriving DecidableEq, Repr

namespace Size

def of (width height : Float) (unit : Measure) : Size := ⟨some width, some height, unit⟩

def line (c : Size) : Checked Line := do
  let width ← require "SIZE" c.width "width is required"
  let width ← finite "SIZE" width "width"
  let height ← require "SIZE" c.height "height is required"
  let height ← finite "SIZE" height "height"
  ensure "SIZE" (0 < width && 0 < height) "width and height must be positive"
  return .of "SIZE" [c.unit.length width, c.unit.length height]

end Size

structure Gap where
  distance : Option Float := none
  offset : Option Float := none
  unit : Measure := .english
  deriving DecidableEq, Repr

namespace Gap

def of (distance offset : Float) (unit : Measure) : Gap := ⟨some distance, some offset, unit⟩

def line (c : Gap) : Checked Line := do
  let distance ← require "GAP" c.distance "distance is required"
  let distance ← finite "GAP" distance "distance"
  let offset ← require "GAP" c.offset "offset is required"
  let offset ← finite "GAP" offset "offset"
  ensure "GAP" (!(distance < 0 || offset < 0)) "distance and offset must not be negative"
  return .of "GAP" [c.unit.length distance, c.unit.length offset]

end Gap

/-- Extra feed after each label, in millimetres unless told otherwise. -/
structure Offset where
  distance : Option Float := none
  unit : Measure := .metric
  deriving DecidableEq, Repr

namespace Offset

def of (distance : Float) : Offset := { distance := some distance }

def line (c : Offset) : Checked Line := do
  let distance ← require "OFFSET" c.distance "offset can't be empty"
  let distance ← finite "OFFSET" distance "offset"
  return .of "OFFSET" [c.unit.length distance]

end Offset

structure Speed where
  speed : Option Float := none
  deriving DecidableEq, Repr

namespace Speed

def of (speed : Float) : Speed := ⟨some speed⟩

def line (c : Speed) : Checked Line := do
  let speed ← require "SPEED" c.speed "speed can't be empty"
  let speed ← finite "SPEED" speed "speed"
  ensure "SPEED" (0 < speed) "speed must be positive"
  return .of "SPEED" [.number speed]

end Speed

structure Density where
  darkness : Option Nat := none
  deriving DecidableEq, Repr

namespace Density

def of (darkness : Nat) : Density := ⟨some darkness⟩

def line (c : Density) : Checked Line := do
  let darkness ← require "DENSITY" c.darkness "darkness is required"
  ensure "DENSITY" (darkness ≤ 15) "darkness must be 0~15"
  return .of "DENSITY" [.nat darkness]

end Density

structure Direction where
  direction : Option Nat := none
  mirror : Option Bool := none
  deriving DecidableEq, Repr

namespace Direction

def of (direction : Nat) : Direction := { direction := some direction }

def mirrored (c : Direction) (mirror : Bool) : Direction := { c with mirror := some mirror }

def line (c : Direction) : Checked Line := do
  let direction ← require "DIRECTION" c.direction "direction is required"
  ensure "DIRECTION" (direction ≤ 1) "direction must be 0 or 1"
  return .of "DIRECTION" (.nat direction :: given c.mirror .flag)

end Direction

end LabelPrinter

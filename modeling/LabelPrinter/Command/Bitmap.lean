import LabelPrinter.Command.Check
import LabelPrinter.Command.Picture

namespace LabelPrinter

open Check

inductive BitmapMode where
  | overwrite
  | or
  | xor
  deriving DecidableEq, Repr

def BitmapMode.code : BitmapMode → Nat
  | .overwrite => 0
  | .or => 1
  | .xor => 2

structure Bitmap where
  x : Option Nat := none
  y : Option Nat := none
  widthBytes : Option Nat := none
  height : Option Nat := none
  mode : BitmapMode := .overwrite
  data : List UInt8 := []
  deriving DecidableEq, Repr

namespace Bitmap

def rowBytes (width : Nat) : Nat := (width + 7) / 8

/-- A cleared bit prints; the first dot of eight is the highest bit. -/
def plot (g : Gray) (threshold : Nat) (data : Array UInt8) (dot : Nat × Nat) : Array UInt8 :=
  if g.luma dot.1 dot.2 ≤ threshold then
    data.modify (dot.2 * rowBytes g.width + dot.1 / 8) (· &&& ~~~(0x80 >>> (dot.1 % 8).toUInt8))
  else data

/-- All white before the first dot. -/
def raster (g : Gray) (threshold : Nat) : List UInt8 :=
  (g.dots.foldl (plot g threshold) (Array.replicate (rowBytes g.width * g.height) 0xFF)).toList

def defaultThreshold : Nat := 127

def ofGray (x y : Nat) (g : Gray) (threshold : Nat) : Bitmap :=
  { x := some x, y := some y, widthBytes := some (rowBytes g.width), height := some g.height,
    data := raster g threshold }

/-- The raster follows the header as raw bytes. -/
def render (c : Bitmap) : Checked (List UInt8) := do
  let (x, y) ← position "BITMAP" c.x c.y
  let widthBytes ← require "BITMAP" c.widthBytes "width is required"
  let height ← require "BITMAP" c.height "height is required"
  ensure "BITMAP" (c.data.length = widthBytes * height) "raster size does not match width and height"
  let header := Line.of "BITMAP" [.nat x, .nat y, .nat widthBytes, .nat height, .nat c.mode.code]
  return Utf8.encode (header.text ++ ",") ++ c.data ++ Utf8.encode "\n"

end Bitmap

end LabelPrinter

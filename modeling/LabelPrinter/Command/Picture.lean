namespace LabelPrinter

/-- A grey picture: how bright each dot is, from 0 to 255. -/
structure Gray where
  width : Nat
  height : Nat
  luma : Nat → Nat → Nat

/-- Row by row, each from the left. -/
def Gray.dots (g : Gray) : List (Nat × Nat) :=
  (List.range g.height).flatMap fun y => (List.range g.width).map fun x => (x, y)

inductive PixelFormat where
  | luma8
  | lumaAlpha8
  | rgb8
  | rgba8
  | luma16
  | rgb16
  deriving DecidableEq, Repr

namespace PixelFormat

def channels : PixelFormat → Nat
  | .luma8 | .luma16 => 1
  | .lumaAlpha8 => 2
  | .rgb8 | .rgb16 => 3
  | .rgba8 => 4

def sampleBytes : PixelFormat → Nat
  | .luma16 | .rgb16 => 2
  | _ => 1

end PixelFormat

/-- Rows from the top, dots from the left, channels in a row, wide samples high byte first. -/
structure Picture where
  format : PixelFormat
  width : Nat
  height : Nat
  samples : Array UInt8

namespace Picture

def byte (p : Picture) (i : Nat) : Nat := (p.samples[i]?.getD 0).toNat

def sample (p : Picture) (i : Nat) : Nat :=
  if p.format.sampleBytes = 2 then 256 * p.byte (2 * i) + p.byte (2 * i + 1) else p.byte i

/-- Colours are weighed in the depth of their samples; an alpha channel does not count. -/
def weighed (p : Picture) (x y : Nat) : Nat :=
  let first := (y * p.width + x) * p.format.channels
  if p.format.channels < 3 then p.sample first
  else (2126 * p.sample first + 7152 * p.sample (first + 1) + 722 * p.sample (first + 2)) / 10000

def luma (p : Picture) (x y : Nat) : Nat :=
  if p.format.sampleBytes = 2 then (p.weighed x y + 128) / 257 else p.weighed x y

def gray (p : Picture) : Gray := ⟨p.width, p.height, p.luma⟩

end Picture

end LabelPrinter

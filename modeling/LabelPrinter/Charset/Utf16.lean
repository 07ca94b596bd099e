import LabelPrinter.Charset.Utf8

namespace LabelPrinter.Utf16

inductive Endian where
  | little
  | big
  deriving DecidableEq, Repr

namespace Endian

def toBytes (e : Endian) (unit : Nat) : List UInt8 :=
  let low := (unit % 256).toUInt8
  let high := (unit / 256).toUInt8
  match e with
  | .little => [low, high]
  | .big => [high, low]

def unit (e : Endian) (a b : UInt8) : Nat :=
  match e with
  | .little => a.toNat + 256 * b.toNat
  | .big => 256 * a.toNat + b.toNat

end Endian

def encodeChar (e : Endian) (c : Char) : List UInt8 :=
  if c.toNat < 0x10000 then e.toBytes c.toNat
  else
    let offset := c.toNat - 0x10000
    e.toBytes (0xD800 + offset / 0x400) ++ e.toBytes (0xDC00 + offset % 0x400)

def isHigh (unit : Nat) : Bool := 0xD800 ≤ unit && unit < 0xDC00

def isLow (unit : Nat) : Bool := 0xDC00 ≤ unit && unit < 0xE000

/-- The characters that a unit completes and the high surrogate that it leaves open. -/
def start (unit : Nat) : List Char × Option Nat :=
  if isHigh unit then ([], some unit)
  else if isLow unit then ([replacementChar], none)
  else ([Char.ofNat unit], none)

/-- A unit that is not the low half of an open surrogate replaces it and is then read anew. -/
def step : Option Nat → Nat → List Char × Option Nat
  | none, unit => start unit
  | some high, unit =>
    if isLow unit then ([Char.ofNat (0x10000 + (high - 0xD800) * 0x400 + (unit - 0xDC00))], none)
    else (replacementChar :: (start unit).1, (start unit).2)

/-- Whatever is cut off at the end, a byte or a surrogate or both, is read as one U+FFFD. -/
def decodeFrom (e : Endian) : Option Nat → List UInt8 → List Char
  | none, [] => []
  | some _, [] => [replacementChar]
  | _, [_] => [replacementChar]
  | high, a :: b :: rest =>
    (step high (e.unit a b)).1 ++ decodeFrom e (step high (e.unit a b)).2 rest

def decode (e : Endian) (bytes : List UInt8) : List Char := decodeFrom e none bytes

end LabelPrinter.Utf16

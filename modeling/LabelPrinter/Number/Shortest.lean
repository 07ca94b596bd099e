import LabelPrinter.Number.Magnitude

/-!
The shortest decimal that reads back as a given double, found on ever finer grids of powers of
ten in exact arithmetic.
-/

namespace LabelPrinter

namespace Number

/-- The number `digits * 10 ^ exponent`. -/
structure Decimal where
  digits : Nat
  exponent : Int
  deriving DecidableEq, Repr

namespace Decimal

def zeros (n : Nat) : List Char := List.replicate n '0'

/-- Positional digits, with a point when the exponent is negative and never an exponent mark. -/
def toChars (d : Decimal) : List Char :=
  if 0 ≤ d.exponent then Nat.toDigits 10 d.digits ++ zeros d.exponent.toNat
  else
    let places := (-d.exponent).toNat
    let written := Nat.toDigits 10 d.digits
    let padded := zeros (places + 1 - written.length) ++ written
    padded.take (padded.length - places) ++ '.' :: padded.drop (padded.length - places)

end Decimal

/-- Where a decimal has to lie to be read back as the double `x`: between the midpoints to its
neighbours, on a midpoint only if the last bit of `x` is zero. Everything is counted in quarters
of a unit. -/
def readsBack (x : Float) (quarters scale : Nat) : Bool :=
  let low := (4 * magnitude x - 2 * spacingBelow x) * scale
  let high := (4 * magnitude x + 2 * spacing x) * scale
  if fraction x % 2 = 0 then low ≤ quarters && quarters ≤ high
  else low < quarters && quarters < high

/-- The nearest multiple of `10 ^ k` that reads back as `x`; halfway between two of them the
larger one. -/
def onGrid? (x : Float) (k : Int) : Option Nat :=
  let step := 4 * unitsPerOne * tenTo k.toNat
  let scale := tenTo (-k).toNat
  let value := 4 * magnitude x * scale
  let down := value / step
  let up := down + 1
  match readsBack x (down * step) scale, readsBack x (up * step) scale with
  | true, true => some (if value - down * step < up * step - value then down else up)
  | true, false => some down
  | false, true => some up
  | false, false => none

/-- Powers of ten from above the largest double down to a grid that holds every double. -/
def gridExponents : List Int := (List.range 1383).map fun (i : Nat) => (308 : Int) - i

/-- The fewest digits that read back as `x`, of those the nearest. -/
def shortest (x : Float) : Decimal :=
  (gridExponents.findSome? fun k => (onGrid? x k).map fun d => ⟨d, k⟩).getD ⟨0, 0⟩

end Number

open Number

/-- The wire form of a number: an integer of less than `2 ^ 63` without a point and with no sign on
zero, everything else by its shortest digits. -/
def number (x : Float) : String :=
  let sign := if isNegative x then "-" else ""
  if isIntegral x && magnitude x / unitsPerOne < twoTo 63 then
    (if magnitude x = 0 then "" else sign) ++ Nat.repr (magnitude x / unitsPerOne)
  else if x.isFinite then sign ++ String.ofList (shortest x).toChars
  else if x.isInf then sign ++ "inf"
  else "NaN"

end LabelPrinter

namespace LabelPrinter.Number

def twoTo (n : Nat) : Nat := Nat.pow 2 n

def tenTo (n : Nat) : Nat := Nat.pow 10 n

def isNegative (x : Float) : Bool := twoTo 63 ≤ x.toBits.toNat

def biasedExponent (x : Float) : Nat := x.toBits.toNat / twoTo 52 % twoTo 11

def fraction (x : Float) : Nat := x.toBits.toNat % twoTo 52

/-- How many `unitsPerOne`-ths of one a finite double is away from zero; every finite double is a
whole number of them. -/
def magnitude (x : Float) : Nat :=
  if biasedExponent x = 0 then fraction x
  else (twoTo 52 + fraction x) * twoTo (biasedExponent x - 1)

/-- The smallest positive double is `1 / unitsPerOne`. -/
def unitsPerOne : Nat := twoTo 1074

def isIntegral (x : Float) : Bool := x.isFinite && magnitude x % unitsPerOne = 0

/-- The distance to the next larger magnitude. -/
def spacing (x : Float) : Nat := twoTo (biasedExponent x - 1)

/-- The distance to the next smaller magnitude: half the spacing where the exponent changes. -/
def spacingBelow (x : Float) : Nat :=
  if fraction x = 0 ∧ 1 < biasedExponent x then twoTo (biasedExponent x - 2) else spacing x

end LabelPrinter.Number

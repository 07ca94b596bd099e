namespace LabelPrinter

def replacementChar : Char := '\uFFFD'

namespace Utf8

def encode (s : String) : List UInt8 := s.toByteArray.data.toList

/-- A character whose first bytes have been read: how many more it needs, between which bounds the
next one lies, and the bits read so far. -/
structure Tail where
  owed : Nat
  low : UInt8
  high : UInt8
  bits : Nat

def start (b : UInt8) : List Char × Option Tail :=
  let lead (owed : Nat) (low high : UInt8) (span : Nat) : List Char × Option Tail :=
    ([], some ⟨owed, low, high, b.toNat % span⟩)
  if b < 0x80 then ([Char.ofNat b.toNat], none)
  else if b < 0xC2 then ([replacementChar], none)
  else if b < 0xE0 then lead 1 0x80 0xBF 32
  else if b = 0xE0 then lead 2 0xA0 0xBF 16
  else if b = 0xED then lead 2 0x80 0x9F 16
  else if b < 0xF0 then lead 2 0x80 0xBF 16
  else if b = 0xF0 then lead 3 0x90 0xBF 8
  else if b < 0xF4 then lead 3 0x80 0xBF 8
  else if b = 0xF4 then lead 3 0x80 0x8F 8
  else ([replacementChar], none)

/-- A byte that cannot continue the open character replaces what was read of it and is then read
as the start of another one. -/
def step : Option Tail → UInt8 → List Char × Option Tail
  | none, b => start b
  | some t, b =>
    if t.low ≤ b && b ≤ t.high then
      let bits := t.bits * 64 + b.toNat % 64
      if t.owed = 1 then ([Char.ofNat bits], none) else ([], some ⟨t.owed - 1, 0x80, 0xBF, bits⟩)
    else (replacementChar :: (start b).1, (start b).2)

def decodeFrom : Option Tail → List UInt8 → List Char
  | none, [] => []
  | some _, [] => [replacementChar]
  | t, b :: rest => (step t b).1 ++ decodeFrom (step t b).2 rest

/-- Each maximal ill-formed part is read as one U+FFFD. -/
def decode (bytes : List UInt8) : String := String.ofList (decodeFrom none bytes)

end Utf8

end LabelPrinter

import LabelPrinter.Line

namespace LabelPrinter

/-- Clockwise. -/
inductive Rotation where
  | none
  | deg90
  | deg180
  | deg270
  deriving DecidableEq, Repr

def Rotation.degrees : Rotation → Nat
  | .none => 0
  | .deg90 => 90
  | .deg180 => 180
  | .deg270 => 270

inductive Alignment where
  | default
  | left
  | center
  | right
  deriving DecidableEq, Repr

def Alignment.code : Alignment → Nat
  | .default => 0
  | .left => 1
  | .center => 2
  | .right => 3

/-- Lengths are in inches, millimetres or printer dots. -/
inductive Measure where
  | english
  | metric
  | dot
  deriving DecidableEq, Repr

namespace Measure

def suffix : Measure → String
  | .english => ""
  | .metric => " mm"
  | .dot => " dot"

def length (m : Measure) (x : Float) : Part := .field (number x ++ m.suffix)

end Measure

end LabelPrinter

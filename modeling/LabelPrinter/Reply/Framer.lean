namespace LabelPrinter

def carriageReturn : UInt8 := 13

def lineFeed : UInt8 := 10

/-- The complete lines at the front, each with the line feed that ends it, and what is left. -/
def cutLines : List UInt8 → List (List UInt8) × List UInt8
  | [] => ([], [])
  | b :: rest =>
    let (lines, left) := cutLines rest
    if b = lineFeed then ([b] :: lines, left)
    else
      match lines with
      | [] => ([], b :: left)
      | line :: lines => ((b :: line) :: lines, left)

/-- Cuts what a printer sends into lines. The bytes after the last line feed wait for more. -/
structure LineFramer where
  pending : List UInt8 := []
  deriving DecidableEq, Repr

namespace LineFramer

/-- Carriage returns are dropped wherever they stand. -/
def push (f : LineFramer) (chunk : List UInt8) : List (List UInt8) × LineFramer :=
  let (lines, left) := cutLines (f.pending ++ chunk.filter (· != carriageReturn))
  (lines, ⟨left⟩)

end LineFramer

end LabelPrinter

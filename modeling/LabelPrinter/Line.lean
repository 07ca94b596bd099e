import LabelPrinter.Number.Shortest
import LabelPrinter.Charset.Utf8

/-!
Command lines as sequences of parts. Every command of the printer but the bitmap is one such line.
-/

namespace LabelPrinter

/-- Quotes inside the text stay as they are: the protocol has no escape for them. -/
def quote (s : String) : String := "\"" ++ s ++ "\""

inductive Part where
  | field (text : String)
  | word (text : String)
  | raw (text : String)
  deriving DecidableEq, Repr

namespace Part

def nat (n : Nat) : Part := .field n.repr

def number (x : Float) : Part := .field (LabelPrinter.number x)

def quoted (s : String) : Part := .field (quote s)

def flag (b : Bool) : Part := .field (if b then "1" else "0")

/-- A number behind a letter that names it. -/
def tagged (tag : String) (n : Nat) : Part := .field (tag ++ n.repr)

end Part

/-- A command line under construction: its text so far and the number of fields in it. -/
structure Line where
  text : String
  fields : Nat
  deriving DecidableEq, Repr

namespace Line

def start (head : String) : Line := ⟨head, 0⟩

/-- A space comes before the first field and a comma before every other one; words and raw text do
not count as fields. -/
def add (l : Line) : Part → Line
  | .field s => ⟨l.text ++ (if l.fields = 0 then " " else ",") ++ s, l.fields + 1⟩
  | .word s => ⟨l.text ++ " " ++ s, l.fields⟩
  | .raw s => ⟨l.text ++ s, l.fields⟩

def optional (l : Line) : Option Part → Line
  | some p => l.add p
  | none => l

def of (head : String) (parts : List Part) : Line := parts.foldl add (start head)

def finish (l : Line) : List UInt8 := Utf8.encode (l.text ++ "\n")

end Line

/-- The parts that an optional parameter adds. -/
def given {α : Type} (value : Option α) (part : α → Part) : List Part := (value.map part).toList

end LabelPrinter

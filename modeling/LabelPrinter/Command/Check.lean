import LabelPrinter.Line

namespace LabelPrinter

/-- A command lacks a parameter or has one that the printer would reject. -/
structure ValidationError where
  command : String
  reason : String
  deriving DecidableEq, Repr

namespace ValidationError

def message (e : ValidationError) : String := e.command ++ ": " ++ e.reason

end ValidationError

namespace Check

variable {α : Type}

abbrev Checked (α : Type) := Except ValidationError α

def ensure (command : String) (holds : Bool) (reason : String) : Checked Unit :=
  if holds then .ok () else .error ⟨command, reason⟩

def require (command : String) (value : Option α) (reason : String) : Checked α :=
  match value with
  | some v => .ok v
  | none => .error ⟨command, reason⟩

/-- NaN and the infinities have no wire form. -/
def finite (command : String) (x : Float) (name : String) : Checked Float :=
  if x.isFinite then .ok x else .error ⟨command, name ++ " must be a finite number"⟩

def position (command : String) (x y : Option Nat) : Checked (Nat × Nat) :=
  match x, y with
  | some x, some y => .ok (x, y)
  | _, _ => .error ⟨command, "x and y positions are required"⟩

end Check

end LabelPrinter

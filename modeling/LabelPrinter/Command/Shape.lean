import LabelPrinter.Command.Check

namespace LabelPrinter

open Check

structure Bar where
  x : Option Nat := none
  y : Option Nat := none
  width : Option Nat := none
  height : Option Nat := none
  deriving DecidableEq, Repr

namespace Bar

def of (x y width height : Nat) : Bar := ⟨some x, some y, some width, some height⟩

def line (c : Bar) : Checked Line := do
  let (x, y) ← position "BAR" c.x c.y
  let width ← require "BAR" c.width "width is required"
  let height ← require "BAR" c.height "height is required"
  return .of "BAR" [.nat x, .nat y, .nat width, .nat height]

end Bar

structure Box where
  x : Option Nat := none
  y : Option Nat := none
  xEnd : Option Nat := none
  yEnd : Option Nat := none
  thickness : Option Nat := none
  radius : Option Nat := none
  deriving DecidableEq, Repr

namespace Box

def of (x y xEnd yEnd thickness : Nat) : Box :=
  ⟨some x, some y, some xEnd, some yEnd, some thickness, none⟩

def rounded (c : Box) (radius : Nat) : Box := { c with radius := some radius }

def corner (c : Box) : Checked (Nat × Nat) :=
  match c.xEnd, c.yEnd with
  | some x, some y => .ok (x, y)
  | _, _ => .error ⟨"BOX", "x_end and y_end positions are required"⟩

def line (c : Box) : Checked Line := do
  let (x, y) ← position "BOX" c.x c.y
  let (xEnd, yEnd) ← c.corner
  let thickness ← require "BOX" c.thickness "line thickness is required"
  return .of "BOX" [.nat x, .nat y, .nat xEnd, .nat yEnd, .nat thickness, .nat (c.radius.getD 0)]

end Box

structure Circle where
  x : Option Nat := none
  y : Option Nat := none
  diameter : Option Nat := none
  thickness : Option Nat := none
  deriving DecidableEq, Repr

namespace Circle

def of (x y diameter thickness : Nat) : Circle :=
  ⟨some x, some y, some diameter, some thickness⟩

def line (c : Circle) : Checked Line := do
  let (x, y) ← position "CIRCLE" c.x c.y
  let diameter ← require "CIRCLE" c.diameter "diameter is required"
  let thickness ← require "CIRCLE" c.thickness "thickness is required"
  return .of "CIRCLE" [.nat x, .nat y, .nat diameter, .nat thickness]

end Circle

structure Ellipse where
  x : Option Nat := none
  y : Option Nat := none
  width : Option Nat := none
  height : Option Nat := none
  thickness : Option Nat := none
  deriving DecidableEq, Repr

namespace Ellipse

def of (x y width height thickness : Nat) : Ellipse :=
  ⟨some x, some y, some width, some height, some thickness⟩

def line (c : Ellipse) : Checked Line := do
  let (x, y) ← position "ELLIPSE" c.x c.y
  let width ← require "ELLIPSE" c.width "width is required"
  let height ← require "ELLIPSE" c.height "height is required"
  let thickness ← require "ELLIPSE" c.thickness "thickness is required"
  return .of "ELLIPSE" [.nat x, .nat y, .nat width, .nat height, .nat thickness]

end Ellipse

structure Erase where
  x : Option Nat := none
  y : Option Nat := none
  width : Option Nat := none
  height : Option Nat := none
  deriving DecidableEq, Repr

namespace Erase

def of (x y width height : Nat) : Erase := ⟨some x, some y, some width, some height⟩

def line (c : Erase) : Checked Line := do
  let (x, y) ← position "ERASE" c.x c.y
  let width ← require "ERASE" c.width "please specify width"
  let height ← require "ERASE" c.height "please specify height"
  return .of "ERASE" [.nat x, .nat y, .nat width, .nat height]

end Erase

end LabelPrinter

import LabelPrinter.Fault
import LabelPrinter.Usb.Endpoint

namespace LabelPrinter.Usb

/-- An interface with the endpoints of each of its alternate settings. -/
structure Interface where
  number : Nat
  settings : List (List Endpoint)
  deriving DecidableEq, Repr

structure Descriptor where
  vendor : Nat
  product : Nat
  deriving DecidableEq, Repr

abbrev Answer (α : Type) := Except UsbError α

/-- A device on the bus: how it answers each call. -/
structure Device where
  name : String
  bus : Nat
  address : Nat
  path : Answer (List Nat)
  descriptor : Answer Descriptor
  opening : Answer Unit := .ok ()
  kernelDriver : Answer Bool := .ok false
  detach : Answer Unit := .ok ()
  claim : Answer Unit := .ok ()
  activeConfig : Answer (List Interface)
  firstConfig : Answer (List Interface)
  release : Answer Unit := .ok ()
  languages : Answer (List Nat)
  manufacturer : Option (Answer String) := none
  productName : Option (Answer String) := none

/-- What listing the bus answers. -/
abbrev Bus := Answer (List Device)

/-- The calls that are made to the bus. -/
inductive Call where
  | list
  | opening (device : String)
  | autoDetach (device : String)
  | kernelActive (device : String) (interface : Nat)
  | detach (device : String) (interface : Nat)
  | claim (device : String) (interface : Nat)
  | activeConfig (device : String)
  | config (device : String) (index : Nat)
  | languages (device : String)
  | manufacturer (device : String) (language : Nat)
  | productName (device : String) (language : Nat)
  | write (device : String) (endpoint offered : Nat)
  | release (device : String) (interface : Nat)
  | close (device : String)
  deriving DecidableEq, Repr

end LabelPrinter.Usb

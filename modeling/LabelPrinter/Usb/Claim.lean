import LabelPrinter.Error
import LabelPrinter.Usb.Device
import LabelPrinter.Usb.Topology

/-!
Finding a printer and taking its interface: the calls this makes, in order, and what they come to.
-/

namespace LabelPrinter.Usb

/-- Calls to the bus up to the first that fails. -/
abbrev Attempt := ExceptT Error (StateM (List Call))

namespace Attempt

variable {α : Type}

def note (c : Call) : Attempt Unit := modify (· ++ [c])

def ask (c : Call) (answer : Answer α) : Attempt α := do
  note c
  match answer with
  | .ok a => return a
  | .error e => throw (.usb e)

/-- What is undone if the rest fails. -/
def undoing (c : Call) (rest : Attempt α) : Attempt α :=
  tryCatch rest fun e => do
    note c
    throw e

def calls (a : Attempt α) : List Call := (a.run.run []).2

def result (a : Attempt α) : Except Error α := (a.run.run []).1

end Attempt

open Attempt

def printerInterface : Nat := 0

/-- Hubs are at most this deep, and a longer path cannot be read. -/
def maxDepth : Nat := 7

namespace Device

/-- A device whose path cannot be read counts as a root. -/
def knownPath (d : Device) : List Nat :=
  match d.path with
  | .ok path => if path.length ≤ maxDepth then path else []
  | .error _ => []

/-- A device whose descriptor cannot be read is passed over. -/
def located? (d : Device) : Option (Located Device) :=
  match d.descriptor with
  | .ok ids => some ⟨d.bus, d.knownPath, ids.vendor, ids.product, d⟩
  | .error _ => none

end Device

def locate? (ds : List Device) (vendor : Nat) (product : Option Nat) : Option Device :=
  (Node.findIn? vendor product (forest (ds.filterMap Device.located?))).map Node.device

/-- The device whose interface is held, and the endpoints that carry the traffic. -/
structure Claimed where
  device : Device
  ids : Descriptor
  out : Nat
  into : Nat

/-- A kernel driver that holds the interface has to let go of it first. -/
def freeInterface (d : Device) : Attempt Unit := do
  note (.autoDetach d.name)
  note (.kernelActive d.name printerInterface)
  match d.kernelDriver with
  | .ok true => ask (.detach d.name printerInterface) d.detach
  | _ => return

/-- The active configuration, or the first one if there is none. -/
def readConfig (d : Device) : Attempt (List Interface) := do
  note (.activeConfig d.name)
  match d.activeConfig with
  | .ok interfaces => return interfaces
  | .error _ => ask (.config d.name 0) d.firstConfig

def endpoints (interfaces : List Interface) : Attempt (Nat × Nat) :=
  match interfaces.find? (·.number = printerInterface) with
  | none => throw .invalidEndpoints
  | some i =>
    match selectBulk i.settings.flatten with
    | none => throw .invalidEndpoints
    | some pair => return pair

def claim (bus : Bus) (vendor : Nat) (product : Option Nat) : Attempt Claimed := do
  let devices ← ask .list bus
  match locate? devices vendor product with
  | none => throw .notFound
  | some d =>
    match d.descriptor with
    | .error e => throw (.usb e)
    | .ok ids =>
      ask (.opening d.name) d.opening
      undoing (.close d.name) do
        freeInterface d
        ask (.claim d.name printerInterface) d.claim
        undoing (.release d.name printerInterface) do
          let interfaces ← readConfig d
          let (out, into) ← endpoints interfaces
          return { device := d, ids, out, into }

namespace Claimed

/-- Releases the interface and closes the device. If releasing fails, closing tries it again. -/
def giveUp (c : Claimed) : List Call :=
  let release := Call.release c.device.name printerInterface
  match c.device.release with
  | .ok _ => [release, .close c.device.name]
  | .error _ => [release, release, .close c.device.name]

/-- The device is closed without having been released: closing does it. -/
def abandon (c : Claimed) : List Call :=
  [.release c.device.name printerInterface, .close c.device.name]

end Claimed

/-- What a claimed printer says of itself; a string it does not have is empty. -/
structure Info where
  vendor : Nat
  product : Nat
  manufacturer : String
  productName : String
  deriving DecidableEq, Repr

def readString (c : Call) : Option (Answer String) → Attempt String
  | none => return ""
  | some answer => do
    note c
    return match answer with
      | .ok s => s
      | .error _ => ""

namespace Claimed

def info (c : Claimed) : Attempt Info := do
  let languages ← ask (.languages c.device.name) c.device.languages
  match languages with
  | [] => throw .noLanguages
  | language :: _ =>
    let manufacturer ← readString (.manufacturer c.device.name language) c.device.manufacturer
    let productName ← readString (.productName c.device.name language) c.device.productName
    return ⟨c.ids.vendor, c.ids.product, manufacturer, productName⟩

end Claimed

end LabelPrinter.Usb

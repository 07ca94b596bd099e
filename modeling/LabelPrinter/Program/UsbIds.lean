import LabelPrinter.Usb.Link

namespace LabelPrinter.Program

open Usb Attempt

def decimalDigits (n : Nat) : String :=
  let digits := Nat.toDigits 10 n
  String.ofList (List.replicate (3 - digits.length) '0' ++ digits)

def idLine (d : Device) (ids : Descriptor) : String :=
  "Bus " ++ decimalDigits d.bus ++ " Device " ++ decimalDigits d.address ++ " ID " ++
    hexDigits ids.vendor ++ ":" ++ hexDigits ids.product

/-- Manufacturer and product; a device without a manufacturer is not described at all. -/
def describe (d : Device) : Attempt (String × String) := do
  ask (.opening d.name) d.opening
  let languages ← undoing (.close d.name) (ask (.languages d.name) d.languages)
  let answer ← undoing (.close d.name) do
    match languages with
    | [] => throw .noLanguages
    | language :: _ =>
      match d.manufacturer with
      | none => throw .notFound
      | some manufacturer =>
        let manufacturer ← ask (.manufacturer d.name language) manufacturer
        return (manufacturer, ← readString (.productName d.name language) d.productName)
  note (.close d.name)
  return answer

/-- The line for one device; one whose descriptor cannot be read has none. -/
def deviceLine (d : Device) : StateM (List Call) (List String) := do
  match d.descriptor with
  | .error _ => return []
  | .ok ids =>
    match ← (describe d).run with
    | .ok (manufacturer, product) => return [idLine d ids ++ " - " ++ manufacturer ++ " " ++ product]
    | .error _ => return [idLine d ids]

/-- What a program did: how it ended, what it printed and the calls it made. -/
structure UsbRun (ε : Type) where
  result : Except ε Unit
  printed : String := ""
  calls : List Call := []

/-- Lists the devices on the bus, to find the ids of a printer. -/
def listUsbIds (bus : Bus) : UsbRun UsbError :=
  match bus with
  | .error e => { result := .error e, calls := [.list] }
  | .ok devices =>
    let (printed, calls) := (devices.mapM deviceLine).run [.list]
    { result := .ok (), printed := String.join (printed.flatten.map (· ++ "\n")), calls }

end LabelPrinter.Program

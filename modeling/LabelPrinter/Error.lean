import LabelPrinter.Fault
import LabelPrinter.Command.Check

namespace LabelPrinter

inductive Error where
  | usb (e : UsbError)
  | io (e : IoError)
  | validation (e : ValidationError)
  | encoding (text : String)
  | notInitialized
  | notConnected
  | noLanguages
  | invalidEndpoints
  | notFound
  deriving DecidableEq, Repr

namespace Error

def name : Error → String
  | .usb _ => "Usb"
  | .io _ => "Io"
  | .validation _ => "Validation"
  | .encoding _ => "Encoding"
  | .notInitialized => "NotInitialized"
  | .notConnected => "NotConnected"
  | .noLanguages => "NoLanguages"
  | .invalidEndpoints => "InvalidEndpoints"
  | .notFound => "NotFound"

def message : Error → String
  | .usb e => "USB error: " ++ e.text
  | .io e => "IO error: " ++ e.text
  | .validation e => e.message
  | .encoding text => "Unable to encode text: " ++ text
  | .notInitialized => "Connection has to be initialized before connecting"
  | .notConnected => "Printer is not connected"
  | .noLanguages => "No supported languages"
  | .invalidEndpoints => "Unable to locate expected endpoints"
  | .notFound => "Printer Not Found"

/-- The connection was used in a state that does not allow it; the device is not at fault. -/
def isUnavailable : Error → Bool
  | .notInitialized | .notConnected => true
  | _ => false

end Error

end LabelPrinter

import LabelPrinter.Charset
import LabelPrinter.Label

namespace LabelPrinter

/-- What a caller may ask to be sent. -/
inductive Payload where
  | message (bytes : List UInt8)
  | text (s : String)
  | label (l : Label)
  deriving DecidableEq, Repr

namespace Payload

def encode (p : Payload) (charset : Charset) : Except Error (List UInt8) :=
  match p with
  | .message bytes => .ok bytes
  | .text s => charset.encode s
  | .label l => l.serialize.mapError .validation

end Payload

/-- What a caller asks of a connection, over whatever channel. -/
inductive Order where
  | init
  | connect
  | disconnect
  | shutdown
  | send (payload : Payload)
  | setCharset (charset : Charset)

end LabelPrinter

namespace LabelPrinter

inductive LinkState where
  | uninitialized
  | initialized
  | connecting
  | connected
  | disconnected
  deriving DecidableEq, Repr

def LinkState.name : LinkState → String
  | .uninitialized => "Uninitialized"
  | .initialized => "Initialized"
  | .connecting => "Connecting"
  | .connected => "Connected"
  | .disconnected => "Disconnected"

/-- One cycle of connecting and disconnecting. -/
structure Session where
  alive : Bool
  connected : Bool
  deriving DecidableEq, Repr

namespace Session

def close (_ : Session) : Session := ⟨false, false⟩

end Session

end LabelPrinter

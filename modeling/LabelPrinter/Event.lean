import LabelPrinter.Fault

namespace LabelPrinter

inductive ClientEvent where
  | established
  | lost
  | failing (fault : Fault)
  deriving DecidableEq, Repr

inductive DataEvent where
  | sent (message : List UInt8)
  | received (text : String)
  | sendFailed (fault : Fault) (payload : List UInt8)
  deriving DecidableEq, Repr

inductive Event where
  | client (e : ClientEvent)
  | data (e : DataEvent)
  deriving DecidableEq, Repr

/-- What a step leads to and the events that it raises, in order. -/
abbrev Step (σ : Type) := σ × List Event

namespace Step

variable {σ : Type}

def andThen (x : Step σ) (next : σ → Step σ) : Step σ := ((next x.1).1, x.2 ++ (next x.1).2)

end Step

/-- How a thread takes its leave: the fault that made it end, if there was one, and the loss. -/
def farewell (fault : Option Fault) : List Event :=
  match fault with
  | some f => [.client (.failing f), .client .lost]
  | none => [.client .lost]

end LabelPrinter

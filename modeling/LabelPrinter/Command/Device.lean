import LabelPrinter.Command.Check

namespace LabelPrinter

open Check

inductive CutterMode where
  | off
  | batch
  | pieces (count : Nat)
  deriving DecidableEq, Repr

namespace CutterMode

def value : CutterMode → Checked String
  | .off => .ok "OFF"
  | .batch => .ok "BATCH"
  | .pieces count => do
    ensure "SET" (0 < count) "cutter pieces must be positive"
    return count.repr

end CutterMode

inductive DeviceSetting where
  | partialCutter (mode : CutterMode)
  | cutter (mode : CutterMode)
  | back (on : Bool)
  | peel (on : Bool)
  | head (on : Bool)
  | encoder (on : Bool)
  deriving DecidableEq, Repr

namespace DeviceSetting

def name : DeviceSetting → String
  | .partialCutter _ => "PARTIAL_CUTTER"
  | .cutter _ => "CUTTER"
  | .back _ => "BACK"
  | .peel _ => "PEEL"
  | .head _ => "HEAD"
  | .encoder _ => "ENCODER"

def value : DeviceSetting → Checked String
  | .partialCutter mode | .cutter mode => mode.value
  | .back on | .peel on | .head on | .encoder on => .ok (if on then "ON" else "OFF")

def line (c : DeviceSetting) : Checked Line := do
  let value ← c.value
  return .of "SET" [.word c.name, .word value]

end DeviceSetting

def maxCounter : Nat := 60

/-- By how much a counter moves with each label. -/
structure Counter where
  counter : Option Nat := none
  step : Option Int := none
  deriving DecidableEq, Repr

namespace Counter

def of (counter : Nat) (step : Int) : Counter := ⟨some counter, some step⟩

def signed (n : Int) : String := (if n < 0 then "-" else "+") ++ n.natAbs.repr

def line (c : Counter) : Checked Line := do
  let counter ← require "SET COUNTER" c.counter "counter number is required"
  ensure "SET COUNTER" (counter ≤ maxCounter) "Counters are only available from 0 - 60."
  let step ← require "SET COUNTER" c.step "increment is required"
  return .of "SET" [.word "COUNTER", .word ("@" ++ counter.repr), .word (signed step)]

end Counter

structure CounterExpression where
  counter : Option Nat := none
  expression : Option String := none
  deriving DecidableEq, Repr

namespace CounterExpression

def of (counter : Nat) (expression : String) : CounterExpression :=
  ⟨some counter, some expression⟩

def line (c : CounterExpression) : Checked Line := do
  let counter ← require "@n" c.counter "counter number is required"
  ensure "@n" (counter ≤ maxCounter) "Counters are only available 0-60"
  let expression ← require "@n" c.expression "expression is required"
  return .of ("@" ++ counter.repr) [.raw "=", .raw (quote expression)]

end CounterExpression

inductive StatusPoll where
  | status
  | extendedStatus
  | pause
  | resume
  | reset
  | feed
  | cancelPause
  deriving DecidableEq, Repr

namespace StatusPoll

def code : StatusPoll → String
  | .status => "?"
  | .extendedStatus => "S"
  | .pause => "P"
  | .resume => "O"
  | .reset => "R"
  | .feed => "F"
  | .cancelPause => "."

def line (c : StatusPoll) : Line := .of ("\x1b!" ++ c.code) []

end StatusPoll

end LabelPrinter

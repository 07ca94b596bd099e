import LabelPrinter.Command.Check

namespace LabelPrinter

open Check

/-- `sets` labels in a row, each printed `copies` times. -/
structure Print where
  sets : Option Nat := none
  copies : Option Nat := none
  deriving DecidableEq, Repr

namespace Print

def of (sets : Nat) : Print := { sets := some sets }

def withCopies (c : Print) (copies : Nat) : Print := { c with copies := some copies }

def line (c : Print) : Checked Line := do
  let sets ← require "PRINT" c.sets "number of label sets is required"
  return .of "PRINT" (.nat sets :: given c.copies .nat)

end Print

inductive SelfTestPage where
  | pattern
  | ethernet
  | wlan
  | rs232
  | system
  | z
  | bt
  deriving DecidableEq, Repr

def SelfTestPage.keyword : SelfTestPage → String
  | .pattern => "PATTERN"
  | .ethernet => "ETHERNET"
  | .wlan => "WLAN"
  | .rs232 => "RS232"
  | .system => "SYSTEM"
  | .z => "Z"
  | .bt => "BT"

structure SelfTest where
  page : Option SelfTestPage := none
  deriving DecidableEq, Repr

def SelfTest.line (c : SelfTest) : Line :=
  .of "SELFTEST" (given c.page fun p => .word p.keyword)

end LabelPrinter

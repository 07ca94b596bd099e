namespace LabelPrinter.Usb

inductive TransferType where
  | control
  | isochronous
  | bulk
  | interrupt
  deriving DecidableEq, Repr

/-- Seen from the host. -/
inductive Flow where
  | outgoing
  | incoming
  deriving DecidableEq, Repr

structure Endpoint where
  transfer : TransferType
  flow : Flow
  address : Nat
  deriving DecidableEq, Repr

namespace Endpoint

/-- The highest bit of an address tells the direction. -/
def ofAddress (transfer : TransferType) (address : Nat) : Endpoint :=
  ⟨transfer, if 128 ≤ address then .incoming else .outgoing, address⟩

end Endpoint

/-- The bulk endpoints met so far, the first of each direction. -/
structure BulkPair where
  out : Option Nat := none
  into : Option Nat := none
  deriving DecidableEq, Repr

namespace BulkPair

def meet (p : BulkPair) (e : Endpoint) : BulkPair :=
  match e.transfer, e.flow with
  | .bulk, .outgoing => { p with out := p.out.or (some e.address) }
  | .bulk, .incoming => { p with into := p.into.or (some e.address) }
  | _, _ => p

def complete? (p : BulkPair) : Option (Nat × Nat) :=
  match p.out, p.into with
  | some o, some i => some (o, i)
  | _, _ => none

end BulkPair

/-- The first bulk endpoint out and the first one in. -/
def selectBulk (es : List Endpoint) : Option (Nat × Nat) := (es.foldl BulkPair.meet {}).complete?

end LabelPrinter.Usb

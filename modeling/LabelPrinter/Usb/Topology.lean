namespace LabelPrinter.Usb

/-- A device and where it hangs: the hops from the root of its bus down to it. -/
structure Located (α : Type) where
  bus : Nat
  path : List Nat
  vendor : Nat
  product : Nat
  device : α
  deriving DecidableEq, Repr

inductive Node (α : Type) where
  | mk (vendor product : Nat) (device : α) (children : List (Node α))

variable {α : Type}

namespace Located

/-- A hub carries what is one hop further down the same path. -/
def carries (hub d : Located α) : Bool :=
  hub.bus = d.bus && d.path != [] && hub.path = d.path.dropLast

/-- The place in the list of the first device that carries this one. -/
def parent? (ds : List (Located α)) (d : Located α) : Option Nat := ds.findIdx? (·.carries d)

end Located

def Located.node (d : Located α) (children : List (Node α)) : Node α :=
  .mk d.vendor d.product d.device children

def Node.adopt : Node α → Node α → Node α
  | .mk vendor product device children, child => .mk vendor product device (children ++ [child])

/-- Puts the device in front of the first one that is no deeper. -/
def insertDeep (d : Located α × Nat) : List (Located α × Nat) → List (Located α × Nat)
  | [] => [d]
  | e :: rest =>
    if e.1.path.length ≤ d.1.path.length then d :: e :: rest else e :: insertDeep d rest

/-- The devices with their places in the list. Those of one depth stay in list order. -/
def deepestFirst (ds : List (Located α)) : List (Located α × Nat) :=
  ds.zipIdx.foldr insertDeep []

/-- The node of the device leaves its slot and becomes the last child of its hub. -/
def attach (ds : List (Located α)) (slots : List (Option (Node α))) (d : Located α × Nat) :
    List (Option (Node α)) :=
  match Located.parent? ds d.1, slots[d.2]?.join with
  | some hub, some node => (slots.set d.2 none).modify hub (·.map (·.adopt node))
  | _, _ => slots

/-- The trees of all devices. One whose hub is not listed is a root. -/
def forest (ds : List (Located α)) : List (Node α) :=
  ((deepestFirst ds).foldl (attach ds) (ds.map fun d => some (d.node []))).filterMap id

namespace Node

def device : Node α → α
  | .mk _ _ device _ => device

def isPrinter (vendor : Nat) (product : Option Nat) : Node α → Bool
  | .mk v p _ _ => v = vendor && product.all (· = p)

mutual

/-- Depth first; without a product any device of the vendor will do. -/
def find? (vendor : Nat) (product : Option Nat) : Node α → Option (Node α)
  | .mk v p device children =>
    if isPrinter vendor product (.mk v p device children) then some (.mk v p device children)
    else findIn? vendor product children

def findIn? (vendor : Nat) (product : Option Nat) : List (Node α) → Option (Node α)
  | [] => none
  | n :: rest =>
    match find? vendor product n with
    | some found => some found
    | none => findIn? vendor product rest

end

end Node

end LabelPrinter.Usb

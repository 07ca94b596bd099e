/-!
Who is told of events. Raising an event queues it for every live registration; each has a worker
that handles its queue one event after the other, so that a slow listener holds up no other.
-/

namespace LabelPrinter

/-- How a callback comes back. -/
inductive Comeback where
  | returns
  | panics
  deriving DecidableEq, Repr

/-- One registration of a listener with its own worker: whether events still come in, those whose
callback has come back, the one being handled and those that wait, and how often the worker has
logged that its listener panicked. -/
structure Registration (ε : Type) where
  listener : String
  live : Bool := true
  done : List ε := []
  running : Option ε := none
  queue : List ε := []
  panics : Nat := 0
  deriving DecidableEq, Repr

namespace Registration

variable {ε : Type}

def handed (r : Registration ε) : List ε := r.done ++ r.running.toList

def isLiveOf (r : Registration ε) (listener : String) : Bool := r.live && r.listener = listener

def enqueue (r : Registration ε) (e : ε) : Registration ε :=
  if r.live then { r with queue := r.queue ++ [e] } else r

/-- What is queued already is still handled. -/
def retire (r : Registration ε) : Registration ε := { r with live := false }

/-- A worker takes the next event only when the callback of the last has come back. -/
def start (r : Registration ε) : Registration ε :=
  match r.running, r.queue with
  | none, e :: rest => { r with running := some e, queue := rest }
  | _, _ => r

/-- The loop of the worker looks at how a callback came back and goes on. -/
def goOn (r : Registration ε) : Comeback → Registration ε
  | .returns => r
  | .panics => { r with panics := r.panics + 1 }

/-- The callback comes back. A panic ends it like a return and does not get out of it. -/
def finish (r : Registration ε) (how : Comeback) : Registration ε :=
  match r.running with
  | some e => { r with done := r.done ++ [e], running := none }.goOn how
  | none => r

def drain (r : Registration ε) : Registration ε :=
  r.queue.foldl (fun r _ => r.start.finish .returns) (r.finish .returns)

/-- How far the worker gets by itself; it stays in the first callback if that does not come back. -/
def settle (r : Registration ε) (held : Bool) : Registration ε := if held then r.start else r.drain

end Registration

/-- Registrations by their place in the order of addition, which they keep for good. -/
structure Registry (ε : Type) where
  entries : List (Registration ε) := []
  deriving DecidableEq, Repr

/-- What can happen to a registry other than an event: a caller changes who is registered, or the
worker of the registration in some place takes a step. -/
inductive RegistryStep where
  | add (listener : String)
  | remove (listener : String)
  | start (place : Nat)
  | finish (place : Nat) (how : Comeback)
  deriving DecidableEq, Repr

namespace Registry

variable {ε : Type}

def add (r : Registry ε) (listener : String) : Registry ε := ⟨r.entries ++ [{ listener := listener }]⟩

/-- Retires the oldest live registration of the listener and says whether there was one. -/
def remove (r : Registry ε) (listener : String) : Registry ε × Bool :=
  match r.entries.findIdx? (·.isLiveOf listener) with
  | some place => (⟨r.entries.modify place .retire⟩, true)
  | none => (r, false)

def count (r : Registry ε) : Nat := r.entries.countP (·.live)

def raise (r : Registry ε) (e : ε) : Registry ε := ⟨r.entries.map (·.enqueue e)⟩

def act (r : Registry ε) : RegistryStep → Registry ε
  | .add listener => r.add listener
  | .remove listener => (r.remove listener).1
  | .start place => ⟨r.entries.modify place .start⟩
  | .finish place how => ⟨r.entries.modify place (·.finish how)⟩

def settle (r : Registry ε) (held : String → Bool) : Registry ε :=
  ⟨r.entries.map fun x => x.settle (held x.listener)⟩

/-- What a listener has been told, registration by registration. -/
def told (r : Registry ε) (listener : String) : List ε :=
  (r.entries.filter (·.listener = listener)).flatMap (·.done)

/-- Drops what has been told, so that `told` starts anew. -/
def forget (r : Registry ε) : Registry ε := ⟨r.entries.map fun x => { x with done := [] }⟩

end Registry

end LabelPrinter

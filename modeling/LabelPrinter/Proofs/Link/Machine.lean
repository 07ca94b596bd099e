import LabelPrinter.Error
import LabelPrinter.Link.State
import LabelPrinter.Proofs.Run

/-!
The machine that every connection runs, whatever its channel, and what it means for a kind of
connection to refine it.
-/

namespace LabelPrinter

namespace Machine

/-- What a step of a connection is to the machine: an operation of the caller with what the channel
makes of it, or something that happens to the session behind the caller's back. -/
inductive Move where
  | init (granted : Bool)
  | connect
  | disconnect
  | shutdown
  | send (kept : Bool)
  /-- What is to be sent has no bytes. -/
  | unsendable (e : Error)
  | opened
  | refused
  | ended
  | other
  deriving DecidableEq, Repr

/-- A session begins in the state `opening`. -/
def next (opening : LinkState) : LinkState → Move → LinkState
  | .uninitialized, .init true => .initialized
  | .initialized, .connect | .disconnected, .connect => opening
  | .connecting, .disconnect | .connected, .disconnect => .disconnected
  | _, .shutdown => .uninitialized
  | .connected, .send false => .disconnected
  | .connecting, .opened => .connected
  | .connecting, .refused | .connected, .ended => .disconnected
  | s, _ => s

def Replies : LinkState → Move → Except Error Unit → Prop
  | .uninitialized, .init granted, reply => reply.isOk = granted
  | .uninitialized, .connect, reply => reply = .error .notInitialized
  | .connected, .send _, reply => reply = .ok ()
  | _, .send _, reply => reply = .error .notConnected
  | _, .unsendable e, reply => reply = .error e
  | _, .shutdown, _ => True
  | _, _, reply => reply = .ok ()

/-- A reply is all that comes of the move. -/
def isIdle : LinkState → Move → Bool
  | .uninitialized, .connect | .connecting, .connect | .connected, .connect => true
  | .connected, .send _ => false
  | _, .send _ | _, .unsendable _ => true
  | _, _ => false

/-- The moves that are well in every state. -/
def Move.isPlain : Move → Bool
  | .disconnect | .opened | .refused | .ended | .other => true
  | .init _ | .connect | .shutdown | .send _ | .unsendable _ => false

theorem Move.plain {m : Move} (h : m.isPlain = true) (s : LinkState) :
    Replies s m (.ok ()) ∧ isIdle s m = false := by
  match m with
  | .disconnect | .opened | .refused | .ended | .other => cases s <;> exact ⟨rfl, rfl⟩

def isLive : LinkState → Bool
  | .connecting | .connected => true
  | .uninitialized | .initialized | .disconnected => false

end Machine

/-- A kind of connection, and what its steps are to the machine. -/
structure Adapter (σ α : Type) where
  start : σ
  next : σ → α → σ
  reply : σ → α → Except Error Unit
  /-- The step leaves the connection as it is, raises no event and does nothing on the channel. -/
  Still : σ → α → Prop
  state : σ → LinkState
  isConnected : σ → Bool
  move : σ → α → Machine.Move
  opening : LinkState

namespace Adapter

variable {σ α : Type}

structure Agrees (A : Adapter σ α) (s : σ) (a : α) : Prop where
  state_next : A.state (A.next s a) = Machine.next A.opening (A.state s) (A.move s a)
  replies : Machine.Replies (A.state s) (A.move s a) (A.reply s a)
  still : Machine.isIdle (A.state s) (A.move s a) = true → A.Still s a

namespace Agrees

variable {A : Adapter σ α} {s : σ} {a : α} {m : Machine.Move}

theorem of_connected {kept : Bool} (hm : A.move s a = .send kept)
    (hc : A.state s = .connected)
    (hn : A.state (A.next s a) = if kept then .connected else .disconnected)
    (hr : A.reply s a = .ok ()) : A.Agrees s a := by
  refine ⟨?_, ?_, ?_⟩
  · rw [hn, hm, hc]
    cases kept <;> rfl
  · rw [hr, hm, hc]
    rfl
  · rw [hm, hc]
    nofun

end Agrees

def run (A : Adapter σ α) (actions : List α) : σ := actions.foldl A.next A.start

def moves (A : Adapter σ α) (actions : List α) : List Machine.Move :=
  (turns A.next A.start actions).map fun t => A.move t.state t.action

end Adapter

end LabelPrinter

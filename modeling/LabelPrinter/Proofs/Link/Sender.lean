import LabelPrinter.Proofs.Tcp.Refinement
import LabelPrinter.Proofs.Usb.Refinement
import LabelPrinter.Proofs.Usb.Transmission

/-!
Connections as those see them who send over them. Either kind turns what is to be sent into bytes
before it looks at anything else, and then only the bytes count.
-/

namespace LabelPrinter

/-- A kind of connection and how it is asked to send; `ω` is what the channel makes of that, and `ο`
all that comes of a step. -/
structure Sender (σ α ω ο : Type) extends Adapter σ α where
  send : Payload → ω → α
  act : σ → α → ο
  /-- Nothing comes of a step but this error. -/
  rejection : σ → Error → ο
  charset : σ → Charset
  session : σ → Option Session
  events : σ → α → List Event
  /-- The bytes that the channel is given. -/
  written : σ → α → List UInt8

/-- The bytes of a payload decide on all that comes of it. -/
structure Sender.Encodes {σ α ω ο : Type} (S : Sender σ α ω ο) : Prop where
  rejected : ∀ (s : σ) (p : Payload) (w : ω) (e : Error), p.encode (S.charset s) = .error e →
    S.act s (S.send p w) = S.rejection s e
  alike : ∀ (s : σ) (p q : Payload) (w : ω), p.encode (S.charset s) = q.encode (S.charset s) →
    S.act s (S.send p w) = S.act s (S.send q w)
  written : ∀ (s : σ) (p : Payload) (w : ω), S.written s (S.send p w) = [] ∨
    ∃ bytes, p.encode (S.charset s) = .ok bytes ∧ S.written s (S.send p w) <+: bytes

namespace Tcp

def sender (host : String) (service : Nat) : Sender Link Action Write Outcome where
  toAdapter := adapter host service
  send := .send
  act := Link.act
  rejection l e := { link := l, reply := .error e }
  charset := Link.charset
  session := Link.session
  events l a := (l.act a).events
  written l a := (l.act a).taken

theorem encodes (host : String) (service : Nat) : (sender host service).Encodes := by
  refine ⟨fun l p w e h => ?_, fun l p q w h => ?_, fun l p w => ?_⟩
  · change l.send p w = _
    replace h : p.encode l.charset = .error e := h
    rw [Link.send, h]
    rfl
  · change l.send p w = l.send q w
    replace h : p.encode l.charset = q.encode l.charset := h
    rw [Link.send, Link.send, h]
  · change (l.send p w).taken = [] ∨
      ∃ bytes, p.encode l.charset = .ok bytes ∧ (l.send p w).taken <+: bytes
    have ho := sending l p w
    generalize l.send p w = o at ho
    cases ho with
    | unsendable e he => exact .inl rfl
    | refused message he hc => exact .inl rfl
    | sent message he hc => exact .inr ⟨message, he, List.prefix_rfl⟩
    | broken message n e he hc => exact .inr ⟨message, he, List.take_prefix n message⟩

end Tcp

namespace Usb

def sender (vendor : Nat) (product : Option Nat) : Sender Link Action (List Transfer) Outcome where
  toAdapter := adapter vendor product
  send := .send
  act := Link.act
  rejection l e := { link := l, reply := .error e }
  charset := Link.charset
  session := Link.session
  events l a := (l.act a).events
  written l a := ((l.act a).transmission.map (·.taken)).getD []

theorem encodes (vendor : Nat) (product : Option Nat) : (sender vendor product).Encodes := by
  refine ⟨fun l p w e h => ?_, fun l p q w h => ?_, fun l p w => ?_⟩
  · change l.send p w = _
    replace h : p.encode l.charset = .error e := h
    rw [Link.send, h]
    rfl
  · change l.send p w = l.send q w
    replace h : p.encode l.charset = q.encode l.charset := h
    rw [Link.send, Link.send, h]
  · change ((l.send p w).transmission.map (·.taken)).getD [] = [] ∨
      ∃ bytes, p.encode l.charset = .ok bytes ∧
        ((l.send p w).transmission.map (·.taken)).getD [] <+: bytes
    have ho := sending l p w
    generalize l.send p w = o at ho
    cases ho with
    | unsendable e he => exact .inl rfl
    | refused message he hc => exact .inl rfl
    | sent message c he hc _ _ => exact .inr ⟨message, he, (transmit_taken message w).1⟩
    | failed message c e he hc _ _ => exact .inr ⟨message, he, (transmit_taken message w).1⟩

end Usb

end LabelPrinter

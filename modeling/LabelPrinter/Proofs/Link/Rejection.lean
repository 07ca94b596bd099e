import LabelPrinter.Proofs.Link.Payload
import LabelPrinter.Proofs.Link.Sender
import LabelPrinter.Proofs.Usb.Sending

/-!
A call that sends is either rejected, which leaves no trace of it, or reported exactly once with the
bytes that it was to send. What is to be sent is looked at before the state of the connection.
-/

namespace LabelPrinter

def DataEvent.message? : DataEvent → Option (List UInt8)
  | .sent message | .sendFailed _ message => some message
  | .received _ => none

namespace Sender

variable {σ α ω ο : Type}

structure Traceless (S : Sender σ α ω ο) (s : σ) (a : α) : Prop where
  still : S.Still s a
  dry : S.written s a = []
  silent : S.events s a = []
  state_eq : S.state (S.next s a) = S.state s
  isConnected_eq : S.isConnected (S.next s a) = S.isConnected s
  session_eq : S.session (S.next s a) = S.session s

/-- All that comes of a call that sends. -/
structure Settled (S : Sender σ α ω ο) (s : σ) (p : Payload) (w : ω) : Prop where
  rejected : ∀ e, S.reply s (S.send p w) = .error e → S.Traceless s (S.send p w)
  error_cases : ∀ e, S.reply s (S.send p w) = .error e →
    (∃ v, e = .validation v) ∨ (∃ reason, e = .encoding reason) ∨ e = .notConnected
  validation_iff : ∀ e, S.reply s (S.send p w) = .error (.validation e) ↔
    ∃ l, p = .label l ∧ Command.FirstError e l.commands
  encoding_iff : ∀ reason, S.reply s (S.send p w) = .error (.encoding reason) ↔
    ∃ t, p = .text t ∧ (S.charset s).CannotEncode t reason
  /-- With a code page it takes a character that has no code, and that the trap refuses. -/
  codePage_iff : ∀ page : CodePage, (S.charset s).codec = page.codec →
    ((∃ reason, S.reply s (S.send p w) = .error (.encoding reason)) ↔
      ∃ t, p = .text t ∧ ∃ c ∈ t.toList, page.encodeChar? c = none ∧ (S.charset s).trap.Refuses c)
  notConnected_iff : S.reply s (S.send p w) = .error .notConnected ↔
    (∃ bytes, p.Carries (S.charset s) bytes) ∧ S.state s ≠ .connected
  reported : S.reply s (S.send p w) = .ok () → ∃ bytes e, p.Carries (S.charset s) bytes ∧
    S.events s (S.send p w) = [.data e] ∧ e.message? = some bytes

/-- What a call that sends can come to, by the payload and then by the state. -/
inductive Answered (S : Sender σ α ω ο) (s : σ) (p : Payload) (w : ω) : Prop where
  | unsendable (e : Error) : p.encode (S.charset s) = .error e →
      S.reply s (S.send p w) = .error e → S.Traceless s (S.send p w) → Answered S s p w
  | refused (bytes : List UInt8) : p.encode (S.charset s) = .ok bytes → S.state s ≠ .connected →
      S.reply s (S.send p w) = .error .notConnected → S.Traceless s (S.send p w) →
      Answered S s p w
  | reported (bytes : List UInt8) (e : DataEvent) : p.encode (S.charset s) = .ok bytes →
      S.state s = .connected → S.reply s (S.send p w) = .ok () →
      S.events s (S.send p w) = [.data e] → e.message? = some bytes → Answered S s p w

namespace Answered

variable {S : Sender σ α ω ο} {s : σ} {p : Payload} {w : ω}

theorem validation_iff (h : S.Answered s p w) (v : ValidationError) :
    S.reply s (S.send p w) = .error (.validation v) ↔
      ∃ l, p = .label l ∧ Command.FirstError v l.commands := by
  have hp : p.encode (S.charset s) = .error (.validation v) ↔
      ∃ l, p = .label l ∧ Command.FirstError v l.commands := Payload.encode_validation_iff
  rw [← hp]
  cases h with
  | unsendable e he hr ht => simp [he, hr]
  | refused bytes he hs hr ht => simp [he, hr]
  | reported bytes d he hs hr _ _ => simp [he, hr]

theorem encoding_iff (h : S.Answered s p w) (reason : String) :
    S.reply s (S.send p w) = .error (.encoding reason) ↔
      ∃ t, p = .text t ∧ (S.charset s).CannotEncode t reason := by
  rw [← Payload.encode_encoding_iff]
  cases h with
  | unsendable e he hr ht => simp [he, hr]
  | refused bytes he hs hr ht => simp [he, hr]
  | reported bytes d he hs hr _ _ => simp [he, hr]

theorem codePage_iff (h : S.Answered s p w) {page : CodePage}
    (hpage : (S.charset s).codec = page.codec) :
    (∃ reason, S.reply s (S.send p w) = .error (.encoding reason)) ↔
      ∃ t, p = .text t ∧ ∃ c ∈ t.toList, page.encodeChar? c = none ∧
        (S.charset s).trap.Refuses c := by
  simp only [h.encoding_iff]
  rw [exists_comm]
  simp only [exists_and_left, Charset.cannotEncode_iff hpage]

theorem settled (h : S.Answered s p w) : S.Settled s p w := by
  have hvalidation := h.validation_iff
  have hencoding := h.encoding_iff
  have hpage (page : CodePage) (hc : (S.charset s).codec = page.codec) := h.codePage_iff hc
  cases h with
  | unsendable e he hr ht =>
    refine ⟨fun _ _ => ht, ?_, hvalidation, hencoding, hpage, ?_, ?_⟩
    · intro d hd
      obtain rfl := Except.error.inj (hr.symm.trans hd)
      exact (Payload.encode_error_cases he).imp_right .inl
    · constructor
      · intro hn
        obtain rfl := Except.error.inj (hr.symm.trans hn)
        obtain ⟨v, hv⟩ | ⟨reason, hv⟩ := Payload.encode_error_cases he
        · cases hv
        · cases hv
      · rintro ⟨⟨bytes, hb⟩, -⟩
        cases he.symm.trans (Payload.encode_ok_iff.mpr hb)
    · intro ho
      cases hr.symm.trans ho
  | refused bytes he hs hr ht =>
    refine ⟨fun _ _ => ht, ?_, hvalidation, hencoding, hpage, ?_, ?_⟩
    · intro d hd
      exact .inr (.inr (Except.error.inj (hd.symm.trans hr)))
    · exact ⟨fun _ => ⟨⟨bytes, Payload.encode_ok_iff.mp he⟩, hs⟩, fun _ => hr⟩
    · intro ho
      cases hr.symm.trans ho
  | reported bytes d he hs hr hevents hd =>
    refine ⟨?_, ?_, hvalidation, hencoding, hpage, ?_, ?_⟩
    · intro e hn
      cases hr.symm.trans hn
    · intro e hn
      cases hr.symm.trans hn
    · simp [hr, hs]
    · exact fun _ => ⟨bytes, d, Payload.encode_ok_iff.mp he, hevents, hd⟩

end Answered

end Sender

namespace Tcp

theorem Sound.answered {l : Link} (h : Sound l) (host : String) (service : Nat) (p : Payload)
    (w : Write) : (sender host service).Answered l p w := by
  have ho : Sending l p w (l.act (.send p w)) := sending l p w
  generalize hs : l.act (.send p w) = o at ho
  have hreply : (sender host service).reply l (.send p w) = o.reply := congrArg Outcome.reply hs
  have htraceless {e : Error} (hr : l.act (.send p w) = { link := l, reply := .error e }) :
      (sender host service).Traceless l (.send p w) := by
    constructor <;> simp [sender, adapter, Link.next, hr]
  cases ho with
  | unsendable e he => exact .unsendable e he hreply (htraceless hs)
  | refused message he hc =>
    refine .refused message he (fun hn => ?_) hreply (htraceless hs)
    exact absurd (h.isConnected_iff.mpr hn) (by simp [hc])
  | sent message he hc =>
    exact .reported message (.sent message) he (h.isConnected_iff.mp hc) hreply
      (congrArg Outcome.events hs) rfl
  | broken message n e he hc =>
    exact .reported message (.sendFailed _ message) he (h.isConnected_iff.mp hc) hreply
      (congrArg Outcome.events hs) rfl

end Tcp

namespace Usb

theorem Sound.answered {l : Link} (h : Sound l) (vendor : Nat) (product : Option Nat)
    (p : Payload) (w : List Transfer) : (sender vendor product).Answered l p w := by
  have ho : Sending l p w (l.act (.send p w)) := sending l p w
  generalize hs : l.act (.send p w) = o at ho
  have hreply : (sender vendor product).reply l (.send p w) = o.reply := congrArg Outcome.reply hs
  have htraceless {e : Error} (hr : l.act (.send p w) = { link := l, reply := .error e }) :
      (sender vendor product).Traceless l (.send p w) := by
    constructor <;> simp [sender, adapter, Link.next, hr]
  cases ho with
  | unsendable e he => exact .unsendable e he hreply (htraceless hs)
  | refused message he hc =>
    refine .refused message he (fun hn => ?_) hreply (htraceless hs)
    obtain ⟨c, s, hcl, hse, hconn⟩ := Link.of_connected hn
    simp [Link.isConnected, hcl, hse, hconn] at hc
  | sent message c he hc _ _ =>
    exact .reported message (.sent message) he (h.isConnected_iff.mp hc) hreply
      (congrArg Outcome.events hs) rfl
  | failed message c e he hc _ _ =>
    exact .reported message (.sendFailed _ message) he (h.isConnected_iff.mp hc) hreply
      (congrArg Outcome.events hs) rfl

end Usb

namespace Sender

theorem rejected_or_reported (host : String) (service vendor : Nat) (product : Option Nat) :
    (∀ actions p w,
      (Tcp.sender host service).Settled ((Tcp.sender host service).run actions) p w) ∧
    ∀ actions p w,
      (Usb.sender vendor product).Settled ((Usb.sender vendor product).run actions) p w := by
  constructor
  · intro actions p w
    have h : Tcp.Sound ((Tcp.sender host service).run actions) :=
      turns_invariant (I := fun _ l => Tcp.Sound l) Tcp.Link.next (.of_unused rfl rfl)
        (fun _ _ a h => h.next a) actions
    exact (h.answered host service p w).settled
  · intro actions p w
    have h : Usb.Sound ((Usb.sender vendor product).run actions) :=
      turns_invariant (I := fun _ l => Usb.Sound l) Usb.Link.next (.of_unused rfl)
        (fun _ _ a h => h.next a) actions
    exact (h.answered vendor product p w).settled

end Sender

end LabelPrinter

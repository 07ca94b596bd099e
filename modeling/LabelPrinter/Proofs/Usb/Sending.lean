import LabelPrinter.Proofs.Usb.Flags
import LabelPrinter.Proofs.Usb.Transmission

/-!
What sending over an open session comes to: the message is reported once, as sent or as failed, and
the report fits the bytes that the endpoint accepted.
-/

namespace LabelPrinter.Usb

/-- The writes of a message, each with the next of the given outcomes. -/
structure Carried (message : List UInt8) (outcomes : List Transfer) (ws : List BulkWrite) :
    Prop where
  answered : ∀ (i : Nat) (w : BulkWrite), ws[i]? = some w →
    w.outcome = outcomes[i]?.getD (.accepted w.offer.length)
  /-- A write offers all that is left of the message, which is never nothing. -/
  offers : ∀ (i : Nat) (w : BulkWrite), ws[i]? = some w →
    w.offer ≠ [] ∧ (ws.take i).flatMap BulkWrite.accepted ++ w.offer = message
  advances : ∀ w ∈ ws.dropLast, w.fault? = none
  few : ws.length ≤ message.length

/-- The one report of a message, by what the writes brought over and what the endpoint took. -/
inductive Reported (l : Link) (message : List UInt8) (ws : List BulkWrite) (t : Transmission)
    (o : Outcome) : Prop where
  | sent : o.events = [.data (.sent message)] → o.link = l →
      ws.flatMap BulkWrite.accepted = message → t.taken = message →
      (∀ w ∈ ws, w.fault? = none) → Reported l message ws t o
  /-- Behind the accepted chunks there is at most what the failing write took. -/
  | failed (w : BulkWrite) (e : UsbError) (left : List UInt8) :
      o.events = [.data (.sendFailed ⟨"failed to send message", .usb e⟩ message)] →
      o.link = (if e = .timeout then l else l.close) →
      (o.link.state = .disconnected ↔ e ≠ .timeout) →
      message = ws.flatMap BulkWrite.accepted ++ left → left ≠ [] →
      t.taken = ws.flatMap BulkWrite.accepted ++ w.taken →
      ws.getLast? = some w → w.fault? = some e → Reported l message ws t o

theorem Writing.carried {message : List UInt8} {outcomes : List Transfer} {ws : List BulkWrite}
    {fault : Option UsbError} (h : Writing message outcomes ws fault) :
    Carried message outcomes ws :=
  ⟨fun _ _ => h.answered, fun _ _ => h.offers, h.advances, h.length_le⟩

theorem Link.of_connected {l : Link} (h : l.state = .connected) :
    ∃ c s, l.claimed = some c ∧ l.session = some s ∧ s.connected = true := by
  match hc : l.claimed, hs : l.session with
  | none, _ => simp [state, hc] at h
  | some _, none => simp [state, hc, hs] at h
  | some c, some s =>
    refine ⟨c, s, rfl, rfl, ?_⟩
    by_contra hn
    simp [state, hc, hs, hn] at h

theorem send_reports_once {l : Link} {payload : Payload} {message : List UInt8}
    (hl : l.state = .connected) (he : payload.encode l.charset = .ok message)
    (outcomes : List Transfer) :
    ∃ c ws t, l.claimed = some c ∧ Carried message outcomes ws ∧
      (l.send payload outcomes).reply = .ok () ∧
      (l.send payload outcomes).calls =
        ws.map (fun w => .write c.device.name c.out w.offer.length) ∧
      (l.send payload outcomes).transmission = some t ∧ t.Made ws ∧
      Reported l message ws t (l.send payload outcomes) := by
  obtain ⟨c, s, hc, hs, hconn⟩ := Link.of_connected hl
  obtain ⟨ws, hw, hmade⟩ := transmit_writing message outcomes
  have hcalls : Link.writes c (transmit message outcomes) =
      ws.map fun w => .write c.device.name c.out w.offer.length := by
    rw [Link.writes, hmade.offered_eq, List.map_map]
    rfl
  refine ⟨c, ws, transmit message outcomes, hc, hw.carried, ?_⟩
  have hsend := sending l payload outcomes
  generalize l.send payload outcomes = o at hsend ⊢
  cases hsend with
  | unsendable e hu => exact absurd (he.symm.trans hu) (by simp)
  | refused m hm hr => simp [Link.isConnected, hs, hconn, hc] at hr
  | sent m d hm _ hd hf =>
    obtain rfl : m = message := Except.ok.inj (hm.symm.trans he)
    obtain rfl : d = c := Option.some.inj (hd.symm.trans hc)
    have htaken := (transmit_taken m outcomes).2.1 hf
    exact ⟨rfl, hcalls, rfl, hmade, .sent rfl rfl (hw.accepted_all hf) htaken (hw.unfailing hf)⟩
  | failed m d e hm _ hd hf =>
    obtain rfl : m = message := Except.ok.inj (hm.symm.trans he)
    obtain rfl : d = c := Option.some.inj (hd.symm.trans hc)
    obtain ⟨left, hleft, hpart⟩ := hw.accepted_part hf
    obtain ⟨w, hlast, hfault, htaken⟩ := hw.taken_part hf
    have hbytes := hmade.taken_eq.trans htaken
    refine ⟨rfl, hcalls, rfl, hmade, .failed w e left rfl rfl ?_ hpart hleft hbytes hlast hfault⟩
    by_cases ht : e = .timeout
    · simp [ht, hl]
    · simp [ht, Link.close, Link.state, hc, hs, Session.close]

def printer : Device where
  name := "printer"
  bus := 1
  address := 1
  path := .ok [1]
  descriptor := .ok ⟨4611, 560⟩
  activeConfig := .ok [⟨0, [[⟨.bulk, .outgoing, 2⟩, ⟨.bulk, .incoming, 129⟩]]⟩]
  firstConfig := .ok []
  languages := .ok []

/-- The printer is claimed, and its session is open. -/
def held : Link :=
  [.init (.ok [printer]), .connect (.ok []), .start].foldl Link.next
    { vendor := 4611, product := none }

/-- The endpoint takes two of three bytes and then stalls. -/
theorem send_reports_once_stalled :
    held.state = .connected ∧ (Payload.message [1, 2, 3]).encode held.charset = .ok [1, 2, 3] ∧
      ∃ c ws t, held.claimed = some c ∧ Carried [1, 2, 3] [.accepted 2, .failed 0 .pipe] ws ∧
        (held.send (.message [1, 2, 3]) [.accepted 2, .failed 0 .pipe]).reply = .ok () ∧
        (held.send (.message [1, 2, 3]) [.accepted 2, .failed 0 .pipe]).calls =
          ws.map (fun w => .write c.device.name c.out w.offer.length) ∧
        (held.send (.message [1, 2, 3]) [.accepted 2, .failed 0 .pipe]).transmission = some t ∧
        t.Made ws ∧
        Reported held [1, 2, 3] ws t
          (held.send (.message [1, 2, 3]) [.accepted 2, .failed 0 .pipe]) :=
  ⟨rfl, rfl, send_reports_once rfl rfl [.accepted 2, .failed 0 .pipe]⟩

end LabelPrinter.Usb

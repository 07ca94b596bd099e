import LabelPrinter.Usb.Transfer
import Mathlib.Data.List.Basic
import Mathlib.Data.List.Induction

/-!
How a message goes out over the bus: each write offers what the ones before it have left, and the
message is given up with the first write that gets nowhere.
-/

namespace LabelPrinter.Usb

structure BulkWrite where
  offer : List UInt8
  outcome : Transfer
  deriving DecidableEq, Repr

namespace BulkWrite

def result (w : BulkWrite) : Except UsbError Nat := w.outcome.result w.offer.length

/-- What the endpoint has taken after the write, however that is reported. -/
def taken (w : BulkWrite) : List UInt8 := w.offer.take (w.outcome.taken w.offer.length)

/-- The chunk that the write is reported to have brought over. -/
def accepted (w : BulkWrite) : List UInt8 :=
  match w.result with
  | .ok n => w.offer.take n
  | .error _ => []

/-- The error that the message is given up with after this write. -/
def fault? (w : BulkWrite) : Option UsbError :=
  match w.result with
  | .ok 0 => some .timeout
  | .ok _ => none
  | .error e => some e

end BulkWrite

/-- The writes of a message and the error that it is given up with. -/
inductive Writing : List UInt8 → List Transfer → List BulkWrite → Option UsbError → Prop where
  | done (outcomes : List Transfer) : Writing [] outcomes [] none
  /-- Behind the given outcomes everything is taken. -/
  | freely {message : List UInt8} : message ≠ [] →
      Writing message [] [⟨message, .accepted message.length⟩] none
  | failed {message : List UInt8} {t : Transfer} {e : UsbError} (outcomes : List Transfer) :
      message ≠ [] → BulkWrite.fault? ⟨message, t⟩ = some e →
      Writing message (t :: outcomes) [⟨message, t⟩] (some e)
  | on {message : List UInt8} {t : Transfer} {n : Nat} {outcomes : List Transfer}
      {ws : List BulkWrite} {fault : Option UsbError} : message ≠ [] →
      BulkWrite.result ⟨message, t⟩ = .ok n → 0 < n →
      Writing (message.drop n) outcomes ws fault →
      Writing message (t :: outcomes) (⟨message, t⟩ :: ws) fault

/-- The writes of a message are those that the transmission has made, with what they offered and
what was taken of that. -/
structure Transmission.Made (t : Transmission) (ws : List BulkWrite) : Prop where
  offered_eq : t.offered = ws.map (·.offer)
  taken_eq : t.taken = ws.flatMap BulkWrite.taken

theorem transmit_writing (message : List UInt8) (outcomes : List Transfer) :
    ∃ ws, Writing message outcomes ws (transmit message outcomes).fault ∧
      (transmit message outcomes).Made ws := by
  induction message, outcomes using transmit.induct with
  | case1 outcomes =>
    simp only [transmit]
    exact ⟨[], .done outcomes, rfl, rfl⟩
  | case2 b rest =>
    simp only [transmit]
    refine ⟨[⟨b :: rest, .accepted (b :: rest).length⟩], .freely (by simp), rfl, ?_⟩
    simp [BulkWrite.taken, Transfer.taken]
  | case3 b rest t outcomes e he =>
    simp only [transmit, he]
    have hf : BulkWrite.fault? ⟨b :: rest, t⟩ = some e := by
      simp only [BulkWrite.fault?, BulkWrite.result, he]
    exact ⟨[⟨b :: rest, t⟩], .failed outcomes (by simp) hf, rfl, (List.append_nil _).symm⟩
  -- a write that takes nothing counts as a timeout
  | case4 b rest t outcomes hz =>
    simp only [transmit, hz]
    have hf : BulkWrite.fault? ⟨b :: rest, t⟩ = some .timeout := by
      simp only [BulkWrite.fault?, BulkWrite.result, hz]
    exact ⟨[⟨b :: rest, t⟩], .failed outcomes (by simp) hf, rfl, (List.append_nil _).symm⟩
  | case5 b rest t outcomes n hn ht ih =>
    obtain ⟨ws, hw, ho, hb⟩ := ih
    simp only [transmit, ht]
    refine ⟨⟨b :: rest, t⟩ :: ws, .on (by simp) ht (Nat.pos_of_ne_zero hn) hw, ?_, ?_⟩
    · rw [ho]
      rfl
    · rw [hb]
      rfl

namespace Transfer

variable {t : Transfer} {offered : Nat}

theorem taken_of_ok {n : Nat} (h : t.result offered = .ok n) : t.taken offered = n := by
  cases t with
  | accepted k => exact Except.ok.inj h
  | failed k e =>
    rw [result] at h
    split_ifs at h
    exact Except.ok.inj h

/-- A timeout that is reported as such has taken nothing. -/
theorem taken_of_timeout (h : t.result offered = .error .timeout) : t.taken offered = 0 := by
  cases t with
  | accepted k => exact absurd h nofun
  | failed k e =>
    rw [result] at h
    split_ifs at h with hk
    obtain rfl := Except.error.inj h
    have hmin : ¬0 < min k offered := by simpa using hk
    exact Nat.eq_zero_of_not_pos hmin

end Transfer

namespace BulkWrite

theorem fault?_of_advance {w : BulkWrite} {n : Nat} (h : w.result = .ok n) (hn : 0 < n) :
    w.fault? = none ∧ w.accepted = w.offer.take n := by
  obtain ⟨k, rfl⟩ : ∃ k, n = k + 1 := ⟨n - 1, by omega⟩
  simp [fault?, accepted, h]

theorem accepted_of_fault {w : BulkWrite} {e : UsbError} (h : w.fault? = some e) :
    w.accepted = [] := by
  match hr : w.result with
  | .ok 0 => simp [accepted, hr]
  | .ok (n + 1) => simp [fault?, hr] at h
  | .error e => simp [accepted, hr]

/-- As long as a write does not end the message, what is taken is what is reported. -/
theorem taken_of_unfailing {w : BulkWrite} (h : w.fault? = none) : w.taken = w.accepted := by
  match hr : w.result with
  | .ok 0 => simp [fault?, hr] at h
  | .ok (n + 1) => rw [taken, Transfer.taken_of_ok hr, accepted, hr]
  | .error e => simp [fault?, hr] at h

theorem flatMap_taken {ws : List BulkWrite} (h : ∀ w ∈ ws, w.fault? = none) :
    ws.flatMap taken = ws.flatMap accepted :=
  List.flatMap_congr fun w hw => taken_of_unfailing (h w hw)

theorem taken_of_timeout {w : BulkWrite} (h : w.fault? = some .timeout) : w.taken = [] := by
  match hr : w.result with
  | .ok 0 => rw [taken, Transfer.taken_of_ok hr, List.take_zero]
  | .ok (n + 1) => simp [fault?, hr] at h
  | .error e =>
    obtain rfl : e = .timeout := by simpa [fault?, hr] using h
    rw [taken, Transfer.taken_of_timeout hr, List.take_zero]

theorem accepted_of_all (message : List UInt8) :
    accepted ⟨message, .accepted message.length⟩ = message := by
  simp [accepted, result, Transfer.result]

theorem fault?_of_all {message : List UInt8} (h : message ≠ []) :
    fault? ⟨message, .accepted message.length⟩ = none := by
  have hr : result ⟨message, .accepted message.length⟩ = .ok message.length := by
    simp [result, Transfer.result]
  exact (fault?_of_advance hr (List.length_pos_iff.mpr h)).1

end BulkWrite

namespace Writing

variable {message : List UInt8} {outcomes : List Transfer} {ws : List BulkWrite}
  {fault : Option UsbError}

theorem answered (h : Writing message outcomes ws fault) {i : Nat} {w : BulkWrite}
    (hw : ws[i]? = some w) : w.outcome = outcomes[i]?.getD (.accepted w.offer.length) := by
  induction h generalizing i with
  | done outcomes => exact absurd hw (by simp)
  | freely _ | failed outcomes _ _ =>
    cases i with
    | zero =>
      obtain rfl := Option.some.inj hw
      rfl
    | succ i => exact absurd hw (by simp)
  | on _ _ _ _ ih =>
    cases i with
    | zero =>
      obtain rfl := Option.some.inj hw
      rfl
    | succ i => exact ih hw

theorem offers (h : Writing message outcomes ws fault) {i : Nat} {w : BulkWrite}
    (hw : ws[i]? = some w) :
    w.offer ≠ [] ∧ (ws.take i).flatMap BulkWrite.accepted ++ w.offer = message := by
  induction h generalizing i with
  | done outcomes => exact absurd hw (by simp)
  | freely hm | failed outcomes hm _ =>
    cases i with
    | zero =>
      obtain rfl := Option.some.inj hw
      exact ⟨hm, rfl⟩
    | succ i => exact absurd hw (by simp)
  | on hm hr hn _ ih =>
    cases i with
    | zero =>
      obtain rfl := Option.some.inj hw
      exact ⟨hm, rfl⟩
    | succ i =>
      obtain ⟨hne, he⟩ := ih hw
      refine ⟨hne, ?_⟩
      rw [List.take_succ_cons, List.flatMap_cons, (BulkWrite.fault?_of_advance hr hn).2,
        List.append_assoc, he, List.take_append_drop]

theorem advances (h : Writing message outcomes ws fault) :
    ∀ w ∈ ws.dropLast, w.fault? = none := by
  induction h with
  | done outcomes => simp
  | freely _ => simp
  | failed outcomes _ _ => simp
  | @on _ _ _ _ ws _ _ hr hn _ ih =>
    cases ws with
    | nil => simp
    | cons v ws =>
      rw [List.dropLast_cons_cons]
      rintro w (_ | ⟨_, hw⟩)
      · exact (BulkWrite.fault?_of_advance hr hn).1
      · exact ih w hw

theorem fault_eq (h : Writing message outcomes ws fault) :
    fault = ws.getLast?.bind BulkWrite.fault? := by
  induction h with
  | done outcomes => rfl
  | freely hm => exact (BulkWrite.fault?_of_all hm).symm
  | failed outcomes _ hf => exact hf.symm
  | @on _ _ _ _ ws _ _ hr hn _ ih =>
    rw [ih]
    cases ws with
    | nil => exact (BulkWrite.fault?_of_advance hr hn).1.symm
    | cons v ws => rw [List.getLast?_cons_cons]

theorem length_le (h : Writing message outcomes ws fault) : ws.length ≤ message.length := by
  induction h with
  | done outcomes => simp
  | freely hm => exact List.length_pos_iff.mpr hm
  | failed outcomes hm _ => exact List.length_pos_iff.mpr hm
  | on hm _ hn _ ih =>
    have hpos := List.length_pos_iff.mpr hm
    rw [List.length_drop] at ih
    rw [List.length_cons]
    omega

theorem accepted_all (h : Writing message outcomes ws fault) (hf : fault = none) :
    ws.flatMap BulkWrite.accepted = message := by
  induction h with
  | done outcomes => rfl
  | @freely message _ => simp [BulkWrite.accepted_of_all]
  | failed outcomes _ _ => exact absurd hf nofun
  | on _ hr hn _ ih =>
    rw [List.flatMap_cons, (BulkWrite.fault?_of_advance hr hn).2, ih hf, List.take_append_drop]

theorem accepted_part (h : Writing message outcomes ws fault) {e : UsbError}
    (hf : fault = some e) :
    ∃ left, left ≠ [] ∧ message = ws.flatMap BulkWrite.accepted ++ left := by
  induction h with
  | done outcomes => exact absurd hf nofun
  | freely _ => exact absurd hf nofun
  | @failed message _ _ outcomes hm hw =>
    exact ⟨message, hm, by simp [BulkWrite.accepted_of_fault hw]⟩
  | on _ hr hn _ ih =>
    obtain ⟨left, hl, he⟩ := ih hf
    refine ⟨left, hl, ?_⟩
    rw [List.flatMap_cons, (BulkWrite.fault?_of_advance hr hn).2, List.append_assoc, ← he,
      List.take_append_drop]

theorem unfailing (h : Writing message outcomes ws fault) (hf : fault = none) :
    ∀ w ∈ ws, w.fault? = none := by
  have hlast := h.fault_eq
  intro w hw
  cases ws using List.reverseRecOn with
  | nil => exact absurd hw List.not_mem_nil
  | append_singleton before v =>
    rw [hf, List.getLast?_concat] at hlast
    obtain hw | rfl : w ∈ before ∨ w = v := by simpa using hw
    · exact h.advances w (by rwa [List.dropLast_concat])
    · exact hlast.symm

/-- All that is taken of a message but what its failing write may still have taken. -/
theorem taken_part (h : Writing message outcomes ws fault) {e : UsbError} (hf : fault = some e) :
    ∃ w, ws.getLast? = some w ∧ w.fault? = some e ∧
      ws.flatMap BulkWrite.taken = ws.flatMap BulkWrite.accepted ++ w.taken := by
  have hlast := h.fault_eq
  cases ws using List.reverseRecOn with
  | nil => exact absurd (hf.symm.trans hlast) nofun
  | append_singleton before w =>
    have hbefore := h.advances
    rw [List.dropLast_concat] at hbefore
    rw [List.getLast?_concat, hf] at hlast
    refine ⟨w, List.getLast?_concat, hlast.symm, ?_⟩
    simp [BulkWrite.flatMap_taken hbefore, BulkWrite.accepted_of_fault hlast.symm]

theorem taken_prefix (h : Writing message outcomes ws fault) :
    ws.flatMap BulkWrite.taken <+: message := by
  cases ws using List.reverseRecOn with
  | nil => exact List.nil_prefix
  | append_singleton before w =>
    have hbefore := h.advances
    rw [List.dropLast_concat] at hbefore
    -- the last write takes from the front of what the ones before it have left
    obtain ⟨-, hoffer⟩ := h.offers (i := before.length) (w := w) (by simp)
    rw [List.take_left] at hoffer
    rw [← hoffer, List.flatMap_append, BulkWrite.flatMap_taken hbefore, List.flatMap_singleton]
    exact (List.prefix_append_right_inj _).mpr (List.take_prefix _ _)

end Writing

theorem transmit_taken (message : List UInt8) (outcomes : List Transfer) :
    (transmit message outcomes).taken <+: message ∧
      ((transmit message outcomes).fault = none → (transmit message outcomes).taken = message) ∧
      ((transmit message outcomes).fault = some .timeout →
        (transmit message outcomes).taken ≠ message) := by
  obtain ⟨ws, hw, -, ht⟩ := transmit_writing message outcomes
  rw [ht]
  refine ⟨hw.taken_prefix, fun hf => ?_, fun hf he => ?_⟩
  · rw [BulkWrite.flatMap_taken (hw.unfailing hf), hw.accepted_all hf]
  · obtain ⟨w, -, hw', hpart⟩ := hw.taken_part hf
    obtain ⟨left, hl, hleft⟩ := hw.accepted_part hf
    rw [hpart, BulkWrite.taken_of_timeout hw', List.append_nil] at he
    exact hl (List.append_right_eq_self.mp (hleft.symm.trans he.symm))

end LabelPrinter.Usb

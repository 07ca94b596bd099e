import LabelPrinter.Proofs.Usb.Steps

/-!
The flags of a session fit each other, and there is no session without a printer, whatever is done
to the connection.
-/

namespace LabelPrinter.Usb

structure Sound (l : Link) : Prop where
  bare : l.claimed = none → l.session = none
  flags : l.isConnected = l.isAlive

namespace Sound

variable {l : Link}

theorem session_cases (h : Sound l) :
    (l.claimed = none ∧ l.session = none) ∨
      ((∃ c, l.claimed = some c) ∧ (l.session = none ∨ l.session = some ⟨true, true⟩ ∨
        l.session = some ⟨false, false⟩)) := by
  cases hc : l.claimed with
  | none => exact .inl ⟨rfl, h.bare hc⟩
  | some c =>
    refine .inr ⟨⟨c, rfl⟩, ?_⟩
    have hf := h.flags
    match hs : l.session with
    | none => exact .inl rfl
    | some ⟨true, true⟩ => exact .inr (.inl rfl)
    | some ⟨false, false⟩ => exact .inr (.inr rfl)
    | some ⟨true, false⟩ | some ⟨false, true⟩ => simp [Link.isConnected, Link.isAlive, hs] at hf

theorem of_unused (hs : l.session = none) : Sound l :=
  ⟨fun _ => hs, by simp [Link.isConnected, Link.isAlive, hs]⟩

theorem of_reader (h : Sound l) (r : Option Reader) : Sound { l with reader := r } :=
  ⟨h.bare, h.flags⟩

theorem close (h : Sound l) : Sound l.close := by
  refine ⟨fun hc => by simp [Link.close, h.bare hc], ?_⟩
  cases hs : l.session <;> simp [Link.close, Link.isConnected, Link.isAlive, Session.close, hs]

theorem init (h : Sound l) (bus : Bus) : Sound (l.init bus).link := by
  unfold Link.init
  split
  · exact h
  · dsimp only
    split
    · exact ⟨nofun, h.flags⟩
    · exact h

theorem connect (h : Sound l) (last : Read) : Sound (l.connect last).link := by
  unfold Link.connect
  split_ifs with ha hc
  · exact h
  · exact h
  · obtain ⟨_, _, hj⟩ := l.join_frame last
    refine ⟨fun hn => ?_, rfl⟩
    simp only [hj] at hn
    simp [hn] at hc

theorem shutdown (l : Link) (last : Read) : Sound (l.shutdown last).link := by
  unfold Link.shutdown
  dsimp only
  split
  · exact .of_unused rfl
  · exact .of_unused rfl

theorem send (h : Sound l) (payload : Payload) (outcomes : List Transfer) :
    Sound (l.send payload outcomes).link := by
  have ho := sending l payload outcomes
  generalize l.send payload outcomes = o at ho ⊢
  cases ho with
  | unsendable _ _ | refused _ _ _ | sent _ _ _ _ _ _ => exact h
  | failed message c e _ _ _ _ =>
    change Sound (if e = .timeout then l else l.close)
    split_ifs
    · exact h
    · exact h.close

theorem start (h : Sound l) : Sound l.start.1 := by
  obtain ⟨r, hr⟩ := l.start_frame
  exact hr ▸ h.of_reader r

theorem read (h : Sound l) (r : Read) : Sound (l.read r).1 := by
  obtain ⟨w, hw⟩ := l.read_frame r
  exact hw ▸ h.of_reader w

theorem finish (h : Sound l) : Sound l.finish.1 := by
  unfold Link.finish
  split
  · exact h.close.of_reader none
  · exact h

theorem next (h : Sound l) (a : Action) : Sound (l.next a) := by
  cases a with
  | init bus => exact h.init bus
  | connect last => exact h.connect last
  | disconnect => exact h.close
  | shutdown last => exact .shutdown l last
  | send payload outcomes => exact h.send payload outcomes
  | setCharset charset => exact ⟨h.bare, h.flags⟩
  | start => exact h.start
  | read r => exact h.read r
  | finish => exact h.finish

theorem isConnected_iff (h : Sound l) : l.isConnected = true ↔ l.state = .connected := by
  obtain ⟨hc, hs⟩ | ⟨⟨c, hc⟩, hs | hs | hs⟩ := h.session_cases
  all_goals simp [Link.isConnected, Link.state, hs, hc]

end Sound

end LabelPrinter.Usb

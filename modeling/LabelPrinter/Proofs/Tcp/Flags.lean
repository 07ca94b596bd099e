import LabelPrinter.Proofs.Tcp.Steps

/-!
The flags of a session fit each other and the place where its worker stands, whatever is done to the
connection.
-/

namespace LabelPrinter.Tcp

namespace Link

theorem dialed_frame (l : Link) : ∃ s w, l.dialed.1 = { l with session := s, worker := w } := by
  unfold dialed
  split
  · split_ifs
    · exact ⟨_, _, rfl⟩
    · exact ⟨_, _, rfl⟩
  · exact ⟨_, _, rfl⟩
  · split_ifs
    · exact ⟨_, _, rfl⟩
    · exact ⟨_, _, rfl⟩
  · exact ⟨_, _, rfl⟩

theorem read_frame (l : Link) (r : Read) : ∃ w, (l.read r).1 = { l with worker := w } := by
  unfold read
  split
  · exact ⟨_, rfl⟩
  · exact ⟨_, rfl⟩
  · split_ifs
    · exact ⟨_, rfl⟩
    · exact ⟨_, rfl⟩
  · exact ⟨_, rfl⟩

theorem finish_frame (l : Link) : ∃ s w, l.finish.1 = { l with session := s, worker := w } := by
  unfold finish
  split
  · exact ⟨_, _, rfl⟩
  · exact ⟨_, _, rfl⟩

theorem join_frame (l : Link) (last : Read) :
    ∃ s w, (l.join last).1 = { l with session := s, worker := w } := by
  obtain ⟨_, _, hd⟩ := l.dialed_frame
  obtain ⟨_, hr⟩ := l.dialed.1.read_frame last
  obtain ⟨s, w, hf⟩ := (l.dialed.1.read last).1.finish_frame
  refine ⟨s, w, hf.trans ?_⟩
  rw [hr, hd]

end Link

theorem initialized_join (l : Link) (last : Read) :
    (l.join last).1.initialized = l.initialized := by
  obtain ⟨_, _, h⟩ := l.join_frame last
  rw [h]

/-- All that can come of a call that sends. -/
inductive Sending (l : Link) (payload : Payload) : Write → Outcome → Prop where
  | unsendable {write : Write} (e : Error) : payload.encode l.charset = .error e →
      Sending l payload write { link := l, reply := .error e }
  | refused {write : Write} (message : List UInt8) : payload.encode l.charset = .ok message →
      l.isConnected = false → Sending l payload write { link := l, reply := .error .notConnected }
  | sent (message : List UInt8) : payload.encode l.charset = .ok message → l.isConnected = true →
      Sending l payload .complete
        { link := l, events := [.data (.sent message)], taken := message }
  | broken (message : List UInt8) (n : Nat) (e : IoError) :
      payload.encode l.charset = .ok message → l.isConnected = true →
      Sending l payload (.broken n e)
        { link := l.close
          events := [.data (.sendFailed ⟨"failed to send message", .io e⟩ message)]
          taken := message.take n }

theorem sending (l : Link) (payload : Payload) (write : Write) :
    Sending l payload write (l.send payload write) := by
  unfold Link.send
  split
  case h_1 e he => exact .unsendable e he
  case h_2 message he =>
    cases hc : l.isConnected
    · exact .refused message he hc
    · cases write with
      | complete => exact .sent message he hc
      | broken n e => exact .broken message n e he hc

def Worker.isDialing : Worker → Bool
  | .dialing _ _ => true
  | .reading _ _ | .leaving _ => false

structure Sound (l : Link) : Prop where
  bare : l.initialized = false → l.session = none
  alive : l.isConnected = true → l.isAlive = true
  /-- A live session is connected as soon as its worker has a socket. -/
  stage : ∀ w ∈ l.worker, l.isAlive = true → l.isConnected = !w.isDialing

namespace Sound

variable {l : Link}

theorem session_cases (h : Sound l) :
    (l.initialized = false ∧ l.session = none) ∨
      (l.initialized = true ∧ (l.session = none ∨ l.session = some ⟨true, false⟩ ∨
        l.session = some ⟨true, true⟩ ∨ l.session = some ⟨false, false⟩)) := by
  cases hi : l.initialized
  · exact .inl ⟨rfl, h.bare hi⟩
  · refine .inr ⟨rfl, ?_⟩
    have ha := h.alive
    match hs : l.session with
    | none => exact .inl rfl
    | some ⟨true, false⟩ => exact .inr (.inl rfl)
    | some ⟨true, true⟩ => exact .inr (.inr (.inl rfl))
    | some ⟨false, false⟩ => exact .inr (.inr (.inr rfl))
    | some ⟨false, true⟩ => simp [Link.isConnected, Link.isAlive, hs] at ha

theorem of_unused (hs : l.session = none) (hw : l.worker = none) : Sound l :=
  ⟨fun _ => hs, by simp [Link.isConnected, hs], by simp [hw]⟩

theorem close (h : Sound l) : Sound l.close := by
  refine ⟨fun hi => ?_, fun hc => ?_, fun w hw ha => ?_⟩
  · simp [Link.close, h.bare hi]
  · cases hs : l.session <;> simp [Link.close, Link.isConnected, Session.close, hs] at hc
  · simp [isAlive_close] at ha

theorem of_worker (h : Sound l) {w : Option Worker}
    (hw : ∀ v ∈ w, l.isAlive = true → l.isConnected = !v.isDialing) :
    Sound { l with worker := w } := ⟨h.bare, h.alive, hw⟩

theorem of_ended (h : Sound l) : Sound { l with worker := none } := h.of_worker (by simp)

theorem dialed (h : Sound l) : Sound l.dialed.1 := by
  unfold Link.dialed
  split
  case h_1 hw =>
    split_ifs
    · exact h.close.of_ended
    · exact h.of_ended
  case h_2 => exact h.close.of_ended
  case h_3 charset hw =>
    split_ifs with ha
    · refine ⟨fun hi => ?_, fun _ => rfl, by simp [Link.isConnected, Worker.isDialing]⟩
      simp [Link.isAlive, h.bare hi] at ha
    · exact h.of_ended
  case h_4 => exact h

theorem read (h : Sound l) (r : Read) : Sound (l.read r).1 := by
  by_cases hl : ∃ charset framer, l.worker = some (.reading charset framer)
  · obtain ⟨charset, framer, hw⟩ := hl
    have hon (ha : l.isAlive = true) : l.isConnected = true := h.stage _ hw ha
    obtain ⟨-, ⟨_, hr, -, -⟩ | ⟨hr, -⟩ | ⟨_, hr, -, -, -⟩⟩ := read_cases hw r
    all_goals
      rw [hr]
      apply h.of_worker
      simpa [Worker.isDialing] using hon
  · rw [read_idle hl]
    exact h

theorem finish (h : Sound l) : Sound l.finish.1 := by
  unfold Link.finish
  split
  · exact h.close.of_ended
  · exact h

theorem next (h : Sound l) (a : Action) : Sound (l.next a) := by
  cases a with
  | init => exact ⟨by simp [Link.next, Link.act, Link.init], h.alive, h.stage⟩
  | connect dial last =>
    simp only [Link.next, Link.act, Link.connect]
    split_ifs with hi ha
    · exact h
    · exact h
    · refine ⟨fun hb => ?_, by simp [Link.isAlive], by simp [Link.isConnected, Worker.isDialing]⟩
      rw [initialized_join] at hb
      simp [hb] at hi
  | disconnect => exact h.close
  | shutdown last => exact .of_unused rfl (join_parting l.close last (isAlive_close l)).1
  | send payload write =>
    have ho := sending l payload write
    change Sound (l.send payload write).link
    generalize l.send payload write = o at ho ⊢
    cases ho with
    | unsendable _ _ | refused _ _ _ | sent _ _ _ => exact h
    | broken _ _ _ _ _ => exact h.close
  | setCharset charset => exact ⟨h.bare, h.alive, h.stage⟩
  | dialed => exact h.dialed
  | read r => exact h.read r
  | finish => exact h.finish

theorem isConnected_iff (h : Sound l) : l.isConnected = true ↔ l.state = .connected := by
  obtain ⟨hi, hs⟩ | ⟨hi, hs | hs | hs | hs⟩ := h.session_cases
  all_goals simp [Link.isConnected, Link.state, hi, hs]

theorem state_of_worker (h : Sound l) {w : Worker} (hw : l.worker = some w)
    (ha : l.isAlive = true) :
    l.initialized = true ∧ l.state = if w.isDialing then .connecting else .connected := by
  have hc := h.stage w hw ha
  obtain ⟨hi, hs⟩ | ⟨hi, hs | hs | hs | hs⟩ := h.session_cases
  all_goals simp_all [Link.isAlive, Link.isConnected, Link.state]

end Sound

end LabelPrinter.Tcp

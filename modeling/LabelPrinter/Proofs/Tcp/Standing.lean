import LabelPrinter.Proofs.Tcp.Flags

/-!
The invariant of a session: what has been told of it fits where its worker stands.
-/

namespace LabelPrinter.Tcp

/-- What has been told of the latest session, as far as its worker has got. A session that is closed
while its worker dials has been abandoned. -/
def Told (address : String) (c : Cycle) : Option Worker → Prop
  | none => Block address c c.log
  | some (.dialing _ dial) => c.dial = dial ∧ c.log = [] ∧ ¬c.HungUp ∧ c.Dialing ∧
      (c.Closed → c.Abandoned)
  | some (.reading _ _) => c.dial = .opened ∧ c.DialEnds ∧ c.log = [.established] ∧ ¬c.HungUp
  | some (.leaving none) => c.dial = .opened ∧ c.DialEnds ∧ c.log = [.established] ∧
      (c.HungUp ∨ c.Closed)
  | some (.leaving (some f)) => c.dial = .opened ∧ c.DialEnds ∧ c.log = [.established] ∧
      ¬c.HungUp ∧ ∃ e, f = lostRead e ∧ c.ReadFails e

structure Standing (address : String) (l : Link) (c : Cycle) : Prop where
  address_eq : l.address = address
  sound : Sound l
  alive : l.worker.isSome = true → (l.isAlive = true ↔ ¬c.Closed)
  told : Told address c l.worker

/-- A turn in which the worker stays where it is. It ends no dial, and if it closes a session that
still dials, that session is given up. -/
theorem Told.add {address : String} {c : Cycle} {w : Option Worker} (h : Told address c w)
    {t : Turn} (hq : Turn.lifecycle t = []) (ht : ¬Turn.HangsUp t)
    (hd : ∀ charset dial, w = some (.dialing charset dial) →
      t.action ≠ .dialed ∧ (Turn.closes t = true → (c.add t).Abandoned)) :
    Told address (c.add t) w := by
  have hlog : (c.add t).log = c.log := by rw [Cycle.log_add, hq, List.append_nil]
  have hup : (c.add t).HungUp ↔ c.HungUp := by simp [Cycle.hungUp_add, ht]
  match w with
  | none =>
    change Block address (c.add t) (c.add t).log
    exact hlog ▸ Block.add h ht
  | some (.dialing charset dial) =>
    obtain ⟨hdial, hl, hn, hdialing, habandoned⟩ := h
    obtain ⟨ha, hg⟩ := hd charset dial rfl
    refine ⟨hdial, hlog ▸ hl, mt hup.mp hn, (c.dialing_add t).mpr ⟨hdialing, ha⟩, fun hc => ?_⟩
    exact ((c.closed_add t).mp hc).elim (fun hc => (habandoned hc).add t) hg
  | some (.reading _ _) =>
    obtain ⟨hdial, hends, hl, hn⟩ := h
    exact ⟨hdial, hends.add t, hlog ▸ hl, mt hup.mp hn⟩
  | some (.leaving none) =>
    obtain ⟨hdial, hends, hl, hc⟩ := h
    refine ⟨hdial, hends.add t, hlog ▸ hl, ?_⟩
    rw [hup, Cycle.closed_add]
    exact hc.imp_right .inl
  | some (.leaving (some f)) =>
    obtain ⟨hdial, hends, hl, hn, e, he, hr⟩ := h
    exact ⟨hdial, hends.add t, hlog ▸ hl, mt hup.mp hn, e, he, hr.add t⟩

theorem Told.leave {address : String} {c : Cycle} {f : Option Fault}
    (h : Told address c (some (.leaving f))) {t : Turn}
    (hp : Turn.lifecycle t = parting (some (.leaving f))) (ht : ¬Turn.HangsUp t) :
    Block address (c.add t) (c.add t).log := by
  rw [Cycle.log_add, hp]
  cases f with
  | none =>
    obtain ⟨hd, hends, hl, hc⟩ := h
    rw [hl]
    refine .lost hd (hends.add t) ?_
    rw [Cycle.hungUp_add, Cycle.closed_add]
    exact hc.imp .inl .inl
  | some f =>
    obtain ⟨hd, hends, hl, hn, e, rfl, hr⟩ := h
    rw [hl]
    refine .broken e hd (hends.add t) (hr.add t) ?_
    simp [Cycle.hungUp_add, hn, ht]

theorem Told.part {address : String} {c : Cycle} {w : Option Worker} (h : Told address c w)
    {t : Turn} (hp : Turn.lifecycle t = parting w) (ht : ¬Turn.HangsUp t)
    (hc : w.isSome = true → (c.add t).Closed)
    (hg : ∀ charset dial, w = some (.dialing charset dial) → (c.add t).Abandoned) :
    Block address (c.add t) (c.add t).log := by
  have hup (hn : ¬c.HungUp) : ¬(c.add t).HungUp := by simp [Cycle.hungUp_add, hn, ht]
  match w with
  | none =>
    rw [Cycle.log_add, hp, parting, List.append_nil]
    exact Block.add h ht
  | some (.dialing charset dial) =>
    obtain ⟨hd, hl, hn, -⟩ := h
    have habandoned := hg charset dial rfl
    rw [Cycle.log_add, hp, hl]
    cases dial with
    | failed e => exact .abandoned habandoned (hup hn)
    | unusable e => exact .unusable e hd (hup hn)
    | opened => exact .abandoned habandoned (hup hn)
  | some (.reading _ _) =>
    obtain ⟨hd, hends, hl, -⟩ := h
    rw [Cycle.log_add, hp, hl]
    exact .lost hd (hends.add t) (.inr (hc rfl))
  | some (.leaving f) => exact h.leave hp ht

/-- A session that is closed before its dial has ended is given up. -/
theorem Standing.give_up {address : String} {l : Link} {c : Cycle} (h : Standing address l c)
    {charset : Charset} {dial : Dial} (hl : l.worker = some (.dialing charset dial)) {a : Action}
    (ha : a = .disconnect ∨ ∃ last, a = .shutdown last) : (c.add ⟨l, a⟩).Abandoned := by
  have ht := h.told
  rw [hl] at ht
  obtain ⟨-, -, -, hdialing, habandoned⟩ := ht
  by_cases hc : c.Closed
  · exact (habandoned hc).add _
  · have halive : l.isAlive = true := (h.alive (by rw [hl]; rfl)).mpr hc
    exact hdialing.abandon hc ha (h.sound.state_of_worker hl halive).2

theorem Standing.given_up {address : String} {l : Link} {c : Cycle} (h : Standing address l c)
    {charset : Charset} {dial : Dial} (hl : l.worker = some (.dialing charset dial))
    (ha : l.isAlive = false) : c.Abandoned := by
  have ht := h.told
  rw [hl] at ht
  have hc : c.Closed := not_not.mp (mt (h.alive (by rw [hl]; rfl)).mpr (by simp [ha]))
  exact ht.2.2.2.2 hc

section

variable {address : String} {l : Link} {c : Cycle} {a : Action}

theorem Standing.quiet (h : Standing address l c) (hs : (l.next a).address = l.address)
    (hw : (l.next a).worker = l.worker)
    (ha : (l.next a).isAlive = (l.isAlive && !Turn.closes ⟨l, a⟩))
    (hq : Turn.lifecycle ⟨l, a⟩ = []) (ht : ¬Turn.HangsUp ⟨l, a⟩)
    (hd : ∀ charset dial, l.worker = some (.dialing charset dial) →
      a ≠ .dialed ∧ (Turn.closes ⟨l, a⟩ = true → (c.add ⟨l, a⟩).Abandoned)) :
    Standing address (l.next a) (c.add ⟨l, a⟩) where
  address_eq := hs.trans h.address_eq
  sound := h.sound.next a
  alive hm := by
    have hl := h.alive (hw ▸ hm)
    rw [ha, Cycle.closed_add, Bool.and_eq_true, hl]
    cases Turn.closes ⟨l, a⟩ <;> simp
  told := hw ▸ h.told.add hq ht hd

/-- A worker that a step does not concern is left as it stands. -/
theorem Standing.idle (h : Standing address l c) (hl : l.act a = Link.silently (l, []))
    (hc : Turn.closes ⟨l, a⟩ = false) (ht : ¬Turn.HangsUp ⟨l, a⟩)
    (hd : ∀ charset dial, l.worker = some (.dialing charset dial) → a ≠ .dialed) :
    Standing address (l.next a) (c.add ⟨l, a⟩) := by
  have hn : l.next a = l := by rw [Link.next, hl, Link.silently]
  have hq : Turn.lifecycle ⟨l, a⟩ = [] := by rw [Turn.lifecycle, hl]; rfl
  refine h.quiet (by rw [hn]) (by rw [hn]) (by rw [hn, hc, Bool.not_false, Bool.and_true]) hq ht ?_
  exact fun charset dial hw => ⟨hd charset dial hw, by simp [hc]⟩

theorem Standing.ended (h : Standing address l c) (hs : (l.next a).address = l.address)
    (hw : (l.next a).worker = none) (hb : Block address (c.add ⟨l, a⟩) (c.add ⟨l, a⟩).log) :
    Standing address (l.next a) (c.add ⟨l, a⟩) where
  address_eq := hs.trans h.address_eq
  sound := h.sound.next a
  alive hm := by simp [hw] at hm
  told := by
    rw [hw]
    exact hb

theorem not_hangsUp_dialed : ¬Turn.HangsUp ⟨l, .dialed⟩ := by simp [Turn.HangsUp]

theorem hungUp_dialed : (c.add ⟨l, .dialed⟩).HungUp ↔ c.HungUp := by
  simp [Cycle.hungUp_add, not_hangsUp_dialed]

theorem closed_dialed : (c.add ⟨l, .dialed⟩).Closed ↔ c.Closed := by
  simp [Cycle.closed_add, Turn.closes]

theorem Standing.dialed_failed (h : Standing address l c) {charset : Charset} {e : IoError}
    (hl : l.worker = some (.dialing charset (.failed e))) (hb : l.isAlive = true) :
    Standing address (l.next .dialed) (c.add ⟨l, .dialed⟩) := by
  have hw := h.told
  have hends := Cycle.dialEnds_of_not_closed ((h.alive (by rw [hl]; rfl)).mp hb) l
  rw [hl] at hw
  obtain ⟨hd, hlog, hn, -, -⟩ := hw
  have hm : l.next .dialed = { l.close with worker := none } := by
    simp [Link.next, Link.act, Link.silently, Link.dialed, hl, hb]
  have hq : Turn.lifecycle ⟨l, .dialed⟩ =
      [.failing ⟨"unable to connect to " ++ address, .io e⟩] := by
    simp [Turn.lifecycle, Link.act, Link.silently, Link.dialed, hl, hb, Link.failing,
      Event.client?, h.address_eq]
  refine h.ended (by rw [hm]; rfl) (by rw [hm]) ?_
  rw [Cycle.log_add, hlog, hq]
  exact .unreachable e hd hends (mt hungUp_dialed.mp hn)

theorem Standing.dialed_unusable (h : Standing address l c) {charset : Charset} {e : IoError}
    (hl : l.worker = some (.dialing charset (.unusable e))) :
    Standing address (l.next .dialed) (c.add ⟨l, .dialed⟩) := by
  have hw := h.told
  rw [hl] at hw
  obtain ⟨hd, hlog, hn, -, -⟩ := hw
  have hm : l.next .dialed = { l.close with worker := none } := by
    simp [Link.next, Link.act, Link.silently, Link.dialed, hl]
  have hq : Turn.lifecycle ⟨l, .dialed⟩ = [.failing ⟨"unable to set up socket", .io e⟩] := by
    simp [Turn.lifecycle, Link.act, Link.silently, Link.dialed, hl, Link.failing, Event.client?]
  refine h.ended (by rw [hm]; rfl) (by rw [hm]) ?_
  rw [Cycle.log_add, hlog, hq]
  exact .unusable e hd (mt hungUp_dialed.mp hn)

theorem Standing.dialed_opened (h : Standing address l c) {charset : Charset}
    (hl : l.worker = some (.dialing charset .opened)) (hb : l.isAlive = true) :
    Standing address (l.next .dialed) (c.add ⟨l, .dialed⟩) := by
  have hw := h.told
  have halive := h.alive (by rw [hl]; rfl)
  rw [hl] at hw
  obtain ⟨hd, hlog, hn, -, -⟩ := hw
  have hm : l.next .dialed =
      { l with session := some ⟨true, true⟩, worker := some (.reading charset {}) } := by
    simp [Link.next, Link.act, Link.silently, Link.dialed, hl, hb]
  have hq : Turn.lifecycle ⟨l, .dialed⟩ = [.established] := by
    simp [Turn.lifecycle, Link.act, Link.silently, Link.dialed, hl, hb, Event.client?]
  refine ⟨by rw [hm]; exact h.address_eq, h.sound.next .dialed, ?_, ?_⟩
  · intro
    rw [closed_dialed, ← halive, hm]
    exact iff_of_true rfl hb
  · rw [hm]
    refine ⟨hd, Cycle.dialEnds_of_not_closed (halive.mp hb) l, ?_, mt hungUp_dialed.mp hn⟩
    rw [Cycle.log_add, hlog, hq]
    rfl

/-- A session that was closed in the dial is no longer told of, unless its socket is unusable. -/
theorem Standing.dialed_closed (h : Standing address l c) {charset : Charset} {dial : Dial}
    (hl : l.worker = some (.dialing charset dial)) (hb : l.isAlive = false) :
    Standing address (l.next .dialed) (c.add ⟨l, .dialed⟩) := by
  have hw := h.told
  have halive := h.alive (by rw [hl]; rfl)
  rw [hl] at hw
  have hm : (l.next .dialed).worker = none ∧ (l.next .dialed).address = l.address ∧
      Turn.lifecycle ⟨l, .dialed⟩ = parting (some (.dialing charset dial)) := by
    cases dial <;> simp [Link.next, Link.act, Link.silently, Link.dialed, hl, hb, parting,
      Turn.lifecycle, Link.failing, Event.client?, Link.close]
  refine h.ended hm.2.1 hm.1 (hw.part hm.2.2 not_hangsUp_dialed (fun _ => ?_) fun _ _ _ => ?_)
  · rw [closed_dialed]
    exact not_not.mp (mt halive.mpr (by simp [hb]))
  · exact (h.given_up hl hb).add _

theorem Standing.dialed (h : Standing address l c) :
    Standing address (l.next .dialed) (c.add ⟨l, .dialed⟩) := by
  -- only a worker that still dials is concerned, and it depends on the session what it does
  by_cases hl : ∃ charset dial, l.worker = some (.dialing charset dial)
  · obtain ⟨charset, dial, hl⟩ := hl
    by_cases hb : l.isAlive = true
    · cases dial with
      | failed e => exact h.dialed_failed hl hb
      | unusable e => exact h.dialed_unusable hl
      | opened => exact h.dialed_opened hl hb
    · exact h.dialed_closed hl (by simpa using hb)
  · refine h.idle (by rw [Link.act, dialed_idle hl]) rfl not_hangsUp_dialed fun _ _ hw => ?_
    exact absurd ⟨_, _, hw⟩ hl

theorem Standing.read (h : Standing address l c) (r : Read) :
    Standing address (l.next (.read r)) (c.add ⟨l, .read r⟩) := by
  have hclosed : (c.add ⟨l, .read r⟩).Closed ↔ c.Closed := by simp [Cycle.closed_add, Turn.closes]
  by_cases hl : ∃ charset framer, l.worker = some (.reading charset framer)
  · obtain ⟨charset, framer, hl⟩ := hl
    have hra : l.isAlive = true ↔ ¬c.Closed := h.alive (by rw [hl]; rfl)
    have hw := h.told
    rw [hl] at hw
    obtain ⟨hd, hends, hc, hn⟩ := hw
    have hends := hends.add ⟨l, .read r⟩
    have hturn : Turn.isReading ⟨l, .read r⟩ = true := by simp [Turn.isReading, hl]
    have hup (ht : r ≠ .ok []) : ¬(c.add ⟨l, .read r⟩).HungUp := by
      simp [Cycle.hungUp_add, hn, Turn.HangsUp, ht]
    obtain ⟨hq, hcases⟩ := read_cases hl r
    have hlog : (c.add ⟨l, .read r⟩).log = [.established] := by
      rw [Cycle.log_add, hc, Turn.lifecycle, Link.act, Link.silently, hq, List.append_nil]
    have hnext : l.next (.read r) = (l.read r).1 := rfl
    obtain ⟨w, hframe⟩ := l.read_frame r
    have hstand (ht : Told address (c.add ⟨l, .read r⟩) (l.read r).1.worker) :
        Standing address (l.next (.read r)) (c.add ⟨l, .read r⟩) := by
      refine ⟨by rw [hnext, hframe]; exact h.address_eq, h.sound.next (.read r), fun _ => ?_, ht⟩
      rw [hclosed, ← hra, hnext, hframe]
      rfl
    apply hstand
    obtain ⟨framer, hr, hb, ht⟩ | ⟨hr, ht⟩ | ⟨e, hr, rfl, hi, hb⟩ := hcases
    · rw [hr]
      exact ⟨hd, hends, hlog, hup ht⟩
    · rw [hr]
      refine ⟨hd, hends, hlog, ?_⟩
      rw [Cycle.hungUp_add, hclosed]
      obtain rfl | hb := ht
      · exact .inl (.inr ⟨hturn, rfl⟩)
      · exact .inr (not_not.mp (mt hra.mpr (by simp [hb])))
    · rw [hr]
      have hbefore : ∀ t ∈ c.turns, Turn.closes t = false := by
        simpa [Cycle.Closed] using hra.mp hb
      refine ⟨hd, hends, hlog, hup (by simp), e, rfl, ?_⟩
      exact ⟨c.turns, l, [], rfl, hturn, hb, hi, hbefore⟩
  · refine h.idle (by rw [Link.act, read_idle hl]) rfl ?_ (by simp)
    rintro ⟨hr, -⟩
    exact hl (reading_of_isReading hr)

theorem Standing.finish (h : Standing address l c) :
    Standing address (l.next .finish) (c.add ⟨l, .finish⟩) := by
  have ht : ¬Turn.HangsUp ⟨l, .finish⟩ := by simp [Turn.HangsUp]
  by_cases hl : ∃ f, l.worker = some (.leaving f)
  · obtain ⟨f, hl⟩ := hl
    have hw := h.told
    obtain ⟨hm, hp⟩ := finish_leaving hl
    have hnext : l.next .finish = l.finish.1 := rfl
    refine h.ended (by rw [hnext, hm]; rfl) (by rw [hnext, hm]) ?_
    rw [hl] at hw hp
    exact hw.leave hp ht
  · exact h.idle (by rw [Link.act, finish_idle hl]) rfl ht (by simp)

theorem Standing.shutdown (h : Standing address l c) (last : Read) :
    Standing address (l.next (.shutdown last)) (c.add ⟨l, .shutdown last⟩) := by
  have ht : ¬Turn.HangsUp ⟨l, .shutdown last⟩ := by simp [Turn.HangsUp]
  have hc : (c.add ⟨l, .shutdown last⟩).Closed := by simp [Cycle.closed_add, Turn.closes]
  obtain ⟨hw, hs, hq⟩ := join_parting l.close last (isAlive_close l)
  refine h.ended hs hw (h.told.part hq ht (fun _ => hc) fun _ _ hl => ?_)
  exact h.give_up hl (.inr ⟨last, rfl⟩)

/-- The call that starts a session waits for the worker, which completes the block of the one
before. -/
theorem Standing.completed (h : Standing address l c) (ha : l.isAlive = false)
    (hi : l.initialized = true) (dial : Dial) (last : Read) :
    Block address (c.add ⟨l, .connect dial last⟩) (c.add ⟨l, .connect dial last⟩).log := by
  have ht : ¬Turn.HangsUp ⟨l, .connect dial last⟩ := by simp [Turn.HangsUp]
  obtain ⟨hw, hs, hq⟩ := join_parting l last ha
  have hp : Turn.lifecycle ⟨l, .connect dial last⟩ = parting l.worker := by
    simp [Turn.lifecycle, Link.act, Link.connect, ha, hi, hq]
  refine h.told.part hp ht (fun hl => (Cycle.closed_add _ _).mpr (.inl ?_)) fun _ _ hl => ?_
  · exact not_not.mp (mt (h.alive hl).mpr (by simp [ha]))
  · exact (h.given_up hl ha).add _

theorem Standing.started (hl : l.address = address) (hs : Sound l) (ha : l.isAlive = false)
    (hi : l.initialized = true) (dial : Dial) (last : Read) :
    Standing address (l.next (.connect dial last)) { dial := dial } := by
  have hn : l.next (.connect dial last) = { (l.join last).1 with
      session := some ⟨true, false⟩
      worker := some (.dialing (l.join last).1.charset dial) } := by
    simp [Link.next, Link.act, Link.connect, ha, hi]
  refine ⟨?_, hs.next _, fun _ => ?_, ?_⟩
  · rw [hn]
    exact (join_parting l last ha).2.1.trans hl
  · rw [hn]
    simp [Link.isAlive, Cycle.Closed]
  · rw [hn]
    refine ⟨rfl, rfl, ?_, ?_, ?_⟩
    · simp [Cycle.HungUp]
    · simp [Cycle.Dialing]
    · simp [Cycle.Closed]

/-- A message that fails does not close a session that is not connected yet. -/
theorem closes_send_dialing (h : Sound l) {charset : Charset} {dial : Dial}
    (hl : l.worker = some (.dialing charset dial)) (payload : Payload) (write : Write) :
    Turn.closes ⟨l, .send payload write⟩ = false := by
  have hc : l.isConnected = false := by
    by_contra hc
    have hc : l.isConnected = true := by simpa using hc
    have hs := h.stage _ (by rw [hl]; rfl) (h.alive hc)
    rw [hc] at hs
    cases hs
  cases write <;> simp [Turn.closes, hc]

theorem Standing.next (h : Standing address l c) (hn : Turn.started? ⟨l, a⟩ = none) :
    Standing address (l.next a) (c.add ⟨l, a⟩) := by
  cases a with
  | init =>
    refine h.quiet rfl rfl ?_ rfl (by simp [Turn.HangsUp]) (by simp [Turn.closes])
    simp [Turn.closes, Link.isAlive, Link.next, Link.act, Link.init]
  | connect dial last =>
    obtain ⟨hl, hq⟩ := connect_same hn
    refine h.quiet (by rw [hl]) (by rw [hl]) ?_ hq (by simp [Turn.HangsUp]) (by simp [Turn.closes])
    simp [Turn.closes, hl]
  | disconnect =>
    refine h.quiet rfl rfl ?_ rfl (by simp [Turn.HangsUp]) fun _ _ hl => ?_
    · simp [Turn.closes, Link.next, Link.act, Link.disconnect, isAlive_close]
    · exact ⟨by simp, fun _ => h.give_up hl (.inl rfl)⟩
  | shutdown last => exact h.shutdown last
  | send payload write =>
    obtain ⟨hs, hw, ha, hq⟩ := send_quiet l payload write
    refine h.quiet hs hw ha hq (by simp [Turn.HangsUp]) fun _ _ hl => ?_
    exact ⟨by simp, by simp [closes_send_dialing h.sound hl]⟩
  | setCharset charset =>
    refine h.quiet rfl rfl ?_ rfl (by simp [Turn.HangsUp]) (by simp [Turn.closes])
    simp [Turn.closes, Link.isAlive, Link.next, Link.act, Link.setCharset]
  | dialed => exact h.dialed
  | read r => exact h.read r
  | finish => exact h.finish

end

end LabelPrinter.Tcp

import LabelPrinter.Proofs.Usb.Flags
import LabelPrinter.Proofs.Usb.Handles
import LabelPrinter.Proofs.Usb.SessionLog

/-!
The printer's interface is held exactly while the connection is initialized, however the calls to
the bus turn out.
-/

namespace LabelPrinter.Usb

/-- The device that a step turns to. -/
def Link.addressed? (l : Link) : Action → Option Device
  | .init bus => bus.printer? l.vendor l.product
  | _ => l.claimed.map Claimed.device

def Turn.asked (t : Turn) : List (Call × Bool) :=
  answered (t.state.addressed? t.action) (t.state.act t.action).calls

/-- What the connection takes itself to hold. -/
def Link.held (l : Link) : List Handle :=
  (l.claimed.map fun c => ⟨c.device.name, [printerInterface]⟩).toList

/-- All that can come of a call that initializes. -/
inductive Initializing (l : Link) (bus : Bus) : Outcome → Prop where
  | already (c : Claimed) : l.claimed = some c → Initializing l bus { link := l }
  | failed (e : Error) (cs : List Call) : l.claimed = none →
      Claiming bus l.vendor l.product (.error e) cs →
      Initializing l bus { link := l, reply := .error e, calls := cs }
  | claimed (c : Claimed) (cs : List Call) : l.claimed = none →
      Claiming bus l.vendor l.product (.ok c) cs →
      Initializing l bus { link := { l with claimed := some c }, calls := cs }

theorem initializing (l : Link) (bus : Bus) : Initializing l bus (l.init bus) := by
  have h := claim_claiming bus l.vendor l.product
  unfold Link.init
  split
  case h_1 c hc => exact .already c hc
  case h_2 hc =>
    dsimp only
    generalize (claim bus l.vendor l.product).result = r at h ⊢
    cases r with
    | ok c => exact .claimed c _ hc h
    | error e => exact .failed e _ hc h

namespace Link

theorem keeps_claim (l : Link) {a : Action} (hi : ∀ bus, a ≠ .init bus)
    (hs : ∀ last, a ≠ .shutdown last) :
    (l.next a).claimed = l.claimed ∧ ∀ c ∈ (l.act a).calls, c.Quiet := by
  cases a with
  | init bus => exact absurd rfl (hi bus)
  | shutdown last => exact absurd rfl (hs last)
  | connect last =>
    obtain ⟨_, _, hj⟩ := l.join_frame last
    rw [next, act, connect]
    split_ifs
    · exact ⟨rfl, List.forall_mem_nil _⟩
    · exact ⟨rfl, List.forall_mem_nil _⟩
    · refine ⟨?_, List.forall_mem_nil _⟩
      change (l.join last).1.claimed = l.claimed
      rw [hj]
  | disconnect | setCharset _ => exact ⟨rfl, List.forall_mem_nil _⟩
  | send payload outcomes =>
    have ho := sending l payload outcomes
    rw [next, act]
    generalize l.send payload outcomes = o at ho ⊢
    have hwrites (c : Claimed) (t : Transmission) : ∀ call ∈ writes c t, call.Quiet := by
      simp [writes, Call.Quiet]
    cases ho with
    | unsendable _ _ | refused _ _ _ => exact ⟨rfl, List.forall_mem_nil _⟩
    | sent message c _ _ _ _ => exact ⟨rfl, hwrites _ _⟩
    | failed message c e _ _ _ _ =>
      refine ⟨?_, hwrites _ _⟩
      dsimp only
      split_ifs
      · rfl
      · rfl
  | start =>
    obtain ⟨_, hf⟩ := l.start_frame
    exact ⟨by rw [next, act, silently, hf], List.forall_mem_nil _⟩
  | read r =>
    obtain ⟨_, hf⟩ := l.read_frame r
    exact ⟨by rw [next, act, silently, hf], List.forall_mem_nil _⟩
  | finish =>
    obtain ⟨_, _, hf⟩ := l.finish_frame
    exact ⟨by rw [next, act, silently, hf], List.forall_mem_nil _⟩

theorem held_none {l : Link} (h : l.claimed = none) : l.held = [] := by
  rw [held, h]
  rfl

theorem held_some {l : Link} {c : Claimed} (h : l.claimed = some c) :
    l.held = [⟨c.device.name, [printerInterface]⟩] := by
  rw [held, h]
  rfl

theorem init_moves (l : Link) (bus : Bus) :
    Moves l.held (l.next (.init bus)).held (Turn.asked ⟨l, .init bus⟩) := by
  have ho := initializing l bus
  rw [next, Turn.asked, act]
  generalize l.init bus = o at ho ⊢
  cases ho with
  | already c hc => exact .idle _
  | failed e cs hc h =>
    rw [held_none hc]
    exact h.fails
  | claimed c cs hc h =>
    rw [held_none hc]
    exact h.succeeds

theorem shutdown_eq (l : Link) (last : Read) :
    l.shutdown last =
      { link := { (l.close.join last).1 with session := none, claimed := none }
        reply := (l.claimed.map fun c => c.device.release.mapError .usb).getD (.ok ())
        events := (l.close.join last).2
        calls := (l.claimed.map Claimed.giveUp).getD [] } := by
  obtain ⟨s, r, hj⟩ := l.close.join_frame last
  rw [shutdown]
  simp only [hj]
  cases hc : l.claimed with
  | none => simp [close, hc]
  | some c => simp [close, hc]

theorem shutdown_moves (l : Link) (last : Read) :
    Moves l.held (l.next (.shutdown last)).held (Turn.asked ⟨l, .shutdown last⟩) := by
  rw [next, Turn.asked, act, shutdown_eq]
  cases hc : l.claimed with
  | none =>
    rw [held_none hc]
    exact .idle _
  | some c =>
    rw [held_some hc]
    simp only [addressed?, hc]
    exact c.giveUp_moves

theorem state_eq_uninitialized_iff {l : Link} : l.state = .uninitialized ↔ l.claimed = none := by
  rw [state]
  cases l.claimed with
  | none => simp
  | some c =>
    cases l.session with
    | none => simp
    | some s => by_cases hs : s.connected = true <;> simp [hs]

theorem next_moves (l : Link) (a : Action) : Moves l.held (l.next a).held (Turn.asked ⟨l, a⟩) := by
  by_cases hi : ∃ bus, a = .init bus
  · obtain ⟨bus, rfl⟩ := hi
    exact l.init_moves bus
  by_cases hs : ∃ last, a = .shutdown last
  · obtain ⟨last, rfl⟩ := hs
    exact l.shutdown_moves last
  obtain ⟨hc, hq⟩ := l.keeps_claim (not_exists.mp hi) (not_exists.mp hs)
  have hheld : (l.next a).held = l.held := by rw [held, hc, ← held]
  rw [hheld]
  exact .of_quiet (List.forall_mem_map.mpr hq)

theorem reader_of_unclaimed {l : Link} (h : l.claimed = none → l.reader = none) (a : Action)
    (hc : (l.next a).claimed = none) : (l.next a).reader = none := by
  -- only a shutdown takes a claim away, and it waits for the reader to end
  by_cases hs : ∃ last, a = .shutdown last
  · obtain ⟨last, rfl⟩ := hs
    exact (l.shutdown_parting last).1
  have hbefore : l.claimed = none := by
    by_cases hi : ∃ bus, a = .init bus
    · obtain ⟨bus, rfl⟩ := hi
      have ho := initializing l bus
      rw [next, act] at hc
      generalize l.init bus = o at ho hc
      cases ho with
      | already | failed => assumption
      | claimed => cases hc
    · rw [← (l.keeps_claim (not_exists.mp hi) (not_exists.mp hs)).1, hc]
  apply no_reader_next (h hbefore)
  cases ht : Turn.started? ⟨l, a⟩ with
  | none => rfl
  | some charset =>
    obtain ⟨-, hsome, -⟩ := started_eq_some ht
    simp [hbefore] at hsome

end Link

/-- A shutdown ends the session and waits for the reader in these steps. -/
def Action.waiting (last : Read) : List Action := [.disconnect, .start, .read last, .finish]

/-- The printer is given up once its reader has ended, and the caller hears if that fails. -/
structure GivesUp (l : Link) (last : Read) : Prop where
  ended : ((Action.waiting last).foldl Link.next l).reader = none
  told : (l.act (.shutdown last)).events =
    (turns Link.next l (Action.waiting last)).flatMap fun t => (t.state.act t.action).events
  calls : (l.act (.shutdown last)).calls =
    (((Action.waiting last).foldl Link.next l).claimed.map Claimed.giveUp).getD []
  reply : (l.act (.shutdown last)).reply =
    (l.claimed.map fun c => c.device.release.mapError .usb).getD (.ok ())
  unclaimed : (l.next (.shutdown last)).claimed = none

theorem gives_up (l : Link) (last : Read) : GivesUp l last := by
  have hwaited : (Action.waiting last).foldl Link.next l = (l.close.join last).1 := rfl
  have hevents : ((turns Link.next l (Action.waiting last)).flatMap fun t =>
      (t.state.act t.action).events) = (l.close.join last).2 := by
    change [] ++ (l.close.start.2 ++ ((l.close.start.1.read last).2 ++
      ((l.close.start.1.read last).1.finish.2 ++ []))) = _
    simp [Link.join, Step.andThen]
  have hact : l.act (.shutdown last) = _ := l.shutdown_eq last
  constructor
  · exact (Link.join_closed (Link.isAlive_close l) last).1
  · rw [hact, hevents]
  · obtain ⟨_, _, hj⟩ := l.close.join_frame last
    rw [hact, hwaited, hj]
    rfl
  · rw [hact]
  · rw [Link.next, hact]

/-- An initialization that fails changes nothing, and the next one may succeed. -/
structure Retriable (l : Link) (bus : Bus) : Prop where
  unchanged : l.next (.init bus) = l
  idle : l.state = .uninitialized
  retry : ∀ again c, c.Offered again l.vendor l.product →
    (l.act (.init again)).reply = .ok () ∧ (l.next (.init again)).claimed = some c ∧
      (l.next (.init again)).state = .initialized

/-- What a connection holds after these calls to the bus. -/
structure Holding (l : Link) (log : List (Call × Bool)) : Prop where
  held_iff : (∃ h ∈ handles log, printerInterface ∈ h.interfaces) ↔ l.state ≠ .uninitialized
  /-- Nothing is open but the printer in use. -/
  open_only : handles log = l.held
  exclusive : Exclusive [] log
  /-- No reader outlasts the claim that it reads from. -/
  unread : l.claimed = none → l.reader = none
  failing : ∀ bus e, (l.act (.init bus)).reply = .error e →
    Retriable l bus ∧ handles (log ++ Turn.asked ⟨l, .init bus⟩) = []
  shutdown : ∀ last,
    GivesUp l last ∧ handles (log ++ Turn.asked ⟨l, .shutdown last⟩) = []

theorem retriable {l : Link} {bus : Bus} {e : Error} (hs : Sound l)
    (h : (l.act (.init bus)).reply = .error e) : Retriable l bus := by
  have ho := initializing l bus
  have hlink : l.next (.init bus) = (l.init bus).link := rfl
  rw [Link.act] at h
  generalize l.init bus = o at ho h hlink
  cases ho with
  | already c hc => cases h
  | claimed c cs hc _ => cases h
  | failed e cs hc _ =>
    refine ⟨hlink, Link.state_eq_uninitialized_iff.mpr hc, ?_⟩
    intro again c hoffered
    have hclaim := claim_ok_iff.mpr hoffered
    have hagain : l.act (.init again) =
        { link := { l with claimed := some c }
          calls := (claim again l.vendor l.product).calls } := by
      simp only [Link.act, Link.init, hc, hclaim]
    rw [Link.next, hagain]
    exact ⟨rfl, rfl, by simp [Link.state, hs.bare hc]⟩

theorem Link.holds_iff (l : Link) :
    (∃ h ∈ l.held, printerInterface ∈ h.interfaces) ↔ l.state ≠ .uninitialized := by
  rw [ne_eq, state_eq_uninitialized_iff]
  cases hc : l.claimed with
  | none => simp [held_none hc]
  | some c => simp [held_some hc]

/-- What every run preserves: the calls so far have led to what the connection takes itself to
hold, and they have claimed nothing on top of a claim. -/
structure Accounted (ts : List Turn) (l : Link) : Prop where
  sound : Sound l
  moves : Moves [] l.held (ts.flatMap Turn.asked)
  unread : l.claimed = none → l.reader = none

theorem Accounted.next {ts : List Turn} {l : Link} (h : Accounted ts l) (a : Action) :
    Accounted (ts ++ [⟨l, a⟩]) (l.next a) := by
  refine ⟨h.sound.next a, ?_, Link.reader_of_unclaimed h.unread a⟩
  rw [List.flatMap_append, List.flatMap_singleton]
  exact h.moves.append (l.next_moves a)

theorem Accounted.emptied {ts : List Turn} {l : Link} (h : Accounted ts l) {a : Action}
    (hc : (l.next a).claimed = none) :
    handles (ts.flatMap Turn.asked ++ Turn.asked ⟨l, a⟩) = [] := by
  rw [← Link.held_none hc]
  exact (h.moves.append (l.next_moves a)).leads

theorem Accounted.holding {ts : List Turn} {l : Link} (h : Accounted ts l) :
    Holding l (ts.flatMap Turn.asked) := by
  have hopen : handles (ts.flatMap Turn.asked) = l.held := h.moves.leads
  refine ⟨?_, hopen, h.moves.exclusive, h.unread, ?_, ?_⟩
  · rw [hopen]
    exact l.holds_iff
  · intro bus e he
    have hr := retriable h.sound he
    refine ⟨hr, h.emptied ?_⟩
    rw [hr.unchanged]
    exact Link.state_eq_uninitialized_iff.mp hr.idle
  · intro last
    have hs := gives_up l last
    exact ⟨hs, h.emptied hs.unclaimed⟩

theorem held_while_initialized (vendor : Nat) (product : Option Nat) (actions : List Action) :
    Holding (actions.foldl Link.next { vendor, product })
      ((turns Link.next { vendor, product } actions).flatMap Turn.asked) := by
  have start : Accounted [] { vendor, product } := ⟨.of_unused rfl, .of_quiet nofun, fun _ => rfl⟩
  exact (turns_invariant Link.next start (fun _ _ a h => h.next a) actions).holding

end LabelPrinter.Usb

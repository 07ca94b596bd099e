import LabelPrinter.Proofs.Link.Losses
import LabelPrinter.Proofs.Tcp.Refinement

/-!
What the steps of a connection over a socket are made up of.
-/

namespace LabelPrinter.Tcp

namespace Script

/-- A socket that is opened after the session was closed is of no use. But the session may also be
closed between the look at it and the moment when it is connected. -/
def dialed (l : Link) : List (Stroke Worker Action) :=
  match l.worker with
  | some (.dialing _ (.failed e)) =>
    if l.isAlive then
      .connected false :: .dead ::
        leave [Link.failing ("unable to connect to " ++ l.address) e]
    else [.stand none]
  | some (.dialing _ (.unusable e)) =>
    .connected false :: .dead :: leave [Link.failing "unable to set up socket" e]
  | some (.dialing charset .opened) =>
    if l.isAlive then
      [.connected true, .tell (.client .established), .look (.reading charset {}) (.leaving none)]
    else [.stand none]
  | _ => []

def read (l : Link) (r : Read) : List (Stroke Worker Action) :=
  match l.worker, r with
  | some (.reading _ _), .ok [] => [.stand (some (.leaving none))]
  | some (.reading charset framer), .ok bytes =>
    ((framer.push bytes).1.map (Link.received charset)).map .tell ++
      [.look (.reading charset (framer.push bytes).2) (.leaving none)]
  | some (.reading charset framer), .error e =>
    if e.kind.isIdle then [.look (.reading charset framer) (.leaving none)]
    else [.look (.leaving (some (lostRead e))) (.leaving none)]
  | _, _ => []

def finish (l : Link) : List (Stroke Worker Action) :=
  match l.worker with
  | some (.leaving fault) => .connected false :: .dead :: leave (farewell fault)
  | _ => []

def send (l : Link) (payload : Payload) (write : Write) : List (Stroke Worker Action) :=
  match payload.encode l.charset with
  | .error _ => []
  | .ok message =>
    if !l.isConnected then []
    else
      match write with
      | .complete => [.tell (.data (.sent message))]
      | .broken _ e => [.connected false, .dead,
          .tell (.data (.sendFailed ⟨"failed to send message", .io e⟩ message))]

def closing : List (Stroke Worker Action) := [.dead, .connected false, .dead]

end Script

def Link.script (l : Link) : Action → List (Stroke Worker Action)
  | .init => [.call .init]
  | .connect dial last =>
    if l.initialized && !l.isAlive then [.call (.connect dial last)] else []
  | .disconnect => Script.closing
  | .shutdown last => Script.closing ++ [.call (.shutdown last)]
  | .send payload write => Script.send l payload write
  | .setCharset charset => [.call (.setCharset charset)]
  | .dialed => Script.dialed l
  | .read r => Script.read l r
  | .finish => Script.finish l

def Action.isTurn : Action → Bool
  | .dialed | .read _ | .finish => true
  | .init | .connect _ _ | .disconnect | .shutdown _ | .send _ _ | .setCharset _ => false

def Action.isConnect : Action → Bool
  | .connect _ _ => true
  | .init | .disconnect | .shutdown _ | .send _ _ | .setCharset _ | .dialed | .read _ | .finish =>
    false

/-- The calls that wait for the worker of the last session. -/
def Action.waits : Action → Bool
  | .connect _ _ | .shutdown _ => true
  | .init | .disconnect | .send _ _ | .setCharset _ | .dialed | .read _ | .finish => false

def concurrent (host : String) (service : Nat) : Concurrent Link Worker Action where
  toAdapter := adapter host service
  events l a := (l.act a).events
  session := Link.session
  place := Link.worker
  put l s w := { l with session := s, worker := w }
  isTurn := Action.isTurn
  isConnect := Action.isConnect
  waits := Action.waits
  script := Link.script
  fresh := ⟨true, false⟩

/-- The turns in which the worker of a session that was closed ends. -/
def joining (last : Read) : List Action := [.dialed, .read last, .finish]

section

variable {host : String} {service : Nat}

theorem stored : (concurrent host service).Stored where
  session_put _ _ _ := rfl
  place_put _ _ _ := rfl
  put_put _ _ _ _ _ := rfl

theorem state_eq_uninitialized (l : Link) : l.state = .uninitialized ↔ l.initialized = false := by
  unfold Link.state
  split
  case isTrue h => simpa using h
  case isFalse h =>
    refine ⟨?_, fun hi => absurd hi (by simpa using h)⟩
    split
    · intro h
      cases h
    · split_ifs <;> (intro h; cases h)

theorem isLive_of_closed {l : Link} (hc : l.isConnected = false) (ha : l.isAlive = false) :
    Machine.isLive l.state = false := by
  unfold Link.state
  split
  · rfl
  · split
    case h_1 => rfl
    case h_2 s hs =>
      rw [Link.isConnected, hs] at hc
      rw [Link.isAlive, hs] at ha
      change s.connected = false at hc
      change s.alive = false at ha
      rw [hc, ha]
      rfl

theorem isAlive_join {l : Link} (h : l.isAlive = false) (last : Read) :
    (l.join last).1.isAlive = false := by
  have hd : l.dialed.1.isAlive = false := by
    unfold Link.dialed
    split
    · split_ifs
      · exact isAlive_close l
      · exact h
    · exact isAlive_close l
    · split_ifs with ha
      · exact absurd ha (by simp [h])
      · exact h
    · exact h
  obtain ⟨w, hr⟩ := l.dialed.1.read_frame last
  have hr : (l.dialed.1.read last).1.isAlive = false := by
    rw [hr]
    exact hd
  change (l.dialed.1.read last).1.finish.1.isAlive = false
  unfold Link.finish
  split
  · exact isAlive_close _
  · exact hr

theorem connect_none {l : Link} (hi : l.initialized = true) (ha : l.isAlive = false)
    (hw : l.worker = none) (dial : Dial) (last : Read) :
    l.act (.connect dial last) = { link := { l with
      session := some ⟨true, false⟩, worker := some (.dialing l.charset dial) } } := by
  simp [Link.act, Link.connect, hi, ha, join_none hw]

theorem shutdown_none {l : Link} (hw : l.worker = none) (last : Read) :
    l.act (.shutdown last) = { link := { l with session := none, initialized := false } } := by
  have hc : l.close.worker = none := hw
  simp only [Link.act, Link.shutdown, join_none hc]
  rfl

namespace Script

theorem dialed_pending (l : Link) : Pending l.session (dialed l) := by
  unfold dialed
  split
  · split_ifs
    · exact .closing _
    · exact .mild _ (by simp [Stroke.isMild])
  · exact .closing _
  · split_ifs
    · exact .mild _ (by simp [Stroke.isMild, Event.isLoss])
    · exact .mild _ (by simp [Stroke.isMild])
  · exact .nil

theorem read_pending (l : Link) (r : Read) : Pending l.session (read l r) := by
  unfold read
  split
  · exact .mild _ (by simp [Stroke.isMild])
  · refine .mild _ fun s hs => ?_
    simp only [List.mem_append, List.mem_map, List.mem_singleton] at hs
    rcases hs with ⟨_, ⟨line, -, rfl⟩, rfl⟩ | rfl <;> rfl
  · split_ifs
    · exact .mild _ (by simp [Stroke.isMild])
    · exact .mild _ (by simp [Stroke.isMild])
  · exact .nil

theorem finish_pending (l : Link) : Pending l.session (finish l) := by
  unfold finish
  split
  · exact .closing _
  · exact .nil

theorem send_calm (l : Link) (payload : Payload) (write : Write) :
    ∀ s ∈ send l payload write, s.isCalm = true ∧ s.isCall = false := by
  unfold send
  split
  · simp
  · split_ifs
    · simp
    · cases write <;> simp [Stroke.isCalm, Stroke.isCall, Event.isLoss]

theorem effect_dialed (l : Link) : (concurrent host service).effect l (dialed l) = l.dialed := by
  match hw : l.worker with
  | some (.dialing charset (.failed e)) =>
    simp only [dialed, Link.dialed, hw]
    split_ifs
    · exact Concurrent.effect_closing stored l _
    · rfl
  | some (.dialing charset (.unusable e)) =>
    simp only [dialed, Link.dialed, hw]
    exact Concurrent.effect_closing stored l _
  | some (.dialing charset .opened) =>
    simp only [dialed, Link.dialed, hw]
    split_ifs with ha
    · cases hs : l.session with
      | none => simp [Link.isAlive, hs] at ha
      | some s =>
        obtain ⟨alive, connected⟩ := s
        obtain rfl : alive = true := by simpa [Link.isAlive, hs] using ha
        simp [Concurrent.effect, Concurrent.strike, Concurrent.raises, Concurrent.isAlive,
          concurrent, hs]
    · rfl
  | none | some (.reading _ _) | some (.leaving _) =>
    simp only [dialed, Link.dialed, hw]
    rfl

theorem effect_read (l : Link) (r : Read) :
    (concurrent host service).effect l (read l r) = l.read r := by
  match hw : l.worker, r with
  | some (.reading charset framer), .ok [] =>
    simp only [read, Link.read, hw]
    rfl
  | some (.reading charset framer), .ok (b :: bytes) =>
    simp only [read, Link.read, hw]
    rw [Concurrent.effect_tells, Concurrent.effect_look, List.append_nil]
    rfl
  | some (.reading charset framer), .error e =>
    simp only [read, Link.read, hw]
    split_ifs
    · rfl
    · have halive : (concurrent host service).isAlive l = l.isAlive := rfl
      rw [Concurrent.effect_look, halive, Link.readFault]
      cases l.isAlive <;> rfl
  | none, _ | some (.dialing _ _), _ | some (.leaving _), _ =>
    simp only [read, Link.read, hw]
    rfl

theorem effect_finish (l : Link) : (concurrent host service).effect l (finish l) = l.finish := by
  match hw : l.worker with
  | some (.leaving fault) =>
    simp only [finish, Link.finish, hw]
    exact Concurrent.effect_closing stored l _
  | none | some (.dialing _ _) | some (.reading _ _) =>
    simp only [finish, Link.finish, hw]
    rfl

end Script

theorem call_connect (dial : Dial) (last : Read) :
    (concurrent host service).Call (.connect dial last) := by
  refine .opening rfl rfl fun l hw hi ha => ?_
  have hi : l.initialized = true := by
    simpa using fun hn => hi ((state_eq_uninitialized l).mpr hn)
  have hc := connect_none hi ha hw dial last
  have hnext : l.next (.connect dial last) = _ := congrArg Outcome.link hc
  have hevents : (l.act (.connect dial last)).events = _ := congrArg Outcome.events hc
  refine ⟨⟨congrArg Link.session hnext, ?_, (congrArg Link.state hnext).trans ?_⟩, hevents⟩
  · exact (congrArg (Option.isSome ∘ Link.worker) hnext).trans rfl
  · simp [Link.state, hi, concurrent, adapter]

theorem call_shutdown (last : Read) : (concurrent host service).Call (.shutdown last) := by
  refine .ending rfl rfl fun l hw => ?_
  have hs := shutdown_none hw last
  have hnext : l.next (.shutdown last) = _ := congrArg Outcome.link hs
  have hevents : (l.act (.shutdown last)).events = _ := congrArg Outcome.events hs
  exact ⟨congrArg Link.session hnext, (congrArg Link.worker hnext).trans hw, hevents⟩

theorem isReady_eq (l : Link) :
    (concurrent host service).isReady l = (l.initialized && !l.isAlive) := by
  have hi : decide (l.state ≠ .uninitialized) = l.initialized := by
    simp [state_eq_uninitialized]
  exact congrArg (· && !l.isAlive) hi

theorem lawful (host : String) (service : Nat) : (concurrent host service).Lawful where
  toStored := stored
  bare_put l s w := by
    change Link.state { l with session := s, worker := w } = _ ↔ l.state = _
    rw [state_eq_uninitialized, state_eq_uninitialized]
  down l hc ha := isLive_of_closed hc ha
  unused := rfl
  absent l a ha hw := by
    change l.worker = none at hw
    cases a with
    | dialed => simp [concurrent, Link.script, Script.dialed, hw]
    | read r => simp [concurrent, Link.script, Script.read, hw]
    | finish => simp [concurrent, Link.script, Script.finish, hw]
    | _ => cases ha
  turn l a ha := by
    cases a with
    | dialed => exact Script.dialed_pending l
    | read r => exact Script.read_pending l r
    | finish => exact Script.finish_pending l
    | _ => cases ha
  written l a ha := by
    cases a with
    | init => exact .called [] rfl (by simp) (.aside rfl rfl fun l => ⟨rfl, rfl, rfl⟩)
    | connect dial last =>
      by_cases hn : (l.initialized && !l.isAlive) = true
      · exact .called [] (if_pos hn) (by simp) (call_connect dial last)
      · exact .whole (by simp [concurrent, Link.script, hn])
    | disconnect =>
      exact .whole (by simp [concurrent, Link.script, Script.closing, Stroke.isCalm, Stroke.isCall])
    | shutdown last =>
      exact .called Script.closing rfl (by simp [Script.closing, Stroke.isCalm, Stroke.isCall])
        (call_shutdown last)
    | send payload write => exact .whole (Script.send_calm l payload write)
    | setCharset charset =>
      exact .called [] rfl (by simp) (.aside rfl rfl fun l => ⟨rfl, rfl, rfl⟩)
    | dialed | read _ | finish => cases ha
  connect l a ha := by
    cases a with
    | connect dial last => exact ⟨rfl, by rw [isReady_eq]; rfl⟩
    | _ => cases ha

theorem effect_send (l : Link) (payload : Payload) (write : Write) :
    (concurrent host service).effect l (Script.send l payload write) =
      (l.next (.send payload write), (l.act (.send payload write)).events) := by
  cases he : payload.encode l.charset with
  | error e => simp [Script.send, he, Link.next, Link.act, Link.send, Concurrent.effect]
  | ok message =>
    cases hc : l.isConnected
    · simp [Script.send, he, hc, Link.next, Link.act, Link.send, Concurrent.effect]
    · cases write with
      | complete =>
        simp [Script.send, he, hc, Link.next, Link.act, Link.send, Concurrent.effect,
          Concurrent.strike, Concurrent.raises]
      | broken n e =>
        simp only [Script.send, he, hc, Link.next, Link.act, Link.send]
        exact Concurrent.effect_unset stored l _

theorem effect_closing (l : Link) :
    (concurrent host service).effect l Script.closing = (l.close, []) := by
  cases hs : l.session <;>
    simp [Script.closing, Concurrent.effect, Concurrent.strike, Concurrent.raises, concurrent,
      Link.close, Session.close, hs]

theorem isTurn_joining (last : Read) : ∀ t ∈ joining last, t.isTurn = true := by
  simp [joining, Action.isTurn]

theorem events_joining (l : Link) (last : Read) :
    ((turns Link.next l (joining last)).flatMap fun t => (t.state.act t.action).events) =
      (l.join last).2 := by
  simp [joining, turns, Link.next, Link.act, Link.silently, Link.join, Step.andThen]

theorem comes_connect (l : Link) (dial : Dial) (last : Read) :
    (concurrent host service).Comes l (.connect dial last) := by
  by_cases hn : (l.initialized && !l.isAlive) = true
  · obtain ⟨hi, ha⟩ : l.initialized = true ∧ l.isAlive = false := by simpa using hn
    have hact : l.act (.connect dial last) =
        { link := { (l.join last).1 with
            session := some ⟨true, false⟩
            worker := some (.dialing (l.join last).1.charset dial) }
          events := (l.join last).2 } := by simp [Link.act, Link.connect, hi, ha]
    have hnone := (join_parting l last ha).1
    have hc := connect_none ((initialized_join l last).trans hi) (isAlive_join ha last) hnone dial
      last
    exact .waiting [] l (joining last) (if_pos hn) (by simp) rfl (isTurn_joining last) hnone
      ((congrArg Outcome.link hc).trans (congrArg Outcome.link hact).symm)
      (congrArg Outcome.events hc)
      ((congrArg Outcome.events hact).trans (events_joining l last).symm)
  · have hscript : (concurrent host service).script l (.connect dial last) = [] := if_neg hn
    have hsame : l.next (.connect dial last) = l ∧ (l.act (.connect dial last)).events = [] := by
      by_cases hi : l.initialized = true
      · have ha : l.isAlive = true := by simpa [hi] using hn
        simp [Link.next, Link.act, Link.connect, hi, ha]
      · simp [Link.next, Link.act, Link.connect, hi]
    exact .idle _ hscript hsame.1 hsame.2

theorem comes_shutdown (l : Link) (last : Read) :
    (concurrent host service).Comes l (.shutdown last) := by
  have hnone := (join_parting l.close last (isAlive_close l)).1
  have hs := shutdown_none hnone last
  exact .waiting Script.closing l.close (joining last) rfl (by simp [Script.closing])
    (effect_closing l) (isTurn_joining last) hnone
    ((congrArg Outcome.link hs).trans rfl) (congrArg Outcome.events hs)
    (events_joining l.close last).symm

theorem faithful (host : String) (service : Nat) : (concurrent host service).Faithful where
  turn l a ha := by
    cases a with
    | dialed => exact Script.effect_dialed l
    | read r => exact Script.effect_read l r
    | finish => exact Script.effect_finish l
    | _ => cases ha
  operation l a ha := by
    cases a with
    | init => exact .prompt (by simp [concurrent, Link.script, Action.waits]) rfl
    | setCharset charset => exact .prompt (by simp [concurrent, Link.script, Action.waits]) rfl
    | disconnect =>
      exact .prompt (by simp [concurrent, Link.script, Script.closing]) (effect_closing l)
    | send payload write =>
      refine .prompt (fun b hb => ?_) (effect_send l payload write)
      cases (Script.send_calm l payload write _ hb).2
    | connect dial last => exact comes_connect l dial last
    | shutdown last => exact comes_shutdown l last
    | dialed | read _ | finish => cases ha

end

end LabelPrinter.Tcp

import LabelPrinter.Proofs.Link.Losses
import LabelPrinter.Proofs.Usb.Refinement

/-!
What the steps of a connection over the bus are made up of.
-/

namespace LabelPrinter.Usb

namespace Script

def start (l : Link) : List (Stroke Reader Action) :=
  match l.reader with
  | some (.starting charset) =>
    [.tell (.client .established), .look (.reading charset) (.leaving none)]
  | _ => []

def read (l : Link) (r : Read) : List (Stroke Reader Action) :=
  match l.reader, r with
  | some (.reading charset), .ok [] => [.look (.reading charset) (.leaving none)]
  | some (.reading charset), .ok bytes =>
    [.tell (.data (.received (charset.decode bytes))), .look (.reading charset) (.leaving none)]
  | some (.reading charset), .error e =>
    if e = .timeout || e = .interrupted then [.look (.reading charset) (.leaving none)]
    else if e = .noDevice then [.stand (some (.leaving none))]
    else [.look (.leaving (some ⟨"failed to read from printer", .usb e⟩)) (.leaving none)]
  | _, _ => []

def finish (l : Link) : List (Stroke Reader Action) :=
  match l.reader with
  | some (.leaving fault) => .connected false :: .dead :: leave (farewell fault)
  | _ => []

def send (l : Link) (payload : Payload) (outcomes : List Transfer) :
    List (Stroke Reader Action) :=
  match payload.encode l.charset with
  | .error _ => []
  | .ok message =>
    match l.isConnected, l.claimed with
    | true, some _ =>
      match (transmit message outcomes).fault with
      | none => [.tell (.data (.sent message))]
      | some e =>
        (if e = .timeout then [] else [.connected false, .dead]) ++
          [.tell (.data (.sendFailed ⟨"failed to send message", .usb e⟩ message))]
    | _, _ => []

def closing : List (Stroke Reader Action) := [.dead, .connected false]

end Script

def Link.script (l : Link) : Action → List (Stroke Reader Action)
  | .init bus => [.call (.init bus)]
  | .connect last =>
    if !l.isAlive && l.claimed.isSome then [.call (.connect last)] else []
  | .disconnect => Script.closing
  | .shutdown last => Script.closing ++ [.call (.shutdown last)]
  | .send payload outcomes => Script.send l payload outcomes
  | .setCharset charset => [.call (.setCharset charset)]
  | .start => Script.start l
  | .read r => Script.read l r
  | .finish => Script.finish l

def Action.isTurn : Action → Bool
  | .start | .read _ | .finish => true
  | .init _ | .connect _ | .disconnect | .shutdown _ | .send _ _ | .setCharset _ => false

def Action.isConnect : Action → Bool
  | .connect _ => true
  | .init _ | .disconnect | .shutdown _ | .send _ _ | .setCharset _ | .start | .read _ | .finish =>
    false

/-- The calls that wait for the reader of the last session. -/
def Action.waits : Action → Bool
  | .connect _ | .shutdown _ => true
  | .init _ | .disconnect | .send _ _ | .setCharset _ | .start | .read _ | .finish => false

def concurrent (vendor : Nat) (product : Option Nat) : Concurrent Link Reader Action where
  toAdapter := adapter vendor product
  events l a := (l.act a).events
  session := Link.session
  place := Link.reader
  put l s r := { l with session := s, reader := r }
  isTurn := Action.isTurn
  isConnect := Action.isConnect
  waits := Action.waits
  script := Link.script
  fresh := ⟨true, true⟩

/-- The turns in which the reader of a session that was closed ends. -/
def joining (last : Read) : List Action := [.start, .read last, .finish]

section

variable {vendor : Nat} {product : Option Nat}

theorem stored : (concurrent vendor product).Stored where
  session_put _ _ _ := rfl
  place_put _ _ _ := rfl
  put_put _ _ _ _ _ := rfl

theorem state_eq_uninitialized (l : Link) : l.state = .uninitialized ↔ l.claimed = none := by
  unfold Link.state
  split
  case isTrue h => simpa using h
  case isFalse h =>
    refine ⟨?_, fun hi => absurd hi (by simpa using h)⟩
    split
    · intro h
      cases h
    · split_ifs <;> (intro h; cases h)

theorem isLive_of_closed {l : Link} (hc : l.isConnected = false) :
    Machine.isLive l.state = false := by
  unfold Link.state
  split
  · rfl
  · split
    case h_1 => rfl
    case h_2 s hs =>
      rw [Link.isConnected, hs] at hc
      change s.connected = false at hc
      rw [hc]
      rfl

/-- The reader of the last session being gone, a call that waited for it goes through. -/
theorem join_none {l : Link} (hr : l.reader = none) (last : Read) : l.join last = (l, []) := by
  have hs : l.start = (l, []) := Link.start_idle (by simp [hr])
  have hd : l.read last = (l, []) := Link.read_idle (by simp [hr]) last
  have hf : l.finish = (l, []) := Link.finish_idle (by simp [hr])
  simp [Link.join, Step.andThen, hs, hd, hf]

theorem isAlive_join {l : Link} (h : l.isAlive = false) (last : Read) :
    (l.join last).1.isAlive = false := by
  obtain ⟨_, hs⟩ := l.start_frame
  obtain ⟨_, hr⟩ := l.start.1.read_frame last
  have hr : (l.start.1.read last).1.isAlive = false := by
    rw [hr, hs]
    exact h
  change (l.start.1.read last).1.finish.1.isAlive = false
  unfold Link.finish
  split
  · exact Link.isAlive_close _
  · exact hr

theorem claimed_join (l : Link) (last : Read) : (l.join last).1.claimed = l.claimed := by
  obtain ⟨_, _, h⟩ := l.join_frame last
  rw [h]

theorem connect_none {l : Link} (ha : l.isAlive = false) (hc : l.claimed.isSome = true)
    (hr : l.reader = none) (last : Read) :
    l.act (.connect last) = { link := { l with
      session := some ⟨true, true⟩, reader := some (.starting l.charset) } } := by
  have hn : l.claimed.isNone = false := by simpa using hc
  simp [Link.act, Link.connect, ha, hn, join_none hr]

theorem shutdown_none {l : Link} (hr : l.reader = none) (last : Read) :
    (l.act (.shutdown last)).link = { l with session := none, claimed := none } ∧
      (l.act (.shutdown last)).events = [] := by
  have hn : l.close.reader = none := hr
  simp only [Link.act, Link.shutdown, join_none hn]
  cases hc : l.close.claimed with
  | none =>
    have hc : l.claimed = none := hc
    simp [Link.close, hc]
  | some c => exact ⟨rfl, rfl⟩

theorem init_aside (l : Link) (bus : Bus) :
    (l.next (.init bus)).session = l.session ∧ (l.next (.init bus)).reader = l.reader ∧
      (l.act (.init bus)).events = [] := by
  obtain ⟨_, hl⟩ := l.init_frame bus
  refine ⟨by rw [hl], by rw [hl], ?_⟩
  rw [Link.act, Link.init]
  split
  · rfl
  · dsimp only
    split <;> rfl

namespace Script

theorem start_pending (l : Link) : Pending l.session (start l) := by
  unfold start
  split
  · exact .mild _ (by simp [Stroke.isMild, Event.isLoss])
  · exact .nil

theorem read_pending (l : Link) (r : Read) : Pending l.session (read l r) := by
  unfold read
  split
  · exact .mild _ (by simp [Stroke.isMild])
  · exact .mild _ (by simp [Stroke.isMild, Event.isLoss])
  · split_ifs
    · exact .mild _ (by simp [Stroke.isMild])
    · exact .mild _ (by simp [Stroke.isMild])
    · exact .mild _ (by simp [Stroke.isMild])
  · exact .nil

theorem finish_pending (l : Link) : Pending l.session (finish l) := by
  unfold finish
  split
  · exact .closing _
  · exact .nil

theorem send_calm (l : Link) (payload : Payload) (outcomes : List Transfer) :
    ∀ s ∈ send l payload outcomes, s.isCalm = true ∧ s.isCall = false := by
  unfold send
  split
  · simp
  · split
    · split
      · simp [Stroke.isCalm, Stroke.isCall, Event.isLoss]
      · split_ifs <;> simp [Stroke.isCalm, Stroke.isCall, Event.isLoss]
    · simp

theorem effect_closing (l : Link) :
    (concurrent vendor product).effect l closing = (l.close, []) := by
  cases hs : l.session <;>
    simp [closing, Concurrent.effect, Concurrent.strike, Concurrent.raises, concurrent, Link.close,
      Session.close, hs]

theorem effect_start (l : Link) : (concurrent vendor product).effect l (start l) = l.start := by
  match hr : l.reader with
  | some (.starting charset) =>
    simp only [start, Link.start, hr]
    rfl
  | none | some (.reading _) | some (.leaving _) =>
    simp only [start, Link.start, hr]
    rfl

theorem effect_read (l : Link) (r : Read) :
    (concurrent vendor product).effect l (read l r) = l.read r := by
  match hr : l.reader, r with
  | some (.reading charset), .ok [] =>
    simp only [read, Link.read, hr]
    rfl
  | some (.reading charset), .ok (b :: bytes) =>
    simp only [read, Link.read, hr]
    rfl
  | some (.reading charset), .error e =>
    by_cases hi : (decide (e = .timeout) || decide (e = .interrupted)) = true
    · simp only [read, Link.read, hr, hi]
      rfl
    · by_cases hd : e = .noDevice
      · subst hd
        simp only [read, Link.read, hr]
        rfl
      · have hfault : l.readFault e =
            if l.isAlive then some ⟨"failed to read from printer", .usb e⟩ else none := by
          cases ha : l.isAlive <;> simp [Link.readFault, hd, ha]
        have halive : (concurrent vendor product).isAlive l = l.isAlive := rfl
        simp only [read, Link.read, hr, hfault]
        rw [if_neg hi, if_neg hi, if_neg hd, Concurrent.effect_look, halive]
        cases l.isAlive <;> rfl
  | none, _ | some (.starting _), _ | some (.leaving _), _ =>
    simp only [read, Link.read, hr]
    rfl

theorem effect_finish (l : Link) :
    (concurrent vendor product).effect l (finish l) = l.finish := by
  match hr : l.reader with
  | some (.leaving fault) =>
    simp only [finish, Link.finish, hr]
    exact Concurrent.effect_closing stored l _
  | none | some (.starting _) | some (.reading _) =>
    simp only [finish, Link.finish, hr]
    rfl

theorem effect_send (l : Link) (payload : Payload) (outcomes : List Transfer) :
    (concurrent vendor product).effect l (send l payload outcomes) =
      (l.next (.send payload outcomes), (l.act (.send payload outcomes)).events) := by
  simp only [send, Link.next, Link.act, Link.send]
  cases payload.encode l.charset with
  | error e => rfl
  | ok message =>
    dsimp only
    cases l.isConnected with
    | false => rfl
    | true =>
      cases l.claimed with
      | none => rfl
      | some c =>
        cases (transmit message outcomes).fault with
        | none => rfl
        | some e =>
          dsimp only
          split_ifs
          · rfl
          · exact Concurrent.effect_unset stored l _

end Script

theorem call_connect (last : Read) : (concurrent vendor product).Call (.connect last) := by
  refine .opening rfl rfl fun l hr hi ha => ?_
  have hclaimed : l.claimed.isSome = true := by
    rw [Option.isSome_iff_ne_none]
    exact fun hn => hi ((state_eq_uninitialized l).mpr hn)
  have hc := connect_none ha hclaimed hr last
  have hnext : l.next (.connect last) = _ := congrArg Outcome.link hc
  have hevents : (l.act (.connect last)).events = _ := congrArg Outcome.events hc
  refine ⟨⟨congrArg Link.session hnext, ?_, (congrArg Link.state hnext).trans ?_⟩, hevents⟩
  · exact (congrArg (Option.isSome ∘ Link.reader) hnext).trans rfl
  · obtain ⟨c, hclaimed⟩ := Option.isSome_iff_exists.mp hclaimed
    simp [Link.state, hclaimed, concurrent, adapter]

theorem call_shutdown (last : Read) : (concurrent vendor product).Call (.shutdown last) := by
  refine .ending rfl rfl fun l hr => ?_
  obtain ⟨hnext, hevents⟩ := shutdown_none hr last
  exact ⟨congrArg Link.session hnext, (congrArg Link.reader hnext).trans hr, hevents⟩

theorem isReady_eq (l : Link) :
    (concurrent vendor product).isReady l = (!l.isAlive && l.claimed.isSome) := by
  have hi : decide (l.state ≠ .uninitialized) = l.claimed.isSome := by
    cases hc : l.claimed <;> simp [state_eq_uninitialized, hc]
  rw [Bool.and_comm]
  exact congrArg (· && !l.isAlive) hi

theorem lawful (vendor : Nat) (product : Option Nat) : (concurrent vendor product).Lawful where
  toStored := stored
  bare_put l s r := by
    change Link.state { l with session := s, reader := r } = _ ↔ l.state = _
    rw [state_eq_uninitialized, state_eq_uninitialized]
  down l hc ha := isLive_of_closed hc
  unused := rfl
  absent l a ha hr := by
    change l.reader = none at hr
    cases a with
    | start => simp [concurrent, Link.script, Script.start, hr]
    | read r => simp [concurrent, Link.script, Script.read, hr]
    | finish => simp [concurrent, Link.script, Script.finish, hr]
    | _ => cases ha
  turn l a ha := by
    cases a with
    | start => exact Script.start_pending l
    | read r => exact Script.read_pending l r
    | finish => exact Script.finish_pending l
    | _ => cases ha
  written l a ha := by
    cases a with
    | init bus => exact .called [] rfl (by simp) (.aside rfl rfl fun l => init_aside l bus)
    | connect last =>
      by_cases hn : (!l.isAlive && l.claimed.isSome) = true
      · exact .called [] (if_pos hn) (by simp) (call_connect last)
      · exact .whole (by simp [concurrent, Link.script, hn])
    | disconnect =>
      exact .whole (by simp [concurrent, Link.script, Script.closing, Stroke.isCalm, Stroke.isCall])
    | shutdown last =>
      exact .called Script.closing rfl (by simp [Script.closing, Stroke.isCalm, Stroke.isCall])
        (call_shutdown last)
    | send payload outcomes => exact .whole (Script.send_calm l payload outcomes)
    | setCharset charset =>
      exact .called [] rfl (by simp) (.aside rfl rfl fun l => ⟨rfl, rfl, rfl⟩)
    | start | read _ | finish => cases ha
  connect l a ha := by
    cases a with
    | connect last => exact ⟨rfl, by rw [isReady_eq]; rfl⟩
    | _ => cases ha

theorem isTurn_joining (last : Read) : ∀ t ∈ joining last, t.isTurn = true := by
  simp [joining, Action.isTurn]

theorem events_joining (l : Link) (last : Read) :
    ((turns Link.next l (joining last)).flatMap fun t => (t.state.act t.action).events) =
      (l.join last).2 := by
  simp [joining, turns, Link.next, Link.act, Link.silently, Link.join, Step.andThen]

theorem comes_connect (l : Link) (last : Read) :
    (concurrent vendor product).Comes l (.connect last) := by
  by_cases hn : (!l.isAlive && l.claimed.isSome) = true
  · obtain ⟨ha, hc⟩ : l.isAlive = false ∧ l.claimed.isSome = true := by simpa using hn
    have hact : l.act (.connect last) =
        { link := { (l.join last).1 with
            session := some ⟨true, true⟩
            reader := some (.starting (l.join last).1.charset) }
          events := (l.join last).2 } := by
      have hn : l.claimed.isNone = false := by simpa using hc
      simp [Link.act, Link.connect, ha, hn]
    have hnone := (Link.join_closed ha last).1
    have hcall := connect_none (isAlive_join ha last) (by rwa [claimed_join]) hnone last
    exact .waiting [] l (joining last) (if_pos hn) (by simp) rfl (isTurn_joining last) hnone
      ((congrArg Outcome.link hcall).trans (congrArg Outcome.link hact).symm)
      (congrArg Outcome.events hcall)
      ((congrArg Outcome.events hact).trans (events_joining l last).symm)
  · have hscript : (concurrent vendor product).script l (.connect last) = [] := if_neg hn
    have hsame : l.next (.connect last) = l ∧ (l.act (.connect last)).events = [] := by
      by_cases ha : l.isAlive = true
      · simp [Link.next, Link.act, Link.connect, ha]
      · have hc : l.claimed = none := by simpa [ha] using hn
        simp [Link.next, Link.act, Link.connect, ha, hc]
    exact .idle _ hscript hsame.1 hsame.2

theorem comes_shutdown (l : Link) (last : Read) :
    (concurrent vendor product).Comes l (.shutdown last) := by
  have hnone := (Link.join_closed (Link.isAlive_close l) last).1
  obtain ⟨hnext, hevents⟩ := shutdown_none hnone last
  have hact : (l.act (.shutdown last)).link =
      { (l.close.join last).1 with session := none, claimed := none } ∧
      (l.act (.shutdown last)).events = (l.close.join last).2 := by
    simp only [Link.act, Link.shutdown]
    cases hc : (l.close.join last).1.claimed with
    | none => simp
    | some c => exact ⟨rfl, rfl⟩
  exact .waiting Script.closing l.close (joining last) rfl (by simp [Script.closing])
    (Script.effect_closing l) (isTurn_joining last) hnone (hnext.trans hact.1.symm) hevents
    (hact.2.trans (events_joining l.close last).symm)

theorem faithful (vendor : Nat) (product : Option Nat) :
    (concurrent vendor product).Faithful where
  turn l a ha := by
    cases a with
    | start => exact Script.effect_start l
    | read r => exact Script.effect_read l r
    | finish => exact Script.effect_finish l
    | _ => cases ha
  operation l a ha := by
    cases a with
    | init bus =>
      refine .prompt (by simp [concurrent, Link.script, Action.waits]) ?_
      exact Prod.ext rfl (List.append_nil _)
    | setCharset charset => exact .prompt (by simp [concurrent, Link.script, Action.waits]) rfl
    | disconnect =>
      exact .prompt (by simp [concurrent, Link.script, Script.closing]) (Script.effect_closing l)
    | send payload outcomes =>
      refine .prompt (fun b hb => ?_) (Script.effect_send l payload outcomes)
      cases (Script.send_calm l payload outcomes _ hb).2
    | connect last => exact comes_connect l last
    | shutdown last => exact comes_shutdown l last
    | start | read _ | finish => cases ha

end

end LabelPrinter.Usb

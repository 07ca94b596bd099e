import LabelPrinter.Proofs.Tcp.Standing
import Mathlib.Data.List.Forall2

/-!
The life of a connection as its client listeners see it: every session is told of in one block, and
the blocks follow each other in the order of the calls that started the sessions.
-/

namespace LabelPrinter.Tcp

/-- There has been no session yet. -/
structure Unused (address : String) (l : Link) : Prop where
  address_eq : l.address = address
  sound : Sound l
  worker_eq : l.worker = none

theorem telling (address : String) : Stretching Link.next Turn.first? Cycle.add (Unused address)
    (Standing address) (fun c => Block address c c.log) where
  idle l a h hn := by
    obtain ⟨hw, ha⟩ := idle_next h.worker_eq (Option.map_eq_none_iff.mp hn)
    exact ⟨ha.trans h.address_eq, h.sound.next a, hw⟩
  first l a d h hd := by
    obtain ⟨hi, ha, dial, last, rfl, rfl⟩ := first?_eq_some hd
    exact .started h.address_eq h.sound ha hi dial last
  standing l a c h hn := h.next (Option.map_eq_none_iff.mp hn)
  ending l a c d h hd := by
    obtain ⟨hi, ha, dial, last, rfl, rfl⟩ := first?_eq_some hd
    exact ⟨h.completed ha hi dial last, .started h.address_eq h.sound ha hi dial last⟩

theorem first?_log (t : Turn) (c : Cycle) (h : Turn.first? t = some c) : c.log = [] := by
  obtain ⟨_, -, rfl⟩ := Option.map_eq_some_iff.mp h
  rfl

def IsBlock (b : List ClientEvent) : Prop :=
  b = [] ∨ (∃ f, b = [.failing f]) ∨ b = [.established, .lost] ∨
    ∃ f, b = [.established, .failing f, .lost]

theorem Block.isBlock {address : String} {c : Cycle} {b : List ClientEvent}
    (h : Block address c b) : IsBlock b := by
  cases h with
  | abandoned _ _ => exact .inl rfl
  | unreachable e _ _ _ => exact .inr (.inl ⟨_, rfl⟩)
  | unusable e _ _ => exact .inr (.inl ⟨_, rfl⟩)
  | lost _ _ _ => exact .inr (.inr (.inl rfl))
  | broken e _ _ _ _ => exact .inr (.inr (.inr ⟨_, rfl⟩))

/-- What is told in a run that has led to a link. -/
structure InBlocks (address : String) (ts : List Turn) (l : Link) : Prop where
  /-- There is one session for each call that starts one, in the order of the calls. -/
  sessions : (cycles ts).map Cycle.dial = ts.filterMap Turn.started?
  /-- What is told of one session comes before all that is told of the next. -/
  in_turn : ts.flatMap Turn.lifecycle = (cycles ts).flatMap Cycle.log
  settled : ∀ c ∈ (cycles ts).dropLast, Block address c c.log
  latest : ∀ c ∈ (cycles ts).getLast?, Told address c l.worker
  blocks : ∃ bs : List (List ClientEvent), List.Forall₂ (fun c b => c.log <+: b) (cycles ts) bs ∧
    (∀ b ∈ bs, IsBlock b) ∧ ts.flatMap Turn.lifecycle <+: bs.flatten

theorem Told.log_cases {address : String} {c : Cycle} {w : Option Worker} (h : Told address c w) :
    Block address c c.log ∨ c.log = [] ∨ c.log = [.established] := by
  match w with
  | none => exact .inl h
  | some (.dialing _ _) => exact .inr (.inl h.2.1)
  | some (.reading _ _) | some (.leaving none) | some (.leaving (some _)) =>
    exact .inr (.inr h.2.2.1)

theorem Told.within {address : String} {c : Cycle} {w : Option Worker} (h : Told address c w) :
    ∃ b, c.log <+: b ∧ IsBlock b := by
  obtain hb | hl | hl := h.log_cases
  · exact ⟨c.log, List.prefix_rfl, hb.isBlock⟩
  · exact ⟨[], hl ▸ List.prefix_rfl, .inl rfl⟩
  · refine ⟨[.established, .lost], ?_, .inr (.inr (.inl rfl))⟩
    rw [hl]
    exact List.prefix_append [_] [_]

/-- The logs of sessions that are over are blocks, and that of the latest one may be cut short. -/
theorem blocks_of_reached {address : String} {cs : List Cycle} {l : Link}
    (h : Reached (Unused address) (Standing address) (fun c => Block address c c.log) cs l) :
    ∃ bs : List (List ClientEvent), List.Forall₂ (fun c b => c.log <+: b) cs bs ∧
      (∀ b ∈ bs, IsBlock b) ∧ cs.flatMap Cycle.log <+: bs.flatten := by
  cases h with
  | idle hc _ =>
    rw [hc]
    exact ⟨[], .nil, List.forall_mem_nil _, List.prefix_rfl⟩
  | running past c hc ho hst =>
    obtain ⟨b, hp, hb⟩ := hst.told.within
    rw [hc]
    refine ⟨past.map Cycle.log ++ [b], ?_, ?_, ?_⟩
    · apply List.rel_append
      · rw [List.forall₂_map_right_iff, List.forall₂_same]
        intro d hd
        exact List.prefix_rfl
      · exact .cons hp .nil
    · intro d hd
      obtain hd | rfl : d ∈ past.map Cycle.log ∨ d = b := by simpa using hd
      · obtain ⟨e, he, rfl⟩ := List.mem_map.mp hd
        exact (ho e he).isBlock
      · exact hb
    · rw [List.flatMap_append, List.flatMap_singleton, List.flatten_append, List.flatMap_def,
        List.flatten_singleton]
      exact (List.prefix_append_right_inj _).mpr hp

theorem told_in_blocks (host : String) (service : Nat) (actions : List Action) :
    InBlocks (Link.of host service).address (turns Link.next (Link.of host service) actions)
      (actions.foldl Link.next (Link.of host service)) := by
  have start : Unused (Link.of host service).address (Link.of host service) :=
    ⟨rfl, .of_unused rfl rfl, rfl⟩
  generalize Link.of host service = l at start ⊢
  have hreached := (telling l.address).run start actions
  have hturn := (telling l.address).told start (fun _ a h => lifecycle_idle h.worker_eq a)
    first?_log Cycle.log_add actions
  refine ⟨dials_cycles _, hturn, hreached.settled, fun c hc => (hreached.standing c hc).told, ?_⟩
  rw [hturn]
  exact blocks_of_reached hreached

end LabelPrinter.Tcp

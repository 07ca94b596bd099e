import LabelPrinter.Proofs.Usb.Standing

/-!
What the reader tells of the sessions of a connection over the bus: each log is the beginning of the
session's story, and the stories follow each other in the order of the calls that started them.
-/

namespace LabelPrinter.Usb

theorem told_of_no_reader {l : Link} (h : l.reader = none) (a : Action) : Turn.told ⟨l, a⟩ = [] := by
  cases a with
  | init bus => exact l.init_quiet bus
  | connect last =>
    cases hs : Turn.started? ⟨l, .connect last⟩ with
    | none => exact (Link.connect_same hs).2.1
    | some charset =>
      obtain ⟨ha, hc, -, -⟩ := Link.started_eq_some hs
      rw [(Link.connect_started ha hc last).2.2.1, h]
      rfl
  | disconnect | setCharset _ => rfl
  | shutdown last =>
    rw [(Link.shutdown_parting l last).2, h]
    rfl
  | send payload outcomes => exact (l.send_quiet payload outcomes).2.2
  | start => rw [Turn.told, Link.act, Link.start_idle (by simp [h])]; rfl
  | read r => rw [Turn.told, Link.act, Link.read_idle (by simp [h])]; rfl
  | finish => rw [Turn.told, Link.act, Link.finish_idle (by simp [h])]; rfl

theorem no_reader_next {l : Link} (h : l.reader = none) {a : Action}
    (hn : Turn.started? ⟨l, a⟩ = none) : (l.next a).reader = none := by
  cases a with
  | init bus =>
    obtain ⟨_, hs⟩ := l.init_frame bus
    rw [hs, h]
  | connect last => rw [(Link.connect_same hn).1, h]
  | disconnect | setCharset _ => exact h
  | shutdown last => exact (Link.shutdown_parting l last).1
  | send payload outcomes => exact (l.send_quiet payload outcomes).1.trans h
  | start =>
    change l.start.1.reader = none
    rw [Link.start_idle (by simp [h]), h]
  | read r =>
    change (l.read r).1.reader = none
    rw [Link.read_idle (by simp [h]), h]
  | finish =>
    change l.finish.1.reader = none
    rw [Link.finish_idle (by simp [h]), h]

theorem Standing.started {l : Link} (ha : l.isAlive = false) (hc : l.claimed.isSome = true)
    (last : Read) : Standing (l.next (.connect last)) { charset := l.charset } := by
  obtain ⟨hr, hs, -, -⟩ := Link.connect_started ha hc last
  refine ⟨fun _ => iff_of_true hs (by simp [Cycle.Closed]), ?_, ?_⟩
  · rw [hr]
    exact ⟨rfl, rfl, rfl⟩
  · intro before t after ht
    exact absurd ht (by simp)

/-- The call that starts a session waits for the reader of the one before. -/
theorem Standing.completed {l : Link} {c : Cycle} (h : Standing l c) (ha : l.isAlive = false)
    (hc : l.claimed.isSome = true) (last : Read) : (c.add ⟨l, .connect last⟩).Over := by
  obtain ⟨-, -, hq, hr⟩ := Link.connect_started ha hc last
  exact h.told.part hq hr fun hs => (Cycle.closed_add _ _).mpr (.inl (h.closed hs ha))

theorem first?_log (t : Turn) (c : Cycle) (h : Turn.first? t = some c) : c.log = [] := by
  obtain ⟨_, -, rfl⟩ := Option.map_eq_some_iff.mp h
  rfl

theorem stretching : Stretching Link.next Turn.first? Cycle.add (fun l => l.reader = none)
    Standing (fun c => c.Over ∧ c.Marked) where
  idle l a h hn := no_reader_next h (Option.map_eq_none_iff.mp hn)
  first l a d h hd := by
    obtain ⟨ha, hc, rfl, last, rfl⟩ := first?_eq_some hd
    exact .started ha hc last
  standing l a c h hn := h.next (Option.map_eq_none_iff.mp hn)
  ending l a c d h hd := by
    obtain ⟨ha, hc, rfl, last, rfl⟩ := first?_eq_some hd
    exact ⟨⟨h.completed ha hc last, h.marked.add (h.marks _)⟩, .started ha hc last⟩

theorem Cycle.Over.log_within_story {c : Cycle} (h : c.Over) : c.log <+: c.story :=
  ⟨[], by rw [List.append_nil, h.log_eq]⟩

theorem Told.log_within_story {c : Cycle} {w : Option Reader} (h : Told c w) : c.log <+: c.story := by
  have hcourse (hl : c.log = c.course) : c.log <+: c.story := by
    rw [hl, Cycle.story_eq]
    exact List.prefix_append _ _
  match w with
  | none => exact Cycle.Over.log_within_story h
  | some (.starting _) =>
    rw [h.2.1]
    exact List.nil_prefix
  | some (.reading _) => exact hcourse h.2.1
  | some (.leaving _) => exact hcourse h.2.1

/-- What the reader tells in a run that has led to a link. -/
structure InSessions (ts : List Turn) (l : Link) : Prop where
  /-- There is one session for each call that starts one, in the order of the calls. -/
  sessions : (cycles ts).map Cycle.charset = ts.filterMap Turn.started?
  /-- What is told of one session comes before all that is told of the next. -/
  in_turn : ts.flatMap Turn.told = (cycles ts).flatMap Cycle.log
  within : ∀ c ∈ cycles ts, c.log <+: c.story
  settled : ∀ c ∈ (cycles ts).dropLast, c.Over
  latest : ∀ c ∈ (cycles ts).getLast?, Told c l.reader
  marked : ∀ c ∈ cycles ts, c.Marked

theorem told_in_sessions (vendor : Nat) (product : Option Nat) (actions : List Action) :
    InSessions (turns Link.next { vendor, product } actions)
      (actions.foldl Link.next { vendor, product }) := by
  have start : ({ vendor, product } : Link).reader = none := rfl
  generalize ({ vendor, product } : Link) = l at start ⊢
  have hreached := stretching.run start actions
  refine ⟨charsets_cycles _, ?_, ?_, ?_, ?_, ?_⟩
  · exact stretching.told start (fun _ a h => told_of_no_reader h a) first?_log Cycle.log_add actions
  · exact hreached.all (fun _ h => h.1.log_within_story) fun _ h => h.told.log_within_story
  · exact fun c hc => (hreached.settled c hc).1
  · exact fun c hc => (hreached.standing c hc).told
  · exact hreached.all (fun _ h => h.2) fun _ h => h.marked

end LabelPrinter.Usb

import LabelPrinter.Proofs.Link.Strokes

/-!
Nobody is told of a loss before the session is closed, and a closed session stays closed. So whoever
connects again on being told starts a new session, whatever else goes on.
-/

namespace LabelPrinter

def Event.isLoss : Event → Bool
  | .client (.failing _) | .client .lost => true
  | .client .established | .data _ => false

namespace Stroke

variable {ω α : Type}

/-- What a thread may do while its session is not over. -/
def isMild : Stroke ω α → Bool
  | .tell e => !e.isLoss
  | .call _ => false
  | .connected _ | .dead | .look _ _ | .stand _ => true

/-- What a caller may do at any time: no flag is set, and no loss is told. -/
def isCalm : Stroke ω α → Bool
  | .connected b => !b
  | .tell e => !e.isLoss
  | .dead | .call _ => true
  | .look _ _ | .stand _ => false

def isCall : Stroke ω α → Bool
  | .call _ => true
  | .connected _ | .dead | .tell _ | .look _ _ | .stand _ => false

/-- What a stroke writes into the session. -/
def mark : Stroke ω α → Session → Session
  | .connected b, s => { s with connected := b }
  | .dead, s => { s with alive := false }
  | .tell _, s | .look _ _, s | .stand _, s | .call _, s => s

theorem alive_mark (t : Stroke ω α) {s : Session} (h : s.alive = false) :
    (t.mark s).alive = false := by
  cases t with
  | dead => rfl
  | connected _ | tell _ | look _ _ | stand _ | call _ => exact h

theorem connected_mark {t : Stroke ω α} (ht : t.isCalm = true) {s : Session}
    (h : s.connected = false) : (t.mark s).connected = false := by
  cases t with
  | connected b => simpa [isCalm, mark] using ht
  | dead | tell _ | look _ _ | stand _ | call _ => exact h

end Stroke

/-- The thread tells how its session ended, and ends. -/
def leave {ω α : Type} (es : List Event) : List (Stroke ω α) := es.map .tell ++ [.stand none]

/-- What the thread of a session may be about to do. -/
inductive Pending {ω α : Type} (session : Option Session) : List (Stroke ω α) → Prop where
  | mild (script : List (Stroke ω α)) : (∀ s ∈ script, s.isMild = true) → Pending session script
  | closing (es : List Event) : Pending session (.connected false :: .dead :: leave es)
  | dying (es : List Event) : session.any (·.connected) = false →
      Pending session (.dead :: leave es)
  | leaving (es : List Event) : session.any (·.connected) = false → session.any (·.alive) = false →
      Pending session (leave es)

theorem any_map_eq_false {session : Option Session} {p : Session → Bool} {f : Session → Session}
    (h : session.any p = false) (hf : ∀ s, p s = false → p (f s) = false) :
    (session.map f).any p = false := by
  cases session with
  | none => rfl
  | some s => exact hf s h

namespace Pending

variable {ω α : Type} {session : Option Session} {script : List (Stroke ω α)}

theorem nil : Pending session ([] : List (Stroke ω α)) := .mild [] (by simp)

/-- The flags may be unset by anybody at any time. -/
theorem unset (h : Pending session script) {f : Session → Session}
    (hc : ∀ s, s.connected = false → (f s).connected = false)
    (ha : ∀ s, s.alive = false → (f s).alive = false) : Pending (session.map f) script := by
  cases h with
  | mild _ hs => exact .mild _ hs
  | closing es => exact .closing es
  | dying es h => exact .dying es (any_map_eq_false h hc)
  | leaving es h hd => exact .leaving es (any_map_eq_false h hc) (any_map_eq_false hd ha)

/-- A loss is told only when both flags are unset, and then there is not much left to do. -/
theorem loss {e : Event} (h : Pending session (.tell e :: script)) (he : e.isLoss = true) :
    session.any (·.connected) = false ∧ session.any (·.alive) = false ∧
      ∃ es, script = leave es := by
  generalize hs : Stroke.tell e :: script = all at h
  cases h with
  | mild _ hm =>
    have hfirst : (Stroke.tell e : Stroke ω α).isMild = true := hm _ (hs ▸ List.mem_cons_self)
    simp [Stroke.isMild, he] at hfirst
  | closing es => cases hs
  | dying es hc => cases hs
  | leaving es hc ha =>
    cases es with
    | nil => cases hs
    | cons f es => exact ⟨hc, ha, es, (List.cons.inj hs).2⟩

end Pending

namespace Concurrent

variable {σ ω α : Type}

/-- A new session has begun, and a thread of its own. -/
structure Opened (C : Concurrent σ ω α) (l : σ) : Prop where
  session_eq : C.session l = some C.fresh
  attended : (C.place l).isSome = true
  state_eq : C.state l = C.opening

/-- What a call comes to that has got to its end. -/
inductive Call (C : Concurrent σ ω α) (a : α) : Prop where
  | aside : C.waits a = false → C.isConnect a = false →
      (∀ l, C.session (C.next l a) = C.session l ∧ C.place (C.next l a) = C.place l ∧
        C.events l a = []) → Call C a
  | ending : C.waits a = true → C.isConnect a = false →
      (∀ l, C.place l = none → C.session (C.next l a) = none ∧ C.place (C.next l a) = none ∧
        C.events l a = []) → Call C a
  | opening : C.waits a = true → C.isConnect a = true →
      (∀ l, C.place l = none → C.state l ≠ .uninitialized → C.isAlive l = false →
        C.Opened (C.next l a) ∧ C.events l a = []) → Call C a

/-- What is put is there, and nothing is left of what was put before. -/
structure Stored (C : Concurrent σ ω α) : Prop where
  session_put : ∀ l s p, C.session (C.put l s p) = s
  place_put : ∀ l s p, C.place (C.put l s p) = p
  put_put : ∀ l s p t q, C.put (C.put l s p) t q = C.put l t q

/-- An operation calls nothing but what is left of itself, and that at the very end. -/
inductive Written (C : Concurrent σ ω α) (l : σ) (a : α) : Prop where
  | whole : (∀ s ∈ C.script l a, s.isCalm = true ∧ s.isCall = false) → Written C l a
  | called (before : List (Stroke ω α)) : C.script l a = before ++ [.call a] →
      (∀ s ∈ before, s.isCalm = true ∧ s.isCall = false) → C.Call a → Written C l a

namespace Written

variable {C : Concurrent σ ω α} {l : σ} {a b : α}

theorem calm (h : C.Written l a) : ∀ s ∈ C.script l a, s.isCalm = true := by
  cases h with
  | whole hs => exact fun s h => (hs s h).1
  | called before hscript hs _ =>
    rw [hscript]
    intro s h
    rcases List.mem_append.mp h with h | h
    · exact (hs s h).1
    · rw [List.mem_singleton.mp h]
      rfl

theorem call (h : C.Written l a) (hb : .call b ∈ C.script l a) : b = a ∧ C.Call b := by
  cases h with
  | whole hs => cases (hs _ hb).2
  | called before hscript hs hcall =>
    rw [hscript] at hb
    rcases List.mem_append.mp hb with hb | hb
    · cases (hs _ hb).2
    · cases List.mem_singleton.mp hb
      exact ⟨rfl, hcall⟩

end Written

/-- Whether a connect has anything to do. -/
def isReady (C : Concurrent σ ω α) (l : σ) : Bool :=
  decide (C.state l ≠ .uninitialized) && !C.isAlive l

/-- What is asked of the scripts. -/
structure Lawful (C : Concurrent σ ω α) : Prop extends C.Stored where
  bare_put : ∀ l s p, C.state (C.put l s p) = .uninitialized ↔ C.state l = .uninitialized
  down : ∀ l, (C.session l).any (·.connected) = false → C.isAlive l = false →
    Machine.isLive (C.state l) = false
  unused : C.place C.start = none
  absent : ∀ l a, C.isTurn a = true → C.place l = none → C.script l a = []
  turn : ∀ l a, C.isTurn a = true → Pending (C.session l) (C.script l a)
  written : ∀ l a, C.isTurn a = false → C.Written l a
  connect : ∀ l a, C.isConnect a = true → C.isTurn a = false ∧
    C.script l a = if C.isReady l then [.call a] else []

namespace Lawful

variable {C : Concurrent σ ω α} {l : σ} {s : Stroke ω α}

theorem session_strike (hC : C.Lawful) (hs : s.isCall = false) :
    C.session (C.strike l s) = (C.session l).map s.mark := by
  cases s with
  | connected b => exact hC.session_put _ _ _
  | dead => exact hC.session_put _ _ _
  | tell e => exact Option.map_id'.symm
  | look stay leave => exact (hC.session_put _ _ _).trans Option.map_id'.symm
  | stand p => exact (hC.session_put _ _ _).trans Option.map_id'.symm
  | call a => cases hs

theorem isAlive_strike (hC : C.Lawful) (hs : s.isCall = false) (h : C.isAlive l = false) :
    C.isAlive (C.strike l s) = false := by
  rw [isAlive, hC.session_strike hs]
  exact any_map_eq_false h fun _ => s.alive_mark

theorem bare_strike (hC : C.Lawful) (hs : s.isCall = false) :
    C.state (C.strike l s) = .uninitialized ↔ C.state l = .uninitialized := by
  cases s with
  | connected _ | dead | look _ _ | stand _ => exact hC.bare_put _ _ _
  | tell e => exact Iff.rfl
  | call a => cases hs

theorem place_strike (hC : C.Lawful) (hs : s.isCall = false) (hm : s.isCalm = true) :
    C.place (C.strike l s) = C.place l := by
  cases s with
  | connected _ | dead => exact hC.place_put _ _ _
  | tell e => rfl
  | look _ _ | stand _ => cases hm
  | call a => cases hs

theorem script_connect (hC : C.Lawful) {a : α} (ha : C.isConnect a = true)
    (hstate : C.state l ≠ .uninitialized) (halive : C.isAlive l = false) :
    C.script l a = [.call a] := by
  rw [(hC.connect l a ha).2]
  exact if_pos (by simp [isReady, hstate, halive])

theorem opens (hC : C.Lawful) {a b : α} (ha : C.isTurn a = false) (hb : .call b ∈ C.script l a)
    (hco : C.isConnect b = true) :
    C.script l a = [.call b] ∧ C.state l ≠ .uninitialized ∧ C.isAlive l = false := by
  obtain ⟨rfl, -⟩ := (hC.written l a ha).call hb
  have hscript := (hC.connect l b hco).2
  by_cases hready : C.isReady l = true
  · rw [if_pos hready] at hscript
    exact ⟨hscript, by simpa [isReady] using hready⟩
  · rw [if_neg hready] at hscript
    rw [hscript] at hb
    cases hb

end Lawful

theorem free_of_not_held {C : Concurrent σ ω α} {m : Moment σ ω α} {a : α}
    (h : C.isHeld m (.call a) = false) (ha : C.waits a = true) :
    C.place m.link = none ∧ m.thread = [] := by
  simpa [isHeld, ha] using h

/-- What holds at every moment. -/
structure Orderly (C : Concurrent σ ω α) (m : Moment σ ω α) : Prop where
  attended : (C.place m.link).isSome = true ∨ m.thread ≠ [] → (C.session m.link).isSome = true
  thread : Pending (C.session m.link) m.thread
  calm : ∀ s ∈ m.caller, s.isCalm = true
  call : ∀ a, .call a ∈ m.caller → C.Call a
  opens : ∀ a, .call a ∈ m.caller → C.isConnect a = true →
    m.caller = [.call a] ∧ C.state m.link ≠ .uninitialized ∧ C.isAlive m.link = false

namespace Orderly

variable {C : Concurrent σ ω α} {m : Moment σ ω α}

theorem outset (hC : C.Lawful) : C.Orderly C.outset where
  attended := by simp [Concurrent.outset, hC.unused]
  thread := .nil
  calm := by simp [Concurrent.outset]
  call := by simp [Concurrent.outset]
  opens := by simp [Concurrent.outset]

theorem thread_head (h : C.Orderly m) {s : Stroke ω α} {rest : List (Stroke ω α)}
    (hs : m.thread = s :: rest) :
    s.isCall = false ∧ Pending ((C.session m.link).map s.mark) rest := by
  have hp := h.thread
  rw [hs] at hp
  generalize C.session m.link = session at hp ⊢
  generalize hscript : s :: rest = script at hp
  cases hp with
  | mild _ hm =>
    subst hscript
    refine ⟨?_, .mild _ fun t ht => hm t (List.mem_cons_of_mem s ht)⟩
    cases s with
    | call a => cases hm _ List.mem_cons_self
    | connected _ | dead | tell _ | look _ _ | stand _ => rfl
  | closing es =>
    obtain ⟨rfl, rfl⟩ := List.cons.inj hscript
    refine ⟨rfl, .dying es ?_⟩
    cases session <;> rfl
  | dying es hc =>
    obtain ⟨rfl, rfl⟩ := List.cons.inj hscript
    refine ⟨rfl, .leaving es (any_map_eq_false hc fun _ h => h) ?_⟩
    cases session <;> rfl
  | leaving es hc ha =>
    cases es with
    | nil =>
      obtain ⟨rfl, rfl⟩ := List.cons.inj hscript
      exact ⟨rfl, .nil⟩
    | cons e es =>
      obtain ⟨rfl, rfl⟩ := List.cons.inj hscript
      refine ⟨rfl, .leaving es (any_map_eq_false hc fun _ h => h) ?_⟩
      exact any_map_eq_false ha fun _ h => h

theorem thread_strike (hC : C.Lawful) (h : C.Orderly m) {s : Stroke ω α} {rest : List (Stroke ω α)}
    (hs : m.thread = s :: rest) :
    C.Orderly { m with link := C.strike m.link s, thread := rest } := by
  obtain ⟨hcall, hp⟩ := h.thread_head hs
  have hsession := hC.session_strike (l := m.link) hcall
  refine ⟨fun _ => ?_, ?_, h.calm, h.call, fun a ha hco => ?_⟩
  · have hsome := h.attended (.inr (by simp [hs]))
    rw [hsession, Option.isSome_map]
    exact hsome
  · rw [hsession]
    exact hp
  · obtain ⟨hone, hstate, halive⟩ := h.opens a ha hco
    exact ⟨hone, fun hn => hstate ((hC.bare_strike hcall).mp hn), hC.isAlive_strike hcall halive⟩

theorem alone (h : C.Orderly m) {s : Stroke ω α} {rest : List (Stroke ω α)}
    (hs : m.caller = s :: rest) {a : α} (ha : .call a ∈ rest) : C.isConnect a = false := by
  by_contra hco
  have hone := (h.opens a (hs ▸ List.mem_cons_of_mem s ha) (by simpa using hco)).1
  rw [hs] at hone
  rw [(List.cons.inj hone).2] at ha
  exact absurd ha (by simp)

/-- What the caller does next, once it need not wait. -/
theorem caller_strike (hC : C.Lawful) (h : C.Orderly m) {s : Stroke ω α} {rest : List (Stroke ω α)}
    (hs : m.caller = s :: rest) (hheld : C.isHeld m s = false) :
    C.Orderly { m with link := C.strike m.link s, caller := rest } := by
  have hrest : ∀ t ∈ rest, t ∈ m.caller := fun t ht => hs ▸ List.mem_cons_of_mem s ht
  have hhead : s ∈ m.caller := hs ▸ List.mem_cons_self
  have hlink (ht : (C.place (C.strike m.link s)).isSome = true ∨ m.thread ≠ [] →
      (C.session (C.strike m.link s)).isSome = true)
      (hp : Pending (C.session (C.strike m.link s)) m.thread) :
      C.Orderly { m with link := C.strike m.link s, caller := rest } := by
    refine ⟨ht, hp, fun t ht => h.calm t (hrest t ht), fun a ha => h.call a (hrest _ ha), ?_⟩
    intro a ha hco
    rw [h.alone hs ha] at hco
    cases hco
  by_cases hcall : s.isCall = true
  · cases s with
    | call a =>
      cases h.call a hhead with
      | aside hw hco heq =>
        obtain ⟨hsession, hplace, -⟩ := heq m.link
        exact hlink (by rw [strike, hsession, hplace]; exact h.attended)
          (by rw [strike, hsession]; exact h.thread)
      | ending hw hco heq =>
        obtain ⟨hnone, hthread⟩ := free_of_not_held hheld hw
        obtain ⟨hsession, hplace, -⟩ := heq m.link hnone
        refine hlink (fun ht => ?_) (hthread ▸ .nil)
        simp [strike, hplace, hthread] at ht
      | opening hw hco heq =>
        obtain ⟨hnone, hthread⟩ := free_of_not_held hheld hw
        obtain ⟨-, hstate, halive⟩ := h.opens a hhead hco
        have hsession := (heq m.link hnone hstate halive).1.session_eq
        exact hlink (fun _ => by rw [strike, hsession]; rfl) (hthread ▸ .nil)
    | connected _ | dead | tell _ | look _ _ | stand _ => cases hcall
  · have hcall : s.isCall = false := by simpa using hcall
    have hcalm := h.calm s hhead
    have hsession := hC.session_strike (l := m.link) hcall
    apply hlink
    · rw [hsession, hC.place_strike hcall hcalm, Option.isSome_map]
      exact h.attended
    · rw [hsession]
      exact h.thread.unset (fun _ => Stroke.connected_mark hcalm) fun _ => s.alive_mark

theorem beat (hC : C.Lawful) (h : C.Orderly m) (b : Beat α) : C.Orderly (C.beat m b) := by
  have hn := C.next_beat m b
  generalize C.due m b = d at hn
  generalize C.beat m b = n at hn ⊢
  cases hn with
  | still => exact h
  | turn a ha ht =>
    refine ⟨?_, hC.turn m.link a ha, h.calm, h.call, h.opens⟩
    rintro (hp | hs)
    · exact h.attended (.inl hp)
    · apply h.attended
      by_contra hn
      refine hs (hC.absent m.link a ha ?_)
      simpa using fun hp => hn (.inl hp)
  | operation a ha hc =>
    have hwritten := hC.written m.link a ha
    exact ⟨h.attended, h.thread, hwritten.calm, fun b hb => (hwritten.call hb).2,
      fun b => hC.opens ha⟩
  | caller s rest hc hs => exact h.caller_strike hC hc hs
  | thread s rest hs => exact h.thread_strike hC hs

end Orderly

theorem effect_leave (C : Concurrent σ ω α) (l : σ) (es : List Event) :
    C.effect l (leave es) = (C.put l (C.session l) none, es) := by
  rw [leave, C.effect_tells]
  simp [effect, Concurrent.strike, raises]

def close (C : Concurrent σ ω α) (l : σ) : σ :=
  C.put l ((C.session l).map Session.close) (C.place l)

theorem effect_unset {C : Concurrent σ ω α} (hC : C.Stored) (l : σ) (rest : List (Stroke ω α)) :
    C.effect l (.connected false :: .dead :: rest) = C.effect (C.close l) rest := by
  have hclose : C.strike (C.strike l (.connected false)) .dead = C.close l := by
    rw [strike, strike, hC.session_put, hC.place_put, hC.put_put, Option.map_map]
    rfl
  rw [effect, effect, hclose]
  rfl

theorem effect_closing {C : Concurrent σ ω α} (hC : C.Stored) (l : σ) (es : List Event) :
    C.effect l (.connected false :: .dead :: leave es) =
      (C.put l ((C.session l).map Session.close) none, es) := by
  rw [effect_unset hC, effect_leave, close, hC.session_put, hC.put_put]

/-- The session is closed for good, and its thread only tells of that and ends. -/
structure Over (C : Concurrent σ ω α) (m : Moment σ ω α) : Prop where
  orderly : C.Orderly m
  connected : (C.session m.link).any (·.connected) = false
  alive : C.isAlive m.link = false
  ending : (∃ es, m.thread = leave es) ∨ (m.thread = [] ∧ C.place m.link = none)

theorem told_eq {C : Concurrent σ ω α} {m : Moment σ ω α} {b : Beat α} {d : Option (Stroke ω α)}
    (hd : C.due m b = d) : C.told ⟨m, b⟩ = (d.map (C.raises m.link)).getD [] := by rw [told, hd]

/-- Whoever tells of a loss has closed the session before. -/
theorem Orderly.closed {C : Concurrent σ ω α} (hC : C.Lawful) {m : Moment σ ω α} (h : C.Orderly m)
    {b : Beat α} {e : Event} (he : e ∈ C.told ⟨m, b⟩) (hl : e.isLoss = true) :
    C.session m.link = some ⟨false, false⟩ ∧ C.Over (C.beat m b) := by
  have hover := h.beat hC b
  have hn := C.next_beat m b
  generalize hd : C.due m b = d at hn
  rw [told_eq hd] at he
  generalize C.beat m b = n at hn hover ⊢
  cases hn with
  | still | turn _ _ _ | operation _ _ _ => exact absurd he (by simp)
  | caller s rest hs hheld =>
    have hhead : s ∈ m.caller := hs ▸ List.mem_cons_self
    have hcalm := h.calm s hhead
    cases s with
    | tell f =>
      obtain rfl : e = f := by simpa [raises] using he
      simp [Stroke.isCalm, hl] at hcalm
    | call a =>
      have hquiet : C.events m.link a = [] := by
        cases h.call a hhead with
        | aside hw hco heq => exact (heq m.link).2.2
        | ending hw hco heq => exact (heq m.link (free_of_not_held hheld hw).1).2.2
        | opening hw hco heq =>
          obtain ⟨-, hstate, halive⟩ := h.opens a hhead hco
          exact (heq m.link (free_of_not_held hheld hw).1 hstate halive).2
      exact absurd he (by simp [raises, hquiet])
    | connected _ | dead | look _ _ | stand _ => exact absurd he (by simp [raises])
  | thread s rest hs =>
    cases s with
    | tell f =>
      obtain rfl : e = f := by simpa [raises] using he
      obtain ⟨hc, ha, es, hrest⟩ := (hs ▸ h.thread).loss hl
      have hsome := h.attended (.inr (by simp [hs]))
      refine ⟨?_, hover, hc, ha, .inl ⟨es, hrest⟩⟩
      cases hsession : C.session m.link with
      | none => simp [hsession] at hsome
      | some s =>
        obtain ⟨alive, connected⟩ := s
        rw [hsession] at hc ha
        obtain rfl : connected = false := hc
        obtain rfl : alive = false := ha
        rfl
    | call a => cases (h.thread_head hs).1
    | connected _ | dead | look _ _ | stand _ => exact absurd he (by simp [raises])

namespace Over

variable {C : Concurrent σ ω α} {m : Moment σ ω α}

theorem call (hC : C.Lawful) (h : C.Over m) {a : α} {rest : List (Stroke ω α)}
    (hs : m.caller = .call a :: rest) (hheld : C.isHeld m (.call a) = false)
    (hco : C.isConnect a = false) : C.Over { m with link := C.next m.link a, caller := rest } := by
  have horderly := h.orderly.caller_strike hC hs hheld
  cases h.orderly.call a (hs ▸ List.mem_cons_self) with
  | aside hw hn heq =>
    obtain ⟨hsession, hplace, -⟩ := heq m.link
    refine ⟨horderly, ?_, ?_, ?_⟩
    · exact hsession ▸ h.connected
    · exact (congrArg (Option.any _) hsession).trans h.alive
    · exact hplace ▸ h.ending
  | ending hw hn heq =>
    obtain ⟨hnone, hthread⟩ := free_of_not_held hheld hw
    obtain ⟨hsession, hplace, -⟩ := heq m.link hnone
    refine ⟨horderly, ?_, ?_, .inr ⟨hthread, hplace⟩⟩
    · exact hsession ▸ rfl
    · exact (congrArg (Option.any _) hsession).trans rfl
  | opening hw hn heq => cases hco.symm.trans hn

theorem caller (hC : C.Lawful) (h : C.Over m) {s : Stroke ω α} {rest : List (Stroke ω α)}
    (hs : m.caller = s :: rest) (hheld : C.isHeld m s = false) (hcall : s.isCall = false) :
    C.Over { m with link := C.strike m.link s, caller := rest } := by
  have hcalm := h.orderly.calm s (hs ▸ List.mem_cons_self)
  have hsession := hC.session_strike (l := m.link) hcall
  refine ⟨h.orderly.caller_strike hC hs hheld, ?_, hC.isAlive_strike hcall h.alive, ?_⟩
  · change Option.any _ (C.session (C.strike m.link s)) = false
    rw [hsession]
    exact any_map_eq_false h.connected fun _ => Stroke.connected_mark hcalm
  · change _ ∨ m.thread = [] ∧ C.place (C.strike m.link s) = none
    rw [hC.place_strike hcall hcalm]
    exact h.ending

theorem thread (hC : C.Lawful) (h : C.Over m) {s : Stroke ω α} {rest : List (Stroke ω α)}
    (hs : m.thread = s :: rest) : C.Over { m with link := C.strike m.link s, thread := rest } := by
  have horderly := h.orderly.thread_strike hC hs
  obtain ⟨hcall, -⟩ := h.orderly.thread_head hs
  rcases h.ending with ⟨es, hes⟩ | ⟨ht, -⟩
  · cases es with
    | nil =>
      obtain ⟨rfl, rfl⟩ := List.cons.inj (hs.symm.trans hes)
      have hsession : C.session (C.strike m.link (.stand none)) = C.session m.link :=
        hC.session_put _ _ _
      refine ⟨horderly, ?_, hC.isAlive_strike hcall h.alive, .inr ⟨rfl, hC.place_put _ _ _⟩⟩
      exact hsession ▸ h.connected
    | cons e es =>
      obtain ⟨rfl, rfl⟩ := List.cons.inj (hs.symm.trans hes)
      exact ⟨horderly, h.connected, h.alive, .inl ⟨es, rfl⟩⟩
  · cases ht.symm.trans hs

/-- It stays so until the caller connects again. -/
theorem beat (hC : C.Lawful) (h : C.Over m) (b : Beat α)
    (hb : ∀ a, C.due m b = some (.call a) → C.isConnect a = false) : C.Over (C.beat m b) := by
  have horderly := h.orderly.beat hC b
  have hn := C.next_beat m b
  generalize C.due m b = d at hn hb
  generalize C.beat m b = n at hn horderly ⊢
  cases hn with
  | still => exact h
  | turn a ha ht =>
    refine ⟨horderly, h.connected, h.alive, .inr ?_⟩
    rcases h.ending with ⟨es, hes⟩ | ⟨-, hp⟩
    · exact absurd (ht.symm.trans hes) (by simp [leave])
    · exact ⟨hC.absent m.link a ha hp, hp⟩
  | operation a ha hc => exact ⟨horderly, h.connected, h.alive, h.ending⟩
  | caller s rest hs hheld =>
    cases s with
    | call a => exact h.call hC hs hheld (hb a rfl)
    | connected _ | dead | tell _ | look _ _ | stand _ => exact h.caller hC hs hheld rfl
  | thread s rest hs => exact h.thread hC hs

/-- A connect is not taken for one that has nothing to do. It waits for the thread to end, which
that does by itself, and then starts a new session. -/
theorem connect (hC : C.Lawful) (h : C.Over m) (hc : m.caller = [])
    (hstate : C.state m.link ≠ .uninitialized) {a : α} (ha : C.isConnect a = true) :
    ∃ es n, C.Leads m (.enter a :: List.replicate m.thread.length .thread ++ [.caller]) es n ∧
      C.Opened n.link := by
  have hturn := (hC.connect m.link a ha).1
  have hscript := hC.script_connect ha hstate h.alive
  have henter : C.Leads m [.enter a] [] ⟨m.link, [.call a], m.thread⟩ :=
    .of_beat (s := none) rfl (by simp [Concurrent.beat, hturn, hc, hscript])
  have hthread := Leads.thread (C := C) m.link [.call a] m.thread
  have hend : C.place (C.effect m.link m.thread).1 = none ∧
      C.state (C.effect m.link m.thread).1 ≠ .uninitialized ∧
      C.isAlive (C.effect m.link m.thread).1 = false := by
    rcases h.ending with ⟨es, hes⟩ | ⟨ht, hp⟩
    · rw [hes, C.effect_leave, isAlive, hC.session_put, Ne, hC.bare_put]
      exact ⟨hC.place_put _ _ _, hstate, h.alive⟩
    · rw [ht]
      exact ⟨hp, hstate, h.alive⟩
  obtain ⟨hplace, hstate, halive⟩ := hend
  have hcall := Leads.call (C := C) (a := a) hplace
  have hkind : C.Call a := ((hC.written m.link a hturn).call (by simp [hscript])).2
  cases hkind with
  | aside hw hco _ | ending hw hco _ => cases ha.symm.trans hco
  | opening hw hco heq =>
    exact ⟨_, _, (henter.append hthread).append hcall, (heq _ hplace hstate halive).1⟩

end Over

def after (C : Concurrent σ ω α) (beats : List (Beat α)) : Moment σ ω α :=
  beats.foldl C.beat C.outset

/-- A loss was told before this moment, and no connect has started a session since. -/
inductive Lost (C : Concurrent σ ω α) : Moment σ ω α → Prop where
  | told (beats : List (Beat α)) (b : Beat α) (e : Event) :
      e ∈ C.told ⟨C.after beats, b⟩ → e.isLoss = true → Lost C (C.beat (C.after beats) b)
  | later (m : Moment σ ω α) (b : Beat α) : Lost C m →
      (∀ a, C.due m b = some (.call a) → C.isConnect a = false) → Lost C (C.beat m b)

structure Reconnects (C : Concurrent σ ω α) : Prop where
  /-- The runs of the connection are courses in which every step is taken undisturbed. -/
  covers : ∀ actions, ∃ beats, C.Leads C.outset beats
    ((turns C.next C.start actions).flatMap fun t => C.events t.state t.action)
    ⟨C.run actions, [], []⟩
  closed : ∀ beats b, ∀ e ∈ C.told ⟨C.after beats, b⟩, e.isLoss = true →
    C.session (C.after beats).link = some ⟨false, false⟩
  down : ∀ m, C.Lost m → C.state m.link ≠ .connecting ∧ C.state m.link ≠ .connected
  /-- The caller need not wait for anything but what the thread is about to do. -/
  anew : ∀ m, C.Lost m → m.caller = [] → C.state m.link ≠ .uninitialized → ∀ a,
    C.isConnect a = true → C.script m.link a = [.call a] ∧
      ∃ es n, C.Leads m (.enter a :: List.replicate m.thread.length .thread ++ [.caller]) es n ∧
        C.Opened n.link
  /-- Nor does it matter what else goes on meanwhile. -/
  opens : ∀ beats b a, C.due (C.after beats) b = some (.call a) → C.isConnect a = true →
    C.Opened (C.beat (C.after beats) b).link

theorem orderly_after {C : Concurrent σ ω α} (hC : C.Lawful) (beats : List (Beat α)) :
    C.Orderly (C.after beats) := by
  induction beats using List.reverseRecOn with
  | nil => exact .outset hC
  | append_singleton beats b ih =>
    rw [after, List.foldl_append]
    exact ih.beat hC b

theorem over_of_lost {C : Concurrent σ ω α} (hC : C.Lawful) {m : Moment σ ω α} (h : C.Lost m) :
    C.Over m := by
  induction h with
  | told beats b e he hl => exact ((orderly_after hC beats).closed hC he hl).2
  | later m b _ hb ih => exact ih.beat hC b hb

theorem reconnects_of_lawful {C : Concurrent σ ω α} (hC : C.Lawful) (faithful : C.Faithful) :
    C.Reconnects where
  covers := faithful.covers
  closed beats b e he hl := ((orderly_after hC beats).closed hC he hl).1
  down m h := by
    have hover := over_of_lost hC h
    have hlive := hC.down m.link hover.connected hover.alive
    constructor <;> intro hs <;> simp [hs, Machine.isLive] at hlive
  anew m h hc hstate a ha := by
    have hover := over_of_lost hC h
    exact ⟨hC.script_connect ha hstate hover.alive, hover.connect hC hc hstate ha⟩
  opens beats b a hd ha := by
    have hn := C.next_beat (C.after beats) b
    have horderly := orderly_after hC beats
    rw [hd] at hn
    generalize C.beat (C.after beats) b = n at hn ⊢
    generalize C.after beats = m at hn horderly
    cases hn with
    | caller _ rest hs hheld =>
      have hhead : .call a ∈ m.caller := hs ▸ List.mem_cons_self
      obtain ⟨-, hstate, halive⟩ := horderly.opens a hhead ha
      cases horderly.call a hhead with
      | aside hw hco _ | ending hw hco _ => cases ha.symm.trans hco
      | opening hw hco heq => exact (heq m.link (free_of_not_held hheld hw).1 hstate halive).1
    | thread _ rest hs => cases (horderly.thread_head hs).1

end Concurrent

end LabelPrinter

import LabelPrinter.Event
import LabelPrinter.Proofs.Link.Machine

/-!
A connection whose thread and whose caller go on side by side. Each of them does one small thing at
a time, and between any two of these the other may do as many as it likes.
-/

namespace LabelPrinter

/-- Something that is done at once. Whoever takes the last stroke has nothing left to do. -/
inductive Stroke (ω α : Type) where
  | connected (b : Bool)
  | dead
  | tell (e : Event)
  /-- The thread looks whether its session is alive, and goes to one place or the other. -/
  | look (stay leave : ω)
  | stand (place : Option ω)
  /-- The rest of a call, once it need not wait any more. -/
  | call (a : α)

/-- A connection, and what its caller and its thread are about to do. -/
structure Moment (σ ω α : Type) where
  link : σ
  caller : List (Stroke ω α) := []
  thread : List (Stroke ω α) := []

/-- Who goes next: somebody who has nothing to do takes up a step of the connection, or one of the
two does the next thing that it is about to do. -/
inductive Beat (α : Type) where
  | enter (a : α)
  | caller
  | thread

/-- A kind of connection, and how its steps are made up. -/
structure Concurrent (σ ω α : Type) extends Adapter σ α where
  events : σ → α → List Event
  session : σ → Option Session
  /-- Where the thread stands. -/
  place : σ → Option ω
  put : σ → Option Session → Option ω → σ
  isTurn : α → Bool
  isConnect : α → Bool
  waits : α → Bool
  script : σ → α → List (Stroke ω α)
  fresh : Session

namespace Concurrent

variable {σ ω α : Type} (C : Concurrent σ ω α)

def isAlive (l : σ) : Bool := (C.session l).any (·.alive)

def strike (l : σ) : Stroke ω α → σ
  | .connected b => C.put l ((C.session l).map fun s => { s with connected := b }) (C.place l)
  | .dead => C.put l ((C.session l).map fun s => { s with alive := false }) (C.place l)
  | .tell _ => l
  | .look stay leave => C.put l (C.session l) (some (if C.isAlive l then stay else leave))
  | .stand place => C.put l (C.session l) place
  | .call a => C.next l a

def raises (l : σ) : Stroke ω α → List Event
  | .tell e => [e]
  | .call a => C.events l a
  | .connected _ | .dead | .look _ _ | .stand _ => []

/-- What a script comes to while nobody else does anything. -/
def effect (l : σ) : List (Stroke ω α) → Step σ
  | [] => (l, [])
  | s :: rest => ((effect (C.strike l s) rest).1, C.raises l s ++ (effect (C.strike l s) rest).2)

theorem effect_tells (l : σ) (es : List Event) (rest : List (Stroke ω α)) :
    C.effect l (es.map .tell ++ rest) = ((C.effect l rest).1, es ++ (C.effect l rest).2) := by
  induction es with
  | nil => rfl
  | cons e es ih =>
    rw [List.map_cons, List.cons_append, effect, strike, ih]
    rfl

theorem effect_look (l : σ) (stay leave : ω) :
    C.effect l [.look stay leave] =
      (C.put l (C.session l) (some (if C.isAlive l then stay else leave)), []) := rfl

/-- A call that waits for the thread is held up until that has ended. -/
def isHeld (m : Moment σ ω α) : Stroke ω α → Bool
  | .call a => C.waits a && ((C.place m.link).isSome || !m.thread.isEmpty)
  | .connected _ | .dead | .tell _ | .look _ _ | .stand _ => false

def due (m : Moment σ ω α) : Beat α → Option (Stroke ω α)
  | .enter _ => none
  | .caller =>
    match m.caller with
    | s :: _ => if C.isHeld m s then none else some s
    | [] => none
  | .thread => m.thread.head?

def beat (m : Moment σ ω α) : Beat α → Moment σ ω α
  | .enter a =>
    if C.isTurn a then
      if m.thread.isEmpty then { m with thread := C.script m.link a } else m
    else if m.caller.isEmpty then { m with caller := C.script m.link a } else m
  | .caller =>
    match m.caller with
    | s :: rest => if C.isHeld m s then m else { m with link := C.strike m.link s, caller := rest }
    | [] => m
  | .thread =>
    match m.thread with
    | s :: rest => { m with link := C.strike m.link s, thread := rest }
    | [] => m

/-- All that can come of a beat, with the stroke that is made in it. -/
inductive Next (m : Moment σ ω α) : Beat α → Option (Stroke ω α) → Moment σ ω α → Prop where
  | still (b : Beat α) : Next m b none m
  | turn (a : α) : C.isTurn a = true → m.thread = [] →
      Next m (.enter a) none { m with thread := C.script m.link a }
  | operation (a : α) : C.isTurn a = false → m.caller = [] →
      Next m (.enter a) none { m with caller := C.script m.link a }
  | caller (s : Stroke ω α) (rest : List (Stroke ω α)) : m.caller = s :: rest →
      C.isHeld m s = false →
      Next m .caller (some s) { m with link := C.strike m.link s, caller := rest }
  | thread (s : Stroke ω α) (rest : List (Stroke ω α)) : m.thread = s :: rest →
      Next m .thread (some s) { m with link := C.strike m.link s, thread := rest }

theorem next_beat (m : Moment σ ω α) (b : Beat α) : C.Next m b (C.due m b) (C.beat m b) := by
  cases b with
  | enter a =>
    rw [due, beat]
    split_ifs with ht hn hn
    · exact .turn a ht (List.isEmpty_iff.mp hn)
    · exact .still _
    · exact .operation a (by simpa using ht) (List.isEmpty_iff.mp hn)
    · exact .still _
  | caller =>
    rw [due, beat]
    cases hc : m.caller with
    | nil => exact .still _
    | cons s rest =>
      by_cases hs : C.isHeld m s = true
      · simp only [hs, if_true]
        exact .still _
      · simp only [hs]
        exact .caller s rest hc (by simpa using hs)
  | thread =>
    rw [due, beat]
    cases hc : m.thread with
    | nil => exact .still _
    | cons s rest => exact .thread s rest hc

def told (t : Turn (Moment σ ω α) (Beat α)) : List Event :=
  ((C.due t.state t.action).map (C.raises t.state.link)).getD []

def course (m : Moment σ ω α) (beats : List (Beat α)) : List (Turn (Moment σ ω α) (Beat α)) :=
  turns C.beat m beats

/-- The beats lead from one moment to the other, and this is told meanwhile. -/
structure Leads (m : Moment σ ω α) (beats : List (Beat α)) (es : List Event)
    (n : Moment σ ω α) : Prop where
  ends : beats.foldl C.beat m = n
  tells : (C.course m beats).flatMap C.told = es

namespace Leads

variable {C} {m n o : Moment σ ω α} {xs ys : List (Beat α)} {es fs : List Event}

theorem nil (m : Moment σ ω α) : C.Leads m [] [] m := ⟨rfl, rfl⟩

theorem append (h : C.Leads m xs es n) (hn : C.Leads n ys fs o) :
    C.Leads m (xs ++ ys) (es ++ fs) o := by
  obtain ⟨rfl, rfl⟩ := h
  obtain ⟨rfl, rfl⟩ := hn
  refine ⟨List.foldl_append, ?_⟩
  rw [course, turns_append, List.flatMap_append]
  rfl

theorem of_beat {b : Beat α} {s : Option (Stroke ω α)} (hs : C.due m b = s) (hn : C.beat m b = n) :
    C.Leads m [b] ((s.map (C.raises m.link)).getD []) n := by
  subst hs
  subst hn
  exact ⟨rfl, by simp [course, turns, told]⟩

/-- The thread left to itself. -/
theorem thread (l : σ) (caller script : List (Stroke ω α)) :
    C.Leads ⟨l, caller, script⟩ (List.replicate script.length .thread) (C.effect l script).2
      ⟨(C.effect l script).1, caller, []⟩ := by
  induction script generalizing l with
  | nil => exact .nil _
  | cons s rest ih =>
    have hs : C.Leads ⟨l, caller, s :: rest⟩ [.thread] (C.raises l s)
        ⟨C.strike l s, caller, rest⟩ := of_beat (s := some s) rfl rfl
    exact hs.append (ih (C.strike l s))

theorem turn {a : α} (ha : C.isTurn a = true) {l : σ} {x : Step σ}
    (hx : C.effect l (C.script l a) = x) (caller : List (Stroke ω α)) :
    C.Leads ⟨l, caller, []⟩ (.enter a :: List.replicate (C.script l a).length .thread) x.2
      ⟨x.1, caller, []⟩ := by
  have hs : C.Leads ⟨l, caller, []⟩ [.enter a] [] ⟨l, caller, C.script l a⟩ :=
    of_beat (s := none) rfl (by simp [beat, ha])
  subst hx
  exact hs.append (.thread l caller (C.script l a))

theorem operation {a : α} (ha : C.isTurn a = false) (l : σ) :
    C.Leads ⟨l, [], []⟩ [.enter a] [] ⟨l, C.script l a, []⟩ :=
  of_beat (s := none) rfl (by simp [beat, ha])

/-- The caller while the thread does nothing, up to a call that waits. -/
theorem caller (script : List (Stroke ω α)) (hs : ∀ a, .call a ∈ script → C.waits a = false)
    (l : σ) (rest : List (Stroke ω α)) :
    C.Leads ⟨l, script ++ rest, []⟩ (List.replicate script.length .caller) (C.effect l script).2
      ⟨(C.effect l script).1, rest, []⟩ := by
  induction script generalizing l with
  | nil => exact .nil _
  | cons s script ih =>
    have hfree : C.isHeld ⟨l, s :: (script ++ rest), []⟩ s = false := by
      cases s with
      | call a => simp [isHeld, hs a List.mem_cons_self]
      | connected _ | dead | tell _ | look _ _ | stand _ => rfl
    have hfirst : C.Leads ⟨l, s :: (script ++ rest), []⟩ [.caller] (C.raises l s)
        ⟨C.strike l s, script ++ rest, []⟩ :=
      of_beat (s := some s) (by simp [due, hfree]) (by simp [beat, hfree])
    exact hfirst.append (ih (fun a ha => hs a (List.mem_cons_of_mem s ha)) (C.strike l s))

/-- An operation that waits for nobody. -/
theorem prompt {a : α} (ha : C.isTurn a = false) {l : σ} {x : Step σ}
    (hx : C.effect l (C.script l a) = x) (hs : ∀ b, .call b ∈ C.script l a → C.waits b = false) :
    C.Leads ⟨l, [], []⟩ (.enter a :: List.replicate (C.script l a).length .caller) x.2
      ⟨x.1, [], []⟩ := by
  have hcaller := Leads.caller (C.script l a) hs l []
  rw [List.append_nil] at hcaller
  subst hx
  exact (operation ha l).append hcaller

theorem call {a : α} {l : σ} (hl : C.place l = none) :
    C.Leads ⟨l, [.call a], []⟩ [.caller] (C.events l a) ⟨C.next l a, [], []⟩ := by
  have hfree : C.isHeld ⟨l, [.call a], []⟩ (.call a) = false := by simp [isHeld, hl]
  exact of_beat (s := some (.call a)) (by simp [due, hfree]) (by simp [beat, hfree, strike])

end Leads

def outset : Moment σ ω α := { link := C.start }

/-- Steps that nobody interferes with, taken one after the other. -/
theorem leads_steps {caller : List (Stroke ω α)} {actions : List α}
    (h : ∀ a ∈ actions, ∀ l, ∃ beats,
      C.Leads ⟨l, caller, []⟩ beats (C.events l a) ⟨C.next l a, caller, []⟩) (l : σ) :
    ∃ beats, C.Leads ⟨l, caller, []⟩ beats
      ((turns C.next l actions).flatMap fun t => C.events t.state t.action)
      ⟨actions.foldl C.next l, caller, []⟩ := by
  induction actions generalizing l with
  | nil => exact ⟨[], .nil _⟩
  | cons a actions ih =>
    obtain ⟨xs, hxs⟩ := h a List.mem_cons_self l
    obtain ⟨ys, hys⟩ := ih (fun b hb => h b (List.mem_cons_of_mem a hb)) (C.next l a)
    exact ⟨xs ++ ys, hxs.append hys⟩

/-- How the strokes of an operation come to the operation where nobody interferes. -/
inductive Comes (l : σ) (a : α) : Prop where
  /-- It waits for nobody. -/
  | prompt : (∀ b, .call b ∈ C.script l a → C.waits b = false) →
      C.effect l (C.script l a) = (C.next l a, C.events l a) → Comes l a
  /-- It waits for the thread, which ends in some turns. What is left of the operation is what it
  would be after those. -/
  | waiting (before : List (Stroke ω α)) (k : σ) (ending : List α) :
      C.script l a = before ++ [.call a] → (∀ b, .call b ∉ before) →
      C.effect l before = (k, []) → (∀ t ∈ ending, C.isTurn t = true) →
      C.place (ending.foldl C.next k) = none →
      C.next (ending.foldl C.next k) a = C.next l a → C.events (ending.foldl C.next k) a = [] →
      C.events l a = ((turns C.next k ending).flatMap fun t => C.events t.state t.action) →
      Comes l a

theorem Comes.idle {l : σ} {a : α} (hscript : C.script l a = []) (hnext : C.next l a = l)
    (hquiet : C.events l a = []) : C.Comes l a := by
  refine .prompt (by simp [hscript]) ?_
  rw [hscript, hnext, hquiet]
  rfl

/-- Where nobody interferes, the strokes of a step come to the step. -/
structure Faithful : Prop where
  turn : ∀ l a, C.isTurn a = true → C.effect l (C.script l a) = (C.next l a, C.events l a)
  operation : ∀ l a, C.isTurn a = false → C.Comes l a

namespace Faithful

variable {C}

theorem leads_turns (hC : C.Faithful) {ending : List α} (h : ∀ t ∈ ending, C.isTurn t = true)
    (caller : List (Stroke ω α)) (l : σ) :
    ∃ beats, C.Leads ⟨l, caller, []⟩ beats
      ((turns C.next l ending).flatMap fun t => C.events t.state t.action)
      ⟨ending.foldl C.next l, caller, []⟩ :=
  C.leads_steps (fun t ht l => ⟨_, .turn (h t ht) (hC.turn l t (h t ht)) caller⟩) l

theorem leads (hC : C.Faithful) (l : σ) (a : α) :
    ∃ beats, C.Leads ⟨l, [], []⟩ beats (C.events l a) ⟨C.next l a, [], []⟩ := by
  by_cases ha : C.isTurn a = true
  · exact ⟨_, .turn ha (hC.turn l a ha) []⟩
  · have ha : C.isTurn a = false := by simpa using ha
    cases hC.operation l a ha with
    | prompt hfree heffect => exact ⟨_, .prompt ha heffect hfree⟩
    | waiting before k ending hscript hfree heffect hturns hplace hnext hquiet hevents =>
      have henter := Leads.operation ha l
      have hbefore := Leads.caller (C := C) before (fun b hb => absurd hb (hfree b)) l [.call a]
      rw [hscript] at henter
      rw [heffect] at hbefore
      obtain ⟨beats, hending⟩ := hC.leads_turns hturns [.call a] k
      have hcall := Leads.call (C := C) (a := a) hplace
      rw [hnext, hquiet] at hcall
      have hall := ((henter.append hbefore).append hending).append hcall
      rw [List.append_nil, List.nil_append, ← hevents] at hall
      exact ⟨_, hall⟩

/-- Every run of the connection is one of the courses, told the same. -/
theorem covers (hC : C.Faithful) (actions : List α) :
    ∃ beats, C.Leads C.outset beats
      ((turns C.next C.start actions).flatMap fun t => C.events t.state t.action)
      ⟨C.run actions, [], []⟩ :=
  C.leads_steps (fun a _ l => hC.leads l a) C.start

end Faithful

end Concurrent

end LabelPrinter

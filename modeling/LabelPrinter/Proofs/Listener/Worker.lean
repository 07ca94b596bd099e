import LabelPrinter.Proofs.Listener.History

/-!
What the worker of a registration does. It never changes what the registration has been given, and
left to itself it hands all of that to its listener.
-/

namespace LabelPrinter

variable {ε : Type}

namespace Registration

/-- Only how far the worker is changes. -/
structure Works (f : Registration ε → Registration ε) : Prop where
  same : ∀ x, (f x).listener = x.listener ∧ (f x).live = x.live
  given_eq : ∀ x, (f x).given = x.given

theorem works_start : Works (ε := ε) start := ⟨same_start, given_start⟩

theorem works_finish (how : Comeback) : Works (ε := ε) (·.finish how) :=
  ⟨fun x => x.same_finish how, fun x => x.given_finish how⟩

theorem running_finish (x : Registration ε) (how : Comeback) : (x.finish how).running = none := by
  unfold finish
  split
  · rw [goOn_eq]
  · assumption

theorem queue_finish (x : Registration ε) (how : Comeback) : (x.finish how).queue = x.queue := by
  unfold finish
  split
  · rw [goOn_eq]
  · rfl

/-- The worker goes on after a panic from where it would be after a return. -/
theorem finish_panics (x : Registration ε) (how : Comeback) :
    x.finish how = { x.finish .returns with panics := (x.finish how).panics } := by
  unfold finish
  split
  · rw [goOn_eq]
    rfl
  · rfl

/-- From one callback to the next nothing is left behind. -/
theorem queue_foldl_finish (q : List ε) {x : Registration ε} (hr : x.running = none)
    (hq : x.queue = q) :
    (q.foldl (fun x _ => x.start.finish .returns) x).queue = [] ∧
      (q.foldl (fun x _ => x.start.finish .returns) x).running = none := by
  induction q generalizing x with
  | nil => exact ⟨hq, hr⟩
  | cons e q ih =>
    have hs : x.start.queue = q := by simp [start, hr, hq]
    exact ih (x.start.running_finish .returns) ((x.start.queue_finish .returns).trans hs)

theorem given_drain (x : Registration ε) : x.drain.given = x.given := by
  rw [← x.given_finish .returns, drain]
  generalize x.finish .returns = y
  induction x.queue generalizing y with
  | nil => rfl
  | cons e q ih => rw [List.foldl_cons, ih, given_finish, given_start]

/-- All that the registration was given has been handed to its listener. -/
structure Drained (x y : Registration ε) : Prop where
  queue_eq : y.queue = []
  running_eq : y.running = none
  handed_eq : y.handed = x.given

theorem drained_drain (x : Registration ε) : Drained x x.drain := by
  obtain ⟨hq, hr⟩ :=
    queue_foldl_finish x.queue (x.running_finish .returns) (x.queue_finish .returns)
  refine ⟨hq, hr, ?_⟩
  have hgiven := x.given_drain
  rwa [given, drain, hq, List.append_nil] at hgiven

end Registration

/-- A worker calls its listener with the next event, and the callback comes back after any time or
never. -/
inductive Deed where
  | calls
  | comesBack (how : Comeback)
  deriving DecidableEq

namespace Deed

def does : Deed → Registration ε → Registration ε
  | .calls, x => x.start
  | .comesBack how, x => x.finish how

theorem works (d : Deed) : Registration.Works (ε := ε) d.does := by
  cases d with
  | calls => exact Registration.works_start
  | comesBack how => exact Registration.works_finish how

def step (place : Nat) : Deed → RegistryStep
  | .calls => .start place
  | .comesBack how => .finish place how

theorem act_step (d : Deed) (r : Registry ε) (place : Nat) :
    r.act (d.step place) = ⟨r.entries.modify place d.does⟩ := by
  cases d <;> rfl

/-- All that the worker of a registration has still to do. -/
def rest (x : Registration ε) : List Deed :=
  .comesBack .returns :: x.queue.flatMap fun _ => [.calls, .comesBack .returns]

theorem foldl_rest (x : Registration ε) : (rest x).foldl (fun x d => d.does x) x = x.drain := by
  rw [rest, List.foldl_cons, List.foldl_flatMap]
  rfl

theorem entries_foldl_step (ds : List Deed) (r : Registry ε) (place : Nat) :
    (ds.foldl (fun r d => r.act (d.step place)) r).entries[place]? =
      r.entries[place]?.map fun x => ds.foldl (fun x d => d.does x) x := by
  induction ds generalizing r with
  | nil => simp
  | cons d ds ih =>
    rw [List.foldl_cons, ih, act_step, List.getElem?_modify]
    cases r.entries[place]? <;> simp

end Deed

end LabelPrinter

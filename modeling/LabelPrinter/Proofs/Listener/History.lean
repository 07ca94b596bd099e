import LabelPrinter.Listener
import Mathlib.Data.List.Induction

/-!
What happens to a registry, in order, and what that does to the registration in one place.
-/

namespace LabelPrinter

inductive Happening (ε : Type) where
  | step (s : RegistryStep)
  | raise (e : ε)

variable {ε : Type}

def Happening.event? : Happening ε → Option ε
  | .step _ => none
  | .raise e => some e

def raised (hs : List (Happening ε)) : List ε := hs.filterMap Happening.event?

namespace Registration

/-- What a registration has been given: handed to its listener or still waiting. -/
def given (r : Registration ε) : List ε := r.handed ++ r.queue

theorem given_start (r : Registration ε) : r.start.given = r.given := by
  unfold start
  split
  · rename_i hr hq
    simp [given, handed, hr, hq]
  · rfl

/-- A panic leaves nothing behind but a line in the log. -/
theorem goOn_eq (r : Registration ε) (how : Comeback) :
    r.goOn how = { r with panics := (r.goOn how).panics } := by
  cases how <;> rfl

theorem given_finish (r : Registration ε) (how : Comeback) : (r.finish how).given = r.given := by
  unfold finish
  split
  · rename_i e hr
    rw [goOn_eq]
    simp [given, handed, hr]
  · rfl

theorem given_enqueue (r : Registration ε) (e : ε) :
    (r.enqueue e).given = r.given ++ if r.live then [e] else [] := by
  unfold enqueue
  split_ifs
  · simp [given, handed]
  · simp

theorem same_start (r : Registration ε) :
    r.start.listener = r.listener ∧ r.start.live = r.live := by
  unfold start
  split <;> exact ⟨rfl, rfl⟩

theorem same_finish (r : Registration ε) (how : Comeback) :
    (r.finish how).listener = r.listener ∧ (r.finish how).live = r.live := by
  unfold finish
  split
  · rw [goOn_eq]
    exact ⟨rfl, rfl⟩
  · exact ⟨rfl, rfl⟩

theorem same_enqueue (r : Registration ε) (e : ε) :
    (r.enqueue e).listener = r.listener ∧ (r.enqueue e).live = r.live := by
  unfold enqueue
  split_ifs <;> exact ⟨rfl, rfl⟩

end Registration

namespace Registry

def next (r : Registry ε) : Happening ε → Registry ε
  | .step s => r.act s
  | .raise e => r.raise e

def run (hs : List (Happening ε)) : Registry ε := hs.foldl next {}

theorem run_snoc (hs : List (Happening ε)) (h : Happening ε) :
    run (hs ++ [h]) = (run hs).next h := by
  rw [run, List.foldl_append]
  rfl

/-- The call that removes a listener whose oldest live registration is the one in this place. -/
def Retires (r : Registry ε) (place : Nat) : Happening ε → Prop
  | .step (.remove listener) => r.entries.findIdx? (·.isLiveOf listener) = some place
  | _ => False

inductive Change (r : Registry ε) (place : Nat) (h : Happening ε) :
    Registration ε → Registration ε → Prop where
  | kept {x y : Registration ε} : ¬r.Retires place h → y.listener = x.listener → y.live = x.live →
      y.given = x.given ++ (if x.live then raised [h] else []) → Change r place h x y
  | retired {x y : Registration ε} : r.Retires place h → h = .step (.remove x.listener) →
      x.live = true → y.listener = x.listener → y.live = false → y.given = x.given →
      Change r place h x y

theorem Change.refl {r : Registry ε} {place : Nat} {h : Happening ε} (x : Registration ε)
    (hn : ¬r.Retires place h) (hq : raised [h] = []) : Change r place h x x := by
  refine .kept hn rfl rfl ?_
  rw [hq, ite_self, List.append_nil]

theorem isLiveOf_of_findIdx {r : Registry ε} {listener : String} {place : Nat}
    (h : r.entries.findIdx? (·.isLiveOf listener) = some place) {x : Registration ε}
    (hx : r.entries[place]? = some x) : x.live = true ∧ x.listener = listener := by
  obtain ⟨hl, hp, _⟩ := List.findIdx?_eq_some_iff_getElem.mp h
  rw [List.getElem?_eq_getElem hl, Option.some.injEq] at hx
  simpa [Registration.isLiveOf, hx] using hp

/-- Where a registration comes from: it stood in its place before, or it has just been added. -/
theorem entry_next {r : Registry ε} {h : Happening ε} {place : Nat} {y : Registration ε}
    (hy : (r.next h).entries[place]? = some y) :
    (∃ x, r.entries[place]? = some x ∧ Change r place h x y) ∨
      (r.entries.length = place ∧ h = .step (.add y.listener) ∧
        y = { listener := y.listener }) := by
  match h with
  | .raise e =>
    simp only [next, Registry.raise, List.getElem?_map, Option.map_eq_some_iff] at hy
    obtain ⟨x, hx, rfl⟩ := hy
    obtain ⟨hn, hl⟩ := x.same_enqueue e
    exact .inl ⟨x, hx, .kept (by simp [Retires]) hn hl (x.given_enqueue e)⟩
  | .step (.add listener) =>
    simp only [next, act, add] at hy
    by_cases hp : place < r.entries.length
    · rw [List.getElem?_append_left hp] at hy
      exact .inl ⟨y, hy, .refl y (by simp [Retires]) rfl⟩
    · rw [List.getElem?_append_right (Nat.not_lt.mp hp), List.getElem?_singleton] at hy
      have hz : place - r.entries.length = 0 ∧ { listener := listener } = y := by simpa using hy
      obtain ⟨hz, rfl⟩ := hz
      exact .inr ⟨by omega, rfl, rfl⟩
  | .step (.remove listener) =>
    left
    simp only [next, act, remove] at hy
    cases hf : r.entries.findIdx? (·.isLiveOf listener) with
    | none =>
      rw [hf] at hy
      exact ⟨y, hy, .refl y (by simp [Retires, hf]) rfl⟩
    | some q =>
      simp only [hf, List.getElem?_modify, Option.map_eq_map, Option.map_eq_some_iff] at hy
      obtain ⟨x, hx, hy⟩ := hy
      by_cases hq : q = place
      · subst hq
        rw [if_pos rfl] at hy
        subst hy
        obtain ⟨hlive, rfl⟩ := isLiveOf_of_findIdx hf hx
        exact ⟨x, hx, .retired hf rfl hlive rfl rfl rfl⟩
      · rw [if_neg hq] at hy
        subst hy
        refine ⟨x, hx, .refl x ?_ rfl⟩
        simpa [Retires, hf] using hq
  | .step (.start q) =>
    left
    simp only [next, act, List.getElem?_modify, Option.map_eq_map, Option.map_eq_some_iff] at hy
    obtain ⟨x, hx, rfl⟩ := hy
    refine ⟨x, hx, ?_⟩
    split_ifs
    · obtain ⟨hn, hl⟩ := x.same_start
      exact .kept (by simp [Retires]) hn hl (by simp [x.given_start, raised, Happening.event?])
    · exact .refl x (by simp [Retires]) rfl
  | .step (.finish q how) =>
    left
    simp only [next, act, List.getElem?_modify, Option.map_eq_map, Option.map_eq_some_iff] at hy
    obtain ⟨x, hx, rfl⟩ := hy
    refine ⟨x, hx, ?_⟩
    split_ifs
    · obtain ⟨hn, hl⟩ := x.same_finish how
      exact .kept (by simp [Retires]) hn hl (by simp [x.given_finish how, raised, Happening.event?])
    · exact .refl x (by simp [Retires]) rfl

end Registry

end LabelPrinter

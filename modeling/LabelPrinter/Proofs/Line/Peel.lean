import Mathlib.Logic.Basic
import LabelPrinter.Proofs.Number.Reading

/-!
Splitting a text in front of the first character of another kind.
-/

namespace LabelPrinter

/-- A text that does not go on with a character of that kind. -/
def Stops (p : Char → Prop) (r : List Char) : Prop := ∀ c ∈ r.head?, ¬ p c

theorem peel {p : Char → Prop} {s t r u : List Char} (hs : ∀ c ∈ s, p c) (ht : ∀ c ∈ t, p c)
    (hr : Stops p r) (hu : Stops p u) (h : s ++ r = t ++ u) : s = t ∧ r = u := by
  induction s generalizing t with
  | nil =>
    cases t with
    | nil => exact ⟨rfl, h⟩
    | cons c t =>
      rw [List.nil_append] at h
      exact absurd (ht c List.mem_cons_self) (hr c (by rw [h]; rfl))
  | cons a s ih =>
    cases t with
    | nil =>
      rw [List.nil_append] at h
      exact absurd (hs a List.mem_cons_self) (hu a (by rw [← h]; rfl))
    | cons c t =>
      obtain ⟨rfl, htail⟩ := List.cons.inj h
      obtain ⟨rfl, rfl⟩ := ih (fun d hd => hs d (List.mem_cons_of_mem _ hd))
        (fun d hd => ht d (List.mem_cons_of_mem _ hd)) htail
      exact ⟨rfl, rfl⟩

theorem peel_until {a : Char} {s t r u : List Char} (hs : a ∉ s) (ht : a ∉ t)
    (hr : Stops (· ≠ a) r) (hu : Stops (· ≠ a) u) (h : s ++ r = t ++ u) : s = t ∧ r = u :=
  peel (fun _ hc => ne_of_mem_of_not_mem hc hs) (fun _ hc => ne_of_mem_of_not_mem hc ht) hr hu h

theorem stops_nil {p : Char → Prop} : Stops p [] := fun _ h => by cases h

theorem stops_cons {p : Char → Prop} {c : Char} {r : List Char} (h : ¬ p c) : Stops p (c :: r) := by
  intro d hd
  obtain rfl : c = d := Option.some.inj hd
  exact h

theorem stops_here {a : Char} {r : List Char} : Stops (· ≠ a) (a :: r) :=
  stops_cons (not_not.mpr rfl)

theorem digit_of_mem_repr {n : Nat} {c : Char} (h : c ∈ n.repr.toList) : c.isDigit = true := by
  rw [Nat.toList_repr] at h
  exact Number.isDigit_of_mem_written h

theorem repr_peel {n k : Nat} {r u : List Char} (hr : Stops (fun c => c.isDigit = true) r)
    (hu : Stops (fun c => c.isDigit = true) u) (h : n.repr.toList ++ r = k.repr.toList ++ u) :
    n = k ∧ r = u := by
  obtain ⟨hn, rfl⟩ := peel (fun c hc => digit_of_mem_repr hc) (fun c hc => digit_of_mem_repr hc)
    hr hu h
  exact ⟨Number.repr_inj.mp (String.toList_inj.mp hn), rfl⟩

end LabelPrinter

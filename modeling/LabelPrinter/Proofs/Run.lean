import Mathlib.Data.List.Induction

namespace LabelPrinter

/-- One step of a run: the state that it finds and what is done there. -/
structure Turn (σ α : Type) where
  state : σ
  action : α

section

variable {σ α : Type} (next : σ → α → σ)

def turns : σ → List α → List (Turn σ α)
  | _, [] => []
  | s, a :: rest => ⟨s, a⟩ :: turns (next s a) rest

theorem turns_append (s : σ) (as bs : List α) :
    turns next s (as ++ bs) = turns next s as ++ turns next (as.foldl next s) bs := by
  induction as generalizing s with
  | nil => rfl
  | cons a as ih => simp only [List.cons_append, turns, ih, List.foldl_cons]

theorem turns_snoc (s : σ) (as : List α) (a : α) :
    turns next s (as ++ [a]) = turns next s as ++ [⟨as.foldl next s, a⟩] :=
  turns_append next s as [a]

theorem turns_of_eq_append {s : σ} {as : List α} {before later : List (Turn σ α)} {t : Turn σ α}
    (h : turns next s as = before ++ t :: later) :
    ∃ bs, later = turns next (next t.state t.action) bs := by
  induction as generalizing s before with
  | nil => exact absurd h (by simp [turns])
  | cons a as ih =>
    cases before with
    | nil =>
      obtain ⟨rfl, rfl⟩ := List.cons.inj h
      exact ⟨as, rfl⟩
    | cons u before => exact ih (List.cons.inj h).2

theorem turns_kept {I : σ → Prop} {s : σ} (start : I s) (step : ∀ s a, I s → I (next s a))
    (as : List α) : ∀ t ∈ turns next s as, I t.state := by
  induction as generalizing s with
  | nil => simp [turns]
  | cons a as ih =>
    rintro t (_ | ⟨_, ht⟩)
    · exact start
    · exact ih (step s a start) t ht

/-- An invariant that relates the turns taken so far to the state they lead to. -/
theorem turns_invariant {I : List (Turn σ α) → σ → Prop} {s : σ} (start : I [] s)
    (step : ∀ ts s a, I ts s → I (ts ++ [⟨s, a⟩]) (next s a)) (as : List α) :
    I (turns next s as) (as.foldl next s) := by
  induction as using List.reverseRecOn with
  | nil => exact start
  | append_singleton as a ih =>
    rw [turns_snoc, List.foldl_append]
    exact step _ _ _ ih

end

end LabelPrinter

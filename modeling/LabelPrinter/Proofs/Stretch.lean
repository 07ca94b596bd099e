import LabelPrinter.Proofs.Run
import Mathlib.Data.List.ModifyLast

/-!
A run cut into stretches. The turn that begins a stretch is still the last one of the stretch
before it.
-/

namespace LabelPrinter

section

variable {σ α γ ε : Type} {next : σ → α → σ} {first? : Turn σ α → Option γ}
  {add : γ → Turn σ α → γ}

variable (first? add) in
def cutAt (cs : List γ) (t : Turn σ α) : List γ := cs.modifyLast (add · t) ++ (first? t).toList

variable (first? add) in
def stretches (ts : List (Turn σ α)) : List γ := ts.foldl (cutAt first? add) []

theorem cutAt_nil (t : Turn σ α) : cutAt first? add [] t = (first? t).toList := rfl

theorem cutAt_snoc (past : List γ) (c : γ) (t : Turn σ α) :
    cutAt first? add (past ++ [c]) t = past ++ [add c t] ++ (first? t).toList := by
  rw [cutAt, List.modifyLast_concat]

theorem stretches_snoc (ts : List (Turn σ α)) (t : Turn σ α) :
    stretches first? add (ts ++ [t]) = cutAt first? add (stretches first? add ts) t := by
  rw [stretches, List.foldl_append]
  rfl

theorem map_stretches {κ : Type} {key : γ → κ} (same : ∀ c t, key (add c t) = key c)
    (ts : List (Turn σ α)) :
    (stretches first? add ts).map key = ts.filterMap fun t => (first? t).map key := by
  induction ts using List.reverseRecOn with
  | nil => rfl
  | append_singleton ts t ih =>
    rw [stretches_snoc, List.filterMap_append, ← ih]
    cases hc : stretches first? add ts using List.reverseRecOn with
    | nil => cases hs : first? t <;> simp [cutAt_nil, hs]
    | append_singleton past c => cases hs : first? t <;> simp [cutAt_snoc, hs, same]

/-- Where a run has led: no stretch has begun yet, or all but the latest are over. -/
inductive Reached (Idle : σ → Prop) (Standing : σ → γ → Prop) (Over : γ → Prop) (cs : List γ)
    (s : σ) : Prop where
  | idle : cs = [] → Idle s → Reached Idle Standing Over cs s
  | running (past : List γ) (c : γ) : cs = past ++ [c] → (∀ d ∈ past, Over d) → Standing s c →
      Reached Idle Standing Over cs s

variable {Idle : σ → Prop} {Standing : σ → γ → Prop} {Over : γ → Prop}

namespace Reached

variable {cs : List γ} {s : σ}

theorem settled (h : Reached Idle Standing Over cs s) : ∀ c ∈ cs.dropLast, Over c := by
  cases h with
  | idle hc _ => simp [hc]
  | running past c hc ho _ => rwa [hc, List.dropLast_concat]

theorem standing (h : Reached Idle Standing Over cs s) : ∀ c ∈ cs.getLast?, Standing s c := by
  cases h with
  | idle hc _ => simp [hc]
  | running past c hc _ hst =>
    rw [hc, List.getLast?_concat]
    rintro d ⟨⟩
    exact hst

theorem all {P : γ → Prop} (h : Reached Idle Standing Over cs s) (ho : ∀ c, Over c → P c)
    (hs : ∀ c, Standing s c → P c) : ∀ c ∈ cs, P c := by
  cases h with
  | idle hc _ => simp [hc]
  | running past c hc hpast hst =>
    rw [hc]
    intro d hd
    obtain hd | rfl : d ∈ past ∨ d = c := by simpa using hd
    · exact ho d (hpast d hd)
    · exact hs d hst

end Reached

variable (next first? add Idle Standing Over) in
/-- What each turn has to do for the stretches of a run. -/
structure Stretching : Prop where
  idle : ∀ s a, Idle s → first? ⟨s, a⟩ = none → Idle (next s a)
  first : ∀ s a d, Idle s → first? ⟨s, a⟩ = some d → Standing (next s a) d
  standing : ∀ s a c, Standing s c → first? ⟨s, a⟩ = none → Standing (next s a) (add c ⟨s, a⟩)
  ending : ∀ s a c d, Standing s c → first? ⟨s, a⟩ = some d →
    Over (add c ⟨s, a⟩) ∧ Standing (next s a) d

theorem Stretching.step (h : Stretching next first? add Idle Standing Over) {cs : List γ} {s : σ}
    (hs : Reached Idle Standing Over cs s) (a : α) :
    Reached Idle Standing Over (cutAt first? add cs ⟨s, a⟩) (next s a) := by
  cases hs with
  | idle hc hi =>
    rw [hc, cutAt_nil]
    cases hd : first? ⟨s, a⟩ with
    | none => exact .idle rfl (h.idle s a hi hd)
    | some d => exact .running [] d rfl (by simp) (h.first s a d hi hd)
  | running past c hc ho hst =>
    rw [hc, cutAt_snoc]
    cases hd : first? ⟨s, a⟩ with
    | none => exact .running past (add c ⟨s, a⟩) (List.append_nil _) ho (h.standing s a c hst hd)
    | some d =>
      -- the turn is the last of one stretch and the start of the next
      obtain ⟨hover, hnew⟩ := h.ending s a c d hst hd
      refine .running (past ++ [add c ⟨s, a⟩]) d rfl ?_ hnew
      intro b hb
      obtain hb | rfl : b ∈ past ∨ b = add c ⟨s, a⟩ := by simpa using hb
      · exact ho b hb
      · exact hover

theorem Stretching.run (h : Stretching next first? add Idle Standing Over) {s : σ} (start : Idle s)
    (as : List α) : Reached Idle Standing Over (stretches first? add (turns next s as))
      (as.foldl next s) := by
  apply turns_invariant (I := fun ts s => Reached Idle Standing Over (stretches first? add ts) s)
  · exact .idle rfl start
  · intro ts s a hs
    rw [stretches_snoc]
    exact h.step hs a

/-- Nothing is told outside the stretches, and what is told in one comes before all of the next. -/
theorem Stretching.told (h : Stretching next first? add Idle Standing Over) {s : σ} (start : Idle s)
    {tell : Turn σ α → List ε} {log : γ → List ε} (hidle : ∀ s a, Idle s → tell ⟨s, a⟩ = [])
    (hfirst : ∀ t d, first? t = some d → log d = []) (hadd : ∀ c t, log (add c t) = log c ++ tell t)
    (as : List α) :
    (turns next s as).flatMap tell = (stretches first? add (turns next s as)).flatMap log := by
  refine (turns_invariant (I := fun ts s => Reached Idle Standing Over (stretches first? add ts) s ∧
    ts.flatMap tell = (stretches first? add ts).flatMap log) next ⟨.idle rfl start, rfl⟩ ?_ as).2
  rintro ts s a ⟨hs, ht⟩
  rw [stretches_snoc, List.flatMap_append, ht]
  refine ⟨h.step hs a, ?_⟩
  have hnew : (first? ⟨s, a⟩).toList.flatMap log = [] := by
    cases hd : first? ⟨s, a⟩ with
    | none => rfl
    | some d => simp [hfirst _ d hd]
  cases hs with
  | idle hc hi => rw [hc, cutAt_nil, hnew, List.flatMap_singleton, hidle s a hi]; rfl
  | running past c hc _ _ =>
    rw [hc, cutAt_snoc, List.flatMap_append, List.flatMap_append, List.flatMap_append, hnew]
    simp [hadd]

end

end LabelPrinter

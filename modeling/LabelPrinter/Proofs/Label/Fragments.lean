import Mathlib.Data.List.Forall2
import LabelPrinter.Label
import LabelPrinter.Proofs.Command.Checks

/-!
A serialized label is its fragments in a row, and those are what its commands render to.
-/

namespace LabelPrinter.Label

open Check

variable {α : Type} {f : α → Checked (List UInt8)}

theorem foldlM_append (xs : List α) (out : List UInt8) :
    (xs.foldlM (fun out x => do return out ++ (← f x)) out : Checked (List UInt8)) =
      (fun bs => out ++ bs.flatten) <$> xs.mapM f := by
  induction xs generalizing out with
  | nil => simp
  | cons x xs ih =>
    rw [List.foldlM_cons, List.mapM_cons]
    cases f x with
    | error e => rfl
    | ok b =>
      have hb := ih (out ++ b)
      simp only [List.append_assoc] at hb
      change xs.foldlM _ (out ++ b) = _
      rw [hb]
      cases xs.mapM f <;> rfl

theorem mapM_eq_ok {xs : List α} {bs : List (List UInt8)} :
    xs.mapM f = .ok bs ↔ List.Forall₂ (fun x b => f x = .ok b) xs bs := by
  induction xs generalizing bs with
  | nil => cases bs <;> simp [pure, Except.pure]
  | cons x xs ih =>
    rw [List.mapM_cons, List.forall₂_cons_left_iff]
    simp only [bind_eq_ok, pure_eq_ok, ih]
    constructor
    · rintro ⟨b, hb, bs, hbs, rfl⟩
      exact ⟨b, bs, hb, hbs, rfl⟩
    · rintro ⟨b, bs, hb, hbs, rfl⟩
      exact ⟨b, hb, bs, hbs, rfl⟩

theorem serialize_eq (l : Label) : l.serialize = List.flatten <$> l.fragments := by
  rw [serialize, foldlM_append]
  simp [fragments]

theorem fragments_eq_ok {l : Label} {fs : List (List UInt8)} :
    l.fragments = .ok fs ↔ List.Forall₂ (fun c b => Command.render c = .ok b) l.commands fs :=
  mapM_eq_ok

end LabelPrinter.Label

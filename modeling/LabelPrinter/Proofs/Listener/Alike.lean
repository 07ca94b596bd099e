import LabelPrinter.Proofs.Listener.Worker
import Mathlib.Data.List.Forall2

/-!
Registries that differ only in how far some of their workers are. No operation of a caller can tell
them apart.
-/

namespace LabelPrinter

variable {ε : Type} {heeded : String → Bool}

/-- The same registration but for how far its worker is, and in every respect if it is heeded. -/
structure Registration.Alike (heeded : String → Bool) (x y : Registration ε) : Prop where
  listener_eq : x.listener = y.listener
  live_eq : x.live = y.live
  given_eq : x.given = y.given
  eq_of_heeded : heeded x.listener = true → x = y

namespace Registration.Alike

variable {x y z : Registration ε}

theorem refl (x : Registration ε) : x.Alike heeded x := ⟨rfl, rfl, rfl, fun _ => rfl⟩

theorem of_common (hx : x.Alike heeded z) (hy : y.Alike heeded z) : x.Alike heeded y := by
  refine ⟨hx.listener_eq.trans hy.listener_eq.symm, hx.live_eq.trans hy.live_eq.symm,
    hx.given_eq.trans hy.given_eq.symm, fun h => ?_⟩
  have hz := hx.eq_of_heeded h
  rw [hx.listener_eq, ← hy.listener_eq] at h
  rw [hz, hy.eq_of_heeded h]

theorem enqueue (h : x.Alike heeded y) (e : ε) : (x.enqueue e).Alike heeded (y.enqueue e) := by
  refine ⟨?_, ?_, ?_, fun hx => ?_⟩
  · rw [(x.same_enqueue e).1, (y.same_enqueue e).1, h.listener_eq]
  · rw [(x.same_enqueue e).2, (y.same_enqueue e).2, h.live_eq]
  · rw [given_enqueue, given_enqueue, h.given_eq, h.live_eq]
  · rw [(x.same_enqueue e).1] at hx
    rw [h.eq_of_heeded hx]

theorem retire (h : x.Alike heeded y) : x.retire.Alike heeded y.retire :=
  ⟨h.listener_eq, rfl, h.given_eq, fun hx => congrArg Registration.retire (h.eq_of_heeded hx)⟩

theorem work {f : Registration ε → Registration ε} (hf : Works f) (h : x.Alike heeded y) :
    (f x).Alike heeded (f y) := by
  refine ⟨?_, ?_, ?_, fun hx => ?_⟩
  · rw [(hf.same x).1, (hf.same y).1, h.listener_eq]
  · rw [(hf.same x).2, (hf.same y).2, h.live_eq]
  · rw [hf.given_eq, hf.given_eq, h.given_eq]
  · rw [(hf.same x).1] at hx
    rw [h.eq_of_heeded hx]

theorem unheeded {f : Registration ε → Registration ε} (hf : Works f) (h : x.Alike heeded y)
    (hx : heeded x.listener = false) : (f x).Alike heeded y := by
  refine ⟨(hf.same x).1.trans h.listener_eq, (hf.same x).2.trans h.live_eq,
    (hf.given_eq x).trans h.given_eq, ?_⟩
  rw [(hf.same x).1, hx]
  nofun

end Registration.Alike

namespace Registry

theorem forall₂_modify {α β : Type} {R : α → β → Prop} {f : α → α} {g : β → β} {xs : List α}
    {ys : List β} (h : List.Forall₂ R xs ys) (place : Nat)
    (hfg : ∀ x y, xs[place]? = some x → R x y → R (f x) (g y)) :
    List.Forall₂ R (xs.modify place f) (ys.modify place g) := by
  induction h generalizing place with
  | nil => simp
  | cons hxy h ih =>
    cases place with
    | zero => exact .cons (hfg _ _ rfl hxy) h
    | succ place => exact .cons hxy (ih place hfg)

def Alike (heeded : String → Bool) (r s : Registry ε) : Prop :=
  List.Forall₂ (Registration.Alike heeded) r.entries s.entries

namespace Alike

variable {r s t : Registry ε}

theorem refl (r : Registry ε) : r.Alike heeded r := List.forall₂_same.mpr fun x _ => .refl x

theorem of_common (hr : r.Alike heeded t) (hs : s.Alike heeded t) : r.Alike heeded s := by
  obtain ⟨rs⟩ := r
  obtain ⟨ss⟩ := s
  obtain ⟨ts⟩ := t
  change List.Forall₂ _ rs ts at hr
  change List.Forall₂ _ ss ts at hs
  change List.Forall₂ _ rs ss
  induction hr generalizing ss with
  | nil => cases hs with | nil => exact .nil
  | cons hx _ ih => cases hs with | cons hy hs => exact .cons (hx.of_common hy) (ih _ hs)

theorem at_place (h : r.Alike heeded s) {place : Nat} {x y : Registration ε}
    (hx : r.entries[place]? = some x) (hy : s.entries[place]? = some y) : x.Alike heeded y := by
  obtain ⟨hr, rfl⟩ := List.getElem?_eq_some_iff.mp hx
  obtain ⟨hs, rfl⟩ := List.getElem?_eq_some_iff.mp hy
  exact h.get hr hs

theorem add (h : r.Alike heeded s) (listener : String) :
    (r.add listener).Alike heeded (s.add listener) :=
  List.rel_append h (.cons (.refl _) .nil)

theorem raise (h : r.Alike heeded s) (e : ε) : (r.raise e).Alike heeded (s.raise e) :=
  List.rel_map (fun _ _ hxy => hxy.enqueue e) h

/-- What two registrations alike have in common can be read off either registry. -/
theorem map_eq {β : Type} {f : Registration ε → β} (h : r.Alike heeded s)
    (hf : ∀ x y, x.Alike heeded y → f x = f y) : r.entries.map f = s.entries.map f := by
  have hmap : List.Forall₂ (· = ·) (r.entries.map f) (s.entries.map f) := List.rel_map hf h
  rwa [List.forall₂_eq_eq_eq] at hmap

theorem findIdx? (h : r.Alike heeded s) (listener : String) :
    r.entries.findIdx? (·.isLiveOf listener) = s.entries.findIdx? (·.isLiveOf listener) := by
  have hmap := h.map_eq (f := (·.isLiveOf listener)) fun x y hxy => by
    rw [Registration.isLiveOf, Registration.isLiveOf, hxy.live_eq, hxy.listener_eq]
  have hfind (l : List (Registration ε)) : l.findIdx? (·.isLiveOf listener) =
      (l.map (·.isLiveOf listener)).findIdx? id := by rw [List.findIdx?_map]; rfl
  rw [hfind, hfind, hmap]

theorem remove (h : r.Alike heeded s) (listener : String) :
    (r.remove listener).1.Alike heeded (s.remove listener).1 ∧
      (r.remove listener).2 = (s.remove listener).2 := by
  rw [Registry.remove, Registry.remove, h.findIdx? listener]
  cases s.entries.findIdx? (·.isLiveOf listener) with
  | none => exact ⟨h, rfl⟩
  | some place => exact ⟨forall₂_modify h place fun _ _ _ hxy => hxy.retire, rfl⟩

theorem count (h : r.Alike heeded s) : r.count = s.count := by
  have hmap := h.map_eq fun _ _ hxy => hxy.live_eq
  have hcount (l : List (Registration ε)) : l.countP (·.live) = (l.map (·.live)).countP id := by
    rw [List.countP_map]
    rfl
  rw [Registry.count, Registry.count, hcount, hcount, hmap]

theorem work {f : Registration ε → Registration ε} (hf : Registration.Works f)
    (h : r.Alike heeded s) (place : Nat) :
    Alike heeded ⟨r.entries.modify place f⟩ ⟨s.entries.modify place f⟩ :=
  forall₂_modify h place fun _ _ _ hxy => hxy.work hf

theorem unheeded {f : Registration ε → Registration ε} (hf : Registration.Works f)
    (h : r.Alike heeded s) {place : Nat}
    (hp : ∀ x, r.entries[place]? = some x → heeded x.listener = false) :
    Alike heeded ⟨r.entries.modify place f⟩ s := by
  have hs : s.entries.modify place id = s.entries := List.modify_id _ _
  rw [Alike, ← hs]
  exact forall₂_modify h place fun x _ hx hxy => hxy.unheeded hf (hp x hx)

end Alike

end Registry

end LabelPrinter

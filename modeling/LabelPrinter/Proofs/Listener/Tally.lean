import LabelPrinter.Proofs.Listener.Delivery
import LabelPrinter.Proofs.Listener.Worker
import LabelPrinter.Proofs.Run
import Mathlib.Algebra.BigOperators.Group.Finset.Piecewise

/-!
Registrations counted by listener. A call that removes a listener finds it as long as it was added
more often than removed, takes its oldest live registration, and changes nothing else.
-/

namespace LabelPrinter

variable {ε : Type}

/-- All that the workers leave alone: whose the registrations are and which of them are live. -/
def Registry.marks (r : Registry ε) : List (String × Bool) :=
  r.entries.map fun x => (x.listener, x.live)

/-- Whatever waits for a listener, registration by registration. -/
def Registry.queued (r : Registry ε) (listener : String) : List ε :=
  (r.entries.filter (·.listener = listener)).flatMap (·.queue)

/-- What a call that removes a listener comes to. -/
inductive Removal (r : Registry ε) (listener : String) : Registry ε × Bool → Prop where
  | found (older : List (Registration ε)) (x : Registration ε) (younger : List (Registration ε)) :
      r.entries = older ++ x :: younger → x.isLiveOf listener = true →
      (∀ y ∈ older, y.isLiveOf listener = false) →
      Removal r listener (⟨older ++ x.retire :: younger⟩, true)
  | missed : (∀ x ∈ r.entries, x.isLiveOf listener = false) → Removal r listener (r, false)

namespace Registry

variable {r : Registry ε} {listener : String}

theorem removal (r : Registry ε) (listener : String) : Removal r listener (r.remove listener) := by
  rw [remove]
  split
  case h_1 place h =>
    obtain ⟨hlt, hp, hbefore⟩ := List.findIdx?_eq_some_iff_getElem.mp h
    have hsplit : r.entries =
        r.entries.take place ++ r.entries[place] :: r.entries.drop (place + 1) := by
      rw [List.getElem_cons_drop, List.take_append_drop]
    have hmodify : r.entries.modify place .retire =
        r.entries.take place ++ r.entries[place].retire :: r.entries.drop (place + 1) :=
      List.modify_eq_take_cons_drop hlt
    rw [hmodify]
    refine .found _ _ _ hsplit hp fun y hy => ?_
    obtain ⟨i, hi, rfl⟩ := List.getElem_of_mem hy
    rw [List.getElem_take]
    rw [List.length_take] at hi
    simpa using hbefore i (by omega)
  case h_2 h =>
    refine .missed fun x hx => ?_
    simpa using List.findIdx?_eq_none_iff.mp h x hx

theorem marks_work {f : Registration ε → Registration ε} (hf : Registration.Works f) (place : Nat) :
    marks ⟨r.entries.modify place f⟩ = r.marks := by
  have hmark (x : Registration ε) : ((f x).listener, (f x).live) = (x.listener, x.live) := by
    rw [(hf.same x).1, (hf.same x).2]
  unfold marks
  generalize r.entries = xs
  induction xs generalizing place with
  | nil => simp
  | cons x xs ih =>
    cases place with
    | zero => simp [hmark]
    | succ place => simpa using ih place

theorem marks_raise (e : ε) : (r.raise e).marks = r.marks := by
  rw [marks, raise, List.map_map, marks]
  apply List.map_congr_left
  intro x _
  obtain ⟨hn, hl⟩ := x.same_enqueue e
  simp only [Function.comp_apply, hn, hl]

theorem marks_add : (r.add listener).marks = r.marks ++ [(listener, true)] := by
  simp [marks, add]

theorem mem_marks_iff :
    (listener, true) ∈ r.marks ↔ ∃ x ∈ r.entries, x.isLiveOf listener = true := by
  simp only [marks, List.mem_map, Prod.mk.injEq, Registration.isLiveOf, Bool.and_eq_true,
    decide_eq_true_eq, and_comm]

end Registry

namespace Happening

def adds? : Happening ε → Option String
  | .step (.add listener) => some listener
  | .step (.remove _) | .step (.start _) | .step (.finish _ _) | .raise _ => none

def removes? : Happening ε → Option String
  | .step (.remove listener) => some listener
  | .step (.add _) | .step (.start _) | .step (.finish _ _) | .raise _ => none

end Happening

namespace Registry

def additions (hs : List (Happening ε)) : List String := hs.filterMap Happening.adds?

/-- How often a listener was to be removed and was found. -/
def removals (hs : List (Happening ε)) (listener : String) : Nat :=
  (turns next {} hs).countP fun t =>
    t.action.removes? = some listener && (t.state.remove listener).2

theorem additions_snoc (hs : List (Happening ε)) (h : Happening ε) :
    additions (hs ++ [h]) = additions hs ++ h.adds?.toList := by
  cases ha : h.adds? <;> simp [additions, ha]

theorem removals_snoc (hs : List (Happening ε)) (h : Happening ε) (listener : String) :
    removals (hs ++ [h]) listener = removals hs listener +
      if h.removes? = some listener && ((run hs).remove listener).2 then 1 else 0 := by
  rw [removals, turns_snoc, List.countP_append, List.countP_singleton]
  rfl

theorem removals_snoc_remove (hs : List (Happening ε)) (listener : String) :
    removals (hs ++ [.step (.remove listener)]) = fun other => removals hs other +
      if other = listener ∧ ((run hs).remove listener).2 = true then 1 else 0 := by
  funext other
  rw [removals_snoc, Happening.removes?]
  by_cases ho : other = listener
  · simp [ho]
  · simp [ho, Ne.symm ho]

end Registry

/-- A registry after listeners were added in this order, and how often each of them was removed. -/
structure Balanced (r : Registry ε) (added : List String) (removed : String → Nat) : Prop where
  in_order : r.marks.map Prod.fst = added
  balance : ∀ listener, r.marks.count (listener, true) + removed listener = added.count listener

namespace Balanced

variable {r s : Registry ε} {added : List String} {removed : String → Nat}

theorem of_marks (h : Balanced r added removed) (hs : s.marks = r.marks) :
    Balanced s added removed := ⟨hs ▸ h.in_order, hs ▸ h.balance⟩

theorem add (h : Balanced r added removed) (listener : String) :
    Balanced (r.add listener) (added ++ [listener]) removed := by
  refine ⟨by rw [Registry.marks_add, List.map_append, h.in_order]; rfl, fun other => ?_⟩
  have hb := h.balance other
  rw [Registry.marks_add, List.count_append, List.count_append, List.count_singleton,
    List.count_singleton]
  by_cases ho : listener = other
  · simp only [ho, beq_self_eq_true, if_true]
    omega
  · simp only [Prod.mk.injEq, ho, beq_iff_eq, false_and, if_false]
    omega

theorem remove (h : Balanced r added removed) (listener : String) :
    Balanced (r.remove listener).1 added fun other =>
      removed other + if other = listener ∧ (r.remove listener).2 = true then 1 else 0 := by
  have hr := r.removal listener
  generalize r.remove listener = o at hr ⊢
  cases hr with
  | missed hnone => simpa using h
  | found older x younger he hx hbefore =>
    obtain ⟨hlive, rfl⟩ : x.live = true ∧ x.listener = listener := by
      simpa [Registration.isLiveOf] using hx
    have hbefore : r.marks = (⟨older⟩ : Registry ε).marks ++ (x.listener, true) ::
        (⟨younger⟩ : Registry ε).marks := by
      simp [Registry.marks, he, hlive]
    have hafter : (⟨older ++ x.retire :: younger⟩ : Registry ε).marks =
        (⟨older⟩ : Registry ε).marks ++ (x.listener, false) :: (⟨younger⟩ : Registry ε).marks := by
      simp [Registry.marks, Registration.retire]
    refine ⟨?_, fun other => ?_⟩
    · rw [← h.in_order, hbefore, hafter, List.map_append, List.map_append]
      rfl
    · have hb := h.balance other
      rw [hbefore, List.count_append, List.count_cons] at hb
      rw [hafter, List.count_append, List.count_cons]
      by_cases ho : other = x.listener
      · subst ho
        simp only [beq_self_eq_true, if_true, and_self] at hb ⊢
        simp only [beq_iff_eq, Prod.mk.injEq, Bool.false_eq_true, and_false, if_false]
        omega
      · simp only [beq_iff_eq, Prod.mk.injEq, Ne.symm ho, ho, false_and, if_false] at hb ⊢
        omega

/-- Every live registration is one of its listener, so all of them together are the count. -/
theorem count_eq (h : Balanced r added removed) :
    r.count = ∑ listener ∈ added.toFinset, (added.count listener - removed listener) := by
  have hcount : r.count = ((r.marks.filter (·.2)).map Prod.fst).length := by
    rw [List.length_map, ← List.countP_eq_length_filter, Registry.marks, List.countP_map]
    rfl
  have hnames : ∀ listener ∈ ((r.marks.filter (·.2)).map Prod.fst : Multiset String),
      listener ∈ added.toFinset := by
    intro listener hl
    rw [← h.in_order]
    simp only [List.mem_toFinset, List.mem_map, Multiset.mem_coe, List.mem_filter] at hl ⊢
    obtain ⟨x, ⟨hx, -⟩, hn⟩ := hl
    exact ⟨x, hx, hn⟩
  rw [hcount, ← Multiset.coe_card, ← Multiset.sum_count_eq_card hnames]
  apply Finset.sum_congr rfl
  intro listener _
  have hone : Multiset.count listener ((r.marks.filter (·.2)).map Prod.fst) =
      r.marks.count (listener, true) := by
    rw [Multiset.coe_count, List.count, List.countP_map, List.countP_filter]
    apply List.countP_congr
    simp [Prod.ext_iff]
  have hb := h.balance listener
  omega

end Balanced

namespace Registry

theorem queued_cons (x : Registration ε) (xs : List (Registration ε)) (listener : String) :
    queued ⟨x :: xs⟩ listener =
      (if x.listener = listener then x.queue else []) ++ queued ⟨xs⟩ listener := by
  by_cases hn : x.listener = listener <;> simp [queued, hn]

theorem marks_cons (x : Registration ε) (xs : List (Registration ε)) :
    marks ⟨x :: xs⟩ = (x.listener, x.live) :: marks ⟨xs⟩ := rfl

theorem raise_cons (x : Registration ε) (xs : List (Registration ε)) (e : ε) :
    raise ⟨x :: xs⟩ e = ⟨x.enqueue e :: (raise ⟨xs⟩ e).entries⟩ := rfl

theorem queued_raise (r : Registry ε) (e : ε) (listener : String) :
    ((r.raise e).queued listener).Perm
      (r.queued listener ++ List.replicate (r.marks.count (listener, true)) e) := by
  obtain ⟨xs⟩ := r
  induction xs with
  | nil => simp [queued, raise, marks]
  | cons x xs ih =>
    rw [raise_cons, queued_cons, queued_cons, marks_cons, (x.same_enqueue e).1, List.count_cons,
      List.append_assoc]
    by_cases hx : x.listener = listener ∧ x.live = true
    · obtain ⟨hn, hl⟩ := hx
      rw [if_pos hn, if_pos hn, hn, hl, beq_self_eq_true, if_pos rfl, List.replicate_succ',
        Registration.enqueue, if_pos hl, List.append_assoc]
      refine .append_left _ (List.perm_append_comm.trans ?_)
      rw [← List.append_assoc]
      exact ih.append_right [e]
    · have hmark : ((x.listener, x.live) == (listener, true)) = false := by simpa using hx
      have hqueue : (if x.listener = listener then (x.enqueue e).queue else []) =
          if x.listener = listener then x.queue else [] := by
        by_cases hn : x.listener = listener
        · simp [Registration.enqueue, show x.live = false by simpa [hn] using hx]
        · simp [hn]
      rw [hqueue, hmark, if_neg Bool.false_ne_true, Nat.add_zero]
      exact ih.append_left _

theorem remove_found_iff (r : Registry ε) (listener : String) :
    (r.remove listener).2 = true ↔ 0 < r.marks.count (listener, true) := by
  rw [List.count_pos_iff, mem_marks_iff]
  have hr := r.removal listener
  generalize r.remove listener = o at hr ⊢
  cases hr with
  | found older x younger he hx => exact ⟨fun _ => ⟨x, by simp [he], hx⟩, fun _ => rfl⟩
  | missed hnone =>
    refine ⟨nofun, fun ⟨x, hx, hl⟩ => ?_⟩
    rw [hnone x hx] at hl
    cases hl

end Registry

theorem Registry.balanced (hs : List (Happening ε)) :
    Balanced (run hs) (additions hs) (removals hs) := by
  induction hs using List.reverseRecOn with
  | nil => exact ⟨rfl, fun _ => rfl⟩
  | append_singleton hs h ih =>
    have hremovals := funext (removals_snoc hs h)
    rw [run_snoc, additions_snoc, hremovals]
    match h with
    | .step (.add listener) =>
      simpa [next, act, Happening.adds?, Happening.removes?] using ih.add listener
    | .step (.remove listener) =>
      have hadds : (Happening.step (.remove listener) : Happening ε).adds?.toList = [] := rfl
      rw [← hremovals, removals_snoc_remove, hadds, List.append_nil]
      exact ih.remove listener
    | .step (.start place) =>
      simpa [next, act, Happening.adds?, Happening.removes?] using
        ih.of_marks (marks_work Registration.works_start place)
    | .step (.finish place how) =>
      simpa [next, act, Happening.adds?, Happening.removes?] using
        ih.of_marks (marks_work (Registration.works_finish how) place)
    | .raise e =>
      simpa [next, Happening.adds?, Happening.removes?] using ih.of_marks (marks_raise e)

/-- What a registry is after its own calls, workers and events, whatever happens to another one. -/
structure Tallied (hs : List (Happening ε)) (r : Registry ε) : Prop where
  own : r = Registry.run hs
  in_order : r.entries.map (·.listener) = Registry.additions hs
  removed_le : ∀ listener, Registry.removals hs listener ≤ (Registry.additions hs).count listener
  found_iff : ∀ listener, (r.remove listener).2 = true ↔
    Registry.removals hs listener < (Registry.additions hs).count listener
  removal : ∀ listener, Removal r listener (r.remove listener)
  count_eq : r.count = ∑ listener ∈ (Registry.additions hs).toFinset,
    ((Registry.additions hs).count listener - Registry.removals hs listener)
  raised_once : ∀ e, (r.raise e).entries =
    r.entries.map fun x => if x.live then { x with queue := x.queue ++ [e] } else x
  raised_times : ∀ e listener, ((r.raise e).queued listener).Perm (r.queued listener ++
    List.replicate ((Registry.additions hs).count listener - Registry.removals hs listener) e)

theorem Registry.tallied (hs : List (Happening ε)) : Tallied hs (run hs) where
  own := rfl
  in_order := by
    rw [← (balanced hs).in_order, marks, List.map_map]
    rfl
  removed_le listener := by
    have hb := (balanced hs).balance listener
    omega
  found_iff listener := by
    have hb := (balanced hs).balance listener
    rw [remove_found_iff]
    omega
  removal := (run hs).removal
  count_eq := (balanced hs).count_eq
  raised_once e := rfl
  raised_times e listener := by
    have hb := (balanced hs).balance listener
    have ht : (additions hs).count listener - removals hs listener =
        (run hs).marks.count (listener, true) := by omega
    rw [ht]
    exact (run hs).queued_raise e listener

theorem Listeners.registrations_tallied (endpoint : String) (steps : List ListenersStep) :
    Tallied (steps.filterMap (·.client? endpoint)) (run endpoint steps).clients ∧
      Tallied (steps.filterMap (·.data?)) (run endpoint steps).data := by
  rw [clients_run, data_run]
  exact ⟨Registry.tallied _, Registry.tallied _⟩

end LabelPrinter

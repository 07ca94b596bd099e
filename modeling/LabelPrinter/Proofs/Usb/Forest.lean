import LabelPrinter.Proofs.Usb.Building
import Mathlib.Data.List.Lex

/-!
Where the devices of a list stand in their forest. The trail of a device names the devices on the
way down to it by their places in the list, so the order of the trails is the order in which a walk
through the forest meets the devices: a hub before what hangs off it, and the rest in list order.
-/

namespace LabelPrinter.Usb

variable {α : Type} {ds : List (Located α)}

/-- The places on the way from a root down to a device, that of the device last. -/
inductive Trail (ds : List (Located α)) : Nat → List Nat → Prop where
  | root {i : Nat} {d : Located α} : ds[i]? = some d → Located.parent? ds d = none → Trail ds i [i]
  | under {i j : Nat} {d : Located α} {t : List Nat} : ds[i]? = some d →
      Located.parent? ds d = some j → Trail ds j t → Trail ds i (t ++ [i])

namespace Trail

variable {i : Nat} {t : List Nat}

theorem getLast? (h : Trail ds i t) : t.getLast? = some i := by
  cases h with
  | root _ _ => rfl
  | under _ _ _ => exact List.getLast?_concat

theorem length_le {d : Located α} (h : Trail ds i t) (hd : ds[i]? = some d) :
    t.length ≤ d.path.length + 1 := by
  induction h generalizing d with
  | root _ _ => exact Nat.le_add_left 1 _
  | under he hp _ ih =>
    obtain rfl := Option.some.inj (hd.symm.trans he)
    obtain ⟨e, hj, hlen⟩ := length_parent hp
    have hle := ih hj
    rw [List.length_append, List.length_singleton]
    omega

theorem exists_of_getElem? {d : Located α} (hd : ds[i]? = some d) : ∃ t, Trail ds i t := by
  induction hn : d.path.length using Nat.strong_induction_on generalizing i d with
  | _ n ih =>
    cases hp : Located.parent? ds d with
    | none => exact ⟨_, .root hd hp⟩
    | some j =>
      obtain ⟨e, hj, hlen⟩ := length_parent hp
      obtain ⟨t, ht⟩ := ih e.path.length (by omega) hj rfl
      exact ⟨_, .under hd hp ht⟩

theorem of_mem (h : Trail ds i t) {j : Nat} (hj : j ∈ t) : ∃ w, Trail ds j w ∧ w <+: t := by
  induction h with
  | root hd hp =>
    obtain rfl := List.mem_singleton.mp hj
    exact ⟨_, .root hd hp, List.prefix_rfl⟩
  | under hd hp ht ih =>
    obtain hj | hj := List.mem_append.mp hj
    · obtain ⟨w, hw, hpre⟩ := ih hj
      exact ⟨w, hw, hpre.trans (List.prefix_append _ _)⟩
    · obtain rfl := List.mem_singleton.mp hj
      exact ⟨_, .under hd hp ht, List.prefix_rfl⟩

theorem lt_below (t : List Nat) (i : Nat) (w : List Nat) : t < t ++ i :: w := by
  have h : t ++ [] < t ++ i :: w := List.append_left_lt (List.nil_lt_cons i w)
  rwa [List.append_nil] at h

/-- A hub on the way to a device is met before the device. -/
theorem above (h : Trail ds i t) {j : Nat} (hj : j ∈ t.dropLast) : ∃ w, Trail ds j w ∧ w < t := by
  cases h with
  | root _ _ => exact absurd hj List.not_mem_nil
  | under _ _ ht =>
    rw [List.dropLast_concat] at hj
    obtain ⟨w, hw, v, rfl⟩ := ht.of_mem hj
    refine ⟨w, hw, ?_⟩
    rw [List.append_assoc]
    cases v with
    | nil => exact lt_below w _ []
    | cons k v => exact lt_below w k _

end Trail

namespace Node

mutual

/-- A node before all that is below it. -/
def preorder : Node α → List (Node α)
  | .mk vendor product device children =>
    .mk vendor product device children :: preorderIn children

def preorderIn : List (Node α) → List (Node α)
  | [] => []
  | n :: rest => preorder n ++ preorderIn rest

end

theorem preorderIn_eq_flatMap (ns : List (Node α)) : preorderIn ns = ns.flatMap preorder := by
  induction ns with
  | nil => rw [preorderIn, List.flatMap_nil]
  | cons n ns ih => rw [preorderIn, List.flatMap_cons, ih]

/-- The node shows this device. -/
def Shows (n : Node α) (d : Located α) : Prop :=
  ∃ children, n = .mk d.vendor d.product d.device children

end Node

theorem grow_shows (ds : List (Located α)) (m : Nat) (d : Located α × Nat) :
    (grow ds m d).Shows d.1 := by
  cases m <;> exact ⟨_, rfl⟩

/-- What grows from a device that is reached on this way: its nodes with their trails. -/
def visit (ds : List (Located α)) : Nat → List Nat → Located α × Nat → List (List Nat × Node α)
  | 0, t, d => [(t ++ [d.2], grow ds 0 d)]
  | m + 1, t, d => (t ++ [d.2], grow ds (m + 1) d) ::
      (hangingFrom ds (some d.2)).flatMap (visit ds m (t ++ [d.2]))

def tour (ds : List (Located α)) : List (List Nat × Node α) :=
  (hangingFrom ds none).flatMap (visit ds (levels ds) [])

section

variable {m : Nat} {t : List Nat} {d : Located α × Nat}

theorem visit_nodes (ds : List (Located α)) (m : Nat) (t : List Nat) (d : Located α × Nat) :
    (visit ds m t d).map Prod.snd = (grow ds m d).preorder := by
  induction m generalizing t d with
  | zero => rfl
  | succ m ih =>
    rw [visit, grow, Node.preorder, Node.preorderIn_eq_flatMap, List.map_cons, List.map_flatMap,
      List.flatMap_map]
    simp only [ih]

theorem mem_visit {x : List Nat × Node α} (h : x ∈ visit ds m t d) : ∃ w, x.1 = t ++ d.2 :: w := by
  induction m generalizing t d with
  | zero => exact ⟨[], by rw [List.mem_singleton.mp h]⟩
  | succ m ih =>
    obtain rfl | h := List.mem_cons.mp h
    · exact ⟨[], rfl⟩
    · obtain ⟨e, -, hx⟩ := List.mem_flatMap.mp h
      obtain ⟨w, hw⟩ := ih hx
      exact ⟨e.2 :: w, by rw [hw, List.append_assoc]; rfl⟩

theorem visits_ordered (h : ∀ d, (visit ds m t d).Pairwise fun x y => x.1 < y.1)
    (parent : Option Nat) :
    ((hangingFrom ds parent).flatMap (visit ds m t)).Pairwise fun x y => x.1 < y.1 := by
  rw [List.pairwise_flatMap]
  refine ⟨fun d _ => h d, (hangingFrom_ordered ds parent).imp ?_⟩
  intro d e hlt x hx y hy
  obtain ⟨v, hv⟩ := mem_visit hx
  obtain ⟨w, hw⟩ := mem_visit hy
  rw [hv, hw]
  exact List.append_left_lt (List.cons_lt_cons_iff.mpr (.inl hlt))

theorem visit_ordered (ds : List (Located α)) (m : Nat) (t : List Nat) (d : Located α × Nat) :
    (visit ds m t d).Pairwise fun x y => x.1 < y.1 := by
  induction m generalizing t d with
  | zero => exact List.pairwise_singleton _ _
  | succ m ih =>
    rw [visit, List.pairwise_cons]
    refine ⟨fun x hx => ?_, visits_ordered (ih _) _⟩
    obtain ⟨e, -, hx⟩ := List.mem_flatMap.mp hx
    obtain ⟨w, hw⟩ := mem_visit hx
    rw [hw]
    exact Trail.lt_below _ _ _

theorem visit_shows {x : List Nat × Node α} (hd : ds[d.2]? = some d.1)
    (ht : Trail ds d.2 (t ++ [d.2])) (h : x ∈ visit ds m t d) :
    ∃ i e, ds[i]? = some e ∧ Trail ds i x.1 ∧ x.2.Shows e := by
  induction m generalizing t d with
  | zero =>
    obtain rfl := List.mem_singleton.mp h
    exact ⟨d.2, d.1, hd, ht, grow_shows _ _ _⟩
  | succ m ih =>
    obtain rfl | h := List.mem_cons.mp h
    · exact ⟨d.2, d.1, hd, ht, grow_shows _ _ _⟩
    · obtain ⟨e, he, hx⟩ := List.mem_flatMap.mp h
      obtain ⟨hde, hp⟩ := mem_hangingFrom.mp he
      exact ih hde (.under hde hp ht) hx

/-- Below a node that is visited, all that hangs off its device is visited too. -/
theorem visit_below {u : List Nat} {n : Node α} (h : (u, n) ∈ visit ds m t d)
    (hlen : u.length ≤ t.length + m) {j : Nat} (hj : u.getLast? = some j) {e : Located α × Nat}
    (he : e ∈ hangingFrom ds (some j)) : ∃ n, (u ++ [e.2], n) ∈ visit ds m t d := by
  induction m generalizing t d with
  | zero =>
    obtain ⟨rfl, -⟩ := Prod.mk.inj (List.mem_singleton.mp h)
    exact absurd hlen (by simp)
  | succ m ih =>
    obtain h | h := List.mem_cons.mp h
    · obtain ⟨rfl, -⟩ := Prod.mk.inj h
      obtain rfl : d.2 = j := by simpa using hj
      refine ⟨grow ds m e, List.mem_cons_of_mem _ (List.mem_flatMap.mpr ⟨e, he, ?_⟩)⟩
      cases m <;> exact List.mem_cons_self
    · obtain ⟨f, hf, hu⟩ := List.mem_flatMap.mp h
      obtain ⟨n, hn⟩ := ih hu (by rw [List.length_append, List.length_singleton]; omega)
      exact ⟨n, List.mem_cons_of_mem _ (List.mem_flatMap.mpr ⟨f, hf, hn⟩)⟩

end

theorem tour_nodes (ds : List (Located α)) :
    (tour ds).map Prod.snd = Node.preorderIn (forest ds) := by
  rw [tour, forest_eq_grown, grown, Node.preorderIn_eq_flatMap, List.map_flatMap, List.flatMap_map]
  simp only [visit_nodes]

theorem tour_ordered (ds : List (Located α)) : (tour ds).Pairwise fun x y => x.1 < y.1 :=
  visits_ordered (visit_ordered ds _ _) none

theorem tour_shows {x : List Nat × Node α} (h : x ∈ tour ds) :
    ∃ i d, ds[i]? = some d ∧ Trail ds i x.1 ∧ x.2.Shows d := by
  obtain ⟨d, hd, hx⟩ := List.mem_flatMap.mp h
  obtain ⟨hi, hp⟩ := mem_hangingFrom.mp hd
  exact visit_shows hi (.root hi hp) hx

/-- No device is left out. -/
theorem tour_complete {i : Nat} {t : List Nat} (h : Trail ds i t) : ∃ n, (t, n) ∈ tour ds := by
  induction h with
  | @root i d hd hp =>
    have hroot : (d, i) ∈ hangingFrom ds none := mem_hangingFrom.mpr ⟨hd, hp⟩
    refine ⟨grow ds (levels ds) (d, i), List.mem_flatMap.mpr ⟨(d, i), hroot, ?_⟩⟩
    cases levels ds <;> exact List.mem_cons_self
  | @under i j d t hd hp ht ih =>
    obtain ⟨n, hn⟩ := ih
    obtain ⟨f, hf, hv⟩ := List.mem_flatMap.mp hn
    obtain ⟨e, hj, hlen⟩ := length_parent hp
    have hle := ht.length_le hj
    have hlevels := length_le_levels (List.mem_of_getElem? hd)
    obtain ⟨n, hn⟩ := visit_below hv (by rw [List.length_nil]; omega) ht.getLast?
      (mem_hangingFrom.mpr ⟨hd, hp⟩)
    exact ⟨n, List.mem_flatMap.mpr ⟨f, hf, hn⟩⟩

end LabelPrinter.Usb

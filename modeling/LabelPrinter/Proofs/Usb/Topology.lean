import LabelPrinter.Proofs.Usb.Forest
import Mathlib.Data.List.Forall2
import Mathlib.Data.List.Sort

/-!
The forest of a list of devices is the topology of its buses, and nothing else is.
-/

namespace LabelPrinter.Usb

variable {α : Type} {ds : List (Located α)} {i j : Nat}

/-- The path of the device is that of the hub and one hop more, on the same bus. -/
def Located.HangsOff (d hub : Located α) : Prop :=
  hub.bus = d.bus ∧ ∃ hop, d.path = hub.path ++ [hop]

/-- Of the devices that the one at `i` hangs off, that at `j` is the first in the list. -/
structure IsParent (ds : List (Located α)) (j i : Nat) : Prop where
  hangs : ∃ d hub, ds[i]? = some d ∧ ds[j]? = some hub ∧ d.HangsOff hub
  first : ∀ d e k, ds[i]? = some d → ds[k]? = some e → d.HangsOff e → j ≤ k

def IsRoot (ds : List (Located α)) (i : Nat) : Prop := i < ds.length ∧ ∀ j, ¬ IsParent ds j i

/-- The places for which `P` holds, in the order of the list. -/
def Enumerates (P : Nat → Prop) (places : List Nat) : Prop :=
  places.Pairwise (· < ·) ∧ ∀ i, i ∈ places ↔ P i

/-- The node is that of the device at this place, with its children and all that is below them. -/
inductive Stands (ds : List (Located α)) : Nat → Node α → Prop where
  | node {i : Nat} {d : Located α} {places : List Nat} {ns : List (Node α)} :
      ds[i]? = some d → Enumerates (IsParent ds i) places → places.length = ns.length →
      (∀ p ∈ places.zip ns, Stands ds p.1 p.2) →
      Stands ds i (.mk d.vendor d.product d.device ns)

structure Topology (ds : List (Located α)) (ns : List (Node α)) : Prop where
  roots : ∃ places, Enumerates (IsRoot ds) places ∧ List.Forall₂ (Stands ds) places ns
  once : ∃ places, places.Perm (List.range ds.length) ∧
    List.Forall₂ (Stands ds) places (Node.preorderIn ns)

theorem Located.carries_iff {d hub : Located α} : hub.carries d = true ↔ d.HangsOff hub := by
  simp only [carries, HangsOff, Bool.and_eq_true, decide_eq_true_eq, bne_iff_ne]
  constructor
  · rintro ⟨⟨hbus, hne⟩, hpath⟩
    exact ⟨hbus, d.path.getLast hne, by rw [hpath, List.dropLast_append_getLast]⟩
  · rintro ⟨hbus, hop, hpath⟩
    exact ⟨⟨hbus, by simp [hpath]⟩, by rw [hpath, List.dropLast_concat]⟩

theorem isParent_iff {d : Located α} (hd : ds[i]? = some d) :
    IsParent ds j i ↔ Located.parent? ds d = some j := by
  rw [Located.parent?, List.findIdx?_eq_some_iff_getElem]
  constructor
  · rintro ⟨⟨d', hub, hd', hhub, hangs⟩, hfirst⟩
    obtain rfl := Option.some.inj (hd.symm.trans hd')
    obtain ⟨hlt, rfl⟩ := List.getElem?_eq_some_iff.mp hhub
    refine ⟨hlt, Located.carries_iff.mpr hangs, fun k hk hc => ?_⟩
    have hle := hfirst d _ k hd (List.getElem?_eq_getElem (hk.trans hlt)) (Located.carries_iff.mp hc)
    omega
  · rintro ⟨hlt, hc, hbefore⟩
    refine ⟨⟨d, _, hd, List.getElem?_eq_getElem hlt, Located.carries_iff.mp hc⟩, ?_⟩
    intro d' e k hd' he hangs
    obtain rfl := Option.some.inj (hd.symm.trans hd')
    obtain ⟨hk, rfl⟩ := List.getElem?_eq_some_iff.mp he
    by_contra hlt'
    exact hbefore k (by omega) (Located.carries_iff.mpr hangs)

theorem isRoot_iff {d : Located α} (hd : ds[i]? = some d) :
    IsRoot ds i ↔ Located.parent? ds d = none := by
  have hlt := (List.getElem?_eq_some_iff.mp hd).1
  simp only [IsRoot, hlt, isParent_iff hd, true_and]
  exact Option.eq_none_iff_forall_ne_some.symm

theorem Enumerates.unique {P : Nat → Prop} {is js : List Nat} (hi : Enumerates P is)
    (hj : Enumerates P js) : is = js :=
  hi.1.eq_of_mem_iff hj.1 fun i => (hi.2 i).trans (hj.2 i).symm

theorem enumerates_hangingFrom {parent : Option Nat} {P : Nat → Prop}
    (hlt : ∀ i, P i → i < ds.length)
    (hP : ∀ i d, ds[i]? = some d → (P i ↔ Located.parent? ds d = parent)) :
    Enumerates P ((hangingFrom ds parent).map Prod.snd) := by
  refine ⟨List.pairwise_map.mpr (hangingFrom_ordered ds parent), fun i => ?_⟩
  rw [List.mem_map]
  constructor
  · rintro ⟨⟨d, k⟩, hd, rfl⟩
    obtain ⟨hd, hp⟩ := mem_hangingFrom.mp hd
    exact (hP k d hd).mpr hp
  · intro hi
    have hd := List.getElem?_eq_getElem (hlt i hi)
    exact ⟨(_, i), mem_hangingFrom.mpr ⟨hd, (hP i _ hd).mp hi⟩, rfl⟩

theorem enumerates_children (ds : List (Located α)) (i : Nat) :
    Enumerates (IsParent ds i) ((hangingFrom ds (some i)).map Prod.snd) := by
  apply enumerates_hangingFrom
  · rintro k ⟨⟨d, _, hd, -⟩, -⟩
    exact (List.getElem?_eq_some_iff.mp hd).1
  · exact fun k d hd => isParent_iff hd

theorem enumerates_roots (ds : List (Located α)) :
    Enumerates (IsRoot ds) ((hangingFrom ds none).map Prod.snd) :=
  enumerates_hangingFrom (fun _ h => h.1) fun _ _ hd => isRoot_iff hd

/-- There are as many levels as the paths have hops, so no device is left out at the bottom. -/
theorem grow_stands {m : Nat} {d : Located α × Nat} (hd : ds[d.2]? = some d.1)
    (hm : levels ds ≤ d.1.path.length + m) : Stands ds d.2 (grow ds m d) := by
  induction m generalizing d with
  | zero =>
    have hchildren := enumerates_children ds d.2
    rw [hangingFrom_deepest hd hm] at hchildren
    exact .node hd hchildren rfl (by simp)
  | succ m ih =>
    refine .node hd (enumerates_children ds d.2) (by simp) ?_
    intro p hp
    rw [List.zip_map', List.mem_map] at hp
    obtain ⟨e, he, rfl⟩ := hp
    obtain ⟨hde, hp⟩ := mem_hangingFrom.mp he
    have hlen := length_of_parent hd hp
    exact ih hde (by omega)

/-- The device that a trail leads to. -/
def Trail.place (t : List Nat) : Nat := t.getLastD 0

theorem Trail.place_concat (t : List Nat) (i : Nat) : Trail.place (t ++ [i]) = i := by
  rw [Trail.place, List.getLastD_eq_getLast?, List.getLast?_concat, Option.getD_some]

theorem Trail.place_eq {t : List Nat} (h : Trail ds i t) : Trail.place t = i := by
  rw [Trail.place, List.getLastD_eq_getLast?, h.getLast?, Option.getD_some]

theorem Trail.unique {t u : List Nat} (ht : Trail ds i t) (hu : Trail ds i u) : t = u := by
  induction ht generalizing u with
  | root hd hp =>
    cases hu with
    | root _ _ => rfl
    | under hd' hp' _ =>
      obtain rfl := Option.some.inj (hd.symm.trans hd')
      cases hp.symm.trans hp'
  | under hd hp _ ih =>
    cases hu with
    | root hd' hp' =>
      obtain rfl := Option.some.inj (hd.symm.trans hd')
      cases hp.symm.trans hp'
    | under hd' hp' hu =>
      obtain rfl := Option.some.inj (hd.symm.trans hd')
      obtain rfl := Option.some.inj (hp.symm.trans hp')
      rw [ih hu]

theorem visit_stands {m : Nat} {t : List Nat} {d : Located α × Nat} {x : List Nat × Node α}
    (hd : ds[d.2]? = some d.1) (hm : levels ds ≤ d.1.path.length + m) (h : x ∈ visit ds m t d) :
    Stands ds (Trail.place x.1) x.2 := by
  induction m generalizing t d with
  | zero =>
    obtain rfl := List.mem_singleton.mp h
    rw [Trail.place_concat]
    exact grow_stands hd hm
  | succ m ih =>
    obtain rfl | h := List.mem_cons.mp h
    · rw [Trail.place_concat]
      exact grow_stands hd hm
    · obtain ⟨e, he, hx⟩ := List.mem_flatMap.mp h
      obtain ⟨hde, hp⟩ := mem_hangingFrom.mp he
      have hlen := length_of_parent hd hp
      exact ih hde (by omega) hx

theorem tour_stands {x : List Nat × Node α} (h : x ∈ tour ds) :
    Stands ds (Trail.place x.1) x.2 := by
  obtain ⟨d, hd, hx⟩ := List.mem_flatMap.mp h
  exact visit_stands (mem_hangingFrom.mp hd).1 (Nat.le_add_left _ _) hx

/-- A walk through the forest meets every device, and none of them twice. -/
theorem tour_places (ds : List (Located α)) :
    ((tour ds).map fun x => Trail.place x.1).Perm (List.range ds.length) := by
  have hnodup : ((tour ds).map fun x => Trail.place x.1).Nodup := by
    rw [List.Nodup, List.pairwise_map]
    refine (tour_ordered ds).imp_of_mem ?_
    intro x y hx hy hlt heq
    obtain ⟨i, _, -, hti, -⟩ := tour_shows hx
    obtain ⟨j, _, -, htj, -⟩ := tour_shows hy
    rw [hti.place_eq, htj.place_eq] at heq
    subst heq
    rw [hti.unique htj] at hlt
    exact List.lt_irrefl _ hlt
  rw [List.perm_ext_iff_of_nodup hnodup List.nodup_range]
  intro i
  rw [List.mem_map, List.mem_range]
  constructor
  · rintro ⟨x, hx, rfl⟩
    obtain ⟨i, d, hd, ht, -⟩ := tour_shows hx
    rw [ht.place_eq]
    exact (List.getElem?_eq_some_iff.mp hd).1
  · intro hi
    obtain ⟨t, ht⟩ := Trail.exists_of_getElem? (List.getElem?_eq_getElem hi)
    obtain ⟨n, hn⟩ := tour_complete ht
    exact ⟨(t, n), hn, ht.place_eq⟩

theorem forest_topology (ds : List (Located α)) : Topology ds (forest ds) := by
  refine ⟨⟨_, enumerates_roots ds, ?_⟩, _, tour_places ds, ?_⟩
  · rw [forest_eq_grown, grown, List.forall₂_map_left_iff, List.forall₂_map_right_iff, List.forall₂_same]
    intro d hd
    exact grow_stands (mem_hangingFrom.mp hd).1 (Nat.le_add_left _ _)
  · rw [← tour_nodes, List.forall₂_map_left_iff, List.forall₂_map_right_iff, List.forall₂_same]
    exact fun x hx => tour_stands hx

theorem eq_of_forall₂ {β γ : Type} {R S : β → γ → Prop} (h : ∀ b c e, R b c → S b e → c = e)
    {bs : List β} {cs es : List γ} (hc : List.Forall₂ R bs cs) (he : List.Forall₂ S bs es) :
    cs = es := by
  induction hc generalizing es with
  | nil =>
    cases he
    rfl
  | cons hr _ ih =>
    cases he with
    | cons hs he => rw [h _ _ _ hr hs, ih he]

/-- The list leaves no choice of what stands at a place. -/
theorem Stands.unique {n m : Node α} (hn : Stands ds i n) (hm : Stands ds i m) : n = m := by
  induction hn generalizing m with
  | @node i d places ns hd he hlen _ ih =>
    obtain ⟨hd', he', hlen', hm⟩ := hm
    obtain rfl := Option.some.inj (hd.symm.trans hd')
    obtain rfl := he.unique he'
    have hns : List.Forall₂ (fun j n => ∀ m, Stands ds j m → n = m) places ns :=
      List.forall₂_iff_zip.mpr ⟨hlen, fun hp _ => ih _ hp⟩
    have hms := List.forall₂_iff_zip.mpr ⟨hlen', fun hp => hm _ hp⟩
    rw [eq_of_forall₂ (fun _ _ _ hn hm => hn _ hm) hns hms]

theorem topology_iff_forest {ns : List (Node α)} : Topology ds ns ↔ ns = forest ds := by
  constructor
  · rintro ⟨⟨places, he, hall⟩, -⟩
    obtain rfl := he.unique (enumerates_roots ds)
    obtain ⟨⟨places, he', hall'⟩, -⟩ := forest_topology ds
    obtain rfl := he'.unique (enumerates_roots ds)
    exact eq_of_forall₂ (fun _ _ _ hn hm => hn.unique hm) hall hall'
  · rintro rfl
    exact forest_topology ds

end LabelPrinter.Usb

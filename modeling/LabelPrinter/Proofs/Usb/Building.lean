import LabelPrinter.Usb.Topology
import Mathlib.Data.List.Basic
import Mathlib.Data.List.Induction

/-!
The trees of a bus are put together from the leaves up: a device is handed to its hub when all that
hangs off the device has been handed to it. So they are the trees that grow down from the roots.
-/

namespace LabelPrinter.Usb

open Located

variable {α : Type} {ds : List (Located α)}

/-- The devices of the list whose parent is as given, in list order. -/
def hangingFrom (ds : List (Located α)) (parent : Option Nat) : List (Located α × Nat) :=
  ds.zipIdx.filter fun d => parent? ds d.1 = parent

def grow (ds : List (Located α)) : Nat → Located α × Nat → Node α
  | 0, d => .mk d.1.vendor d.1.product d.1.device []
  | levels + 1, d =>
    .mk d.1.vendor d.1.product d.1.device ((hangingFrom ds (some d.2)).map (grow ds levels))

/-- Paths grow by one hop a level, so the longest bounds the levels below a root. -/
def levels (ds : List (Located α)) : Nat := (ds.map (·.path.length)).foldl max 0

def grown (ds : List (Located α)) : List (Node α) :=
  (hangingFrom ds none).map (grow ds (levels ds))

theorem mem_hangingFrom {parent : Option Nat} {d : Located α} {i : Nat} :
    (d, i) ∈ hangingFrom ds parent ↔ ds[i]? = some d ∧ parent? ds d = parent := by
  simp [hangingFrom, List.mem_zipIdx_iff_getElem?]

theorem hangingFrom_ordered (ds : List (Located α)) (parent : Option Nat) :
    (hangingFrom ds parent).Pairwise fun d e => d.2 < e.2 := by
  apply List.Pairwise.filter
  rw [← List.pairwise_map (f := Prod.snd) (R := (· < ·)), List.zipIdx_map_snd]
  exact List.pairwise_lt_range' 1

/-- The parent of a device is one hop closer to the root of its bus. -/
theorem length_parent {d : Located α} {j : Nat} (h : parent? ds d = some j) :
    ∃ e, ds[j]? = some e ∧ d.path.length = e.path.length + 1 := by
  obtain ⟨hj, hc, -⟩ := List.findIdx?_eq_some_iff_getElem.mp h
  simp only [carries, Bool.and_eq_true, decide_eq_true_eq, bne_iff_ne] at hc
  obtain ⟨⟨-, hne⟩, hp⟩ := hc
  refine ⟨ds[j], List.getElem?_eq_getElem hj, ?_⟩
  have hpos := List.length_pos_iff.mpr hne
  rw [hp, List.length_dropLast]
  omega

theorem length_of_parent {i : Nat} {d e : Located α} (hd : ds[i]? = some d)
    (hp : parent? ds e = some i) : e.path.length = d.path.length + 1 := by
  obtain ⟨hub, hj, hlen⟩ := length_parent hp
  obtain rfl := Option.some.inj (hd.symm.trans hj)
  exact hlen

theorem length_le_levels {d : Located α} (h : d ∈ ds) : d.path.length ≤ levels ds := by
  have hmem : d.path.length ∈ ds.map (·.path.length) := List.mem_map_of_mem h
  rw [levels, List.foldl_max]
  cases hm : (ds.map (·.path.length)).max? with
  | none =>
    rw [List.max?_eq_none_iff.mp hm] at hmem
    exact absurd hmem List.not_mem_nil
  | some n =>
    have hle := (List.max?_eq_some_iff.mp hm).2 _ hmem
    exact Nat.le_trans hle (Nat.le_max_right 0 n)

/-- Nothing hangs off a device at the end of a longest path. -/
theorem hangingFrom_deepest {d : Located α × Nat} (hd : ds[d.2]? = some d.1)
    (hm : levels ds ≤ d.1.path.length) : hangingFrom ds (some d.2) = [] := by
  rw [List.eq_nil_iff_forall_not_mem]
  intro e he
  obtain ⟨hde, hp⟩ := mem_hangingFrom.mp he
  have hlen := length_of_parent hd hp
  have hle := length_le_levels (List.mem_of_getElem? hde)
  omega

theorem grow_succ {m : Nat} {d : Located α × Nat} (hd : ds[d.2]? = some d.1)
    (hm : levels ds ≤ d.1.path.length + m) : grow ds (m + 1) d = grow ds m d := by
  induction m generalizing d with
  | zero =>
    have hgrow : grow ds 1 d = d.1.node ((hangingFrom ds (some d.2)).map (grow ds 0)) := rfl
    rw [hgrow, hangingFrom_deepest hd hm]
    rfl
  | succ m ih =>
    have hchildren : (hangingFrom ds (some d.2)).map (grow ds (m + 1)) =
        (hangingFrom ds (some d.2)).map (grow ds m) := by
      refine List.map_congr_left fun e he => ?_
      obtain ⟨hde, hp⟩ := mem_hangingFrom.mp he
      have hlen := length_of_parent hd hp
      exact ih hde (by omega)
    rw [grow, hchildren, grow]

theorem grow_levels {d : Located α × Nat} (hd : ds[d.2]? = some d.1) :
    grow ds (levels ds) d = d.1.node ((hangingFrom ds (some d.2)).map (grow ds (levels ds))) := by
  rw [← grow_succ hd (Nat.le_add_left _ _)]
  rfl

section Order

variable {l : List (Located α × Nat)} {p : Located α × Nat → Bool}

theorem insertDeep_perm (d : Located α × Nat) (l : List (Located α × Nat)) :
    (insertDeep d l).Perm (d :: l) := by
  induction l with
  | nil => exact List.Perm.refl _
  | cons e l ih =>
    rw [insertDeep]
    split_ifs
    · exact List.Perm.refl _
    · exact (ih.cons e).trans (List.Perm.swap d e l)

theorem insertDeep_pairwise (d : Located α × Nat)
    (hl : l.Pairwise fun d e => e.1.path.length ≤ d.1.path.length) :
    (insertDeep d l).Pairwise fun d e => e.1.path.length ≤ d.1.path.length := by
  induction l with
  | nil => exact List.pairwise_singleton _ _
  | cons e l ih =>
    obtain ⟨he, hl⟩ := List.pairwise_cons.mp hl
    rw [insertDeep]
    split_ifs with hle
    · refine List.pairwise_cons.mpr ⟨fun f hf => ?_, List.pairwise_cons.mpr ⟨he, hl⟩⟩
      obtain rfl | hf := List.mem_cons.mp hf
      · exact hle
      · exact Nat.le_trans (he f hf) hle
    · refine List.pairwise_cons.mpr ⟨fun f hf => ?_, ih hl⟩
      obtain rfl | hf := List.mem_cons.mp ((insertDeep_perm d l).mem_iff.mp hf)
      · omega
      · exact he f hf

/-- A device is put behind deeper ones only, so devices of one depth keep their order. -/
theorem filter_insertDeep
    (hp : ∀ d e, p d = true → p e = true → d.1.path.length = e.1.path.length)
    (d : Located α × Nat) (l : List (Located α × Nat)) :
    (insertDeep d l).filter p = (d :: l).filter p := by
  induction l with
  | nil => rfl
  | cons e l ih =>
    rw [insertDeep]
    split_ifs with hle
    · rfl
    · have hne : ¬ (p d = true ∧ p e = true) := fun h => hle (Nat.le_of_eq (hp d e h.1 h.2).symm)
      rw [List.filter_cons, ih, List.filter_cons, List.filter_cons, List.filter_cons]
      cases hd : p d with
      | false => rfl
      | true =>
        have he : p e = false := by simpa [hd] using hne
        rw [he]
        rfl

theorem deepestFirst_perm (ds : List (Located α)) : (deepestFirst ds).Perm ds.zipIdx := by
  rw [deepestFirst]
  induction ds.zipIdx with
  | nil => exact List.Perm.refl _
  | cons d l ih => exact (insertDeep_perm d _).trans (ih.cons d)

theorem deepestFirst_pairwise (ds : List (Located α)) :
    (deepestFirst ds).Pairwise fun d e => e.1.path.length ≤ d.1.path.length := by
  rw [deepestFirst]
  induction ds.zipIdx with
  | nil => exact List.Pairwise.nil
  | cons d l ih => exact insertDeep_pairwise d ih

/-- What hangs off one device is of one depth, so it is attached in list order. -/
theorem filter_deepestFirst (ds : List (Located α)) (i : Nat) :
    (deepestFirst ds).filter (fun d => parent? ds d.1 = some i) = hangingFrom ds (some i) := by
  have hdepth : ∀ d e : Located α × Nat, decide (parent? ds d.1 = some i) = true →
      decide (parent? ds e.1 = some i) = true → d.1.path.length = e.1.path.length := by
    intro d e hd he
    obtain ⟨hub, hhub, hlen⟩ := length_parent (of_decide_eq_true hd)
    rw [hlen, length_of_parent hhub (of_decide_eq_true he)]
  rw [deepestFirst, hangingFrom]
  induction ds.zipIdx with
  | nil => rfl
  | cons d l ih =>
    rw [List.foldr_cons, filter_insertDeep hdepth, List.filter_cons, List.filter_cons, ih]

end Order

section Slots

variable {done rest : List (Located α × Nat)} {c d : Located α × Nat} {i : Nat}

/-- What hangs off the device at this place and is attached already. -/
def attached (ds : List (Located α)) (done : List (Located α × Nat)) (i : Nat) : List (Node α) :=
  (done.filter fun c => parent? ds c.1 = some i).map (grow ds (levels ds))

/-- What is in the slot of a device when these devices are done. -/
def slot (ds : List (Located α)) (done : List (Located α × Nat)) (d : Located α × Nat) :
    Option (Node α) :=
  if d.2 ∈ done.map Prod.snd ∧ (parent? ds d.1).isSome then none
  else some (d.1.node (attached ds done d.2))

def slots (ds : List (Located α)) (done : List (Located α × Nat)) : List (Option (Node α)) :=
  ds.zipIdx.map (slot ds done)

theorem getElem?_slots : (slots ds done)[i]? = ds[i]?.map fun d => slot ds done (d, i) := by
  rw [slots, List.getElem?_map, List.getElem?_zipIdx, Option.map_map, Nat.zero_add]
  rfl

theorem attached_concat :
    attached ds (done ++ [c]) i = if parent? ds c.1 = some i then
      attached ds done i ++ [grow ds (levels ds) c] else attached ds done i := by
  rw [attached, List.filter_append, List.map_append]
  split_ifs with hp
  · rw [List.filter_singleton, decide_eq_true hp]
    rfl
  · rw [List.filter_singleton, decide_eq_false hp]
    exact List.append_nil _

/-- A device whose turn it is has not been attached, nor has its hub, but all that hangs off it. -/
structure Next (ds : List (Located α)) (done : List (Located α × Nat)) (c : Located α × Nat) :
    Prop where
  listed : ds[c.2]? = some c.1
  fresh : c.2 ∉ done.map Prod.snd
  waiting : ∀ i, parent? ds c.1 = some i → i ∉ done.map Prod.snd ∧ i ≠ c.2
  complete : attached ds done c.2 = (hangingFrom ds (some c.2)).map (grow ds (levels ds))

theorem next_of_deepestFirst (h : deepestFirst ds = done ++ c :: rest) : Next ds done c := by
  have hlisted : ∀ d ∈ done ++ c :: rest, ds[d.2]? = some d.1 := by
    intro d hd
    rw [← h] at hd
    exact List.mem_zipIdx_iff_getElem?.mp ((deepestFirst_perm ds).mem_iff.mp hd)
  have hnodup : ((done ++ c :: rest).map Prod.snd).Nodup := by
    rw [← h, ((deepestFirst_perm ds).map Prod.snd).nodup_iff, List.zipIdx_map_snd]
    exact List.nodup_range'
  have hsorted := deepestFirst_pairwise ds
  rw [h, List.pairwise_append, List.pairwise_cons] at hsorted
  obtain ⟨-, ⟨hafter, -⟩, hbefore⟩ := hsorted
  have hc := hlisted c (by simp)
  refine ⟨hc, ?_, ?_, ?_⟩
  · rw [List.map_append, List.map_cons, List.nodup_append] at hnodup
    intro hmem
    exact hnodup.2.2 _ hmem _ List.mem_cons_self rfl
  · intro i hp
    obtain ⟨hub, hhub, hlen⟩ := length_parent hp
    refine ⟨fun hmem => ?_, fun hi => ?_⟩
    · obtain ⟨d, hd, rfl⟩ := List.mem_map.mp hmem
      obtain rfl := Option.some.inj (hhub.symm.trans (hlisted d (List.mem_append_left _ hd)))
      have hle := hbefore d hd c List.mem_cons_self
      omega
    · subst hi
      obtain rfl := Option.some.inj (hhub.symm.trans hc)
      omega
  · have hrest : (c :: rest).filter (fun d => parent? ds d.1 = some c.2) = [] := by
      rw [List.filter_eq_nil_iff]
      intro d hd hp
      have hlen := length_of_parent hc (of_decide_eq_true hp)
      obtain rfl | hd := List.mem_cons.mp hd
      · omega
      · have hle := hafter d hd
        omega
    rw [← filter_deepestFirst, h, List.filter_append, hrest, List.append_nil, attached]

theorem slot_of_not_mem (h : d.2 ∉ done.map Prod.snd) :
    slot ds done d = some (d.1.node (attached ds done d.2)) := if_neg fun hd => h hd.1

theorem slot_of_root (h : parent? ds d.1 = none) :
    slot ds done d = some (d.1.node (attached ds done d.2)) := if_neg fun hd => by simp [h] at hd

theorem slot_of_attached (hd : d.2 ∈ done.map Prod.snd) (h : parent? ds d.1 = some i) :
    slot ds done d = none := if_pos ⟨hd, by rw [h]; rfl⟩

theorem slot_concat (hd : d.2 ≠ c.2) (hp : parent? ds c.1 ≠ some d.2) :
    slot ds (done ++ [c]) d = slot ds done d := by
  have hmem : d.2 ∈ (done ++ [c]).map Prod.snd ↔ d.2 ∈ done.map Prod.snd := by simp [hd]
  rw [slot, slot, attached_concat, if_neg hp]
  exact if_congr (by rw [hmem]) rfl rfl

theorem slots_root (h : Next ds done c) (hp : parent? ds c.1 = none) :
    slots ds done = slots ds (done ++ [c]) := by
  refine List.map_congr_left fun d hd => ?_
  by_cases hi : d.2 = c.2
  · have hdc : d.1 = c.1 := by
      have hd := List.mem_zipIdx_iff_getElem?.mp hd
      rw [hi, h.listed] at hd
      exact (Option.some.inj hd).symm
    rw [slot_of_root (hdc ▸ hp), slot_of_root (hdc ▸ hp), attached_concat, if_neg (by simp [hp])]
  · exact (slot_concat hi (by simp [hp])).symm

theorem slots_child {hub : Nat} (h : Next ds done c) (hp : parent? ds c.1 = some hub) :
    ((slots ds done).set c.2 none).modify hub (·.map (·.adopt (grow ds (levels ds) c))) =
      slots ds (done ++ [c]) := by
  obtain ⟨hwaiting, hne⟩ := h.waiting hub hp
  apply List.ext_getElem?
  intro i
  rw [List.getElem?_modify, List.getElem?_set, getElem?_slots, getElem?_slots]
  by_cases hi : c.2 = i
  · subst hi
    have hlt : c.2 < (slots ds done).length := by
      rw [slots, List.length_map, List.length_zipIdx]
      exact (List.getElem?_eq_some_iff.mp h.listed).1
    rw [if_pos rfl, if_pos hlt, h.listed, Option.map_some, slot_of_attached (by simp) hp]
    simp
  · rw [if_neg hi]
    cases ds[i]? with
    | none => rfl
    | some d =>
      rw [Option.map_some, Option.map_some]
      by_cases hhub : hub = i
      · subst hhub
        have hafter : hub ∉ (done ++ [c]).map Prod.snd := by simp [hwaiting, hne]
        rw [slot_of_not_mem hwaiting, slot_of_not_mem hafter, attached_concat, if_pos hp]
        simp [Node.adopt, Located.node]
      · rw [slot_concat (Ne.symm hi) (by simp [hp, hhub])]
        simp [hhub]

/-- The tree of the device is complete when it leaves its slot, and its hub is still there. -/
theorem attach_slots (h : Next ds done c) :
    attach ds (slots ds done) c = slots ds (done ++ [c]) := by
  have hslot : (slots ds done)[c.2]?.join = some (grow ds (levels ds) c) := by
    rw [getElem?_slots, h.listed, Option.map_some, Option.join_some, slot_of_not_mem h.fresh,
      h.complete, grow_levels h.listed]
  rw [attach, hslot]
  cases hp : parent? ds c.1 with
  | none => exact slots_root h hp
  | some hub => exact slots_child h hp

theorem foldl_attach (h : done <+: deepestFirst ds) :
    done.foldl (attach ds) (ds.map fun d => some (d.node [])) = slots ds done := by
  induction done using List.reverseRecOn with
  | nil =>
    have hempty : slots ds [] = ds.zipIdx.map ((fun d => some (d.node [])) ∘ Prod.fst) := rfl
    rw [List.foldl_nil, hempty, ← List.map_map, List.zipIdx_map_fst]
  | append_singleton done c ih =>
    obtain ⟨rest, hrest⟩ := h
    rw [List.append_assoc, List.singleton_append] at hrest
    rw [List.foldl_append, ih ⟨c :: rest, hrest⟩]
    exact attach_slots (next_of_deepestFirst hrest.symm)

end Slots

theorem forest_eq_grown (ds : List (Located α)) : forest ds = grown ds := by
  rw [forest, foldl_attach List.prefix_rfl, slots, List.filterMap_map, grown, hangingFrom,
    ← List.filterMap_eq_map, List.filterMap_filter]
  refine List.filterMap_congr fun d hd => ?_
  have hd' : d.2 ∈ (deepestFirst ds).map Prod.snd :=
    List.mem_map_of_mem ((deepestFirst_perm ds).mem_iff.mpr hd)
  rw [Function.comp_apply, id]
  cases hp : parent? ds d.1 with
  | none =>
    rw [slot_of_root hp, attached, filter_deepestFirst,
      ← grow_levels (List.mem_zipIdx_iff_getElem?.mp hd)]
    rfl
  | some hub =>
    rw [slot_of_attached hd' hp]
    rfl

end LabelPrinter.Usb

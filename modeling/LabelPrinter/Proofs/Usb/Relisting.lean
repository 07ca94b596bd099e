import LabelPrinter.Proofs.Usb.Topology

/-!
A forest keeps no more of the order of its list than the order among the children of each hub and
among the roots. A walk through the forest keeps both, so the devices listed as the walk meets them
have the same forest.
-/

namespace LabelPrinter.Usb

open Located

variable {α : Type} {ds es : List (Located α)} {order : List Nat} {i j k l : Nat}

/-- The device carries along where it hangs. -/
def Located.tagged (d : Located α) : Located (Located α) := { d with device := d }

/-- The devices as a walk through their forest meets them, each with its own bus and path. -/
def relisted (ds : List (Located α)) : List (Located α) :=
  (Node.preorderIn (forest (ds.map tagged))).map Node.device

/-- The places of the devices as a walk through their forest meets them. -/
def walk (ds : List (Located α)) : List Nat := (tour ds).map fun x => Trail.place x.1

/-- The second list has the devices of the first in this order, in which no device overtakes one
with the same parent. -/
structure Reordered (ds es : List (Located α)) (order : List Nat) : Prop where
  perm : order.Perm (List.range ds.length)
  listed : List.Forall₂ (fun i e => ds[i]? = some e) order es
  siblings : order.Pairwise fun i j => ∀ d e, ds[i]? = some d → ds[j]? = some e →
    parent? ds d = parent? ds e → i < j

/-- All that a device hangs off is at one location, so of one parent. -/
theorem Located.HangsOff.siblings {d hub other : Located α} (h : d.HangsOff hub)
    (h' : d.HangsOff other) : parent? ds hub = parent? ds other := by
  obtain ⟨hbus, hop, hpath⟩ := h
  obtain ⟨hbus', hop', hpath'⟩ := h'
  have hb : hub.bus = other.bus := hbus.trans hbus'.symm
  have hp : hub.path = other.path := by
    have heq := hpath.symm.trans hpath'
    exact (List.append_inj' heq rfl).1
  rw [parent?, parent?]
  simp only [carries, hb, hp]

section

variable {β γ δ : Type} {R : β → γ → Prop} {S : γ → δ → Prop} {T : β → δ → Prop}

theorem forall₂_comp {bs : List β} {cs : List γ} {ds : List δ}
    (h : ∀ b c d, R b c → S c d → T b d) (hr : List.Forall₂ R bs cs)
    (hs : List.Forall₂ S cs ds) : List.Forall₂ T bs ds := by
  induction hr generalizing ds with
  | nil =>
    cases hs
    exact .nil
  | cons hbc _ ih =>
    cases hs with
    | cons hcd hs => exact .cons (h _ _ _ hbc hcd) (ih hs)

end

namespace Reordered

theorem getElem? (h : Reordered ds es order) (hk : order[k]? = some i) : es[k]? = ds[i]? := by
  obtain ⟨hlt, rfl⟩ := List.getElem?_eq_some_iff.mp hk
  have hlt' : k < es.length := h.listed.length_eq ▸ hlt
  have hd : ds[order[k]]? = some es[k] := h.listed.get hlt hlt'
  rw [hd, List.getElem?_eq_getElem hlt']

theorem exists_of_lt (h : Reordered ds es order) (hi : i < ds.length) :
    ∃ k : Nat, order[k]? = some i :=
  List.mem_iff_getElem?.mp (h.perm.mem_iff.mpr (List.mem_range.mpr hi))

theorem exists_place (h : Reordered ds es order) (hk : k < es.length) :
    ∃ i, order[k]? = some i :=
  ⟨_, List.getElem?_eq_getElem (h.listed.length_eq ▸ hk)⟩

theorem le_iff (h : Reordered ds es order) {d e : Located α} (hk : order[k]? = some i)
    (hl : order[l]? = some j) (hd : ds[i]? = some d) (he : ds[j]? = some e)
    (hp : parent? ds d = parent? ds e) : k ≤ l ↔ i ≤ j := by
  obtain ⟨hklt, hki⟩ := List.getElem?_eq_some_iff.mp hk
  obtain ⟨hllt, hlj⟩ := List.getElem?_eq_some_iff.mp hl
  have hpairs := List.pairwise_iff_getElem.mp h.siblings
  obtain hlt | rfl | hgt := Nat.lt_trichotomy k l
  · have hij := hpairs k l hklt hllt hlt d e (hki ▸ hd) (hlj ▸ he) hp
    omega
  · have hij : i = j := hki.symm.trans hlj
    omega
  · have hji := hpairs l k hllt hklt hgt e d (hlj ▸ he) (hki ▸ hd) hp.symm
    omega

theorem isParent_iff (h : Reordered ds es order) (hk : order[k]? = some i)
    (hl : order[l]? = some j) : IsParent es l k ↔ IsParent ds j i := by
  have hdi := h.getElem? hk
  have hdj := h.getElem? hl
  constructor
  · rintro ⟨⟨d, hub, hd, hhub, hangs⟩, hfirst⟩
    rw [hdi] at hd
    rw [hdj] at hhub
    refine ⟨⟨d, hub, hd, hhub, hangs⟩, fun d' e m hd' he hoff => ?_⟩
    -- all that come into question as the parent are siblings, so their order is the same
    obtain ⟨n, hn⟩ := h.exists_of_lt (List.getElem?_eq_some_iff.mp he).1
    have hle := hfirst d' e n (hdi.trans hd') ((h.getElem? hn).trans he) hoff
    obtain rfl := Option.some.inj (hd.symm.trans hd')
    exact (h.le_iff hl hn hhub he (hangs.siblings hoff)).mp hle
  · rintro ⟨⟨d, hub, hd, hhub, hangs⟩, hfirst⟩
    refine ⟨⟨d, hub, hdi.trans hd, hdj.trans hhub, hangs⟩, fun d' e n hd' he hoff => ?_⟩
    obtain ⟨m, hm⟩ := h.exists_place (List.getElem?_eq_some_iff.mp he).1
    rw [hdi] at hd'
    rw [h.getElem? hm] at he
    have hle := hfirst d' e m hd' he hoff
    obtain rfl := Option.some.inj (hd.symm.trans hd')
    exact (h.le_iff hl hm hhub he (hangs.siblings hoff)).mpr hle

theorem isRoot_iff (h : Reordered ds es order) (hk : order[k]? = some i) :
    IsRoot es k ↔ IsRoot ds i := by
  have hd := h.getElem? hk
  have hlt : k < es.length ↔ i < ds.length := by
    rw [← Nat.not_le, ← Nat.not_le, ← List.getElem?_eq_none_iff, hd, List.getElem?_eq_none_iff]
  refine and_congr hlt ⟨fun hroot j hj => ?_, fun hroot l hl => ?_⟩
  · obtain ⟨_, _, _, hhub, _⟩ := hj.hangs
    obtain ⟨l, hl⟩ := h.exists_of_lt (List.getElem?_eq_some_iff.mp hhub).1
    exact hroot l ((h.isParent_iff hk hl).mpr hj)
  · obtain ⟨_, _, _, hhub, _⟩ := hl.hangs
    obtain ⟨j, hj⟩ := h.exists_place (List.getElem?_eq_some_iff.mp hhub).1
    exact hroot j ((h.isParent_iff hk hj).mp hl)

/-- What is said of places with one parent enumerates the same devices in both lists. -/
theorem enumerates {P Q : Nat → Prop} {is ks : List Nat} (h : Reordered ds es order)
    (parent : Option Nat) (hQ : ∀ k i, order[k]? = some i → (Q k ↔ P i))
    (hlt : ∀ k, Q k → k < es.length)
    (hP : ∀ i, P i → ∃ d, ds[i]? = some d ∧ parent? ds d = parent)
    (hi : Enumerates P is) (hk : Enumerates Q ks) :
    List.Forall₂ (fun k i => order[k]? = some i) ks is := by
  have hplace : ∀ k ∈ ks, order[k]? = some (order.getD k 0) := by
    intro k hmem
    obtain ⟨i, hi⟩ := h.exists_place (hlt k ((hk.2 k).mp hmem))
    rw [hi, List.getD_eq_getElem?_getD, hi, Option.getD_some]
  -- there is one enumeration only, so it is enough that the places of the one list, carried over
  -- to the other, are one
  have henum : Enumerates P (ks.map (order.getD · 0)) := by
    refine ⟨List.pairwise_map.mpr (hk.1.imp_of_mem ?_), fun i => ?_⟩
    · intro k l hkmem hlmem hkl
      obtain ⟨d, hd, hpd⟩ := hP _ ((hQ k _ (hplace k hkmem)).mp ((hk.2 k).mp hkmem))
      obtain ⟨e, he, hpe⟩ := hP _ ((hQ l _ (hplace l hlmem)).mp ((hk.2 l).mp hlmem))
      have hle := h.le_iff (hplace l hlmem) (hplace k hkmem) he hd (hpe.trans hpd.symm)
      omega
    · rw [List.mem_map]
      constructor
      · rintro ⟨k, hmem, rfl⟩
        exact (hQ k _ (hplace k hmem)).mp ((hk.2 k).mp hmem)
      · intro hPi
        obtain ⟨d, hd, -⟩ := hP i hPi
        obtain ⟨k, hki⟩ := h.exists_of_lt (List.getElem?_eq_some_iff.mp hd).1
        refine ⟨k, (hk.2 k).mpr ((hQ k i hki).mpr hPi), ?_⟩
        rw [List.getD_eq_getElem?_getD, hki, Option.getD_some]
  rw [hi.unique henum, List.forall₂_map_right_iff, List.forall₂_same]
  exact hplace

theorem children (h : Reordered ds es order) (hk : order[k]? = some i) {is ks : List Nat}
    (hi : Enumerates (IsParent ds i) is) (hks : Enumerates (IsParent es k) ks) :
    List.Forall₂ (fun k i => order[k]? = some i) ks is := by
  refine h.enumerates (some i) (fun l j hl => h.isParent_iff hl hk) ?_ ?_ hi hks
  · rintro l ⟨⟨d, _, hd, -⟩, -⟩
    exact (List.getElem?_eq_some_iff.mp hd).1
  · intro j hj
    obtain ⟨d, _, hd, -⟩ := hj.hangs
    exact ⟨d, hd, (Usb.isParent_iff hd).mp hj⟩

theorem roots (h : Reordered ds es order) {is ks : List Nat} (hi : Enumerates (IsRoot ds) is)
    (hk : Enumerates (IsRoot es) ks) : List.Forall₂ (fun k i => order[k]? = some i) ks is := by
  refine h.enumerates none (fun k i => h.isRoot_iff) (fun _ hroot => hroot.1) ?_ hi hk
  intro i hroot
  have hd := List.getElem?_eq_getElem hroot.1
  exact ⟨_, hd, (Usb.isRoot_iff hd).mp hroot⟩

theorem stands (h : Reordered ds es order) {n : Node α} (hn : Stands ds i n)
    (hk : order[k]? = some i) : Stands es k n := by
  induction hn generalizing k with
  | @node i d places ns hd he hlen _ ih =>
    have hchildren := h.children hk he (enumerates_children es k)
    have hbelow : List.Forall₂ (fun i n => ∀ k, order[k]? = some i → Stands es k n) places ns :=
      List.forall₂_iff_zip.mpr ⟨hlen, fun hp k hk => ih _ hp hk⟩
    have hall : List.Forall₂ (Stands es) ((hangingFrom es (some k)).map Prod.snd) ns :=
      forall₂_comp (fun k _ _ hk hn => hn k hk) hchildren hbelow
    obtain ⟨hlen', hzip⟩ := List.forall₂_iff_zip.mp hall
    exact .node ((h.getElem? hk).trans hd) (enumerates_children es k) hlen' fun _ hp => hzip hp

theorem forest_eq (h : Reordered ds es order) : forest es = forest ds := by
  obtain ⟨is, hi, hds⟩ := (forest_topology ds).roots
  obtain ⟨ks, hk, hes⟩ := (forest_topology es).roots
  have hmoved : List.Forall₂ (Stands es) ks (forest ds) := by
    refine forall₂_comp ?_ (h.roots hi hk) hds
    intro k i n hki hn
    exact h.stands hn hki
  exact eq_of_forall₂ (fun _ _ _ hn hm => hn.unique hm) hes hmoved

end Reordered

section Tags

theorem parent?_tagged (ds : List (Located α)) (d : Located α) :
    parent? (ds.map tagged) d.tagged = parent? ds d := by
  rw [parent?, parent?, List.findIdx?_map]
  rfl

theorem hangingFrom_tagged (ds : List (Located α)) (parent : Option Nat) :
    hangingFrom (ds.map tagged) parent = (hangingFrom ds parent).map (Prod.map tagged id) := by
  rw [hangingFrom, hangingFrom, List.zipIdx_map, List.filter_map]
  congr 1
  refine List.filter_congr fun d _ => ?_
  rw [Function.comp_apply, Prod.map_fst, parent?_tagged]

theorem levels_tagged (ds : List (Located α)) : levels (ds.map tagged) = levels ds := by
  rw [levels, levels, List.map_map]
  rfl

theorem visit_tagged (m : Nat) (t : List Nat) (d : Located α × Nat) :
    (visit (ds.map tagged) m t (Prod.map tagged id d)).map Prod.fst =
      (visit ds m t d).map Prod.fst := by
  induction m generalizing t d with
  | zero => rfl
  | succ m ih =>
    rw [visit, visit, List.map_cons, List.map_cons, List.map_flatMap, List.map_flatMap,
      hangingFrom_tagged, List.flatMap_map]
    simp only [ih, Prod.map_snd, id]

theorem walk_tagged (ds : List (Located α)) : walk (ds.map tagged) = walk ds := by
  have htrails : (tour (ds.map tagged)).map Prod.fst = (tour ds).map Prod.fst := by
    rw [tour, tour, hangingFrom_tagged, levels_tagged, List.map_flatMap, List.map_flatMap,
      List.flatMap_map]
    simp only [visit_tagged]
  have hwalk : ∀ {β : Type} (ds : List (Located β)),
      walk ds = ((tour ds).map Prod.fst).map Trail.place := fun ds => by rw [List.map_map]; rfl
  rw [hwalk, hwalk, htrails]

end Tags

theorem Trail.lt_of_siblings {d e : Located α} {t u : List Nat} (hi : Trail ds i t)
    (hj : Trail ds j u) (hd : ds[i]? = some d) (he : ds[j]? = some e)
    (hp : parent? ds d = parent? ds e) (hlt : i < j) : t < u := by
  cases hi with
  | root hd' hroot =>
    obtain rfl := Option.some.inj (hd.symm.trans hd')
    cases hj with
    | root _ _ => exact List.cons_lt_cons_iff.mpr (.inl hlt)
    | under he' hunder _ =>
      obtain rfl := Option.some.inj (he.symm.trans he')
      cases (hroot.symm.trans hp).trans hunder
  | under hd' hunder ht =>
    obtain rfl := Option.some.inj (hd.symm.trans hd')
    cases hj with
    | root he' hroot =>
      obtain rfl := Option.some.inj (he.symm.trans he')
      cases (hunder.symm.trans hp).trans hroot
    | under he' hunder' hu =>
      obtain rfl := Option.some.inj (he.symm.trans he')
      obtain rfl := Option.some.inj ((hunder.symm.trans hp).trans hunder')
      rw [ht.unique hu]
      exact List.append_left_lt (List.cons_lt_cons_iff.mpr (.inl hlt))

theorem walk_siblings (ds : List (Located α)) : (walk ds).Pairwise fun i j => ∀ d e,
    ds[i]? = some d → ds[j]? = some e → parent? ds d = parent? ds e → i < j := by
  rw [walk, List.pairwise_map]
  refine (tour_ordered ds).imp_of_mem ?_
  intro x y hx hy hlt d e hd he hp
  obtain ⟨i, _, -, hi, -⟩ := tour_shows hx
  obtain ⟨j, _, -, hj, -⟩ := tour_shows hy
  rw [hi.place_eq] at hd ⊢
  rw [hj.place_eq] at he ⊢
  obtain hij | rfl | hji := Nat.lt_trichotomy i j
  · exact hij
  · rw [hi.unique hj] at hlt
    exact absurd hlt (List.lt_irrefl _)
  · exact absurd (Trail.lt_of_siblings hj hi he hd hp.symm hji) (List.lt_asymm hlt)

theorem walk_relisted (ds : List (Located α)) :
    List.Forall₂ (fun i d => ds[i]? = some d) (walk ds) (relisted ds) := by
  rw [← walk_tagged, walk, relisted, ← tour_nodes, List.map_map, List.forall₂_map_left_iff,
    List.forall₂_map_right_iff, List.forall₂_same]
  intro x hx
  obtain ⟨i, d, hd, ht, children, hn⟩ := tour_shows hx
  rw [List.getElem?_map] at hd
  obtain ⟨e, he, rfl⟩ := Option.map_eq_some_iff.mp hd
  rw [ht.place_eq, he, Function.comp_apply, hn]
  rfl

example : (relisted [⟨1, [2, 1], 1, 1, "camera"⟩, ⟨1, [2], 1, 1, "hub"⟩, ⟨1, [2], 1, 1, "twin"⟩]).map
    Located.path = [[2], [2, 1], [2]] := by decide

theorem walk_stands (ds : List (Located α)) :
    List.Forall₂ (Stands ds) (walk ds) (Node.preorderIn (forest ds)) := by
  rw [walk, ← tour_nodes, List.forall₂_map_left_iff, List.forall₂_map_right_iff,
    List.forall₂_same]
  exact fun x hx => tour_stands hx

theorem relisted_reordered (ds : List (Located α)) : Reordered ds (relisted ds) (walk ds) :=
  ⟨tour_places ds, walk_relisted ds, walk_siblings ds⟩

theorem forest_relisted (ds : List (Located α)) :
    (∃ places, places.Perm (List.range ds.length) ∧
      List.Forall₂ (Stands ds) places (Node.preorderIn (forest ds)) ∧
      List.Forall₂ (fun i d => ds[i]? = some d) places (relisted ds)) ∧
    forest (relisted ds) = forest ds ∧
    ∀ vendor product, Node.findIn? vendor product (forest (relisted ds)) =
      Node.findIn? vendor product (forest ds) := by
  have hforest := (relisted_reordered ds).forest_eq
  refine ⟨⟨walk ds, tour_places ds, walk_stands ds, walk_relisted ds⟩, hforest, ?_⟩
  intro vendor product
  rw [hforest]

end LabelPrinter.Usb

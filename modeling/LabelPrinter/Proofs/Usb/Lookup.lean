import LabelPrinter.Proofs.Usb.Forest

/-!
The search for a printer finds one if there is one, and of several the one that a walk through the
forest meets first.
-/

namespace LabelPrinter.Usb

variable {α : Type} {ds : List (Located α)} {vendor : Nat} {product : Option Nat}

/-- Without a product any device of the vendor matches. -/
def Located.Matches (vendor : Nat) (product : Option Nat) (d : Located α) : Prop :=
  d.vendor = vendor ∧ ∀ p ∈ product, p = d.product

namespace Node

mutual

theorem find?_eq (vendor : Nat) (product : Option Nat) (n : Node α) :
    find? vendor product n = n.preorder.find? (isPrinter vendor product) := by
  cases n with
  | mk v p device children =>
    rw [find?, preorder, List.find?_cons, findIn?_eq vendor product children]
    split_ifs with h
    · rw [h]
    · simp [h]

theorem findIn?_eq (vendor : Nat) (product : Option Nat) (ns : List (Node α)) :
    findIn? vendor product ns = (preorderIn ns).find? (isPrinter vendor product) := by
  cases ns with
  | nil => rfl
  | cons n ns =>
    rw [findIn?, preorderIn, List.find?_append, find?_eq vendor product n,
      findIn?_eq vendor product ns]
    cases n.preorder.find? (isPrinter vendor product) <;> rfl

end

theorem Shows.isPrinter_iff {n : Node α} {d : Located α} (h : n.Shows d) :
    isPrinter vendor product n = true ↔ d.Matches vendor product := by
  obtain ⟨children, rfl⟩ := h
  cases product <;> simp [isPrinter, Located.Matches]

end Node

theorem findIn?_forest (ds : List (Located α)) (vendor : Nat) (product : Option Nat) :
    Node.findIn? vendor product (forest ds) =
      ((tour ds).find? fun x => Node.isPrinter vendor product x.2).map Prod.snd := by
  rw [Node.findIn?_eq, ← tour_nodes, List.find?_map]
  rfl

theorem tour_of_trail {i : Nat} {t : List Nat} {d : Located α} (hd : ds[i]? = some d)
    (ht : Trail ds i t) : ∃ n, (t, n) ∈ tour ds ∧ n.Shows d := by
  obtain ⟨n, hn⟩ := tour_complete ht
  obtain ⟨j, e, he, hu, hshows⟩ := tour_shows hn
  -- a trail ends with the device that it leads to
  obtain rfl : i = j := Option.some.inj (ht.getLast?.symm.trans hu.getLast?)
  obtain rfl := Option.some.inj (hd.symm.trans he)
  exact ⟨n, hn, hshows⟩

/-- The node shows this device, and nothing that matches is met before it or stands on the way to
it. -/
structure Found (ds : List (Located α)) (vendor : Nat) (product : Option Nat) (n : Node α)
    (i : Nat) (d : Located α) (t : List Nat) : Prop where
  listed : ds[i]? = some d
  shown : n.Shows d
  fits : d.Matches vendor product
  trail : Trail ds i t
  first : ∀ j e u, ds[j]? = some e → e.Matches vendor product → Trail ds j u → ¬u < t
  above : ∀ j ∈ t.dropLast, ∀ e, ds[j]? = some e → ¬e.Matches vendor product

/-- What the search comes to for one vendor and product. -/
structure FindsFirst (ds : List (Located α)) (vendor : Nat) (product : Option Nat) : Prop where
  complete : (Node.findIn? vendor product (forest ds)).isSome ↔
    ∃ d ∈ ds, d.Matches vendor product
  in_preorder : Node.findIn? vendor product (forest ds) =
    (Node.preorderIn (forest ds)).find? (Node.isPrinter vendor product)
  found : ∀ n ∈ Node.findIn? vendor product (forest ds), ∃ i d t, Found ds vendor product n i d t

theorem first_of_find {x : List Nat × Node α}
    (h : (tour ds).find? (fun x => Node.isPrinter vendor product x.2) = some x) {j : Nat}
    {e : Located α} {u : List Nat} (he : ds[j]? = some e) (hm : e.Matches vendor product)
    (hu : Trail ds j u) : ¬ u < x.1 := by
  obtain ⟨-, before, after, htour, hbefore⟩ := List.find?_eq_some_iff_append.mp h
  obtain ⟨n, hn, hshows⟩ := tour_of_trail he hu
  have hprinter := hshows.isPrinter_iff.mpr hm
  have hsorted := tour_ordered ds
  rw [htour] at hn hsorted
  intro hlt
  obtain hn | hn := List.mem_append.mp hn
  · exact absurd (hbefore _ hn) (by simp [hprinter])
  · obtain rfl | hn := List.mem_cons.mp hn
    · exact List.lt_irrefl _ hlt
    · have hgt := (List.pairwise_cons.mp (List.pairwise_append.mp hsorted).2.1).1 _ hn
      exact List.lt_asymm hlt hgt

theorem found_of_find {t : List Nat} {n : Node α}
    (h : (tour ds).find? (fun x => Node.isPrinter vendor product x.2) = some (t, n)) :
    ∃ i d, Found ds vendor product n i d t := by
  have hprinter := List.find?_some h
  obtain ⟨i, d, hd, ht, hshows⟩ := tour_shows (List.mem_of_find?_eq_some h)
  refine ⟨i, d, hd, hshows, hshows.isPrinter_iff.mp hprinter, ht, ?_, ?_⟩
  · exact fun j e u he hm hu => first_of_find h he hm hu
  · intro j hj e he hm
    obtain ⟨w, hw, hlt⟩ := ht.above hj
    exact first_of_find h he hm hw hlt

theorem search_finds_first (ds : List (Located α)) (vendor : Nat) (product : Option Nat) :
    FindsFirst ds vendor product := by
  have hfound : ∀ n ∈ Node.findIn? vendor product (forest ds),
      ∃ i d t, Found ds vendor product n i d t := by
    intro n hn
    rw [findIn?_forest] at hn
    obtain ⟨⟨t, n⟩, hfind, rfl⟩ := Option.map_eq_some_iff.mp hn
    obtain ⟨i, d, hf⟩ := found_of_find hfind
    exact ⟨i, d, t, hf⟩
  refine ⟨⟨fun h => ?_, ?_⟩, Node.findIn?_eq vendor product (forest ds), hfound⟩
  · obtain ⟨n, hn⟩ := Option.isSome_iff_exists.mp h
    obtain ⟨i, d, t, hf⟩ := hfound n hn
    exact ⟨d, List.mem_of_getElem? hf.listed, hf.fits⟩
  · rintro ⟨d, hd, hm⟩
    obtain ⟨i, hi⟩ := List.mem_iff_getElem?.mp hd
    obtain ⟨t, ht⟩ := Trail.exists_of_getElem? hi
    obtain ⟨n, hn, hshows⟩ := tour_of_trail hi ht
    rw [findIn?_forest, Option.isSome_map, List.find?_isSome]
    exact ⟨_, hn, hshows.isPrinter_iff.mpr hm⟩

end LabelPrinter.Usb

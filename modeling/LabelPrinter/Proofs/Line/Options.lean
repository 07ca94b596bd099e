import LabelPrinter.Proofs.Line.Fields

/-!
Optional fields in a fixed order. Each has its own first character, so that what is absent is known
from what comes next.
-/

namespace LabelPrinter

def Part.head? : Part → Option Char
  | .field s => s.toList.head?
  | _ => none

/-- No parts, or as many as `width`, the first of them begun by the tag. -/
def Optional (tag : Char) (width : Nat) (e : List Part) : Prop :=
  e = [] ∨ e.length = width ∧ ∃ p ∈ e.head?, p.head? = some tag

theorem optional_given {α : Type} {o : Option α} {f : α → Part} {tag : Char}
    (h : ∀ a, (f a).head? = some tag) : Optional tag 1 (given o f) := by
  cases o with
  | none => exact .inl rfl
  | some a => exact .inr ⟨rfl, f a, rfl, h a⟩

theorem tagged_head {t : String} {c : Char} (ht : t.toList.head? = some c) (n : Nat) :
    (Part.tagged t n).head? = some c := by
  have hs : (t ++ n.repr).toList = t.toList ++ n.repr.toList := String.toList_append
  rw [Part.tagged, Part.head?, hs, List.head?_append, ht]
  rfl

namespace Part.Plain

variable {marks tags : List Char} {p : Part}

theorem mono (h : p.Plain marks) (ht : tags ⊆ marks) : p.Plain tags := by
  obtain ⟨s, rfl⟩ := h.isField
  obtain ⟨hs, c, hc, hm⟩ := h
  exact ⟨hs, c, hc, fun hmem => hm (ht hmem)⟩

theorem head_ne {tag : Char} (h : p.Plain marks) (ht : p.head? = some tag) : tag ∉ marks := by
  obtain ⟨s, rfl⟩ := h.isField
  obtain ⟨-, c, hc, hm⟩ := h
  obtain rfl : c = tag := Option.some.inj (hc.symm.trans ht)
  exact hm

end Part.Plain

variable {table : List (Char × Nat)} {es fs : List (List Part)} {r u : List Part}

theorem tag_of_flatten_head (he : List.Forall₂ (fun t e => Optional t.1 t.2 e) table es) {p : Part}
    (hp : p ∈ es.flatten.head?) : ∃ t ∈ table.map Prod.fst, p.head? = some t := by
  induction he with
  | nil => cases hp
  | @cons t e table es h _ ih =>
    rw [List.flatten_cons] at hp
    rcases h with rfl | ⟨-, q, hq, ht⟩
    · obtain ⟨t', ht', h'⟩ := ih hp
      exact ⟨t', List.mem_cons_of_mem _ ht', h'⟩
    · rw [List.head?_append, Option.mem_def.mp hq] at hp
      obtain rfl : q = p := Option.some.inj hp
      exact ⟨t.1, List.mem_cons_self, ht⟩

theorem flatten_ne_of_tag {tag : Char} (hn : tag ∉ table.map Prod.fst)
    (he : List.Forall₂ (fun t e => Optional t.1 t.2 e) table es)
    (hr : ∀ p ∈ r.head?, p.Plain (tag :: table.map Prod.fst)) {e rest : List Part}
    (ht : ∃ p ∈ e.head?, p.head? = some tag) : es.flatten ++ r ≠ e ++ rest := by
  intro h
  obtain ⟨p, hp, htag⟩ := ht
  have hhead : p ∈ (es.flatten ++ r).head? := by
    rw [h, List.head?_append, Option.mem_def.mp hp]
    rfl
  rw [List.head?_append, Option.mem_def, Option.or_eq_some_iff] at hhead
  rcases hhead with hmem | ⟨-, hmem⟩
  · obtain ⟨t, hmt, hpt⟩ := tag_of_flatten_head he hmem
    exact hn (Option.some.inj (htag.symm.trans hpt) ▸ hmt)
  · exact absurd List.mem_cons_self ((hr p hmem).head_ne htag)

/-- Which options are present, and with what, is read back from all their parts in a row, up to a
field that none of the tags begins. -/
theorem options_cancel (hn : (table.map Prod.fst).Nodup)
    (he : List.Forall₂ (fun t e => Optional t.1 t.2 e) table es)
    (hf : List.Forall₂ (fun t e => Optional t.1 t.2 e) table fs)
    (hr : ∀ p ∈ r.head?, p.Plain (table.map Prod.fst))
    (hu : ∀ p ∈ u.head?, p.Plain (table.map Prod.fst))
    (h : es.flatten ++ r = fs.flatten ++ u) : es = fs ∧ r = u := by
  induction he generalizing fs with
  | nil =>
    cases hf
    exact ⟨rfl, h⟩
  | @cons t e table es h1 he ih =>
    cases hf with
    | @cons _ f _ fs h2 hf =>
      have hr' : ∀ p ∈ r.head?, p.Plain (table.map Prod.fst) :=
        fun p hp => (hr p hp).mono (List.subset_cons_self _ _)
      have hu' : ∀ p ∈ u.head?, p.Plain (table.map Prod.fst) :=
        fun p hp => (hu p hp).mono (List.subset_cons_self _ _)
      rw [List.map_cons, List.nodup_cons] at hn
      rw [List.flatten_cons, List.flatten_cons, List.append_assoc, List.append_assoc] at h
      rcases h1 with rfl | ⟨hl1, ht1⟩ <;> rcases h2 with rfl | ⟨hl2, ht2⟩
      · obtain ⟨rfl, rfl⟩ := ih hn.2 hf hr' hu' h
        exact ⟨rfl, rfl⟩
      · exact (flatten_ne_of_tag hn.1 he hr ht2 h).elim
      · exact (flatten_ne_of_tag hn.1 hf hu ht1 h.symm).elim
      · obtain ⟨rfl, hrest⟩ := List.append_inj h (hl1.trans hl2.symm)
        obtain ⟨rfl, rfl⟩ := ih hn.2 hf hr' hu' hrest
        exact ⟨rfl, rfl⟩

theorem options_inj (hn : (table.map Prod.fst).Nodup)
    (he : List.Forall₂ (fun t e => Optional t.1 t.2 e) table es)
    (hf : List.Forall₂ (fun t e => Optional t.1 t.2 e) table fs)
    (h : es.flatten = fs.flatten) : es = fs := by
  rw [← List.append_nil es.flatten, ← List.append_nil fs.flatten] at h
  exact (options_cancel hn he hf (by simp) (by simp) h).1

/-- Options told apart by their place alone, each given only behind all those before it. -/
theorem positional_inj {α : Type} {os ps : List (Option α)} (hl : os.length = ps.length)
    (ho : os.Pairwise fun a b => b.isSome → a.isSome)
    (hp : ps.Pairwise fun a b => b.isSome → a.isSome)
    (h : os.flatMap Option.toList = ps.flatMap Option.toList) : os = ps := by
  induction os generalizing ps with
  | nil => exact (List.length_eq_zero_iff.mp hl.symm).symm
  | cons o os ih =>
    obtain ⟨p, ps, rfl⟩ := List.exists_cons_of_length_eq_add_one hl.symm
    rw [List.pairwise_cons] at ho hp
    have absent : ∀ qs : List (Option α), (∀ q ∈ qs, q.isSome → (none : Option α).isSome) →
        qs.flatMap Option.toList = [] := by
      intro qs hq
      rw [List.flatMap_eq_nil_iff]
      intro q hmem
      cases q with
      | none => rfl
      | some b => exact absurd (hq _ hmem rfl) (by simp)
    rw [List.flatMap_cons, List.flatMap_cons] at h
    cases o with
    | none =>
      cases p with
      | none => rw [ih (Nat.succ.inj hl) ho.2 hp.2 h]
      | some b =>
        rw [absent os ho.1] at h
        cases h
    | some a =>
      cases p with
      | none =>
        rw [absent ps hp.1] at h
        cases h
      | some b =>
        obtain ⟨rfl, hrest⟩ := List.cons.inj h
        rw [ih (Nat.succ.inj hl) ho.2 hp.2 hrest]

end LabelPrinter

import LabelPrinter.Proofs.Command.Decoding.Symbol

/-!
TLC39 and PDF417 symbols read back from their lines.
-/

namespace LabelPrinter

open Number LabelPrinter.Part Line

variable {l m : Line}

namespace Tlc39

def sizes (c : Tlc39) : List (Option Part) :=
  [c.height.map .nat, c.narrow.map .nat, c.wide.map .nat, c.cellWidth.map .nat,
    c.cellHeight.map .nat]

theorem InOrder.sizes {c : Tlc39} (h : c.InOrder) :
    c.sizes.Pairwise fun a b => b.isSome → a.isSome := by
  obtain ⟨hn, hw, hcw, hch⟩ := h
  simp only [Tlc39.sizes, List.pairwise_cons, List.mem_cons, List.not_mem_nil, or_false,
    forall_eq_or_imp, forall_eq, Option.isSome_map, IsEmpty.forall_iff, implies_true,
    List.Pairwise.nil, and_true]
  grind

theorem extra_inj {c d : Tlc39} (h : c.extra = d.extra) : c.additional = d.additional := by
  rw [extra, extra] at h
  cases ha : c.additional <;> cases hb : d.additional <;> simp [ha, hb] at h ⊢
  exact h

theorem stops_extra (c : Tlc39) : Stops (· ≠ ',') c.extra.toList := by
  rw [extra]
  split
  · next a _ =>
    rw [String.toList_append]
    exact stops_here
  · exact stops_nil

theorem line_inj {c d : Tlc39} (hsc : ∀ s ∈ c.serial, ',' ∉ s.toList)
    (hsd : ∀ s ∈ d.serial, ',' ∉ s.toList) (hc : c.line = .ok l) (hd : d.line = .ok m)
    (h : l.text = m.text) : c = d := by
  obtain ⟨x, y, r, e, s, ec, hoc, -, rfl⟩ := line_eq_ok.mp hc
  obtain ⟨x', y', r', e', s', ed, hod, -, rfl⟩ := line_eq_ok.mp hd
  obtain ⟨hp, ht⟩ := of_quoted_inj (by simp) (by simp) (by simp [or_imp, forall_and, plain_nat])
    (by simp [or_imp, forall_and, plain_nat]) h
  simp only [List.append_assoc, List.cons_append, List.nil_append, List.cons.injEq, nat_inj,
    Rotation.degrees_inj] at hp
  obtain ⟨rfl, rfl, rfl, hrest⟩ := hp
  have hsizes : c.sizes = d.sizes :=
    positional_inj rfl hoc.sizes hod.sizes (by simpa [sizes, given] using hrest)
  have htext : e.repr.toList ++ ',' :: (s.toList ++ c.extra.toList) =
      e'.repr.toList ++ ',' :: (s'.toList ++ d.extra.toList) := by
    simpa using congrArg String.toList ht
  obtain ⟨rfl, hserial⟩ := repr_peel (stops_cons (by decide)) (stops_cons (by decide)) htext
  obtain ⟨hs, hx⟩ := peel_until (hsc s (by rw [ec]; rfl)) (hsd s' (by rw [ed]; rfl))
    c.stops_extra d.stops_extra (List.cons.inj hserial).2
  have hadd := extra_inj (String.toList_inj.mp hx)
  have hmap : ∀ a b : Option Nat, a.map Part.nat = b.map Part.nat → a = b :=
    fun a b hab => Option.map_injective (fun i j => nat_inj.mp) hab
  simp only [sizes, List.cons.injEq, and_true] at hsizes
  obtain ⟨h1, h2, h3, h4, h5⟩ := hsizes
  rw [ec, ed, String.toList_inj.mp hs, hadd, hmap _ _ h1, hmap _ _ h2, hmap _ _ h3, hmap _ _ h4,
    hmap _ _ h5]

end Tlc39

namespace Pdf417

/-- The options in front of the length, the place of a caption taken as three fields. -/
def options (c : Pdf417) : List (List Part) :=
  [given c.compression (.tagged "P"), given c.errorLevel (.tagged "E"),
    given c.centerPattern (.tagged "M"),
    c.humanReadable.elim [] fun u => [.tagged "U" u.1, .nat u.2.1, .nat u.2.2],
    given c.moduleWidth (.tagged "W"), given c.barHeight (.tagged "H"),
    given c.maxRows (.tagged "R"), given c.maxCols (.tagged "C"),
    given c.truncated (fun t => .tagged "T" t.toNat)]

theorem options_tagged (c : Pdf417) : List.Forall₂ (fun t e => Optional t.1 t.2 e)
    [('P', 1), ('E', 1), ('M', 1), ('U', 3), ('W', 1), ('H', 1), ('R', 1), ('C', 1), ('T', 1)]
    c.options := by
  have caption : Optional 'U' 3
      (c.humanReadable.elim [] fun u => [.tagged "U" u.1, .nat u.2.1, .nat u.2.2]) := by
    cases c.humanReadable with
    | none => exact .inl rfl
    | some u => exact .inr ⟨rfl, _, rfl, tagged_head rfl _⟩
  repeat' apply List.Forall₂.cons
  any_goals exact optional_given fun _ => tagged_head rfl _
  · exact caption
  · exact .nil

theorem plain_options (c : Pdf417) : ∀ p ∈ c.options.flatten, p.Plain ['"', 'L'] := by
  have caption : ∀ p ∈ c.humanReadable.elim [] fun u =>
      [Part.tagged "U" u.1, .nat u.2.1, .nat u.2.2], p.Plain ['"', 'L'] := by
    cases c.humanReadable <;> simp [plain_nat, plain_tagged]
  simp [options, or_imp, forall_and, plain_tagged]
  exact caption

theorem caption_later (u : Nat × Nat × Nat) : (captionPlace u).later =
    [.tagged "U" u.1, .nat u.2.1, .nat u.2.2].flatMap later := by
  simp [captionPlace, later, tagged, nat]

theorem later_parts (c : Pdf417) (ps : List Part) (content : String) :
    (ps ++ given c.compression (.tagged "P") ++ given c.errorLevel (.tagged "E") ++
      given c.centerPattern (.tagged "M") ++ given c.humanReadable captionPlace ++
      given c.moduleWidth (.tagged "W") ++ given c.barHeight (.tagged "H") ++
      given c.maxRows (.tagged "R") ++ given c.maxCols (.tagged "C") ++
      given c.truncated (fun t => .tagged "T" t.toNat) ++
      given c.expressionLength (.tagged "L") ++ [c.contentPart content]).flatMap later =
    (ps ++ c.options.flatten).flatMap later ++
      (sized c.expressionLength content).flatMap later := by
  have hcaption : (given c.humanReadable captionPlace).flatMap later =
      (c.humanReadable.elim [] fun u => [.tagged "U" u.1, .nat u.2.1, .nat u.2.2]).flatMap
        later := by
    cases c.humanReadable with
    | none => rfl
    | some u =>
      rw [Option.elim_some, ← caption_later]
      exact List.append_nil _
  have hcontent : given c.expressionLength (.tagged "L") ++ [c.contentPart content] =
      sized c.expressionLength content := by
    rw [contentPart]
    cases c.expressionLength <;> rfl
  rw [List.append_assoc, List.flatMap_append, hcontent]
  simp only [options, List.flatten_cons, List.flatten_nil, List.append_nil, List.flatMap_append,
    hcaption, List.append_assoc]

theorem eq_of_options {c d : Pdf417} (h : c.options = d.options) :
    c.compression = d.compression ∧ c.errorLevel = d.errorLevel ∧
      c.centerPattern = d.centerPattern ∧ c.humanReadable = d.humanReadable ∧
      c.moduleWidth = d.moduleWidth ∧ c.barHeight = d.barHeight ∧ c.maxRows = d.maxRows ∧
      c.maxCols = d.maxCols ∧ c.truncated = d.truncated := by
  simp only [options, List.cons.injEq, and_true] at h
  obtain ⟨hp, he, hm, hu, hw, hh, hr, hcol, ht⟩ := h
  have caption : c.humanReadable = d.humanReadable := by
    cases hc : c.humanReadable <;> cases hd : d.humanReadable <;> simp [hc, hd] at hu ⊢
    exact Prod.ext hu.1 (Prod.ext hu.2.1 hu.2.2)
  have number : ∀ {t : String} {a b : Option Nat}, given a (.tagged t) = given b (.tagged t) →
      a = b := fun hab => given_inj (fun i j => tagged_inj.mp) hab
  exact ⟨number hp, number he, number hm, caption, number hw, number hh, number hr, number hcol,
    given_inj (fun p q => switch_inj.mp) ht⟩

theorem line_inj {c d : Pdf417} (hc : c.line = .ok l) (hd : d.line = .ok m)
    (h : l.text = m.text) : c = d := by
  obtain ⟨x, y, w, k, r, t, ec, -, rfl⟩ := line_eq_ok.mp hc
  obtain ⟨x', y', w', k', r', t', ed, -, rfl⟩ := line_eq_ok.mp hd
  have hl := later_eq_of_text h ⟨_, rfl, _, rfl⟩ ⟨_, rfl, _, rfl⟩
  rw [later_parts, later_parts] at hl
  have hp : ∀ (c : Pdf417) (a b e f g : Nat),
      ∀ p ∈ [.nat a, .nat b, .nat e, .nat f, .nat g] ++ c.options.flatten, p.Plain ['"', 'L'] := by
    intro c a b e f g p hmem
    rcases List.mem_append.mp hmem with hmem | hmem
    · have hnat : ∀ q ∈ [Part.nat a, .nat b, .nat e, .nat f, .nat g], q.Plain ['"', 'L'] := by
        simp [plain_nat]
      exact hnat p hmem
    · exact c.plain_options p hmem
  obtain ⟨hfields, hcontent⟩ := fields_cancel (hp c _ _ _ _ _) (hp d _ _ _ _ _)
    (marked_sized _ _) (marked_sized _ _) hl
  simp only [List.cons_append, List.nil_append, List.cons.injEq, nat_inj,
    Rotation.degrees_inj] at hfields
  obtain ⟨rfl, rfl, rfl, rfl, rfl, hoptions⟩ := hfields
  obtain ⟨h1, h2, h3, h4, h5, h6, h7, h8, h9⟩ :=
    eq_of_options (options_inj (by decide) c.options_tagged d.options_tagged hoptions)
  obtain ⟨hn, rfl⟩ := sized_inj hcontent
  rw [ec, ed, h1, h2, h3, h4, h5, h6, h7, h8, h9, hn]

end Pdf417

end LabelPrinter

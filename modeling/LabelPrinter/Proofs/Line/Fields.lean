import LabelPrinter.Proofs.Line.Plain

/-!
Reading the fields of a line back from its text, up to the first one that is marked as content.
-/

namespace LabelPrinter

namespace Part

/-- What follows the fields: nothing more, or a field that a mark begins. -/
def Marked (marks : List Char) (r : List Char) : Prop :=
  r = [] ∨ ∃ c ∈ marks, ∃ t, r = ',' :: c :: t

variable {marks : List Char} {p q : Part} {ps qs : List Part} {r u : List Char}

theorem stops_fields (hp : ∀ p ∈ ps, p.Plain marks) (hr : Stops (· ≠ ',') r) :
    Stops (· ≠ ',') (ps.flatMap later ++ r) := by
  cases ps with
  | nil => exact hr
  | cons p ps =>
    obtain ⟨s, rfl⟩ := (hp p List.mem_cons_self).isField
    exact stops_here

theorem Marked.stops (hr : Marked marks r) : Stops (· ≠ ',') r := by
  rcases hr with rfl | ⟨c, -, t, rfl⟩
  · exact stops_nil
  · exact stops_here

theorem plain_not_marked (hp : p.Plain marks) (hr : Marked marks r) (h : r = p.later ++ u) :
    False := by
  obtain ⟨s, rfl⟩ := hp.isField
  obtain ⟨-, c, hc, hm⟩ := hp
  obtain ⟨t, hs⟩ := List.head?_eq_some_iff.mp hc
  rw [later, hs] at h
  rcases hr with rfl | ⟨d, hd, t, rfl⟩
  · cases h
  · simp only [List.cons_append, List.cons.injEq, true_and] at h
    exact hm (h.1 ▸ hd)

theorem cons_cancel (hp : ∀ x ∈ p :: ps, x.Plain marks) (hq : ∀ x ∈ q :: qs, x.Plain marks)
    (hr : Stops (· ≠ ',') r) (hu : Stops (· ≠ ',') u)
    (h : (p :: ps).flatMap later ++ r = (q :: qs).flatMap later ++ u) :
    p = q ∧ ps.flatMap later ++ r = qs.flatMap later ++ u := by
  have hpp := hp p List.mem_cons_self
  have hqq := hq q List.mem_cons_self
  obtain ⟨s, rfl⟩ := hpp.isField
  obtain ⟨t, rfl⟩ := hqq.isField
  rw [List.flatMap_cons, List.append_assoc, List.flatMap_cons, List.append_assoc] at h
  have hps := stops_fields (fun x hx => hp x (List.mem_cons_of_mem _ hx)) hr
  have hqs := stops_fields (fun x hx => hq x (List.mem_cons_of_mem _ hx)) hu
  obtain ⟨hst, hrest⟩ := peel_until hpp.1 hqq.1 hps hqs (List.cons.inj h).2
  exact ⟨congrArg field (String.toList_inj.mp hst), hrest⟩

theorem fields_cancel_length (hp : ∀ p ∈ ps, p.Plain marks) (hq : ∀ q ∈ qs, q.Plain marks)
    (hr : Stops (· ≠ ',') r) (hu : Stops (· ≠ ',') u)
    (h : ps.flatMap later ++ r = qs.flatMap later ++ u) (hl : ps.length = qs.length) :
    ps = qs ∧ r = u := by
  induction ps generalizing qs with
  | nil =>
    obtain rfl := List.length_eq_zero_iff.mp hl.symm
    exact ⟨rfl, h⟩
  | cons p ps ih =>
    obtain ⟨q, qs, rfl⟩ := List.exists_cons_of_length_eq_add_one hl.symm
    obtain ⟨rfl, hrest⟩ := cons_cancel hp hq hr hu h
    obtain ⟨rfl, rfl⟩ := ih (fun x hx => hp x (List.mem_cons_of_mem _ hx))
      (fun x hx => hq x (List.mem_cons_of_mem _ hx)) hrest (Nat.succ.inj hl)
    exact ⟨rfl, rfl⟩

theorem fields_cancel (hp : ∀ p ∈ ps, p.Plain marks) (hq : ∀ q ∈ qs, q.Plain marks)
    (hr : Marked marks r) (hu : Marked marks u)
    (h : ps.flatMap later ++ r = qs.flatMap later ++ u) : ps = qs ∧ r = u := by
  -- a list that ends first would be followed by a mark, which no plain field begins with
  induction ps generalizing qs with
  | nil =>
    cases qs with
    | nil => exact ⟨rfl, h⟩
    | cons q qs =>
      rw [List.flatMap_cons, List.append_assoc] at h
      exact (plain_not_marked (hq q List.mem_cons_self) hr h).elim
  | cons p ps ih =>
    cases qs with
    | nil =>
      rw [List.flatMap_cons, List.append_assoc] at h
      exact (plain_not_marked (hp p List.mem_cons_self) hu h.symm).elim
    | cons q qs =>
      obtain ⟨rfl, hrest⟩ := cons_cancel hp hq hr.stops hu.stops h
      obtain ⟨rfl, rfl⟩ := ih (fun x hx => hp x (List.mem_cons_of_mem _ hx))
        (fun x hx => hq x (List.mem_cons_of_mem _ hx)) hrest
      exact ⟨rfl, rfl⟩

theorem marked_quoted (hm : '"' ∈ marks) (a : String) (ps : List Part) :
    Marked marks ((quoted a :: ps).flatMap later) := by
  refine .inr ⟨'"', hm, a.toList ++ '"' :: ps.flatMap later, ?_⟩
  simp [later, quoted, quote]

variable {a b : String} {ws us : List Part}

/-- Content between quotes at the end of a line needs no escapes to be read back. -/
theorem content_cancel (hp : ∀ p ∈ ps, p.Plain ['"']) (hq : ∀ q ∈ qs, q.Plain ['"'])
    (h : (ps ++ [quoted a]).flatMap later = (qs ++ [quoted b]).flatMap later) :
    ps = qs ∧ a = b := by
  rw [List.flatMap_append, List.flatMap_append] at h
  obtain ⟨hpq, hab⟩ := fields_cancel hp hq (marked_quoted (List.mem_singleton.mpr rfl) a [])
    (marked_quoted (List.mem_singleton.mpr rfl) b []) h
  refine ⟨hpq, String.toList_inj.mp ?_⟩
  simpa [later, quoted, quote] using hab

theorem quoted_cancel (ha : '"' ∉ a.toList) (hb : '"' ∉ b.toList)
    (h : (quoted a :: ws).flatMap later = (quoted b :: us).flatMap later) :
    a = b ∧ ws.flatMap later = us.flatMap later := by
  have ht : a.toList ++ '"' :: ws.flatMap later = b.toList ++ '"' :: us.flatMap later := by
    simpa [later, quoted, quote] using h
  obtain ⟨hab, hw⟩ := peel_until ha hb stops_here stops_here ht
  exact ⟨String.toList_inj.mp hab, (List.cons.inj hw).2⟩

/-- Content with its length in front of it, or between quotes. -/
def sized (n : Option Nat) (content : String) : List Part :=
  match n with
  | some n => [.tagged "L" n, .field content]
  | none => [.quoted content]

theorem marked_sized (n : Option Nat) (content : String) :
    Marked ['"', 'L'] ((sized n content).flatMap later) := by
  cases n with
  | none => exact marked_quoted (by simp) content []
  | some n =>
    refine .inr ⟨'L', by simp, n.repr.toList ++ ',' :: content.toList, ?_⟩
    simp [sized, later, tagged]

theorem sized_inj {n k : Option Nat} {a b : String}
    (h : (sized n a).flatMap later = (sized k b).flatMap later) : n = k ∧ a = b := by
  cases n with
  | none =>
    cases k with
    | none =>
      have ht : a.toList = b.toList := by simpa [sized, later, quoted, quote] using h
      exact ⟨rfl, String.toList_inj.mp ht⟩
    | some k => simp [sized, later, quoted, quote, tagged] at h
  | some n =>
    cases k with
    | none => simp [sized, later, quoted, quote, tagged] at h
    | some k =>
      have ht : n.repr.toList ++ ',' :: a.toList = k.repr.toList ++ ',' :: b.toList := by
        simpa [sized, later, tagged] using h
      obtain ⟨rfl, hab⟩ := repr_peel (stops_cons (by decide)) (stops_cons (by decide)) ht
      exact ⟨rfl, String.toList_inj.mp (List.cons.inj hab).2⟩

end Part

namespace Line

open LabelPrinter.Part

variable {head : String} {marks : List Char} {ps qs ws us : List Part}

theorem later_eq_of_text (h : (of head ps).text = (of head qs).text)
    (hp : ∃ p ∈ ps.head?, p.IsField) (hq : ∃ q ∈ qs.head?, q.IsField) :
    ps.flatMap later = qs.flatMap later := by
  obtain ⟨p, hps, s, rfl⟩ := hp
  obtain ⟨q, hqs, t, rfl⟩ := hq
  obtain ⟨ps, rfl⟩ := List.head?_eq_some_iff.mp hps
  obtain ⟨qs, rfl⟩ := List.head?_eq_some_iff.mp hqs
  have ht := congrArg String.toList h
  rw [of_field, of_field, List.append_assoc, List.append_assoc] at ht
  have hr := List.append_cancel_left ht
  simpa [later] using hr

theorem head_isField (h0 : ps ≠ []) (h : ∀ x ∈ ps, x.Plain marks) (ws : List Part) :
    ∃ p ∈ (ps ++ ws).head?, p.IsField := by
  obtain ⟨p, ps, rfl⟩ := List.exists_cons_of_ne_nil h0
  exact ⟨p, rfl, (h p List.mem_cons_self).isField⟩

theorem of_cancel (hp0 : ps ≠ []) (hq0 : qs ≠ []) (hp : ∀ x ∈ ps, x.Plain marks)
    (hq : ∀ x ∈ qs, x.Plain marks) (hw : Marked marks (ws.flatMap later))
    (hu : Marked marks (us.flatMap later))
    (h : (of head (ps ++ ws)).text = (of head (qs ++ us)).text) :
    ps = qs ∧ ws.flatMap later = us.flatMap later := by
  have hl := later_eq_of_text h (head_isField hp0 hp ws) (head_isField hq0 hq us)
  rw [List.flatMap_append, List.flatMap_append] at hl
  exact fields_cancel hp hq hw hu hl

theorem of_inj (hp0 : ps ≠ []) (hq0 : qs ≠ []) (hp : ∀ x ∈ ps, x.Plain [])
    (hq : ∀ x ∈ qs, x.Plain []) (h : (of head ps).text = (of head qs).text) : ps = qs := by
  rw [← List.append_nil ps, ← List.append_nil qs] at h
  exact (of_cancel hp0 hq0 hp hq (.inl rfl) (.inl rfl) h).1

theorem of_quoted_inj {a b : String} (hp0 : ps ≠ []) (hq0 : qs ≠ [])
    (hp : ∀ x ∈ ps, x.Plain ['"']) (hq : ∀ x ∈ qs, x.Plain ['"'])
    (h : (of head (ps ++ [quoted a])).text = (of head (qs ++ [quoted b])).text) :
    ps = qs ∧ a = b :=
  content_cancel hp hq (later_eq_of_text h (head_isField hp0 hp _) (head_isField hq0 hq _))

end Line

end LabelPrinter

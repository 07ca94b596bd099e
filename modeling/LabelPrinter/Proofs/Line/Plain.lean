import LabelPrinter.Proofs.Line.Peel
import LabelPrinter.Proofs.Line.Text

/-!
Fields that a reader knows the end of, and cannot take for content.
-/

namespace LabelPrinter.Part

/-- A field without a comma whose first character is no mark. -/
def Plain (marks : List Char) : Part → Prop
  | .field s => ',' ∉ s.toList ∧ ∃ c ∈ s.toList.head?, c ∉ marks
  | _ => False

variable {marks : List Char}

theorem Plain.isField {p : Part} (h : p.Plain marks) : p.IsField := by
  cases p with
  | field s => exact ⟨s, rfl⟩
  | word s => exact h.elim
  | raw s => exact h.elim

theorem digit_not_mem {c : Char} (hm : ∀ c ∈ marks, c.isDigit = false) (hc : c.isDigit = true) :
    c ∉ marks := by
  intro h
  rw [hm c h] at hc
  cases hc

theorem plain_nat (hm : ∀ c ∈ marks, c.isDigit = false) (n : Nat) : (Part.nat n).Plain marks := by
  have hd : ∀ c ∈ n.repr.toList, c.isDigit = true := fun c hc => digit_of_mem_repr hc
  refine ⟨fun h => absurd (hd _ h) (by decide), ?_⟩
  cases hl : n.repr.toList with
  | nil => exact absurd (Nat.toList_repr.symm.trans hl) Nat.toDigits_ne_nil
  | cons c l => exact ⟨c, rfl, digit_not_mem hm (hd c (hl ▸ List.mem_cons_self))⟩

theorem plain_flag (hm : ∀ c ∈ marks, c.isDigit = false) (b : Bool) : (flag b).Plain marks := by
  cases b
  · exact ⟨by decide, '0', rfl, digit_not_mem hm rfl⟩
  · exact ⟨by decide, '1', rfl, digit_not_mem hm rfl⟩

theorem plain_tagged {t : String} (ht : ',' ∉ t.toList) (hm : ∃ c ∈ t.toList.head?, c ∉ marks)
    (n : Nat) : (tagged t n).Plain marks := by
  obtain ⟨c, hc, hm⟩ := hm
  have hs : (t ++ n.repr).toList = t.toList ++ n.repr.toList := String.toList_append
  refine ⟨?_, c, ?_, hm⟩
  · rw [hs, List.mem_append]
    rintro (h | h)
    · exact ht h
    · exact absurd (digit_of_mem_repr h) (by decide)
  · rw [hs, List.head?_append, Option.mem_def.mp hc]
    rfl

theorem mem_number {x : Float} (hx : x.isFinite = true) {c : Char}
    (hc : c ∈ (LabelPrinter.number x).toList) : c.isDigit = true ∨ c = '.' ∨ c = '-' := by
  rw [Number.number_toList hx, List.mem_append] at hc
  rcases hc with hc | hc
  · rcases Number.sign_eq x with hs | hs <;> rw [hs] at hc
    · exact .inr (.inr (List.mem_singleton.mp hc))
    · cases hc
  · rcases (Number.isDecimal_unsigned x).2 c hc with h | h
    · exact .inl h
    · exact .inr (.inl h)

theorem number_ne_nil {x : Float} (hx : x.isFinite = true) :
    (LabelPrinter.number x).toList ≠ [] := by
  rw [Number.number_toList hx]
  exact List.append_ne_nil_of_right_ne_nil _ (Number.isDecimal_unsigned x).1

theorem plain_length (u : Measure) {x : Float} (hx : x.isFinite = true)
    (hm : ∀ c ∈ marks, c.isDigit = false ∧ c ≠ '.' ∧ c ≠ '-') : (u.length x).Plain marks := by
  have hs : (LabelPrinter.number x ++ u.suffix).toList =
      (LabelPrinter.number x).toList ++ u.suffix.toList := String.toList_append
  refine ⟨?_, ?_⟩
  · rw [hs, List.mem_append]
    rintro (h | h)
    · rcases mem_number hx h with h | h | h <;> exact absurd h (by decide)
    · cases u <;> exact absurd h (by decide)
  · cases hl : (LabelPrinter.number x).toList with
    | nil => exact absurd hl (number_ne_nil hx)
    | cons c l =>
      refine ⟨c, by rw [hs, hl]; rfl, fun hc => ?_⟩
      obtain ⟨h1, h2, h3⟩ := hm c hc
      rcases mem_number hx (hl ▸ List.mem_cons_self) with h | h | h
      · rw [h] at h1
        cases h1
      · exact h2 h
      · exact h3 h

theorem plain_number {x : Float} (hx : x.isFinite = true)
    (hm : ∀ c ∈ marks, c.isDigit = false ∧ c ≠ '.' ∧ c ≠ '-') : (number x).Plain marks := by
  have h : number x = Measure.english.length x :=
    congrArg Part.field (String.append_empty (s := LabelPrinter.number x)).symm
  rw [h]
  exact plain_length _ hx hm

end LabelPrinter.Part

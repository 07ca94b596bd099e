import LabelPrinter.Proofs.Template.Pieces

/-!
Filling in a template made of plain text: although the parameters are filled in one after the other,
each on what the ones before it have left, it comes to one pass over the pieces.
-/

namespace LabelPrinter.Template

variable {pieces : List Piece} {params : List (String × String)}

theorem fill_nil (template : String) : fill template [] = template := by
  rw [fill, List.foldl_nil, String.ofList_toList]

theorem toList_fill_append (template : String) (params : List (String × String))
    (p : String × String) : (fill template (params ++ [p])).toList =
      replace (placeholder p.1) p.2.toList (fill template params).toList := by
  rw [fill, fill, List.foldl_append, String.toList_ofList, String.toList_ofList]
  rfl

/-- It is enough that every single parameter fills in its own placeholders and nothing else. -/
theorem fill_written (h : ∀ before p, before ++ [p] <+: params →
      replace (placeholder p.1) p.2.toList (chars (pieces.map (·.filled before))) =
        chars ((pieces.map (·.filled before)).map (·.filled [p]))) :
    fill (written pieces) params = written (pieces.map (·.filled params)) := by
  induction params using List.reverseRecOn with
  | nil => simp [fill_nil, Piece.filled_nil]
  | append_singleton params p ih =>
    have hparams := ih fun before q hq => h before q (hq.trans (List.prefix_append params [p]))
    rw [← String.toList_inj, toList_fill_append, hparams, toList_written, toList_written,
      h params p List.prefix_rfl, List.map_map]
    simp only [Function.comp_def, Piece.filled_append]

theorem clear_of_lacking {key : String} {c : Char} (hc : c ∈ placeholder key)
    (h : ∀ p ∈ pieces, p.isLiteral → c ∉ p.text.toList) : Clear key pieces := by
  intro mid hm hall hspelled
  obtain ⟨p, hp, hcp⟩ := List.mem_flatMap.mp (hspelled.subset hc)
  exact h p (hm.subset hp) (List.all_eq_true.mp hall p hp) hcp

theorem Piece.filled_literal {p : Piece} (h : (p.filled params).isLiteral) :
    p.isLiteral ∧ p.filled params = p ∨ ∃ q ∈ params, (p.filled params).text = q.2 := by
  cases p with
  | literal s => exact .inl ⟨rfl, rfl⟩
  | placeholder key =>
    rw [filled] at h ⊢
    cases hv : params.lookup key with
    | none =>
      rw [hv] at h
      exact absurd h Bool.false_ne_true
    | some value =>
      obtain ⟨before, after, rfl, -⟩ := List.lookup_eq_some_iff.mp hv
      exact .inr ⟨(key, value), by simp, rfl⟩

/-- Neither literal text nor a value can spell a placeholder if one of the brackets is missing in
all of them. -/
theorem clear_filled {key : String} {c : Char} (hc : c ∈ placeholder key)
    (hpieces : ∀ p ∈ pieces, p.isLiteral → c ∉ p.text.toList)
    (hparams : ∀ p ∈ params, c ∉ p.2.toList) : Clear key (pieces.map (·.filled params)) := by
  apply clear_of_lacking hc
  intro q hq hliteral
  obtain ⟨p, hp, rfl⟩ := List.mem_map.mp hq
  rcases Piece.filled_literal hliteral with ⟨hl, hs⟩ | ⟨r, hr, ht⟩
  · rw [hs]
    exact hpieces p hp hl
  · rw [ht]
    exact hparams r hr

theorem Piece.Plain.opening {p : Piece} (h : p.Plain) (hl : p.isLiteral) : '<' ∉ p.text.toList := by
  cases p with
  | literal s => exact Template.Plain.opening h
  | placeholder key => exact absurd hl Bool.false_ne_true

theorem fill_simultaneous (hpieces : ∀ p ∈ pieces, p.Plain)
    (hparams : ∀ p ∈ params, Plain p.1 ∧ Plain p.2) :
    fill (written pieces) params = written (pieces.map (·.filled params)) := by
  apply fill_written
  intro before p hp
  have hbefore : ∀ q ∈ before, '<' ∉ q.2.toList := fun q hq =>
    (hparams q (hp.subset (List.mem_append_left _ hq))).2.opening
  have hclear : Clear p.1 (pieces.map (·.filled before)) :=
    clear_filled (by simp [placeholder_eq]) (fun q hq => (hpieces q hq).opening) hbefore
  have hkeyed := keyed_filled (fun q hq => (hpieces q hq).keyed) before
  exact replace_chars (hparams p (hp.subset (by simp))).1 hkeyed hclear p.2

def adjacent : List Piece :=
  [.literal "PRINT ", .placeholder "qty", .placeholder "", .placeholder "other",
    .placeholder "qty"]

/-- The second amount is of no account. -/
def amounts : List (String × String) := [("qty", "12"), ("", ","), ("qty", "7")]

theorem fill_simultaneous_adjacent :
    (∀ p ∈ adjacent, p.Plain) ∧ (∀ p ∈ amounts, Plain p.1 ∧ Plain p.2) ∧
      fill "PRINT <<<qty>>><<<>>><<<other>>><<<qty>>>" amounts = "PRINT 12,<<<other>>>12" := by
  have hpieces : ∀ p ∈ adjacent, p.Plain := by decide
  have hparams : ∀ p ∈ amounts, Plain p.1 ∧ Plain p.2 := by decide
  have hfilled : written (adjacent.map (·.filled amounts)) = "PRINT 12,<<<other>>>12" := by decide
  exact ⟨hpieces, hparams, (fill_simultaneous hpieces hparams).trans hfilled⟩

end LabelPrinter.Template

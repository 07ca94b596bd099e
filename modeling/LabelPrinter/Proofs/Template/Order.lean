import LabelPrinter.Proofs.Template.Filling
import Mathlib.Data.List.Nodup
import Mathlib.Data.List.Perm.Subperm

/-!
When the order of the parameters does not matter: exactly as long as literal text and inserted
values together never spell the placeholder of another parameter.
-/

namespace LabelPrinter.Template

variable {pieces : List Piece} {params : List (String × String)}

section Length

variable {pattern value : List Char}

theorem length_replaceFrom (hp : pattern ≠ []) (skip : Nat) (text : List Char)
    (hskip : skip ≤ text.length) : ∃ n, (replaceFrom pattern value skip text).length + skip +
      n * pattern.length = text.length + n * value.length := by
  fun_induction replaceFrom pattern value skip text with
  | case1 skip => exact ⟨0, by simpa using hskip⟩
  | case2 skip c rest ih =>
    obtain ⟨n, hn⟩ := ih (by simpa using hskip)
    exact ⟨n, by rw [List.length_cons]; omega⟩
  | case3 c rest hc ih =>
    have hlen := (List.isPrefixOf_iff_prefix.mp hc).length_le
    have hpos := List.length_pos_iff.mpr hp
    rw [List.length_cons] at hlen
    obtain ⟨n, hn⟩ := ih (by omega)
    refine ⟨n + 1, ?_⟩
    rw [List.length_append, List.length_cons, Nat.succ_mul, Nat.succ_mul]
    omega
  | case4 c rest hc ih =>
    obtain ⟨n, hn⟩ := ih (Nat.zero_le _)
    exact ⟨n, by rw [List.length_cons, List.length_cons]; omega⟩

theorem length_replace (hp : pattern ≠ []) (value text : List Char) :
    ∃ n, (replace pattern value text).length + n * pattern.length =
      text.length + n * value.length :=
  length_replaceFrom hp 0 text (Nat.zero_le _)

theorem replaceFrom_self (hp : pattern ≠ []) (skip : Nat) (text : List Char) :
    replaceFrom pattern pattern skip text = text.drop skip := by
  fun_induction replaceFrom pattern pattern skip text with
  | case1 skip => simp
  | case2 skip c rest ih => simpa using ih
  | case3 c rest hc ih =>
    obtain ⟨d, tail, rfl⟩ := List.exists_cons_of_ne_nil hp
    obtain ⟨more, hmore⟩ := List.isPrefixOf_iff_prefix.mp hc
    obtain ⟨rfl, rfl⟩ := List.cons.inj hmore
    rw [ih]
    simp
  | case4 c rest hc ih => simpa using ih

theorem replace_self (hp : pattern ≠ []) (text : List Char) :
    replace pattern pattern text = text := replaceFrom_self hp 0 text

end Length

section Exact

variable {key value : String}

theorem placeholder_ne_nil (key : String) : placeholder key ≠ [] := by simp [placeholder_eq]

theorem replaceFrom_split (hk : Plain key) {v w : List Char} (skip : Nat) (u : List Char)
    (hskip : skip ≤ u.length) :
    replaceFrom (placeholder key) v skip (u ++ (placeholder key ++ w)) =
      replaceFrom (placeholder key) v skip u ++ (v ++ replace (placeholder key) v w) := by
  fun_induction replaceFrom (placeholder key) v skip u with
  | case1 skip =>
    obtain rfl : skip = 0 := by simpa using hskip
    exact replace_here (placeholder_ne_nil key)
  | case2 skip c u ih => exact ih (by simpa using hskip)
  | case3 c u hc ih =>
    have hpre := List.isPrefixOf_iff_prefix.mp hc
    have hlen := hpre.length_le
    rw [List.length_cons] at hlen
    have hmore : (placeholder key).isPrefixOf (c :: (u ++ (placeholder key ++ w))) = true :=
      List.isPrefixOf_iff_prefix.mpr (hpre.trans (List.prefix_append (c :: u) _))
    rw [List.cons_append, replaceFrom, if_pos hmore, ih (by omega), List.append_assoc]
  | case4 c u hc ih =>
    have hmore : ¬ (placeholder key).isPrefixOf (c :: (u ++ (placeholder key ++ w))) = true := by
      rw [List.isPrefixOf_iff_prefix] at hc ⊢
      exact fun h => hc (prefix_of_reaching hk (List.cons_ne_nil c u) h)
    rw [List.cons_append, replaceFrom, if_neg hmore, ih (Nat.zero_le _), List.cons_append]

theorem replace_split (hk : Plain key) {v : List Char} (u w : List Char) :
    replace (placeholder key) v (u ++ (placeholder key ++ w)) =
      replace (placeholder key) v u ++ (v ++ replace (placeholder key) v w) :=
  replaceFrom_split hk 0 u (Nat.zero_le _)

/-- What is replaced behind literal text comes on top of the placeholders among the pieces. -/
theorem length_replace_chars (hk : Plain key) (value : String) (u : List Char)
    (pieces : List Piece) :
    ∃ n, (replace (placeholder key) value.toList (u ++ chars pieces)).length +
        n * (placeholder key).length =
      (u ++ chars (pieces.map (·.filled [(key, value)]))).length + n * value.toList.length := by
  induction pieces generalizing u with
  | nil => exact length_replace (placeholder_ne_nil key) value.toList _
  | cons p rest ih =>
    rw [List.map_cons, chars_cons, chars_cons]
    by_cases hp : p = .placeholder key
    · subst hp
      have hfilled : ((Piece.placeholder key).filled [(key, value)]).text = value := by
        simp [Piece.filled, Piece.text]
      obtain ⟨m, hm⟩ := length_replace (placeholder_ne_nil key) value.toList u
      obtain ⟨n, hn⟩ := ih []
      refine ⟨m + n, ?_⟩
      rw [text_placeholder, replace_split hk, hfilled]
      simp only [List.length_append, List.nil_append, Nat.add_mul] at hn ⊢
      omega
    · have hsame : p.filled [(key, value)] = p := by
        cases p with
        | literal s => rfl
        | placeholder other =>
          have ho : other ≠ key := fun ho => hp (ho ▸ rfl)
          simp [Piece.filled, List.lookup_cons, beq_false_of_ne ho]
      obtain ⟨n, hn⟩ := ih (u ++ p.text.toList)
      refine ⟨n, ?_⟩
      rwa [hsame, ← List.append_assoc, ← List.append_assoc]

theorem map_filled_of_literal {mid : List Piece} (h : mid.all Piece.isLiteral)
    (params : List (String × String)) : mid.map (·.filled params) = mid := by
  have hsame : ∀ p ∈ mid, p.filled params = id p := by
    intro p hp
    cases p with
    | literal s => rfl
    | placeholder key => exact absurd (List.all_eq_true.mp h _ hp) Bool.false_ne_true
  rw [List.map_congr_left hsame, List.map_id]

/-- Literal text that spells the placeholder is replaced too, and the result shows it. -/
theorem clear_of_replace (hk : Plain key) (hv : value ≠ (Piece.placeholder key).text)
    (h : replace (placeholder key) value.toList (chars pieces) =
      chars (pieces.map (·.filled [(key, value)]))) : Clear key pieces := by
  rintro mid ⟨left, right, rfl⟩ hall ⟨u, w, hu⟩
  have hliteral (ps : List Piece) : chars (ps ++ [.literal (String.ofList u)]) = chars ps ++ u := by
    simp [chars, Piece.text]
  obtain ⟨m, hm⟩ :=
    length_replace_chars hk value [] (left ++ [.literal (String.ofList u)])
  obtain ⟨n, hn⟩ := length_replace_chars hk value w right
  rw [List.map_append, List.map_singleton, Piece.filled, List.nil_append, List.nil_append, hliteral,
    hliteral] at hm
  rw [List.map_append, List.map_append, map_filled_of_literal hall, chars_append, chars_append,
    chars_append, chars_append, ← hu] at h
  simp only [List.append_assoc] at h
  rw [← List.append_assoc, replace_split hk, ← List.append_assoc (chars _) u] at h
  have htotal := congrArg List.length h
  simp only [List.length_append] at htotal hm hn
  have hlength : value.toList.length = (placeholder key).length := by
    apply Nat.eq_of_mul_eq_mul_left (Nat.succ_pos (m + n))
    rw [Nat.succ_mul, Nat.succ_mul, Nat.add_mul, Nat.add_mul]
    omega
  rw [hlength] at hm
  have hbefore := List.append_inj h (by rw [List.length_append]; omega)
  have hvalue := (List.append_inj hbefore.2 hlength).1
  exact hv (String.toList_inj.mp (hvalue.trans (text_placeholder key).symm))

theorem replace_chars_iff (hk : Plain key) (hkeys : ∀ p ∈ pieces, p.Keyed) :
    replace (placeholder key) value.toList (chars pieces) =
        chars (pieces.map (·.filled [(key, value)])) ↔
      Clear key pieces ∨ value = (Piece.placeholder key).text := by
  constructor
  · intro h
    by_cases hv : value = (Piece.placeholder key).text
    · exact .inr hv
    · exact .inl (clear_of_replace hk hv h)
  · rintro (hc | rfl)
    · exact replace_chars hk hkeys hc value
    · have hsame (p : Piece) : (p.filled [(key, (Piece.placeholder key).text)]).text = p.text := by
        cases p with
        | literal s => rfl
        | placeholder other =>
          by_cases ho : other = key
          · simp [ho, Piece.filled, Piece.text]
          · simp [Piece.filled, List.lookup_cons, beq_false_of_ne ho]
      rw [text_placeholder, replace_self (placeholder_ne_nil key), chars, chars, List.flatMap_map]
      simp only [hsame]

end Exact

/-- Literal text and the values of the other parameters never spell the placeholder of a parameter
together, unless its value is just that placeholder. -/
def Undisturbed (pieces : List Piece) (params : List (String × String)) : Prop :=
  ∀ p ∈ params, Clear p.1 (pieces.map (·.filled (params.filter (·.1 ≠ p.1)))) ∨
    p.2 = (Piece.placeholder p.1).text

section Lookup

variable {chosen : List (String × String)}

theorem lookup_eq_some_iff_mem (nodup : (params.map Prod.fst).Nodup) {key value : String} :
    params.lookup key = some value ↔ (key, value) ∈ params := by
  rw [List.lookup_eq_some_iff]
  constructor
  · rintro ⟨before, after, rfl, -⟩
    simp
  · intro h
    obtain ⟨before, after, rfl⟩ := List.append_of_mem h
    refine ⟨before, after, rfl, fun p hp => ?_⟩
    rw [List.map_append, List.nodup_append] at nodup
    have hne := nodup.2.2 p.1 (List.mem_map_of_mem hp) key (by simp)
    simpa using Ne.symm hne

theorem nodup_keys_of_subperm (nodup : (params.map Prod.fst).Nodup) (h : chosen.Subperm params) :
    (chosen.map Prod.fst).Nodup := by
  obtain ⟨l, hperm, hsub⟩ := h
  exact (hperm.map Prod.fst).nodup_iff.mp (nodup.sublist (hsub.map Prod.fst))

theorem Piece.filled_of_perm (nodup : (params.map Prod.fst).Nodup) (h : chosen.Perm params)
    (p : Piece) : p.filled chosen = p.filled params := by
  cases p with
  | literal s => rfl
  | placeholder key =>
    have hlookup : chosen.lookup key = params.lookup key := by
      apply Option.ext
      intro value
      rw [lookup_eq_some_iff_mem nodup,
        lookup_eq_some_iff_mem (nodup_keys_of_subperm nodup h.subperm), h.mem_iff]
    rw [Piece.filled, Piece.filled, hlookup]

/-- What a few parameters make literal text stays so when there are more of them. -/
theorem Clear.of_filled {key : String} {more : List (String × String)}
    (h : ∀ other value, chosen.lookup other = some value → more.lookup other = some value)
    (hc : Clear key (pieces.map (·.filled more))) : Clear key (pieces.map (·.filled chosen)) := by
  intro mid hm hall
  obtain ⟨part, hpart, rfl⟩ := List.infix_map_iff.mp hm
  have hsame : part.map (·.filled chosen) = part.map (·.filled more) := by
    apply List.map_congr_left
    intro p hp
    have hp := List.all_eq_true.mp hall _ (List.mem_map_of_mem hp)
    cases p with
    | literal s => rfl
    | placeholder other =>
      rw [Piece.filled] at hp ⊢
      cases hv : chosen.lookup other with
      | none =>
        rw [hv] at hp
        exact absurd hp Bool.false_ne_true
      | some value => rw [Piece.filled, h other value hv]
  rw [hsame] at hall ⊢
  exact hc _ (hpart.map _) hall

end Lookup

section Order

variable {chosen : List (String × String)}

theorem fill_chosen (hpieces : ∀ p ∈ pieces, p.Keyed) (hkeys : ∀ p ∈ params, Plain p.1)
    (nodup : (params.map Prod.fst).Nodup) (h : Undisturbed pieces params)
    (hchosen : chosen.Subperm params) :
    fill (written pieces) chosen = written (pieces.map (·.filled chosen)) := by
  apply fill_written
  intro before p hp
  have hmem : p ∈ params := hchosen.subset (hp.subset (by simp))
  have hnodup := nodup_keys_of_subperm nodup
    ((List.IsPrefix.sublist hp).subperm.trans hchosen)
  rw [List.map_append, List.nodup_append] at hnodup
  have hothers : ∀ key value, before.lookup key = some value →
      (params.filter (·.1 ≠ p.1)).lookup key = some value := by
    intro key value hv
    have hin := (lookup_eq_some_iff_mem hnodup.1).mp hv
    have hne := hnodup.2.2 key (List.mem_map_of_mem hin) p.1 (by simp)
    rw [lookup_eq_some_iff_mem (nodup.sublist ((List.filter_sublist).map Prod.fst))]
    rw [List.mem_filter]
    exact ⟨hchosen.subset (hp.subset (List.mem_append_left _ hin)), by simpa using hne⟩
  rw [replace_chars_iff (hkeys p hmem) (keyed_filled hpieces before)]
  exact (h p hmem).imp_left fun hc => hc.of_filled hothers

theorem undisturbed_of_fill (hpieces : ∀ p ∈ pieces, p.Keyed) (hkeys : ∀ p ∈ params, Plain p.1)
    (nodup : (params.map Prod.fst).Nodup)
    (h : ∀ chosen : List (String × String), chosen.Subperm params →
      fill (written pieces) chosen = written (pieces.map (·.filled chosen))) :
    Undisturbed pieces params := by
  intro p hp
  have hsub : (params.filter (·.1 ≠ p.1)).Sublist params := List.filter_sublist
  have hlast : (params.filter (·.1 ≠ p.1) ++ [p]).Subperm params := by
    apply List.subperm_of_subset
    · rw [List.nodup_append]
      refine ⟨(List.Nodup.of_map Prod.fst nodup).sublist hsub, by simp, ?_⟩
      rintro q hq r hr rfl
      obtain rfl := List.mem_singleton.mp hr
      simpa using (List.mem_filter.mp hq).2
    · intro q hq
      rcases List.mem_append.mp hq with hq | hq
      · exact hsub.subset hq
      · rwa [List.mem_singleton.mp hq]
  have htold := h _ hlast
  rw [← String.toList_inj, toList_fill_append, h _ hsub.subperm, toList_written, toList_written]
    at htold
  apply (replace_chars_iff (hkeys p hp) (keyed_filled hpieces _)).mp
  rw [htold, List.map_map]
  simp only [Function.comp_def, Piece.filled_append]

/-- Every selection of the parameters, in every order, fills in its own placeholders and nothing
else if and only if the parameters leave each other alone. They do so where one of the brackets is
missing in literal text and values. -/
theorem fill_in_any_order (hpieces : ∀ p ∈ pieces, p.Keyed) (hkeys : ∀ p ∈ params, Plain p.1)
    (nodup : (params.map Prod.fst).Nodup) :
    (Undisturbed pieces params ↔ ∀ chosen : List (String × String), chosen.Subperm params →
      fill (written pieces) chosen = written (pieces.map (·.filled chosen))) ∧
    (Undisturbed pieces params → ∀ other : List (String × String), other.Perm params →
      fill (written pieces) other = fill (written pieces) params) ∧
    ∀ c ∈ ['<', '>'], (∀ p ∈ pieces, p.isLiteral → c ∉ p.text.toList) →
      (∀ p ∈ params, c ∉ p.2.toList) → Undisturbed pieces params := by
  refine ⟨⟨fun h chosen => fill_chosen hpieces hkeys nodup h,
    undisturbed_of_fill hpieces hkeys nodup⟩, ?_, ?_⟩
  · intro h other hother
    have hsame : ∀ p ∈ pieces, p.filled other = p.filled params :=
      fun p _ => p.filled_of_perm nodup hother
    rw [fill_chosen hpieces hkeys nodup h hother.subperm,
      fill_chosen hpieces hkeys nodup h (List.Perm.refl params).subperm,
      List.map_congr_left hsame]
  · intro c hc hliteral hvalue p hp
    have hmem : c ∈ placeholder p.1 := by
      rcases List.mem_pair.mp hc with rfl | rfl <;> simp [placeholder_eq]
    have hothers : ∀ q ∈ params.filter (·.1 ≠ p.1), c ∉ q.2.toList :=
      fun q hq => hvalue q (List.mem_filter.mp hq).1
    exact .inl (clear_filled hmem hliteral hothers)

/-- A stored program with an arrow in it and two parameters, one of them with an arrow too. -/
def arrows : List Piece :=
  [.literal "TEXT \"->", .placeholder "from", .placeholder "to", .literal ">\""]

def routes : List (String × String) := [("from", "A"), ("to", "->B")]

theorem fill_in_any_order_arrows : (∀ p ∈ arrows, p.Keyed) ∧ (∀ p ∈ routes, Plain p.1) ∧
    (routes.map Prod.fst).Nodup ∧ Undisturbed arrows routes ∧
      fill "TEXT \"-><<<from>>><<<to>>>>\"" routes.reverse =
        fill "TEXT \"-><<<from>>><<<to>>>>\"" routes := by
  have hpieces : ∀ p ∈ arrows, p.Keyed := by decide
  have hkeys : ∀ p ∈ routes, Plain p.1 := by decide
  have nodup : (routes.map Prod.fst).Nodup := by decide
  obtain ⟨-, hperm, hlacking⟩ := fill_in_any_order hpieces hkeys nodup
  have h : Undisturbed arrows routes := hlacking '<' (by decide) (by decide) (by decide)
  exact ⟨hpieces, hkeys, nodup, h, hperm h routes.reverse routes.reverse_perm⟩

/-- Not every list of parameters is one of these: the value of the first can be the placeholder of
the second. -/
theorem value_filled_in_again :
    ([("a", "<<<b>>>"), ("b", "x")].map Prod.fst).Nodup ∧
      [("b", "x"), ("a", "<<<b>>>")].Perm [("a", "<<<b>>>"), ("b", "x")] ∧
      fill "<<<a>>>" [("a", "<<<b>>>"), ("b", "x")] = "x" ∧
      fill "<<<a>>>" [("b", "x"), ("a", "<<<b>>>")] = "<<<b>>>" := by decide

end Order

end LabelPrinter.Template

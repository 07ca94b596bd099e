import LabelPrinter.Template
import LabelPrinter.Proofs.Line.Peel
import Mathlib.Data.List.Infix

/-!
Templates put together of literal text and placeholders, and what filling in a parameter makes of
the pieces.
-/

namespace LabelPrinter.Template

/-- Text without the brackets that mark a placeholder. -/
structure Plain (s : String) : Prop where
  opening : '<' ∉ s.toList
  closing : '>' ∉ s.toList

instance (s : String) : Decidable (Plain s) :=
  decidable_of_iff ('<' ∉ s.toList ∧ '>' ∉ s.toList)
    ⟨fun h => ⟨h.1, h.2⟩, fun h => ⟨h.opening, h.closing⟩⟩

inductive Piece where
  | literal (text : String)
  | placeholder (key : String)
  deriving DecidableEq

namespace Piece

def text : Piece → String
  | .literal s => s
  | .placeholder key => "<<<" ++ key ++ ">>>"

def isLiteral : Piece → Bool
  | .literal _ => true
  | .placeholder _ => false

/-- Of several parameters with the key of a placeholder the first counts. -/
def filled (params : List (String × String)) : Piece → Piece
  | .literal s => .literal s
  | .placeholder key => (params.lookup key).elim (.placeholder key) .literal

def Keyed : Piece → Prop
  | .literal _ => True
  | .placeholder key => Plain key

def Plain : Piece → Prop
  | .literal s => Template.Plain s
  | .placeholder key => Template.Plain key

instance : (p : Piece) → Decidable p.Plain
  | .literal s => inferInstanceAs (Decidable (Template.Plain s))
  | .placeholder key => inferInstanceAs (Decidable (Template.Plain key))

instance : (p : Piece) → Decidable p.Keyed
  | .literal _ => inferInstanceAs (Decidable True)
  | .placeholder key => inferInstanceAs (Decidable (Template.Plain key))

theorem Plain.keyed {p : Piece} (h : p.Plain) : p.Keyed := by
  cases p with
  | literal s => trivial
  | placeholder key => exact h

theorem Keyed.filled {p : Piece} (h : p.Keyed) (params : List (String × String)) :
    (p.filled params).Keyed := by
  cases p with
  | literal s => trivial
  | placeholder key =>
    rw [Piece.filled]
    cases params.lookup key with
    | none => exact h
    | some value => trivial

theorem filled_nil (p : Piece) : p.filled [] = p := by cases p <;> rfl

theorem filled_append (p : Piece) (params more : List (String × String)) :
    p.filled (params ++ more) = (p.filled params).filled more := by
  cases p with
  | literal s => rfl
  | placeholder key =>
    simp only [filled, List.lookup_append]
    cases h : params.lookup key <;> simp

end Piece

theorem keyed_filled {pieces : List Piece} (h : ∀ p ∈ pieces, p.Keyed)
    (params : List (String × String)) : ∀ p ∈ pieces.map (·.filled params), p.Keyed := by
  intro p hp
  obtain ⟨q, hq, rfl⟩ := List.mem_map.mp hp
  exact (h q hq).filled params

def written (pieces : List Piece) : String := String.join (pieces.map Piece.text)

def chars (pieces : List Piece) : List Char := pieces.flatMap (·.text.toList)

theorem chars_cons (p : Piece) (rest : List Piece) :
    chars (p :: rest) = p.text.toList ++ chars rest := List.flatMap_cons

theorem chars_append (ps qs : List Piece) : chars (ps ++ qs) = chars ps ++ chars qs :=
  List.flatMap_append

theorem toList_written (pieces : List Piece) : (written pieces).toList = chars pieces := by
  rw [written, String.toList_join, List.flatMap_map, chars]

section Search

variable {key : String} {t r : List Char}

theorem placeholder_eq (key : String) :
    placeholder key = '<' :: '<' :: '<' :: (key.toList ++ ['>', '>', '>']) := rfl

theorem text_placeholder (key : String) :
    (Piece.placeholder key).text.toList = placeholder key := by
  rw [Piece.text, String.toList_append, String.toList_append, placeholder]

theorem opening_not_mem (h : Plain key) : '<' ∉ key.toList ++ ['>', '>', '>'] := by
  simp [h.opening]

theorem not_opened (h : Plain key) : ¬ key.toList ++ ['>', '>', '>'] <+: '<' :: r := by
  intro hp
  cases hk : key.toList ++ ['>', '>', '>'] with
  | nil => simp at hk
  | cons c b =>
    rw [hk] at hp
    obtain rfl := (List.cons_prefix_cons.mp hp).1
    exact opening_not_mem h (hk ▸ List.mem_cons_self)

/-- A placeholder that begins before another one ends before it. -/
theorem prefix_of_reaching {other : String} (hk : Plain key) (ht : t ≠ [])
    (h : placeholder key <+: t ++ (placeholder other ++ r)) : placeholder key <+: t := by
  rcases List.prefix_or_prefix_of_prefix h (List.prefix_append t _) with hp | ⟨q, hq⟩
  · exact hp
  rw [← hq, List.prefix_append_right_inj, placeholder_eq other] at h
  rw [placeholder_eq] at hq
  match t, ht, hq with
  | [_], _, hq =>
    obtain rfl : q = _ := (List.cons.inj hq).2
    simp only [List.cons_append, List.cons_prefix_cons, true_and] at h
    exact absurd h (not_opened hk)
  | [_, _], _, hq =>
    obtain rfl : q = _ := (List.cons.inj (List.cons.inj hq).2).2
    simp only [List.cons_append, List.cons_prefix_cons, true_and] at h
    exact absurd h (not_opened hk)
  | a :: b :: c :: t, _, hq =>
    have hrest : t ++ q = key.toList ++ ['>', '>', '>'] :=
      (List.cons.inj (List.cons.inj (List.cons.inj hq).2).2).2
    cases q with
    | nil =>
      rw [placeholder_eq, ← hq, List.append_nil]
    | cons d q =>
      obtain rfl := (List.cons_prefix_cons.mp h).1
      refine absurd ?_ (opening_not_mem hk)
      rw [← hrest]
      exact List.mem_append_right t List.mem_cons_self

theorem key_eq_of_prefix {other : String} (hk : Plain key) (ho : Plain other)
    (h : placeholder key <+: placeholder other ++ r) : key = other := by
  obtain ⟨s, hs⟩ := h
  simp only [placeholder_eq, List.cons_append, List.cons.injEq, true_and, List.append_assoc] at hs
  obtain ⟨hkey, -⟩ := peel_until hk.closing ho.closing stops_here stops_here hs
  exact String.toList_inj.mp hkey

theorem not_prefix_of_suffix {other : String} {b : List Char} (ho : Plain other)
    (ht : t <:+ other.toList ++ ['>', '>', '>']) (hne : t ≠ []) : ¬ '<' :: b <+: t ++ r := by
  intro h
  cases t with
  | nil => exact hne rfl
  | cons c t =>
    obtain rfl := (List.cons_prefix_cons.mp h).1
    exact opening_not_mem ho (ht.subset List.mem_cons_self)

/-- A placeholder that begins inside another one is that other one. -/
theorem eq_of_prefix_of_suffix {other : String} (hk : Plain key) (ho : Plain other)
    (ht : t <:+ placeholder other) (hne : t ≠ []) (h : placeholder key <+: t ++ r) :
    key = other := by
  have hbody : other.toList ++ ['>', '>', '>'] ≠ [] := by simp
  rw [placeholder_eq other, List.suffix_cons_iff, List.suffix_cons_iff, List.suffix_cons_iff] at ht
  rcases ht with rfl | rfl | rfl | ht
  · exact key_eq_of_prefix hk ho h
  · have hrest := (List.cons_prefix_cons.mp (List.cons_prefix_cons.mp h).2).2
    exact absurd hrest (not_prefix_of_suffix ho List.suffix_rfl hbody)
  · have hrest := (List.cons_prefix_cons.mp h).2
    exact absurd hrest (not_prefix_of_suffix ho List.suffix_rfl hbody)
  · exact absurd h (not_prefix_of_suffix ho ht hne)

end Search

section Replacing

variable {pattern value r : List Char}

theorem replaceFrom_skip (passed : List Char) :
    replaceFrom pattern value passed.length (passed ++ r) = replace pattern value r := by
  induction passed with
  | nil => rfl
  | cons c passed ih => exact ih

theorem replace_here (h : pattern ≠ []) :
    replace pattern value (pattern ++ r) = value ++ replace pattern value r := by
  cases pattern with
  | nil => exact absurd rfl h
  | cons c rest =>
    have hp : (c :: rest).isPrefixOf (c :: (rest ++ r)) = true :=
      List.isPrefixOf_iff_prefix.mpr (List.prefix_append (c :: rest) r)
    rw [List.cons_append, replace, replaceFrom, if_pos hp]
    exact congrArg (value ++ ·) (replaceFrom_skip rest)

/-- What no occurrence begins in stays as it is. -/
theorem replace_past {passed : List Char}
    (h : ∀ t, t <:+ passed → t ≠ [] → ¬ pattern <+: t ++ r) :
    replace pattern value (passed ++ r) = passed ++ replace pattern value r := by
  induction passed with
  | nil => rfl
  | cons c passed ih =>
    have hc : ¬ pattern.isPrefixOf (c :: (passed ++ r)) = true := by
      rw [List.isPrefixOf_iff_prefix]
      exact h (c :: passed) List.suffix_rfl (List.cons_ne_nil c passed)
    have hrest := ih fun t ht => h t (ht.trans (List.suffix_cons c passed))
    rw [List.cons_append, replace, replaceFrom, if_neg hc, ← replace, hrest, List.cons_append]

end Replacing

/-- Literal text does not spell the placeholder anywhere, not even several pieces together. -/
def Clear (key : String) (pieces : List Piece) : Prop :=
  ∀ mid, mid <:+: pieces → mid.all Piece.isLiteral → ¬ placeholder key <:+: chars mid

section Clear

variable {key : String} {pieces rest : List Piece}

theorem Clear.of_infix {part : List Piece} (h : Clear key pieces) (hp : part <:+: pieces) :
    Clear key part := fun mid hm => h mid (hm.trans hp)

/-- A placeholder that begins in literal text is spelled by the literal text from there on. -/
theorem spelled_of_prefix (hk : Plain key) {t : List Char} (ht : t ≠ [])
    (h : placeholder key <+: t ++ chars rest) :
    ∃ mid, mid <+: rest ∧ mid.all Piece.isLiteral ∧ placeholder key <+: t ++ chars mid := by
  induction rest generalizing t with
  | nil => exact ⟨[], List.prefix_rfl, rfl, h⟩
  | cons p rest ih =>
    cases p with
    | literal s =>
      rw [chars_cons, ← List.append_assoc] at h
      obtain ⟨mid, hm, hall, hp⟩ := ih (List.append_ne_nil_of_left_ne_nil ht _) h
      refine ⟨.literal s :: mid, List.cons_prefix_cons.mpr ⟨rfl, hm⟩, hall, ?_⟩
      rwa [chars_cons, ← List.append_assoc]
    | placeholder other =>
      rw [chars_cons, text_placeholder] at h
      refine ⟨[], List.nil_prefix, rfl, ?_⟩
      exact (prefix_of_reaching hk ht h).trans (List.prefix_append t _)

theorem not_prefix_in_literal (hk : Plain key) {s : String} (hc : Clear key (.literal s :: rest))
    {t : List Char} (ht : t <:+ s.toList) (hne : t ≠ []) :
    ¬ placeholder key <+: t ++ chars rest := by
  intro h
  obtain ⟨mid, hm, hall, hp⟩ := spelled_of_prefix hk hne h
  refine hc (.literal s :: mid) (List.cons_prefix_cons.mpr ⟨rfl, hm⟩).isInfix hall ?_
  obtain ⟨u, hu⟩ := ht
  have hspelled : chars (.literal s :: mid) = u ++ (t ++ chars mid) := by
    rw [← List.append_assoc, hu]
    rfl
  rw [hspelled]
  exact hp.isInfix.trans (List.suffix_append u _).isInfix

theorem replace_chars (hk : Plain key) (hkeys : ∀ p ∈ pieces, p.Keyed) (hc : Clear key pieces)
    (value : String) :
    replace (placeholder key) value.toList (chars pieces) =
      chars (pieces.map (·.filled [(key, value)])) := by
  induction pieces with
  | nil => rfl
  | cons p rest ih =>
    have hrest := ih (fun q hq => hkeys q (List.mem_cons_of_mem p hq))
      (hc.of_infix (List.suffix_cons p rest).isInfix)
    rw [List.map_cons, chars_cons, chars_cons]
    cases p with
    | literal s =>
      have htext : (Piece.literal s).text.toList = s.toList := rfl
      rw [htext, replace_past fun t => not_prefix_in_literal hk hc, hrest]
      rfl
    | placeholder other =>
      rw [text_placeholder]
      by_cases ho : key = other
      · subst ho
        rw [replace_here (by simp [placeholder_eq]), hrest]
        simp [Piece.filled, Piece.text]
      · have hpast : ∀ t, t <:+ placeholder other → t ≠ [] →
            ¬ placeholder key <+: t ++ chars rest := fun t ht hne h =>
          ho (eq_of_prefix_of_suffix hk (hkeys _ List.mem_cons_self) ht hne h)
        have hsame : (Piece.placeholder other).filled [(key, value)] = .placeholder other := by
          simp [Piece.filled, List.lookup_cons, beq_false_of_ne (Ne.symm ho)]
        rw [replace_past hpast, hrest, hsame, text_placeholder]

end Clear

end LabelPrinter.Template

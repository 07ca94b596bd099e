import LabelPrinter.Reply.Framer
import Mathlib.Data.List.Basic

/-!
The lines of a stream, in whatever chunks it comes.
-/

namespace LabelPrinter

/-- One line for each line feed of a stream: what stands between it and the one before. -/
def replyLines (stream : List UInt8) : List (List UInt8) :=
  (stream.splitOn lineFeed).dropLast.map fun line =>
    line.filter (· != carriageReturn) ++ [lineFeed]

theorem splitOn_cons (b : UInt8) (bs : List UInt8) : (b :: bs).splitOn lineFeed =
    if b = lineFeed then [] :: bs.splitOn lineFeed
    else (bs.splitOn lineFeed).modifyHead (b :: ·) := by
  simp [List.splitOn, List.splitOnP_cons_eq_if_modifyHead]

theorem splitOn_filter (bs : List UInt8) :
    (bs.filter (· != carriageReturn)).splitOn lineFeed =
      (bs.splitOn lineFeed).map (·.filter (· != carriageReturn)) := by
  induction bs with
  | nil => rfl
  | cons b bs ih =>
    rw [splitOn_cons]
    by_cases hlf : b = lineFeed
    · subst hlf
      rw [List.filter_cons_of_pos (by decide), splitOn_cons, if_pos rfl, if_pos rfl, ih]
      rfl
    · rw [if_neg hlf]
      obtain ⟨p, ps, hp⟩ := List.exists_cons_of_ne_nil (List.splitOn_ne_nil lineFeed bs)
      rw [hp] at ih ⊢
      by_cases hcr : b = carriageReturn
      · rw [List.filter_cons_of_neg (by simp [hcr]), ih]
        simp [hcr]
      · rw [List.filter_cons_of_pos (by simpa using hcr), splitOn_cons, if_neg hlf, ih]
        simp [hcr]

theorem cutLines_splitOn (bs : List UInt8) : ∃ pieces,
    (cutLines bs).1 = pieces.map (· ++ [lineFeed]) ∧
      bs.splitOn lineFeed = pieces ++ [(cutLines bs).2] := by
  induction bs with
  | nil => exact ⟨[], rfl, rfl⟩
  | cons b bs ih =>
    obtain ⟨pieces, hl, hs⟩ := ih
    rw [splitOn_cons, hs]
    by_cases hb : b = lineFeed
    · exact ⟨[] :: pieces, by simp [cutLines, hb, hl], by simp [cutLines, hb]⟩
    · cases pieces with
      | nil => exact ⟨[], by simp [cutLines, hb, hl], by simp [cutLines, hb, hl]⟩
      | cons p ps =>
        exact ⟨(b :: p) :: ps, by simp [cutLines, hb, hl], by simp [cutLines, hb, hl]⟩

theorem cutLines_append (as bs : List UInt8) : cutLines (as ++ bs) =
    ((cutLines as).1 ++ (cutLines ((cutLines as).2 ++ bs)).1,
      (cutLines ((cutLines as).2 ++ bs)).2) := by
  induction as with
  | nil => rfl
  | cons a as ih =>
    by_cases ha : a = lineFeed
    · simp [cutLines, ha, ih]
    · cases hl : (cutLines as).1 with
      | nil => simp [cutLines, ha, ih, hl]
      | cons l ls => simp [cutLines, ha, ih, hl]

namespace LineFramer

theorem push_append (f : LineFramer) (a b : List UInt8) :
    f.push (a ++ b) = ((f.push a).1 ++ ((f.push a).2.push b).1, ((f.push a).2.push b).2) := by
  rw [push, List.filter_append, ← List.append_assoc, cutLines_append]
  rfl

theorem push_lines (stream : List UInt8) : (push {} stream).1 = replyLines stream := by
  obtain ⟨pieces, hl, hs⟩ := cutLines_splitOn (stream.filter (· != carriageReturn))
  have hp : pieces = (stream.splitOn lineFeed).dropLast.map (·.filter (· != carriageReturn)) := by
    rw [List.map_dropLast, ← splitOn_filter, hs, List.dropLast_concat]
  change (cutLines (stream.filter (· != carriageReturn))).1 = _
  rw [hl, hp, replyLines, List.map_map]
  rfl

end LineFramer

end LabelPrinter

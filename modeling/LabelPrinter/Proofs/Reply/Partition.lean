import LabelPrinter.Proofs.Reply.Text

/-!
No byte of a stream but its carriage returns is lost between the lines and what waits behind them.
-/

namespace LabelPrinter

/-- The bytes as lines, each with its only line feed at the end, and a rest without any. -/
structure Partition (bytes : List UInt8) (lines : List (List UInt8)) (left : List UInt8) : Prop where
  whole : lines.flatten ++ left = bytes
  ended : ∀ line ∈ lines, line.count lineFeed = 1 ∧ line.getLast? = some lineFeed
  unended : lineFeed ∉ left

theorem ended_iff {line : List UInt8} :
    line.count lineFeed = 1 ∧ line.getLast? = some lineFeed ↔
      ∃ body, lineFeed ∉ body ∧ line = body ++ [lineFeed] := by
  constructor
  · rintro ⟨hcount, hlast⟩
    obtain ⟨body, rfl⟩ := List.getLast?_eq_some_iff.mp hlast
    rw [List.count_append, List.count_singleton_self] at hcount
    exact ⟨body, List.count_eq_zero.mp (Nat.succ.inj hcount), rfl⟩
  · rintro ⟨body, hbody, rfl⟩
    rw [List.count_append, List.count_singleton_self, List.count_eq_zero.mpr hbody]
    exact ⟨rfl, List.getLast?_concat⟩

theorem cutLines_unended {bytes : List UInt8} (h : lineFeed ∉ bytes) :
    cutLines bytes = ([], bytes) := by
  induction bytes with
  | nil => rfl
  | cons b bytes ih =>
    have hb : b ≠ lineFeed := fun hb => h (hb ▸ List.mem_cons_self)
    rw [cutLines, ih fun hm => h (List.mem_cons_of_mem b hm)]
    simp [hb]

theorem cutLines_ended {body : List UInt8} (h : lineFeed ∉ body) :
    cutLines (body ++ [lineFeed]) = ([body ++ [lineFeed]], []) := by
  induction body with
  | nil => rfl
  | cons b body ih =>
    have hb : b ≠ lineFeed := fun hb => h (hb ▸ List.mem_cons_self)
    rw [List.cons_append, cutLines, ih fun hm => h (List.mem_cons_of_mem b hm)]
    simp [hb]

namespace Partition

variable {bytes left : List UInt8} {lines : List (List UInt8)}

theorem cutLines_eq (h : Partition bytes lines left) : cutLines bytes = (lines, left) := by
  obtain ⟨rfl, hended, hunended⟩ := h
  induction lines with
  | nil => exact cutLines_unended hunended
  | cons line lines ih =>
    obtain ⟨body, hbody, rfl⟩ := ended_iff.mp (hended line List.mem_cons_self)
    have hrest := ih fun l hl => hended l (List.mem_cons_of_mem _ hl)
    rw [List.flatten_cons, List.append_assoc, cutLines_append, cutLines_ended hbody,
      List.nil_append, hrest, List.singleton_append]

theorem of_cutLines (bytes : List UInt8) :
    Partition bytes (cutLines bytes).1 (cutLines bytes).2 := by
  induction bytes with
  | nil => exact ⟨rfl, List.forall_mem_nil _, List.not_mem_nil⟩
  | cons b bytes ih =>
    obtain ⟨hwhole, hended, hunended⟩ := ih
    by_cases hb : b = lineFeed
    · subst hb
      refine ⟨?_, List.forall_mem_cons.mpr ⟨⟨rfl, rfl⟩, hended⟩, hunended⟩
      exact congrArg (lineFeed :: ·) hwhole
    · cases hl : (cutLines bytes).1 with
      | nil =>
        rw [hl] at hwhole
        simp only [cutLines, hb, hl, if_false]
        refine ⟨congrArg (b :: ·) hwhole, List.forall_mem_nil _, ?_⟩
        exact List.not_mem_cons_of_ne_of_not_mem (Ne.symm hb) hunended
      | cons line lines =>
        rw [hl] at hwhole hended
        simp only [cutLines, hb, hl, if_false]
        obtain ⟨hline, hlines⟩ := List.forall_mem_cons.mp hended
        obtain ⟨body, hbody, rfl⟩ := ended_iff.mp hline
        refine ⟨congrArg (b :: ·) hwhole, List.forall_mem_cons.mpr ⟨?_, hlines⟩, hunended⟩
        have hbody' : lineFeed ∉ b :: body :=
          List.not_mem_cons_of_ne_of_not_mem (Ne.symm hb) hbody
        exact ended_iff.mpr ⟨b :: body, hbody', rfl⟩

theorem unique {lines' : List (List UInt8)} {left' : List UInt8} (h : Partition bytes lines left)
    (h' : Partition bytes lines' left') : lines = lines' ∧ left = left' :=
  Prod.mk.inj (h.cutLines_eq.symm.trans h'.cutLines_eq)

end Partition

namespace LineFramer

theorem partition_push {f : LineFramer} {stream : List UInt8} {lines : List (List UInt8)}
    (h : Partition (stream.filter (· != carriageReturn)) lines f.pending) (chunk : List UInt8) :
    Partition ((stream ++ chunk).filter (· != carriageReturn)) (lines ++ (f.push chunk).1)
      (f.push chunk).2.pending := by
  obtain ⟨hwhole, hended, hunended⟩ :=
    Partition.of_cutLines (f.pending ++ chunk.filter (· != carriageReturn))
  refine ⟨?_, fun line hline => ?_, hunended⟩
  · calc (lines ++ (f.push chunk).1).flatten ++ (f.push chunk).2.pending
        = lines.flatten ++ ((f.push chunk).1.flatten ++ (f.push chunk).2.pending) := by
          rw [List.flatten_append, List.append_assoc]
      _ = lines.flatten ++ (f.pending ++ chunk.filter (· != carriageReturn)) :=
          congrArg (lines.flatten ++ ·) hwhole
      _ = (stream ++ chunk).filter (· != carriageReturn) := by
          rw [← List.append_assoc, h.whole, List.filter_append]
  · obtain hline | hline := List.mem_append.mp hline
    · exact h.ended line hline
    · exact hended line hline

theorem partition_feed (chunks : List (List UInt8)) :
    Partition (chunks.flatten.filter (· != carriageReturn)) (feed {} chunks).1
      (feed {} chunks).2.pending := by
  induction chunks using List.reverseRecOn with
  | nil => exact ⟨rfl, List.forall_mem_nil _, List.not_mem_nil⟩
  | append_singleton chunks chunk ih =>
    rw [feed_snoc, List.flatten_append, List.flatten_singleton]
    exact partition_push ih chunk

/-- Nothing but carriage returns is lost, nothing comes twice, and the chunks do not matter. -/
theorem stream_partitioned (chunks : List (List UInt8)) :
    (∀ lines f, feed {} chunks = (lines, f) ↔
      lines.flatten ++ f.pending = chunks.flatten.filter (· != carriageReturn) ∧
        (∀ line ∈ lines, line.count lineFeed = 1 ∧ line.getLast? = some lineFeed) ∧
        lineFeed ∉ f.pending ∧ carriageReturn ∉ f.pending) ∧
    feed {} chunks = push {} chunks.flatten ∧
    ∀ a b, (feed {} chunks).2.feed [a, b] = (feed {} chunks).2.push (a ++ b) := by
  refine ⟨fun lines f => ?_, feed_eq_push chunks, fun a b => ?_⟩
  · have hfeed := partition_feed chunks
    constructor
    · intro h
      rw [h] at hfeed
      obtain ⟨hwhole, hended, hunended⟩ := hfeed
      refine ⟨hwhole, hended, hunended, fun hcr => ?_⟩
      have hkept := List.mem_append_right lines.flatten hcr
      rw [hwhole, List.mem_filter] at hkept
      exact absurd hkept.2 (by decide)
    · rintro ⟨hwhole, hended, hunended, -⟩
      obtain ⟨hlines, hpending⟩ := hfeed.unique ⟨hwhole, hended, hunended⟩
      exact Prod.ext hlines (congrArg LineFramer.mk hpending)
  · rw [push_append]
    rfl

example : feed {} [[79, 75, 13], [10, 83]] = ([[79, 75, 10]], ⟨[83]⟩) := rfl

end LineFramer

end LabelPrinter

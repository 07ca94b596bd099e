import Mathlib.Data.List.Induction
import LabelPrinter.Proofs.Charset.Units
import LabelPrinter.Proofs.Reply.Lines

/-!
A text that comes back from a printer, cut into chunks wherever the channel likes, is read line by
line as it was written.
-/

namespace LabelPrinter

/-- The lines of a text, each with the line feed that ends it. -/
def textLines (s : String) : List String :=
  (s.toList.splitOn '\n').dropLast.map fun line => String.ofList (line ++ ['\n'])

/-- The second stream is the first one with carriage returns put in. -/
inductive WithReturns : List UInt8 → List UInt8 → Prop where
  | nil : WithReturns [] []
  | keep {bs cs : List UInt8} (b : UInt8) : WithReturns bs cs → WithReturns (b :: bs) (b :: cs)
  | insert {bs cs : List UInt8} : WithReturns bs cs → WithReturns bs (carriageReturn :: cs)

theorem WithReturns.filter_eq {bs cs : List UInt8} (h : WithReturns bs cs) :
    cs.filter (· != carriageReturn) = bs.filter (· != carriageReturn) := by
  induction h with
  | nil => rfl
  | keep b _ ih => rw [List.filter_cons, List.filter_cons, ih]
  | insert _ ih => rw [List.filter_cons_of_neg (by simp), ih]

namespace LineFramer

/-- All lines that the chunks complete, one chunk pushed after the other. -/
def feed (f : LineFramer) (chunks : List (List UInt8)) : List (List UInt8) × LineFramer :=
  chunks.foldl (fun x chunk => (x.1 ++ (x.2.push chunk).1, (x.2.push chunk).2)) ([], f)

theorem feed_snoc (f : LineFramer) (chunks : List (List UInt8)) (chunk : List UInt8) :
    f.feed (chunks ++ [chunk]) =
      ((f.feed chunks).1 ++ ((f.feed chunks).2.push chunk).1, ((f.feed chunks).2.push chunk).2) := by
  rw [feed, List.foldl_append]
  rfl

/-- Where the chunks are cut makes no difference. -/
theorem feed_eq_push (chunks : List (List UInt8)) : feed {} chunks = push {} chunks.flatten := by
  induction chunks using List.reverseRecOn with
  | nil => rfl
  | append_singleton chunks chunk ih =>
    rw [feed_snoc, ih, List.flatten_append, List.flatten_singleton, push_append]

theorem push_of_filter_eq (f : LineFramer) {bs cs : List UInt8}
    (h : cs.filter (· != carriageReturn) = bs.filter (· != carriageReturn)) :
    f.push cs = f.push bs := by
  rw [push, push, h]

end LineFramer

theorem mem_of_mem_splitOn {α : Type} [BEq α] {a c : α} {xs p : List α} (hp : p ∈ xs.splitOn a)
    (hc : c ∈ p) : c ∈ xs := by
  induction xs generalizing p with
  | nil =>
    rw [List.splitOn_nil, List.mem_singleton] at hp
    exact absurd (hp ▸ hc) List.not_mem_nil
  | cons x xs ih =>
    rw [List.splitOn_cons_eq_if_modifyHead] at hp
    split_ifs at hp with hx
    · obtain rfl | hp := List.mem_cons.mp hp
      · exact absurd hc List.not_mem_nil
      · exact List.mem_cons_of_mem x (ih hp hc)
    · obtain ⟨q, qs, hq⟩ := List.exists_cons_of_ne_nil (List.splitOn_ne_nil a xs)
      rw [hq, List.modifyHead_cons] at hp
      rw [hq] at ih
      obtain rfl | hp := List.mem_cons.mp hp
      · obtain rfl | hc := List.mem_cons.mp hc
        · exact List.mem_cons_self
        · exact List.mem_cons_of_mem x (ih List.mem_cons_self hc)
      · exact List.mem_cons_of_mem x (ih (List.mem_cons_of_mem q hp) hc)

theorem splitOn_prepend {bs cs : List UInt8} (h : lineFeed ∉ bs) :
    (bs ++ cs).splitOn lineFeed = (cs.splitOn lineFeed).modifyHead (bs ++ ·) := by
  induction bs with
  | nil =>
    obtain ⟨p, ps, hp⟩ := List.exists_cons_of_ne_nil (List.splitOn_ne_nil lineFeed cs)
    rw [List.nil_append, hp]
    rfl
  | cons b bs ih =>
    have hb : b ≠ lineFeed := fun hb => h (hb ▸ List.mem_cons_self)
    rw [List.cons_append, splitOn_cons, if_neg hb, ih fun hm => h (List.mem_cons_of_mem b hm),
      List.modifyHead_modifyHead]
    rfl

section CodePage

variable {page : CodePage}

/-- An encoded text is cut where the text is cut. -/
theorem splitOn_units (hpage : page.IsAsciiCompatible) (l : List Char) :
    (l.flatMap page.units).splitOn lineFeed =
      (l.splitOn '\n').map fun line => line.flatMap page.units := by
  induction l with
  | nil => rfl
  | cons c l ih =>
    rw [List.flatMap_cons, List.splitOn_cons_eq_if_modifyHead]
    by_cases hc : c = '\n'
    · subst hc
      have hunits : page.units '\n' = [lineFeed] := CodePage.units_ascii hpage (by decide)
      rw [hunits, List.singleton_append, splitOn_cons, if_pos rfl, ih]
      rfl
    · have hb : lineFeed ∉ page.units c := CodePage.byte_not_mem_units hpage (c := '\n') (by decide) hc
      rw [splitOn_prepend hb, ih, if_neg (by simpa using hc)]
      obtain ⟨p, ps, hp⟩ := List.exists_cons_of_ne_nil (List.splitOn_ne_nil '\n' l)
      rw [hp]
      rfl

theorem filter_units (hpage : page.IsAsciiCompatible) {l : List Char} (h : '\r' ∉ l) :
    (l.flatMap page.units).filter (· != carriageReturn) = l.flatMap page.units := by
  rw [List.filter_eq_self]
  intro b hb
  obtain ⟨c, hc, hb⟩ := List.mem_flatMap.mp hb
  have hcr : c ≠ '\r' := fun hcr => h (hcr ▸ hc)
  have hnot : carriageReturn ∉ page.units c :=
    CodePage.byte_not_mem_units hpage (c := '\r') (by decide) hcr
  simpa using ne_of_mem_of_not_mem hb hnot

theorem cutLines_units (hpage : page.IsAsciiCompatible) (l : List Char) :
    cutLines ((l ++ ['\n']).flatMap page.units) =
      ((l.splitOn '\n').map fun line => (line ++ ['\n']).flatMap page.units, []) := by
  have hunits : page.units '\n' = [lineFeed] := CodePage.units_ascii hpage (by decide)
  obtain ⟨pieces, hlines, hsplit⟩ := cutLines_splitOn ((l ++ ['\n']).flatMap page.units)
  rw [splitOn_units hpage, List.splitOn_append_cons_self, List.splitOn_nil, List.map_append] at hsplit
  obtain ⟨rfl, hleft⟩ := List.append_inj' hsplit.symm rfl
  obtain hleft := (List.cons.inj hleft).1
  refine Prod.ext ?_ hleft
  rw [hlines, List.map_map]
  simp [hunits]

end CodePage

variable {charset : Charset} {text : String}

/-- Lines in, lines out: no line is lost, split or joined with another. -/
theorem feed_encoded (hcodec : charset.codec.IsAsciiCompatible)
    (htext : charset.codec.Represents text) (hcr : '\r' ∉ text.toList)
    (hend : text.toList.getLast? = some '\n') :
    ∃ bytes, charset.encode text = .ok bytes ∧ ∀ chunks, WithReturns bytes chunks.flatten →
      (LineFramer.feed {} chunks).1.map charset.decode = textLines text ∧
        (LineFramer.feed {} chunks).2.pending = [] := by
  obtain ⟨codec, trap⟩ := charset
  obtain ⟨page, hpage, rfl⟩ : ∃ page : CodePage, page.IsAsciiCompatible ∧ codec = page.codec := hcodec
  replace htext : page.Represents text := CodePage.represents_iff.mpr htext
  have hbytes : Charset.encode ⟨page.codec, trap⟩ text = .ok (text.toList.flatMap page.units) :=
    congrArg (Except.mapError Error.encoding) (CodePage.encode_of_represents htext trap)
  refine ⟨_, hbytes, fun chunks hchunks => ?_⟩
  obtain ⟨l, hl⟩ := List.getLast?_eq_some_iff.mp hend
  have hpush : LineFramer.feed {} chunks =
      ((l.splitOn '\n').map fun line => (line ++ ['\n']).flatMap page.units, {}) := by
    rw [LineFramer.feed_eq_push, LineFramer.push_of_filter_eq {} hchunks.filter_eq, LineFramer.push,
      filter_units hpage hcr, hl, List.nil_append, cutLines_units hpage]
  have hline : ∀ line ∈ l.splitOn '\n', page.decode ((line ++ ['\n']).flatMap page.units) =
      String.ofList (line ++ ['\n']) := by
    intro line hline
    apply CodePage.decode_units hpage
    intro c hc
    apply htext
    rw [hl]
    obtain hc | hc := List.mem_append.mp hc
    · exact List.mem_append_left _ (mem_of_mem_splitOn hline hc)
    · exact List.mem_append_right _ hc
  rw [hpush, textLines, hl, List.splitOn_append_cons_self, List.splitOn_nil, List.dropLast_concat]
  refine ⟨?_, rfl⟩
  rw [List.map_map]
  exact List.map_congr_left hline

end LabelPrinter

import LabelPrinter.Proofs.Command.Opening
import LabelPrinter.Proofs.Label.Fragments
import LabelPrinter.Proofs.Label.Header
import LabelPrinter.Reply.Framer

/-!
A reader that cuts a serialized label back into its commands: at line feeds, but for bitmaps, whose
header tells how many raster bytes to skip.
-/

namespace LabelPrinter.Reader

/-- How many bytes the first fragment has without its line feed. -/
def extent (bytes : List UInt8) : Nat :=
  match raster? bytes with
  | some (n, rest) => bytes.length - rest.length + n
  | none => bytes.idxOf lineFeed

/-- The first fragment and what comes behind it, unless the end comes first. -/
def cut? (bytes : List UInt8) : Option (List UInt8 × List UInt8) :=
  if bytes[extent bytes]? = some lineFeed then
    some (bytes.take (extent bytes + 1), bytes.drop (extent bytes + 1))
  else none

theorem cut_shorter {bytes fragment rest : List UInt8} (h : cut? bytes = some (fragment, rest)) :
    rest.length < bytes.length := by
  rw [cut?] at h
  split at h
  · next hget =>
    obtain ⟨-, rfl⟩ := Prod.mk.inj (Option.some.inj h)
    have hlt := (List.getElem?_eq_some_iff.mp hget).1
    rw [List.length_drop]
    omega
  · cases h

/-- The fragments, and what is left when no more can be cut off. -/
def read (bytes : List UInt8) : List (List UInt8) × List UInt8 :=
  match _h : cut? bytes with
  | some (fragment, rest) => (fragment :: (read rest).1, (read rest).2)
  | none => ([], bytes)
termination_by bytes.length
decreasing_by all_goals exact cut_shorter _h

variable {bytes rest : List UInt8} {c : Command}

theorem read_cons (h : extent (bytes ++ lineFeed :: rest) = bytes.length) :
    read (bytes ++ lineFeed :: rest) =
      ((bytes ++ [lineFeed]) :: (read rest).1, (read rest).2) := by
  have hget : (bytes ++ lineFeed :: rest)[bytes.length]? = some lineFeed := by
    rw [List.getElem?_append_right (Nat.le_refl _), Nat.sub_self]
    rfl
  have hsplit : bytes ++ lineFeed :: rest = (bytes ++ [lineFeed]) ++ rest := by
    rw [List.append_assoc, List.singleton_append]
  have hlength : bytes.length + 1 = (bytes ++ [lineFeed]).length := by
    rw [List.length_append, List.length_singleton]
  have hcut : cut? (bytes ++ lineFeed :: rest) = some (bytes ++ [lineFeed], rest) := by
    rw [cut?, h, if_pos hget, hlength, hsplit, List.drop_left, List.take_left]
  rw [read, hcut]

theorem raster_line (hp : Utf8.encode c.opening <+: bytes) (hc : ∀ d, c ≠ .bitmap d) :
    raster? bytes = none := by
  have hno : ¬ Utf8.encode "BITMAP " <+: bytes := by
    intro hb
    have hm := Command.mnemonic_eq_of_prefix (d := .bitmap {}) hp hb
    cases c with
    | bitmap d => exact hc d rfl
    | _ => exact absurd hm (by simp [Command.mnemonic])
  rw [raster?, after?, if_neg hno]
  rfl

theorem extent_line {s : String} (hr : raster? (Utf8.encode s ++ lineFeed :: rest) = none)
    (hs : '\n' ∉ s.toList) :
    extent (Utf8.encode s ++ lineFeed :: rest) = (Utf8.encode s).length := by
  have hnot : lineFeed ∉ Utf8.encode s := by
    intro h
    exact hs (Utf8.mem_of_byte_mem_encode (by decide) h)
  rw [extent, hr]
  exact (List.idxOf_append_of_notMem hnot).trans (by rw [List.idxOf_cons_self]; rfl)

theorem read_render {b : List UInt8} (h : c.render = .ok b) (ho : c.OneLine) :
    read (b ++ rest) = (b :: (read rest).1, (read rest).2) := by
  rcases Command.render_line h with ⟨l, hc, hl, rfl⟩ | ⟨d, l, rfl, -, -⟩
  · have hlf : Utf8.encode "\n" = [lineFeed] := rfl
    rw [Line.finish, Utf8.encode_append, hlf, List.append_assoc, List.singleton_append]
    apply read_cons
    have hp := hl.opening_prefix.trans (List.prefix_append _ (lineFeed :: rest))
    exact extent_line (raster_line hp hc) (hl.written.oneLine ho)
  · obtain ⟨x, y, w, k, hd, hsize, rfl⟩ := Bitmap.render_eq_ok.mp h
    have hlf : Utf8.encode "\n" = [lineFeed] := rfl
    rw [hlf, List.append_assoc, List.singleton_append]
    apply read_cons
    rw [extent, List.append_assoc, raster_header]
    simp only [List.length_append]
    omega

/-- A label that goes out is cut back into its commands, with nothing left over. -/
theorem read_serialize {l : Label} (hl : ∀ c ∈ l.commands, c.OneLine) {bytes : List UInt8}
    (h : l.serialize = .ok bytes) : ∃ fs, l.fragments = .ok fs ∧ read bytes = (fs, []) := by
  rw [Label.serialize_eq] at h
  obtain ⟨fs, hfs, rfl⟩ := Check.map_eq_ok.mp h
  refine ⟨fs, hfs, ?_⟩
  have hall := Label.fragments_eq_ok.mp hfs
  -- the reader does not look at the label, so the induction is on its commands alone
  clear h hfs
  generalize l.commands = cs at hl hall
  induction hall with
  | nil =>
    rw [List.flatten_nil, read]
    rfl
  | @cons c b cs fs hc _ ih =>
    have ih := ih fun d hd => hl d (List.mem_cons_of_mem c hd)
    rw [List.flatten_cons, read_render hc (hl c List.mem_cons_self), ih]

/-- A bitmap whose raster looks like a command of its own. -/
def disguised : Label :=
  ⟨[.cut, .bitmap ⟨some 0, some 0, some 4, some 1, .or, [67, 85, 84, 10]⟩, .clearBuffer]⟩

theorem read_serialize_disguised :
    (∀ c ∈ disguised.commands, c.OneLine) ∧
      disguised.serialize = .ok (Utf8.encode "CUT\nBITMAP 0,0,4,1,1,CUT\n\nCLS\n") ∧
      ∃ fs, disguised.fragments = .ok fs ∧
        read (Utf8.encode "CUT\nBITMAP 0,0,4,1,1,CUT\n\nCLS\n") = (fs, []) := by
  have hl : ∀ c ∈ disguised.commands, c.OneLine := by
    simp [disguised, Command.OneLine, Command.strings]
  have hs : disguised.serialize = .ok (Utf8.encode "CUT\nBITMAP 0,0,4,1,1,CUT\n\nCLS\n") := rfl
  exact ⟨hl, hs, read_serialize hl hs⟩

end LabelPrinter.Reader

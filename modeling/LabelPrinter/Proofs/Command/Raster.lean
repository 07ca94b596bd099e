import LabelPrinter.Proofs.Label.Header

/-!
A raster holds every dot of its picture in a bit of its own, so the picture is read back from the
bytes of the command.
-/

namespace LabelPrinter

/-- Which dots are dark enough to be printed, row by row. -/
def Gray.thresholded (g : Gray) (threshold : Nat) : List (List Bool) :=
  (List.range g.height).map fun y => (List.range g.width).map fun x => decide (g.luma x y ≤ threshold)

namespace Bitmap

/-- The bit of a raster for one dot: of eight dots in a row the first is the highest bit. -/
def bit? (raster : List UInt8) (rowBytes column row : Nat) : Option Bool :=
  raster[row * rowBytes + column / 8]?.map fun b => b.toNat.testBit (7 - column % 8)

def Prints (g : Gray) (threshold x y : Nat) : Prop := x < g.width ∧ g.luma x y ≤ threshold

instance (g : Gray) (threshold x y : Nat) : Decidable (Prints g threshold x y) := instDecidableAnd

variable {g : Gray} {threshold column row : Nat}

theorem testBit_cleared {i j : Nat} (byte : UInt8) (hi : i < 8) (hj : j < 8) :
    (byte &&& ~~~(0x80 >>> i.toUInt8)).toNat.testBit (7 - j) =
      (byte.toNat.testBit (7 - j) && decide (j ≠ i)) := by
  have hmask : ∀ i < 8, ∀ j < 8,
      (~~~((0x80 : UInt8) >>> i.toUInt8)).toNat.testBit (7 - j) = decide (j ≠ i) := by decide
  rw [UInt8.toNat_and, Nat.testBit_and, hmask i hi j hj]

theorem index_inj {n a b c d : Nat} (ha : a < n) (hc : c < n) (h : b * n + a = d * n + c) :
    b = d ∧ a = c := by
  have hpos : 0 < n := Nat.zero_lt_of_lt ha
  have hdiv := congrArg (· / n) h
  have hmod := congrArg (· % n) h
  simp only [Nat.mul_comm _ n, Nat.mul_add_div hpos, Nat.mul_add_mod, Nat.div_eq_of_lt ha,
    Nat.div_eq_of_lt hc, Nat.mod_eq_of_lt ha, Nat.mod_eq_of_lt hc, Nat.add_zero] at hdiv hmod
  exact ⟨hdiv, hmod⟩

theorem size_plot (data : Array UInt8) (dot : Nat × Nat) :
    (plot g threshold data dot).size = data.size := by
  rw [plot]
  split_ifs
  · exact Array.size_modify
  · rfl

/-- A dot is plotted in a bit of its own. -/
theorem bit?_plot {data : Array UInt8} {dot : Nat × Nat} (hdot : dot.1 < 8 * rowBytes g.width)
    (hc : column < 8 * rowBytes g.width) :
    bit? (plot g threshold data dot).toList (rowBytes g.width) column row =
      (bit? data.toList (rowBytes g.width) column row).map
        (· && !decide (dot = (column, row) ∧ g.luma column row ≤ threshold)) := by
  obtain ⟨x, y⟩ := dot
  rw [plot, bit?, bit?, Option.map_map, Array.getElem?_toList, Array.getElem?_toList]
  split_ifs with hprints
  · rw [Array.getElem?_modify]
    split_ifs with hindex
    · obtain ⟨rfl, hbyte⟩ := index_inj (by omega) (by omega) hindex
      rw [Option.map_map]
      congr 1
      funext byte
      rw [Function.comp_apply, Function.comp_apply,
        testBit_cleared byte (Nat.mod_lt x (by decide)) (Nat.mod_lt column (by decide))]
      congr 1
      rw [← decide_not, decide_eq_decide, not_iff_not, Prod.mk.injEq]
      constructor
      · intro hbit
        obtain rfl : x = column := by omega
        exact ⟨⟨rfl, rfl⟩, hprints⟩
      · rintro ⟨⟨rfl, -⟩, -⟩
        rfl
    · have hne : (x, y) ≠ (column, row) := by
        rintro ⟨⟩
        exact hindex rfl
      simp [hne, Function.comp_def]
  · have hno : ¬((x, y) = (column, row) ∧ g.luma column row ≤ threshold) := by
      rintro ⟨⟨⟩, h⟩
      exact hprints h
    simp only [decide_eq_false hno, Bool.not_false, Bool.and_true, Function.comp_def]

theorem size_plotted (data : Array UInt8) (dots : List (Nat × Nat)) :
    (dots.foldl (plot g threshold) data).size = data.size := by
  induction dots generalizing data with
  | nil => rfl
  | cons dot dots ih => rw [List.foldl_cons, ih, size_plot]

/-- Only the bits of dots that print are cleared, in whatever order the dots are plotted. -/
theorem bit?_plotted {data : Array UInt8} {dots : List (Nat × Nat)}
    (hdots : ∀ dot ∈ dots, dot.1 < 8 * rowBytes g.width) (hc : column < 8 * rowBytes g.width) :
    bit? (dots.foldl (plot g threshold) data).toList (rowBytes g.width) column row =
      (bit? data.toList (rowBytes g.width) column row).map
        (· && !decide ((column, row) ∈ dots ∧ g.luma column row ≤ threshold)) := by
  induction dots generalizing data with
  | nil => simp
  | cons dot dots ih =>
    rw [List.forall_mem_cons] at hdots
    rw [List.foldl_cons, ih hdots.2, bit?_plot hdots.1 hc, Option.map_map]
    congr 1
    funext white
    simp only [Function.comp_apply, List.mem_cons, or_and_right, Bool.decide_or, Bool.not_or,
      Bool.and_assoc, eq_comm]

theorem rowBytes_bounds (width : Nat) :
    width ≤ 8 * rowBytes width ∧ 8 * rowBytes width < width + 8 := by
  rw [rowBytes]
  omega

theorem length_raster (g : Gray) (threshold : Nat) :
    (raster g threshold).length = rowBytes g.width * g.height := by
  rw [raster, Array.length_toList, size_plotted, Array.size_replicate]

theorem mem_dots {dot : Nat × Nat} : dot ∈ g.dots ↔ dot.1 < g.width ∧ dot.2 < g.height := by
  obtain ⟨x, y⟩ := dot
  simp [Gray.dots, and_comm]

/-- A set bit stays white, and so does what is not of the picture. -/
theorem bit?_raster (hc : column < 8 * rowBytes g.width) (hr : row < g.height) (rest : List UInt8) :
    bit? (raster g threshold ++ rest) (rowBytes g.width) column row =
      some !decide (Prints g threshold column row) := by
  have hk : column / 8 < rowBytes g.width := by omega
  have hle : (row + 1) * rowBytes g.width ≤ g.height * rowBytes g.width :=
    Nat.mul_le_mul_right _ hr
  rw [Nat.succ_mul, Nat.mul_comm g.height] at hle
  have hin : row * rowBytes g.width + column / 8 < rowBytes g.width * g.height := by omega
  have hwhite : bit? (List.replicate (rowBytes g.width * g.height) 0xFF) (rowBytes g.width)
      column row = some true := by
    have hset : ∀ j < 8, (0xFF : UInt8).toNat.testBit (7 - j) = true := by decide
    rw [bit?, List.getElem?_replicate_of_lt hin, Option.map_some, hset _ (Nat.mod_lt _ (by decide))]
  have hdots : ∀ dot ∈ g.dots, dot.1 < 8 * rowBytes g.width := fun dot hdot =>
    (mem_dots.mp hdot).1.trans_le (rowBytes_bounds g.width).1
  have hfront : bit? (raster g threshold ++ rest) (rowBytes g.width) column row =
      bit? (raster g threshold) (rowBytes g.width) column row := by
    rw [bit?, bit?, List.getElem?_append_left (by rw [length_raster]; exact hin)]
  have hprints : (column, row) ∈ g.dots ∧ g.luma column row ≤ threshold ↔
      Prints g threshold column row := by simp [mem_dots, hr, Prints]
  rw [hfront, raster, bit?_plotted hdots hc, Array.toList_replicate, hwhite, Option.map_some,
    Bool.true_and, decide_eq_decide.mpr hprints]

end Bitmap

namespace Reader

/-- Which dots a bitmap command prints, row by row, the padding of the rows included. -/
def dots? (bytes : List UInt8) : Option (List (List Bool)) := do
  let rest ← after? (Utf8.encode "BITMAP ") bytes
  let (_, rest) ← decimal? rest
  let (_, rest) ← decimal? rest
  let (w, rest) ← decimal? rest
  let (h, rest) ← decimal? rest
  let (_, rest) ← decimal? rest
  return (List.range h).map fun row =>
    (List.range (8 * w)).map fun column => Bitmap.bit? rest w column row == some false

theorem dots_header (x y w h : Nat) (mode : BitmapMode) (rest : List UInt8) :
    dots? (Utf8.encode ((Bitmap.header x y w h mode).text ++ ",") ++ rest) =
      some ((List.range h).map fun row =>
        (List.range (8 * w)).map fun column => Bitmap.bit? rest w column row == some false) := by
  rw [encode_header]
  simp only [dots?, List.append_assoc, List.cons_append, List.nil_append]
  rw [after?_append]
  simp only [Option.bind_eq_bind, Option.bind_some, decimal_repr]
  rfl

end Reader

namespace Bitmap

/-- The raster of a picture, as it goes out in a bitmap command. -/
structure Exact (g : Gray) (x y threshold : Nat) (raster : List UInt8) : Prop where
  rendered : (ofGray x y g threshold).render = .ok (Utf8.encode ("BITMAP " ++ x.repr ++ "," ++
    y.repr ++ "," ++ (rowBytes g.width).repr ++ "," ++ g.height.repr ++ ",0,") ++ raster ++ [10])
  rows : g.width ≤ 8 * rowBytes g.width ∧ 8 * rowBytes g.width < g.width + 8
  length : raster.length = rowBytes g.width * g.height
  dots : ∀ column row, column < g.width → row < g.height →
    ∃ b, raster[row * rowBytes g.width + column / 8]? = some b ∧
      (b.toNat.testBit (7 - column % 8) = false ↔ g.luma column row ≤ threshold)
  padding : ∀ column row, g.width ≤ column → column < 8 * rowBytes g.width → row < g.height →
    ∃ b, raster[row * rowBytes g.width + column / 8]? = some b ∧
      b.toNat.testBit (7 - column % 8) = true
  recovered : ∀ bytes, (ofGray x y g threshold).render = .ok bytes →
    (Reader.dots? bytes).map (·.map (·.take g.width)) = some (g.thresholded threshold)

theorem header_text (x y w h : Nat) : (header x y w h .overwrite).text ++ "," =
    "BITMAP " ++ x.repr ++ "," ++ y.repr ++ "," ++ w.repr ++ "," ++ h.repr ++ ",0," := by
  have htext : (header x y w h .overwrite).text = "BITMAP " ++ x.repr ++ "," ++ y.repr ++ "," ++
      w.repr ++ "," ++ h.repr ++ "," ++ "0" := rfl
  rw [htext, String.append_assoc, String.append_assoc]
  rfl

theorem render_ofGray (g : Gray) (x y threshold : Nat) : (ofGray x y g threshold).render =
    .ok (Utf8.encode ((header x y (rowBytes g.width) g.height .overwrite).text ++ ",") ++
      (raster g threshold ++ [10])) := by
  rw [render_eq_ok]
  exact ⟨x, y, _, _, rfl, length_raster g threshold, List.append_assoc _ _ _⟩

theorem raster_exact (g : Gray) (x y threshold : Nat) :
    ∃ raster, Exact g x y threshold raster := by
  have hrows := rowBytes_bounds g.width
  have hbit : ∀ column row, column < 8 * rowBytes g.width → row < g.height →
      ∃ b, (raster g threshold)[row * rowBytes g.width + column / 8]? = some b ∧
        b.toNat.testBit (7 - column % 8) = !decide (Prints g threshold column row) := by
    intro column row hc hr
    apply Option.map_eq_some_iff.mp
    rw [← bit?_raster hc hr [], List.append_nil]
    rfl
  refine ⟨raster g threshold, ?_, hrows, length_raster g threshold, ?_, ?_, ?_⟩
  · rw [render_ofGray, header_text, List.append_assoc]
  · intro column row hc hr
    obtain ⟨b, hb, htest⟩ := hbit column row (by omega) hr
    refine ⟨b, hb, ?_⟩
    simp [htest, Prints, hc]
  · intro column row hc hin hr
    obtain ⟨b, hb, htest⟩ := hbit column row hin hr
    have hout : ¬ Prints g threshold column row := fun hp => absurd hp.1 (Nat.not_lt.mpr hc)
    exact ⟨b, hb, by rw [htest, decide_eq_false hout, Bool.not_false]⟩
  · intro bytes h
    rw [render_ofGray] at h
    obtain rfl := Except.ok.inj h
    rw [Reader.dots_header, Option.map_some, List.map_map, Gray.thresholded]
    refine congrArg some (List.map_congr_left fun row hrow => ?_)
    have hr := List.mem_range.mp hrow
    have htake : min g.width (8 * rowBytes g.width) = g.width := Nat.min_eq_left hrows.1
    rw [Function.comp_apply, ← List.map_take, List.take_range, htake]
    refine List.map_congr_left fun column hcolumn => ?_
    have hc := List.mem_range.mp hcolumn
    rw [bit?_raster (by omega) hr]
    simp [Prints, hc]

end Bitmap

end LabelPrinter

import LabelPrinter.Proofs.Command.SymbolLines
import LabelPrinter.Proofs.Line.Parameters
import LabelPrinter.Proofs.Number.Exact

/-!
Texts on the wire: which multipliers are accepted, and that they arrive as they were given. The
smallest one documented is one, but all above zero pass.
-/

namespace LabelPrinter

open Number

namespace Text

variable {c : Text} {m : Float} {b : List UInt8}

theorem value_zero : value 0 = 0 := by
  have h : (0 : Float).toModel.unpack = .zero .positive := rfl
  rw [value, h]

theorem value_ten : value 10 = 10 := by
  have h : (10 : Float).toModel.unpack = .finite .positive (10 * 2 ^ 49) (-49) (by decide) := rfl
  rw [value, h]
  norm_num [Float.Model.UnpackedFloat.Sign.apply]

theorem isMultiplier_iff :
    isMultiplier m = true ↔ m.isFinite = true ∧ 0 < value m ∧ value m ≤ 10 := by
  have h (hm : m.isFinite = true) : isMultiplier m = true ↔ 0 < value m ∧ value m ≤ 10 := by
    rw [isMultiplier, Bool.and_eq_true, decide_eq_true_eq, decide_eq_true_eq, lt_iff rfl hm,
      le_iff hm rfl, value_zero, value_ten]
  constructor
  · intro hm
    have hfin := isFinite_of_isMultiplier hm
    exact ⟨hfin, (h hfin).mp hm⟩
  · rintro ⟨hfin, hm⟩
    exact (h hfin).mpr hm

/-- All required parameters, with multipliers in that range. -/
def CompleteWith (range : ℚ → Prop) (c : Text) : Prop :=
  c.x.isSome ∧ c.y.isSome ∧ c.font.isSome ∧ c.content.isSome ∧
    (∃ m ∈ c.xMultiplier, m.isFinite = true ∧ range (value m)) ∧
    ∃ m ∈ c.yMultiplier, m.isFinite = true ∧ range (value m)

def Complete : Text → Prop := CompleteWith fun q => 0 < q ∧ q ≤ 10

theorem has_line_iff : (∃ l, c.line = .ok l) ↔ c.Complete := by
  obtain ⟨x, y, font, rotation, xm, ym, alignment, content⟩ := c
  simp only [line_eq_ok, isMultiplier_iff, Complete, CompleteWith, Option.isSome_iff_exists,
    Option.mem_def]
  constructor
  · rintro ⟨_, x, y, f, xm, ym, t, ⟨⟩, hx, hy, rfl⟩
    exact ⟨⟨x, rfl⟩, ⟨y, rfl⟩, ⟨f, rfl⟩, ⟨t, rfl⟩, ⟨xm, rfl, hx⟩, ym, rfl, hy⟩
  · rintro ⟨⟨x, rfl⟩, ⟨y, rfl⟩, ⟨f, rfl⟩, ⟨t, rfl⟩, ⟨xm, rfl, hx⟩, ym, rfl, hy⟩
    exact ⟨_, x, y, f, xm, ym, t, rfl, hx, hy, rfl⟩

/-- The parameters in front of the content. -/
def scaling (c : Text) (x y : Nat) (font : String) (xm ym : Float) : List String :=
  [x.repr, y.repr, quote font, c.rotation.degrees.repr, number xm, number ym]

def caption (c : Text) (content : String) : List String :=
  (c.alignment.map fun a => a.code.repr).toList ++ [quote content]

def sentText (c : Text) (x y : Nat) (font : String) (xm ym : Float) (content : String) : String :=
  ",".intercalate (c.scaling x y font xm ym ++ c.caption content)

theorem parts_eq (c : Text) (x y : Nat) (font : String) (xm ym : Float) (content : String) :
    [.nat x, .nat y, .quoted font, .nat c.rotation.degrees, .number xm, .number ym] ++
      given c.alignment (fun a => .nat a.code) ++ [.quoted content] =
      (c.scaling x y font xm ym ++ c.caption content).map Part.field := by
  rw [caption, scaling, given]
  cases c.alignment <;> rfl

theorem render_eq_ok : (Command.text c).render = .ok b ↔ ∃ x y font xm ym content,
    c = ⟨some x, some y, some font, c.rotation, some xm, some ym, c.alignment, some content⟩ ∧
      isMultiplier xm = true ∧ isMultiplier ym = true ∧
      b = Utf8.encode ("TEXT " ++ c.sentText x y font xm ym content ++ "\n") := by
  have hhead : "TEXT" ++ " " = "TEXT " := by decide
  simp only [Command.render, Check.map_eq_ok, line_eq_ok, parts_eq, sentText]
  constructor
  · rintro ⟨_, ⟨x, y, font, xm, ym, content, ec, hx, hy, rfl⟩, rfl⟩
    refine ⟨x, y, font, xm, ym, content, ec, hx, hy, ?_⟩
    rw [scaling, List.cons_append, Line.finish_fields, hhead]
  · rintro ⟨x, y, font, xm, ym, content, ec, hx, hy, rfl⟩
    refine ⟨_, ⟨x, y, font, xm, ym, content, ec, hx, hy, rfl⟩, ?_⟩
    rw [scaling, List.cons_append, Line.finish_fields, hhead]

theorem renders_iff : (∃ b, (Command.text c).render = .ok b) ↔ c.Complete := by
  rw [← has_line_iff]
  simp [Command.render]

theorem parameters_sentText {x y : Nat} {font : String} {xm ym : Float} {content : String}
    (hf : '"' ∉ font.toList) (hx : xm.isFinite = true) (hy : ym.isFinite = true) :
    (parameters (c.sentText x y font xm ym content)).take 6 = c.scaling x y font xm ym := by
  have hparams : ∀ t ∈ c.scaling x y font xm ym, IsParameter t.toList := by
    simp only [scaling, List.forall_mem_cons, List.not_mem_nil, false_imp_iff, implies_true,
      and_true]
    exact ⟨isParameter_repr x, isParameter_repr y, isParameter_quote hf,
      isParameter_repr _, isParameter_number hx, isParameter_number hy⟩
  have hcaption : c.caption content ≠ [] :=
    List.append_ne_nil_of_right_ne_nil _ (List.cons_ne_nil _ _)
  exact parameters_take hparams hcaption

theorem rounds_multiplier {n : Float} (h : isMultiplier m = true) :
    Rounds (reading (number m).toList) n ↔ n = m := by
  obtain ⟨hfin, hpos, -⟩ := isMultiplier_iff.mp h
  have hreads : Reads (number m) m := fun _ => rounds_number hfin
  exact hreads.eq hfin hpos.ne'

/-- Text is sent if and only if its multipliers are above zero and at most ten. They are the fifth
and sixth parameter, behind a font that a reader can tell the end of, and read as no other
numbers. -/
theorem text_multipliers (c : Text) : ((∃ b, (Command.text c).render = .ok b) ↔ c.Complete) ∧
    ∀ b, (Command.text c).render = .ok b → ∃ x y font xm ym content,
      c = ⟨some x, some y, some font, c.rotation, some xm, some ym, c.alignment, some content⟩ ∧
      b = Utf8.encode ("TEXT " ++ c.sentText x y font xm ym content ++ "\n") ∧
      ('"' ∉ font.toList →
        (parameters (c.sentText x y font xm ym content))[4]? = some (number xm) ∧
        (parameters (c.sentText x y font xm ym content))[5]? = some (number ym)) ∧
      (∀ m, Rounds (reading (number xm).toList) m ↔ m = xm) ∧
      ∀ m, Rounds (reading (number ym).toList) m ↔ m = ym := by
  refine ⟨renders_iff, fun b hb => ?_⟩
  obtain ⟨x, y, font, xm, ym, content, ec, hx, hy, rfl⟩ := render_eq_ok.mp hb
  refine ⟨x, y, font, xm, ym, content, ec, rfl, fun hf => ?_,
    fun _ => rounds_multiplier hx, fun _ => rounds_multiplier hy⟩
  have h := @parameters_sentText c x y font xm ym content hf (isFinite_of_isMultiplier hx)
    (isFinite_of_isMultiplier hy)
  constructor
  · rw [← List.getElem?_take_of_lt (by decide : 4 < 6), h]
    rfl
  · rw [← List.getElem?_take_of_lt (by decide : 5 < 6), h]
    rfl

theorem text_multipliers_enlarged :
    (Command.text ((Text.of 1 2 "3" "A").scaled 1.5 2)).render =
        .ok (Utf8.encode "TEXT 1,2,\"3\",0,1.5,2,\"A\"\n") ∧
      (∀ m, Rounds (reading ['1', '.', '5']) m ↔ m = 1.5) ∧
      ∀ m, Rounds (reading ['2']) m ↔ m = 2 := by
  have h : (Command.text ((Text.of 1 2 "3" "A").scaled 1.5 2)).render =
      .ok (Utf8.encode "TEXT 1,2,\"3\",0,1.5,2,\"A\"\n") := by decide +kernel
  obtain ⟨x, y, font, xm, ym, content, ec, -, -, hx, hy⟩ := (text_multipliers _).2 _ h
  simp only [Text.of, scaled, Text.mk.injEq, Option.some.injEq] at ec
  obtain ⟨-, -, -, -, rfl, rfl, -, -⟩ := ec
  have hxt : number 1.5 = "1.5" := by decide +kernel
  have hyt : number 2 = "2" := by decide +kernel
  rw [hxt] at hx
  rw [hyt] at hy
  exact ⟨h, hx, hy⟩

/-- The documented range. -/
def Documented : Text → Prop := CompleteWith fun q => 1 ≤ q ∧ q ≤ 10

theorem Documented.complete (h : c.Documented) : c.Complete := by
  obtain ⟨hx, hy, hf, ht, ⟨xm, hxm, hxf, hx1, hx10⟩, ym, hym, hyf, hy1, hy10⟩ := h
  exact ⟨hx, hy, hf, ht, ⟨xm, hxm, hxf, zero_lt_one.trans_le hx1, hx10⟩,
    ym, hym, hyf, zero_lt_one.trans_le hy1, hy10⟩

theorem renders_of_documented (h : c.Documented) : ∃ b, (Command.text c).render = .ok b :=
  renders_iff.mpr h.complete

theorem value_half : value 0.5 = 1 / 2 := by
  have h : (0.5 : Float).toModel.unpack = .finite .positive (2 ^ 52) (-53) (by decide) := rfl
  rw [value, h]
  norm_num [Float.Model.UnpackedFloat.Sign.apply]

/-- The converse does not hold: text of half the size is sent. -/
theorem shrunk_text_sent :
    ¬ Documented ((Text.of 1 2 "3" "A").scaled 0.5 1) ∧
      (Command.text ((Text.of 1 2 "3" "A").scaled 0.5 1)).render =
        .ok (Utf8.encode "TEXT 1,2,\"3\",0,0.5,1,\"A\"\n") := by
  constructor
  · rintro ⟨-, -, -, -, ⟨m, ⟨⟩, -, hm, -⟩, -⟩
    rw [value_half] at hm
    norm_num at hm
  · decide +kernel

end Text

end LabelPrinter

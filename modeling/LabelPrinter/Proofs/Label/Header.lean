import LabelPrinter.Proofs.Command.SymbolLines
import LabelPrinter.Proofs.Line.Peel
import LabelPrinter.Proofs.Charset.Encoding

/-!
A reader of bitmap headers, which tells how many raster bytes follow.
-/

namespace LabelPrinter.Reader

def isDigit (b : UInt8) : Bool := 48 ≤ b && b ≤ 57

def value (digits : List UInt8) : Nat := digits.foldl (fun n b => 10 * n + (b.toNat - 48)) 0

/-- A decimal number that a comma ends, and what comes behind the comma. -/
def decimal? (bytes : List UInt8) : Option (Nat × List UInt8) :=
  match bytes.takeWhile isDigit, bytes.dropWhile isDigit with
  | d :: ds, 44 :: rest => some (value (d :: ds), rest)
  | _, _ => none

def after? (start bytes : List UInt8) : Option (List UInt8) :=
  if start <+: bytes then some (bytes.drop start.length) else none

/-- The size of the raster that a bitmap header announces, and what comes behind the header. -/
def raster? (bytes : List UInt8) : Option (Nat × List UInt8) := do
  let rest ← after? (Utf8.encode "BITMAP ") bytes
  let (_, rest) ← decimal? rest
  let (_, rest) ← decimal? rest
  let (w, rest) ← decimal? rest
  let (h, rest) ← decimal? rest
  let (_, rest) ← decimal? rest
  return (w * h, rest)

theorem digit_bounds {c : Char} (h : c.isDigit = true) : 48 ≤ c.toNat ∧ c.toNat ≤ 57 := by
  simp only [Char.isDigit, Bool.and_eq_true, decide_eq_true_eq, ge_iff_le,
    UInt32.le_iff_toNat_le] at h
  exact h

theorem isDigit_byte {c : Char} (h : c.isDigit = true) : isDigit (Utf8.byte c) = true := by
  have hb := digit_bounds h
  have ht := Utf8.byte_toNat (c := c) (by omega)
  simp only [isDigit, Bool.and_eq_true, decide_eq_true_eq, UInt8.le_iff_toNat_le]
  rw [ht]
  exact hb

theorem value_digits {l : List Char} (h : ∀ c ∈ l, c.isDigit = true) :
    value (l.map Utf8.byte) = Nat.ofDigitChars 10 l 0 := by
  have fold : ∀ n, (l.map Utf8.byte).foldl (fun n b => 10 * n + (b.toNat - 48)) n =
      Nat.ofDigitChars 10 l n := by
    induction l with
    | nil => simp
    | cons c l ih =>
      intro n
      have hc := (digit_bounds (h c List.mem_cons_self)).2
      rw [List.map_cons, List.foldl_cons, ih fun d hd => h d (List.mem_cons_of_mem c hd),
        Nat.ofDigitChars_cons, Utf8.byte_toNat (by omega)]
      rfl
  exact fold 0

theorem encode_repr (n : Nat) : Utf8.encode n.repr = (Nat.toDigits 10 n).map Utf8.byte := by
  rw [← Nat.toList_repr]
  apply Utf8.encode_ascii
  intro c hc
  rw [Nat.toList_repr] at hc
  have := (digit_bounds (Number.isDigit_of_mem_written hc)).2
  omega

theorem decimal_repr (n : Nat) (rest : List UInt8) :
    decimal? (Utf8.encode n.repr ++ 44 :: rest) = some (n, rest) := by
  have hd : ∀ b ∈ (Nat.toDigits 10 n).map Utf8.byte, isDigit b = true := by
    intro b hb
    obtain ⟨c, hc, rfl⟩ := List.mem_map.mp hb
    exact isDigit_byte (Number.isDigit_of_mem_written hc)
  have hv : value ((Nat.toDigits 10 n).map Utf8.byte) = n := by
    rw [value_digits fun c hc => Number.isDigit_of_mem_written hc, Nat.ofDigitChars_ten_toDigits]
  rw [encode_repr, decimal?, List.takeWhile_append_of_pos hd, List.dropWhile_append_of_pos hd]
  have htake : (44 :: rest : List UInt8).takeWhile isDigit = [] := rfl
  have hdrop : (44 :: rest : List UInt8).dropWhile isDigit = 44 :: rest := rfl
  rw [htake, hdrop, List.append_nil]
  cases hl : (Nat.toDigits 10 n).map Utf8.byte with
  | nil => exact absurd (List.map_eq_nil_iff.mp hl) Nat.toDigits_ne_nil
  | cons d ds =>
    rw [hl] at hv
    exact congrArg (fun m => some (m, rest)) hv

theorem after?_append (start bytes : List UInt8) : after? start (start ++ bytes) = some bytes := by
  rw [after?, if_pos (List.prefix_append _ _), List.drop_left]

theorem encode_header (x y w h : Nat) (mode : BitmapMode) :
    Utf8.encode ((Bitmap.header x y w h mode).text ++ ",") =
      Utf8.encode "BITMAP " ++ (Utf8.encode x.repr ++ 44 :: (Utf8.encode y.repr ++ 44 ::
        (Utf8.encode w.repr ++ 44 :: (Utf8.encode h.repr ++ 44 ::
          (Utf8.encode mode.code.repr ++ [44]))))) := by
  have hcomma : Utf8.encode "," = [44] := rfl
  have htext : (Bitmap.header x y w h mode).text = "BITMAP " ++ x.repr ++ "," ++ y.repr ++ "," ++
      w.repr ++ "," ++ h.repr ++ "," ++ mode.code.repr := rfl
  rw [htext]
  simp only [Utf8.encode_append, hcomma, List.append_assoc, List.cons_append, List.nil_append]

theorem raster_header (x y w h : Nat) (mode : BitmapMode) (rest : List UInt8) :
    raster? (Utf8.encode ((Bitmap.header x y w h mode).text ++ ",") ++ rest) =
      some (w * h, rest) := by
  rw [encode_header]
  simp only [raster?, List.append_assoc, List.cons_append, List.nil_append]
  rw [after?_append]
  simp only [Option.bind_eq_bind, Option.bind_some, decimal_repr]
  rfl

end LabelPrinter.Reader

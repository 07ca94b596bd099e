import LabelPrinter.Proofs.Line.Plain

/-!
The characters of a line: printable ones and the escape character, but for the texts of the caller.
-/

namespace LabelPrinter

@[simp]
def isPrintable (c : Char) : Bool := c = '\x1b' || (32 ≤ c.toNat && c.toNat < 127)

/-- A kind of character that everything a line is made of belongs to, if the texts of the caller
do. -/
structure Alphabet where
  Has : Char → Prop
  has_printable : ∀ c, isPrintable c = true → Has c

namespace Alphabet

/-- All but the line feed, which ends a line. -/
def oneLine : Alphabet where
  Has c := c ≠ '\n'
  has_printable c hc h := by
    subst h
    cases hc

def ascii : Alphabet where
  Has c := c.toNat < 128
  has_printable c hc := by
    simp only [isPrintable, Bool.or_eq_true, Bool.and_eq_true, decide_eq_true_eq] at hc
    rcases hc with rfl | hc
    · decide
    · omega

def Spells (A : Alphabet) (s : String) : Prop := ∀ c ∈ s.toList, A.Has c

variable {A : Alphabet} {s t : String} {n : Nat} {ps qs : List Part}

@[simp]
theorem spells_of_printable (h : s.toList.all isPrintable = true) : A.Spells s :=
  fun c hc => A.has_printable c (List.all_eq_true.mp h c hc)

@[simp]
theorem spells_append : A.Spells (s ++ t) ↔ A.Spells s ∧ A.Spells t := by
  simp only [Spells, String.toList_append, List.mem_append, or_imp, forall_and]

theorem has_digit {c : Char} (h : c.isDigit = true) : A.Has c := by
  apply A.has_printable
  simp only [Char.isDigit, Bool.and_eq_true, decide_eq_true_eq, ge_iff_le,
    UInt32.le_iff_toNat_le] at h
  have hc : 48 ≤ c.toNat ∧ c.toNat ≤ 57 := h
  simp only [isPrintable, Bool.or_eq_true, Bool.and_eq_true, decide_eq_true_eq]
  omega

@[simp]
theorem spells_repr : A.Spells n.repr := fun _ hc => has_digit (digit_of_mem_repr hc)

theorem spells_number {x : Float} (hx : x.isFinite = true) : A.Spells (Part.number x).text := by
  intro c hc
  rcases Part.mem_number hx hc with h | rfl | rfl
  · exact has_digit h
  · exact A.has_printable _ rfl
  · exact A.has_printable _ rfl

@[simp]
theorem spells_nat : A.Spells (Part.nat n).text := spells_repr

@[simp]
theorem spells_flag {b : Bool} : A.Spells (Part.flag b).text := by
  cases b <;> exact spells_of_printable rfl

@[simp]
theorem spells_quoted : A.Spells (Part.quoted s).text ↔ A.Spells s := by
  simp [Part.quoted, quote, Part.text]

@[simp]
theorem spells_tagged : A.Spells (Part.tagged t n).text ↔ A.Spells t := by
  simp [Part.tagged, Part.text]

theorem spells_length {u : Measure} {x : Float} (hx : x.isFinite = true) :
    A.Spells (u.length x).text := by
  have hu : A.Spells u.suffix := by cases u <;> exact spells_of_printable rfl
  have hn : A.Spells (LabelPrinter.number x) := spells_number hx
  simp [Measure.length, Part.text, hn, hu]

def SpellsParts (A : Alphabet) (ps : List Part) : Prop := ∀ p ∈ ps, A.Spells p.text

@[simp]
theorem spellsParts_nil : A.SpellsParts [] := fun _ hp => absurd hp List.not_mem_nil

@[simp]
theorem spellsParts_cons {p : Part} :
    A.SpellsParts (p :: ps) ↔ A.Spells p.text ∧ A.SpellsParts ps := List.forall_mem_cons

@[simp]
theorem spellsParts_append : A.SpellsParts (ps ++ qs) ↔ A.SpellsParts ps ∧ A.SpellsParts qs :=
  List.forall_mem_append

@[simp]
theorem spellsParts_given {α : Type} {o : Option α} {f : α → Part} :
    A.SpellsParts (given o f) ↔ ∀ a ∈ o, A.Spells (f a).text := forall_mem_given

/-- What stands between the parts of a line is printable. -/
theorem spells_line {head : String} (hh : A.Spells head) (hp : A.SpellsParts ps) :
    A.Spells (Line.of head ps).text := by
  have fold : ∀ l : Line, A.Spells l.text → A.Spells (ps.foldl Line.add l).text := by
    induction ps with
    | nil => exact fun l hl => hl
    | cons p ps ih =>
      intro l hl
      obtain ⟨hp', hps⟩ := spellsParts_cons.mp hp
      apply ih hps
      cases p with
      | field s =>
        have hs : A.Spells s := hp'
        by_cases h0 : l.fields = 0 <;> simp [Line.add, h0, hl, hs]
      | word s =>
        have hs : A.Spells s := hp'
        simp [Line.add, hl, hs]
      | raw s =>
        have hs : A.Spells s := hp'
        simp [Line.add, hl, hs]
  exact fold (Line.start head) hh

end Alphabet

end LabelPrinter

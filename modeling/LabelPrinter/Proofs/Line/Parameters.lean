import LabelPrinter.Proofs.Line.Plain

/-!
The parameters of a line, cut apart at the commas that are not between quotes.
-/

namespace LabelPrinter

/-- The text in front of the first comma outside quotes, and so on; `quoted` tells whether the text
begins between quotes. -/
def parametersFrom (quoted : Bool) : List Char → List (List Char)
  | [] => [[]]
  | c :: t =>
    if c = ',' ∧ quoted = false then [] :: parametersFrom false t
    else
      match parametersFrom (if c = '"' then !quoted else quoted) t with
      | [] => [[c]]
      | p :: ps => (c :: p) :: ps

def parameters (s : String) : List String := (parametersFrom false s.toList).map String.ofList

/-- A comma behind the text ends it as one parameter. -/
def IsParameter (t : List Char) : Prop :=
  ∀ r, parametersFrom false (t ++ ',' :: r) = t :: parametersFrom false r

variable {t r : List Char}

theorem parametersFrom_next {quoted : Bool} {c : Char} {p : List Char} {ps : List (List Char)}
    (hc : c ≠ ',' ∨ quoted = true)
    (h : parametersFrom (if c = '"' then !quoted else quoted) t = p :: ps) :
    parametersFrom quoted (c :: t) = (c :: p) :: ps := by
  have hcut : ¬ (c = ',' ∧ quoted = false) := by
    rintro ⟨h1, h2⟩
    rcases hc with hc | hc
    · exact hc h1
    · rw [h2] at hc
      cases hc
  rw [parametersFrom, if_neg hcut, h]

theorem isParameter_of_plain (h : ∀ c ∈ t, c ≠ ',' ∧ c ≠ '"') : IsParameter t := by
  intro r
  induction t with
  | nil => rfl
  | cons c t ih =>
    obtain ⟨hc, hq⟩ := h c List.mem_cons_self
    have ht := ih fun d hd => h d (List.mem_cons_of_mem c hd)
    exact parametersFrom_next (.inl hc) (by rwa [if_neg hq])

theorem parametersFrom_quoted (h : '"' ∉ t) : parametersFrom true (t ++ '"' :: ',' :: r) =
    (t ++ ['"']) :: parametersFrom false r := by
  induction t with
  | nil =>
    exact parametersFrom_next (.inr rfl) rfl
  | cons c t ih =>
    have hc : c ≠ '"' := fun hc => h (hc ▸ List.mem_cons_self)
    have ht := ih fun hmem => h (List.mem_cons_of_mem c hmem)
    exact parametersFrom_next (.inr rfl) (by rwa [if_neg hc])

theorem isParameter_quote {s : String} (h : '"' ∉ s.toList) : IsParameter (quote s).toList := by
  intro r
  have ht : (quote s).toList = '"' :: (s.toList ++ ['"']) := by simp [quote]
  rw [ht, List.cons_append, List.append_assoc]
  exact parametersFrom_next (.inl (by decide)) (parametersFrom_quoted h)

theorem isParameter_repr (n : Nat) : IsParameter n.repr.toList := by
  apply isParameter_of_plain
  intro c hc
  have hd := digit_of_mem_repr hc
  constructor <;> rintro rfl <;> exact absurd hd (by decide)

theorem isParameter_number {x : Float} (hx : x.isFinite = true) :
    IsParameter (number x).toList := by
  apply isParameter_of_plain
  intro c hc
  rcases Part.mem_number hx hc with hd | rfl | rfl
  · constructor <;> rintro rfl <;> exact absurd hd (by decide)
  · decide
  · decide

/-- What comes in front of parameters that may have quotes in them is read back. -/
theorem parameters_take {ts us : List String} (ht : ∀ t ∈ ts, IsParameter t.toList) (hu : us ≠ []) :
    (parameters (",".intercalate (ts ++ us))).take ts.length = ts := by
  induction ts with
  | nil => rfl
  | cons t ts ih =>
    have hne : ts ++ us ≠ [] := List.append_ne_nil_of_right_ne_nil ts hu
    have htext : (",".intercalate (t :: (ts ++ us))).toList =
        t.toList ++ ',' :: (",".intercalate (ts ++ us)).toList := by
      rw [String.intercalate_cons_of_ne_nil hne, String.toList_append, String.toList_append,
        List.append_assoc]
      rfl
    have hrest := ih fun u hmem => ht u (List.mem_cons_of_mem t hmem)
    rw [List.cons_append, parameters, htext, ht t List.mem_cons_self, List.map_cons,
      String.ofList_toList, List.length_cons, List.take_succ_cons]
    exact congrArg (t :: ·) hrest

end LabelPrinter

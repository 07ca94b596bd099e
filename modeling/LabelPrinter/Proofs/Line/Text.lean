import LabelPrinter.Command.Layout
import LabelPrinter.Proofs.Charset.Encoding
import LabelPrinter.Proofs.Number.Zero

/-!
The text of a line from its parts.
-/

namespace LabelPrinter

namespace Part

def text : Part → String
  | .field s | .word s | .raw s => s

/-- The part with what comes before it on a line that has a field already. -/
def later : Part → List Char
  | .field s => ',' :: s.toList
  | .word s => ' ' :: s.toList
  | .raw s => s.toList

def IsField (p : Part) : Prop := ∃ s, p = .field s

variable {a : String} {m n : Nat} {p q : Bool}

theorem text_field : (Part.field a).text = a := rfl

@[simp]
theorem nat_inj : Part.nat m = .nat n ↔ m = n := by
  rw [nat, nat, Part.field.injEq, Number.repr_inj]

@[simp]
theorem flag_inj : Part.flag p = .flag q ↔ p = q := by
  cases p <;> cases q <;> decide

@[simp]
theorem tagged_inj {t : String} : Part.tagged t m = .tagged t n ↔ m = n := by
  rw [tagged, tagged, Part.field.injEq, String.append_right_inj, Number.repr_inj]

theorem switch_inj {t : String} : Part.tagged t p.toNat = .tagged t q.toNat ↔ p = q := by
  rw [tagged_inj]
  cases p <;> cases q <;> decide

end Part

section Given

variable {α : Type} {o : Option α} {f : α → Part} {P : Part → Prop}

@[simp]
theorem forall_mem_given : (∀ p ∈ given o f, P p) ↔ ∀ a ∈ o, P (f a) := by
  cases o <;> simp [given]

theorem given_inj {o' : Option α} (hf : ∀ a b, f a = f b → a = b)
    (h : given o f = given o' f) : o = o' := by
  cases o <;> cases o' <;> simp only [given, Option.map_none, Option.map_some, Option.toList_none,
    Option.toList_some, List.cons.injEq, reduceCtorEq, and_true] at h
  · rfl
  · rw [hf _ _ h]

end Given

namespace Line

variable {l : Line} {ps : List Part} {head : String}

theorem foldl_text (hl : l.fields ≠ 0 ∨ ∀ p ∈ ps, ¬ p.IsField) :
    (ps.foldl add l).text.toList = l.text.toList ++ ps.flatMap Part.later := by
  induction ps generalizing l with
  | nil => simp
  | cons p ps ih =>
    have hp : (l.add p).text.toList = l.text.toList ++ p.later := by
      cases p with
      | field s =>
        have h0 : l.fields ≠ 0 := hl.resolve_right fun h => h _ List.mem_cons_self ⟨s, rfl⟩
        simp [add, h0, Part.later]
      | word s => simp [add, Part.later]
      | raw s => simp [add, Part.later]
    have hl' : (l.add p).fields ≠ 0 ∨ ∀ q ∈ ps, ¬ q.IsField := by
      rcases hl with h | h
      · cases p <;> simp [add, h]
      · exact .inr fun q hq => h q (List.mem_cons_of_mem p hq)
    rw [List.foldl_cons, ih hl', hp, List.flatMap_cons, List.append_assoc]

theorem of_field (s : String) (ps : List Part) :
    (Line.of head (.field s :: ps)).text.toList =
      head.toList ++ ' ' :: s.toList ++ ps.flatMap Part.later := by
  rw [of, List.foldl_cons, foldl_text (.inl (Nat.succ_ne_zero _))]
  simp [add, start]

theorem toList_intercalate (t : String) (ts : List String) :
    (",".intercalate (t :: ts)).toList = t.toList ++ (ts.map Part.field).flatMap Part.later := by
  induction ts generalizing t with
  | nil => simp
  | cons u ts ih =>
    rw [String.intercalate_cons_cons, String.toList_append, String.toList_append, ih u]
    simp [Part.later]

/-- Fields are joined by commas, behind a space. -/
theorem of_fields (t : String) (ts : List String) :
    (Line.of head ((t :: ts).map .field)).text = head ++ " " ++ ",".intercalate (t :: ts) := by
  apply String.toList_inj.mp
  rw [List.map_cons, of_field, String.toList_append, String.toList_append, toList_intercalate]
  simp

theorem finish_fields (t : String) (ts : List String) :
    (Line.of head ((t :: ts).map .field)).finish =
      Utf8.encode (head ++ " " ++ ",".intercalate (t :: ts) ++ "\n") := by
  rw [finish, of_fields]

theorem of_words (h : ∀ p ∈ ps, ¬ p.IsField) :
    (Line.of head ps).text.toList = head.toList ++ ps.flatMap Part.later :=
  foldl_text (.inr h)

theorem finish_injective {l l' : Line} (h : l.finish = l'.finish) : l.text = l'.text :=
  (String.append_left_inj _).mp (Utf8.encode_injective h)

end Line

end LabelPrinter

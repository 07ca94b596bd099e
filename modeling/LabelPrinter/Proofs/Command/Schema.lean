import LabelPrinter.Proofs.Command.Checks
import LabelPrinter.Proofs.Line.Text
import Mathlib.Data.List.Basic

/-!
A command as the row of its parameters, and what it takes to leave one of them out without touching
the others.
-/

namespace LabelPrinter

open Check

/-- Whether a parameter may be left out: never, at any time, or only as long as no other chained one
is given behind it. -/
inductive Need where
  | fixed
  | free
  | chained
  deriving DecidableEq, Repr

/-- A parameter of a command: what it adds to the line, and the command without it. If it can be left
out, it is one field where it is given. -/
structure Parameter (γ : Type) where
  need : Need
  parts : γ → List Part
  clear : γ → γ
  single : need ≠ .fixed → ∀ c, parts (clear c) = [] ∧ (parts c ≠ [] → ∃ t, parts c = [.field t])

/-- A kind of command with its parameters in the order of the protocol. -/
structure Schema (γ : Type) where
  head : String
  wrap : γ → Command
  line : γ → Checked Line
  parameters : List (Parameter γ)

section

variable {γ : Type}

namespace Parameter

variable {α : Type}

def fixed (value : γ → Option α) (part : α → Part) (clear : γ → γ) : Parameter γ where
  need := .fixed
  parts c := given (value c) part
  clear := clear
  single h := absurd rfl h

theorem single_given {o : Option α} {text : α → String} (h : given o (.field <| text ·) ≠ []) :
    ∃ t, given o (.field <| text ·) = [.field t] := by
  cases o with
  | none => exact absurd rfl h
  | some a => exact ⟨text a, rfl⟩

def option (need : Need) (value : γ → Option α) (text : α → String) (clear : γ → γ)
    (hclear : ∀ c, value (clear c) = none) : Parameter γ where
  need := need
  parts c := given (value c) (.field <| text ·)
  clear := clear
  single _ c := ⟨congrArg (given · _) (hclear c), single_given⟩

section

variable (need : Need) (value : γ → Option α) (part : α → Part) (text : α → String) (clear : γ → γ)
  (hclear : ∀ c, value (clear c) = none) (c : γ)

@[simp]
theorem fixed_parts : (fixed value part clear).parts c = given (value c) part := rfl

@[simp]
theorem fixed_clear : (fixed value part clear).clear c = clear c := rfl

@[simp]
theorem option_parts :
    (option need value text clear hclear).parts c = given (value c) (.field <| text ·) := rfl

@[simp]
theorem option_clear : (option need value text clear hclear).clear c = clear c := rfl

end

/-- Neither of two parameters has any part in the other. -/
def Apart (p q : Parameter γ) : Prop :=
  ∀ c, q.parts (p.clear c) = q.parts c ∧ p.parts (q.clear c) = p.parts c

end Parameter

def cleared (ps : List (Parameter γ)) (c : γ) : γ := ps.foldl (fun c p => p.clear c) c

namespace Schema

/-- Each of these parameters can be left out where its need allows it. -/
def Spares (S : Schema γ) (c : γ) : List (Parameter γ) → Prop
  | [] => True
  | p :: ps => (p.need ≠ .fixed → (p.need = .chained → ∀ q ∈ ps, q.need = .chained → q.parts c = []) →
      ∃ l, S.line (p.clear c) = .ok l) ∧ S.Spares c ps

structure Lawful (S : Schema γ) : Prop where
  render_eq : ∀ c, (S.wrap c).render = Line.finish <$> S.line c
  line_eq : ∀ c l, S.line c = .ok l → l = .of S.head (S.parameters.flatMap (·.parts c))
  begun : ∃ p ps, S.parameters = p :: ps ∧ p.need = .fixed ∧
    ∀ c l, S.line c = .ok l → ∃ s, p.parts c = [.field s]
  apart : S.parameters.Pairwise Parameter.Apart
  spares : ∀ c l, S.line c = .ok l → S.Spares c S.parameters

section

variable {S : Schema γ} {c : γ} {ps : List (Parameter γ)} {α : Type} {value : γ → Option α}
  {part : α → Part} {text : α → String} {clear : γ → γ} {hclear : ∀ c, value (clear c) = none}

@[simp]
theorem spares_nil : S.Spares c [] := trivial

@[simp]
theorem spares_fixed : S.Spares c (.fixed value part clear :: ps) ↔ S.Spares c ps :=
  and_iff_right fun h => absurd rfl h

@[simp]
theorem spares_free : S.Spares c (.option .free value text clear hclear :: ps) ↔
    (∃ l, S.line (clear c) = .ok l) ∧ S.Spares c ps :=
  and_congr_left fun _ => ⟨fun h => h nofun nofun, fun h _ _ => h⟩

@[simp]
theorem spares_chained : S.Spares c (.option .chained value text clear hclear :: ps) ↔
    ((∀ q ∈ ps, q.need = .chained → q.parts c = []) → ∃ l, S.line (clear c) = .ok l) ∧
      S.Spares c ps :=
  and_congr_left fun _ => ⟨fun h hq => h nofun fun _ => hq, fun h _ hq => h (hq rfl)⟩

end

/-- A parameter that is given is one field of the line. To clear it takes this field out, and leaves
what comes before it, which depends on the parameters before it only, and what comes behind it. -/
def Clears (S : Schema γ) : Prop :=
  ∀ before p after, S.parameters = before ++ p :: after → p.need ≠ .fixed →
    ∃ front back : γ → List UInt8, ∀ c b, (S.wrap c).render = .ok b → p.parts c ≠ [] →
      (p.need = .chained → ∀ q ∈ after, q.need = .chained → q.parts c = []) →
      ∃ t, p.parts c = [.field t] ∧ p.parts (cleared (before ++ after) c) = [.field t] ∧
        b = front (cleared (p :: after) c) ++ Utf8.encode ("," ++ t) ++
          back (cleared (before ++ [p]) c) ∧
        (S.wrap (p.clear c)).render =
          .ok (front (cleared (p :: after) c) ++ back (cleared (before ++ [p]) c))

end Schema

namespace Parameter

variable {p q : Parameter γ} {ps qs : List (Parameter γ)}

theorem Apart.symm (h : p.Apart q) : q.Apart p := fun c => ⟨(h c).2, (h c).1⟩

theorem parts_cleared (h : ∀ p ∈ ps, p.Apart q) (c : γ) : q.parts (cleared ps c) = q.parts c := by
  induction ps generalizing c with
  | nil => rfl
  | cons p ps ih =>
    have hrest := ih (fun r hr => h r (List.mem_cons_of_mem _ hr)) (p.clear c)
    exact hrest.trans (h p List.mem_cons_self c).1

theorem flatMap_cleared (h : ∀ p ∈ ps, ∀ q ∈ qs, p.Apart q) (c : γ) :
    qs.flatMap (·.parts (cleared ps c)) = qs.flatMap (·.parts c) :=
  List.flatMap_congr fun q hq => parts_cleared (fun p hp => h p hp q hq) c

end Parameter

/-- The line from these parts on to its end. -/
def Line.rest (ps : List Part) : List UInt8 :=
  Utf8.encode (String.ofList (ps.flatMap Part.later) ++ "\n")

theorem Line.rest_field (t : String) (ps : List Part) :
    rest (.field t :: ps) = Utf8.encode ("," ++ t) ++ rest ps := by
  rw [rest, rest, ← Utf8.encode_append]
  congr 1
  apply String.toList_inj.mp
  simp [Part.later]

/-- A line that has a field goes on after any of its parts in the same way. -/
theorem Line.finish_append (head s : String) (ps qs : List Part) :
    (Line.of head (.field s :: ps ++ qs)).finish =
      Utf8.encode (Line.of head (.field s :: ps)).text ++ rest qs := by
  rw [finish, rest, ← Utf8.encode_append]
  congr 1
  apply String.toList_inj.mp
  rw [List.cons_append, String.toList_append, of_field, String.toList_append, of_field]
  simp only [String.toList_append, String.toList_ofList, List.flatMap_append, List.append_assoc,
    List.cons_append]

namespace Schema.Lawful

variable {S : Schema γ} {before after : List (Parameter γ)} {p : Parameter γ}

theorem spares_at {c : γ} {ps : List (Parameter γ)} (h : S.Spares c (ps ++ p :: after)) :
    p.need ≠ .fixed → (p.need = .chained → ∀ q ∈ after, q.need = .chained → q.parts c = []) →
      ∃ l, S.line (p.clear c) = .ok l := by
  induction ps with
  | nil => exact h.1
  | cons q ps ih => exact ih h.2

theorem apart_at (h : S.Lawful) (hsplit : S.parameters = before ++ p :: after) :
    (∀ q ∈ before, q.Apart p) ∧ (∀ r ∈ after, p.Apart r) ∧
      ∀ q ∈ before, ∀ r ∈ after, q.Apart r := by
  have hapart := h.apart
  rw [hsplit, List.pairwise_append, List.pairwise_cons] at hapart
  obtain ⟨-, ⟨hafter, -⟩, hbefore⟩ := hapart
  exact ⟨fun q hq => hbefore q hq p List.mem_cons_self, hafter,
    fun q hq r hr => hbefore q hq r (List.mem_cons_of_mem p hr)⟩

/-- The parts before a parameter that can be left out begin with a field. -/
theorem begun_before (h : S.Lawful) (hsplit : S.parameters = before ++ p :: after)
    (hp : p.need ≠ .fixed) {c : γ} {l : Line} (hl : S.line c = .ok l) :
    ∃ s ps, before.flatMap (·.parts c) = .field s :: ps := by
  obtain ⟨first, ps, hfirst, hfixed, hfield⟩ := h.begun
  obtain ⟨s, hs⟩ := hfield c l hl
  rw [hsplit] at hfirst
  cases before with
  | nil =>
    obtain ⟨rfl, -⟩ := List.cons.inj hfirst
    exact absurd hfixed hp
  | cons q before =>
    obtain ⟨rfl, -⟩ := List.cons.inj hfirst
    refine ⟨s, before.flatMap (·.parts c), ?_⟩
    rw [List.flatMap_cons, hs]
    rfl

theorem finish_given (h : S.Lawful) (hsplit : S.parameters = before ++ p :: after)
    (hp : p.need ≠ .fixed) {c : γ} {l : Line} (hl : S.line c = .ok l) {t : String}
    (ht : p.parts c = [.field t]) :
    l.finish = Utf8.encode (Line.of S.head (before.flatMap (·.parts c))).text ++
      Utf8.encode ("," ++ t) ++ Line.rest (after.flatMap (·.parts c)) := by
  obtain ⟨s, ps, hs⟩ := h.begun_before hsplit hp hl
  rw [h.line_eq c l hl, hsplit, List.flatMap_append, List.flatMap_cons, ht, hs,
    List.singleton_append, Line.finish_append, Line.rest_field, List.append_assoc]

theorem finish_clear (h : S.Lawful) (hsplit : S.parameters = before ++ p :: after)
    (hp : p.need ≠ .fixed) {c : γ} {l l' : Line} (hl : S.line c = .ok l)
    (hl' : S.line (p.clear c) = .ok l') (hgone : p.parts (p.clear c) = []) :
    l'.finish = Utf8.encode (Line.of S.head (before.flatMap (·.parts c))).text ++
      Line.rest (after.flatMap (·.parts c)) := by
  obtain ⟨s, ps, hs⟩ := h.begun_before hsplit hp hl
  obtain ⟨hbefore, hafter, -⟩ := h.apart_at hsplit
  have hfront : before.flatMap (·.parts (p.clear c)) = before.flatMap (·.parts c) :=
    List.flatMap_congr fun q hq => (hbefore q hq c).2
  have hback : after.flatMap (·.parts (p.clear c)) = after.flatMap (·.parts c) :=
    List.flatMap_congr fun r hr => (hafter r hr c).1
  rw [h.line_eq _ l' hl', hsplit, List.flatMap_append, List.flatMap_cons, hgone, List.nil_append,
    hfront, hback, hs, Line.finish_append]

theorem clears (h : S.Lawful) : S.Clears := by
  intro before p after hsplit hp
  obtain ⟨hbp, hpa, hba⟩ := h.apart_at hsplit
  refine ⟨fun c => Utf8.encode (Line.of S.head (before.flatMap (·.parts c))).text,
    fun c => Line.rest (after.flatMap (·.parts c)), ?_⟩
  intro c b hb hgiven hchain
  -- each side of the parameter is blind to the other side and to the parameter itself
  have hfront : before.flatMap (·.parts (cleared (p :: after) c)) = before.flatMap (·.parts c) := by
    refine Parameter.flatMap_cleared (fun r hr q hq => ?_) c
    obtain rfl | hr := List.mem_cons.mp hr
    · exact (hbp q hq).symm
    · exact (hba q hq r hr).symm
  have hback : after.flatMap (·.parts (cleared (before ++ [p]) c)) = after.flatMap (·.parts c) := by
    refine Parameter.flatMap_cleared (fun q hq r hr => ?_) c
    obtain hq | hq := List.mem_append.mp hq
    · exact hba q hq r hr
    · exact List.mem_singleton.mp hq ▸ hpa r hr
  have hown : p.parts (cleared (before ++ after) c) = p.parts c := by
    refine Parameter.parts_cleared (fun q hq => ?_) c
    obtain hq | hq := List.mem_append.mp hq
    · exact hbp q hq
    · exact (hpa q hq).symm
  obtain ⟨hgone, hfield⟩ := p.single hp c
  obtain ⟨t, ht⟩ := hfield hgiven
  rw [h.render_eq, map_eq_ok] at hb
  obtain ⟨l, hl, rfl⟩ := hb
  have hspares := h.spares c l hl
  rw [hsplit] at hspares
  obtain ⟨l', hl'⟩ := spares_at hspares hp hchain
  beta_reduce
  rw [hfront, hback]
  refine ⟨t, ht, hown.trans ht, h.finish_given hsplit hp hl ht, ?_⟩
  rw [h.render_eq, hl', ← h.finish_clear hsplit hp hl hl' hgone]
  rfl

end Schema.Lawful

end

end LabelPrinter

import LabelPrinter.Proofs.Command.Validity
import LabelPrinter.Proofs.Command.Decoding.Symbol

/-!
Codablock and DataMatrix symbols read back from their lines. Their last two options have no tags
and either can be given without the other, so that a lone second one is read as the first.
-/

namespace LabelPrinter

open LabelPrinter.Part Line

/-- Two options in a row, the second in the place of the first where that is absent. -/
def closedUp {α : Type} (a b : Option α) : Option α × Option α := (a <|> b, a.bind fun _ => b)

section ClosedUp

variable {a b a' b' : Option Nat}

theorem given_closedUp (a b : Option Nat) :
    given (closedUp a b).1 nat ++ given (closedUp a b).2 nat = given a nat ++ given b nat := by
  cases a <;> cases b <;> rfl

theorem closedUp_inj (h : given a nat ++ given b nat = given a' nat ++ given b' nat) :
    closedUp a b = closedUp a' b' := by
  cases a <;> cases b <;> cases a' <;> cases b' <;> simp_all [given, closedUp]

/-- An option behind an absent one is the only one to move. -/
theorem closedUp_eq_self : closedUp a b = (a, b) ↔ (b.isSome → a.isSome) := by
  cases a <;> cases b <;> simp [closedUp]

theorem eq_of_closedUp (h : closedUp a b = closedUp a' b') (hs : a.isSome = a'.isSome) :
    a = a' ∧ b = b' := by
  cases a with
  | none =>
    cases a' with
    | none => exact ⟨rfl, congrArg Prod.fst h⟩
    | some n => cases hs
  | some n =>
    cases a' with
    | none => cases hs
    | some k => exact ⟨congrArg Prod.fst h, congrArg Prod.snd h⟩

end ClosedUp

/-- Two options of a command that stand one behind the other and have no tags. -/
structure Untagged (γ : Type) where
  options : γ → Option Nat × Option Nat
  replace : γ → Option Nat × Option Nat → γ
  options_replace : ∀ c p, options (replace c p) = p
  replace_options : ∀ c, replace c (options c) = c
  replace_replace : ∀ c p q, replace (replace c p) q = replace c q

namespace Untagged

variable {γ : Type} (u : Untagged γ) {c d : γ}

def closedUp (c : γ) : γ :=
  u.replace c (LabelPrinter.closedUp (u.options c).1 (u.options c).2)

def InOrder (c : γ) : Prop := (u.options c).2.isSome → (u.options c).1.isSome

variable {u}

theorem closedUp_of_inOrder (h : u.InOrder c) : u.closedUp c = c := by
  rw [closedUp, closedUp_eq_self.mpr h]
  exact u.replace_options c

theorem eq_of_inOrder (hc : u.InOrder c) (hd : u.InOrder d) (h : u.closedUp c = u.closedUp d) :
    c = d := by
  rwa [closedUp_of_inOrder hc, closedUp_of_inOrder hd] at h

theorem eq_iff_of_closedUp (h : u.closedUp c = u.closedUp d) :
    c = d ↔ (u.options c).1.isSome = (u.options d).1.isSome := by
  refine ⟨fun hcd => hcd ▸ rfl, fun hs => ?_⟩
  have hback (b : γ) : u.replace (u.closedUp b) (u.options b) = b := by
    rw [closedUp, u.replace_replace, u.replace_options]
  have hclosed := congrArg u.options h
  rw [closedUp, closedUp, u.options_replace, u.options_replace] at hclosed
  obtain ⟨hfirst, hsecond⟩ := eq_of_closedUp hclosed hs
  rw [← hback c, h, Prod.ext hfirst hsecond, hback d]

end Untagged

def Command.SameBytes (c d : Command) : Prop := ∃ b, c.render = .ok b ∧ d.render = .ok b

variable {l m : Line}

/-- A normal form that neither adds to what a line tells nor takes from it. -/
theorem same_bytes_iff {α : Type} {line : α → Check.Checked Line} {normal : α → α}
    (hline : ∀ c, line (normal c) = line c)
    (hinj : ∀ c d l m, line c = .ok l → line d = .ok m → l.text = m.text → normal c = normal d)
    (c d : α) : (∃ b, Line.finish <$> line c = .ok b ∧ Line.finish <$> line d = .ok b) ↔
      (∃ l, line c = .ok l) ∧ normal c = normal d := by
  constructor
  · rintro ⟨b, hc, hd⟩
    obtain ⟨l, hl, rfl⟩ := Check.map_eq_ok.mp hc
    obtain ⟨m, hm, hml⟩ := Check.map_eq_ok.mp hd
    exact ⟨⟨l, hl⟩, hinj c d l m hl hm (Line.finish_injective hml).symm⟩
  · rintro ⟨⟨l, hl⟩, h⟩
    have hd : line d = .ok l := by rw [← hline d, ← h, hline c, hl]
    exact ⟨l.finish, Check.map_eq_ok.mpr ⟨l, hl, rfl⟩, Check.map_eq_ok.mpr ⟨l, hd, rfl⟩⟩

namespace Codablock

def sizes : Untagged Codablock where
  options c := (c.rowHeight, c.moduleWidth)
  replace c p := { c with rowHeight := p.1, moduleWidth := p.2 }
  options_replace _ _ := rfl
  replace_options _ := rfl
  replace_replace _ _ _ := rfl

def closedUp (c : Codablock) : Codablock := sizes.closedUp c

theorem line_closedUp (c : Codablock) : c.closedUp.line = c.line := by
  simp only [line, closedUp, sizes, Untagged.closedUp, List.append_assoc,
    ← given_closedUp c.rowHeight c.moduleWidth]

theorem closedUp_eq_of_text {c d : Codablock} (hc : c.line = .ok l) (hd : d.line = .ok m)
    (h : l.text = m.text) : c.closedUp = d.closedUp := by
  obtain ⟨x, y, t, ec, rfl⟩ := line_eq_ok.mp hc
  obtain ⟨x', y', t', ed, rfl⟩ := line_eq_ok.mp hd
  obtain ⟨hp, rfl⟩ := of_quoted_inj (by simp) (by simp) (by simp [or_imp, forall_and, plain_nat])
    (by simp [or_imp, forall_and, plain_nat]) h
  simp only [List.cons_append, List.nil_append, List.cons.injEq, nat_inj,
    Rotation.degrees_inj] at hp
  obtain ⟨rfl, rfl, hr, hsizes⟩ := hp
  rw [ec, ed]
  simp [closedUp, sizes, Untagged.closedUp, hr, closedUp_inj hsizes]

theorem sameBytes_iff (c d : Codablock) : Command.SameBytes (.codablock c) (.codablock d) ↔
    c.Complete ∧ c.closedUp = d.closedUp := by
  rw [← has_line_iff]
  exact same_bytes_iff line_closedUp (fun _ _ _ _ => closedUp_eq_of_text) c d

/-- Options given in order are told apart. -/
theorem eq_of_sameBytes {c d : Codablock} (hc : sizes.InOrder c) (hd : sizes.InOrder d)
    (h : Command.SameBytes (.codablock c) (.codablock d)) : c = d :=
  Untagged.eq_of_inOrder hc hd ((sameBytes_iff c d).mp h).2

end Codablock

namespace DataMatrix

def sizes : Untagged DataMatrix where
  options c := (c.rows, c.cols)
  replace c p := { c with rows := p.1, cols := p.2 }
  options_replace _ _ := rfl
  replace_options _ := rfl
  replace_replace _ _ _ := rfl

def closedUp (c : DataMatrix) : DataMatrix := sizes.closedUp c

theorem line_closedUp (c : DataMatrix) : c.closedUp.line = c.line := by
  simp only [line, anchor, closedUp, sizes, Untagged.closedUp, List.append_assoc,
    ← given_closedUp c.rows c.cols]

def optionTags : List (Char × Nat) := [('c', 1), ('x', 1), ('r', 1), ('a', 1)]

def taggedOptions (c : DataMatrix) : List (List Part) :=
  [given c.escape (.tagged "c"), given c.moduleSize (.tagged "x"),
    given c.rotation (fun r => .tagged "r" r.degrees),
    given c.rectangle (fun a => .tagged "a" a.toNat)]

theorem optional_tagged (c : DataMatrix) :
    List.Forall₂ (fun t e => Optional t.1 t.2 e) optionTags c.taggedOptions :=
  .cons (optional_given fun n => tagged_head rfl n)
    (.cons (optional_given fun n => tagged_head rfl n)
      (.cons (optional_given fun r => tagged_head rfl r.degrees)
        (.cons (optional_given fun a => tagged_head rfl a.toNat) .nil)))

theorem plain_sizes (c : DataMatrix) : ∀ p ∈ (given c.rows nat ++ given c.cols nat).head?,
    p.Plain (optionTags.map Prod.fst) := by
  intro p hp
  have hmem := List.mem_of_mem_head? hp
  have hall : ∀ p ∈ given c.rows nat ++ given c.cols nat, p.Plain (optionTags.map Prod.fst) := by
    simp [or_imp, forall_and, plain_nat, optionTags]
  exact hall p hmem

theorem closedUp_eq_of_text {c d : DataMatrix} (hc : c.line = .ok l) (hd : d.line = .ok m)
    (h : l.text = m.text) : c.closedUp = d.closedUp := by
  obtain ⟨x, y, w, k, t, ec, rfl⟩ := line_eq_ok.mp hc
  obtain ⟨x', y', w', k', t', ed, rfl⟩ := line_eq_ok.mp hd
  obtain ⟨hp, rfl⟩ := of_quoted_inj (by simp) (by simp)
    (by simp [or_imp, forall_and, plain_nat, plain_tagged])
    (by simp [or_imp, forall_and, plain_nat, plain_tagged]) h
  simp only [List.append_assoc, List.cons_append, List.nil_append, List.cons.injEq, nat_inj] at hp
  obtain ⟨rfl, rfl, rfl, rfl, hrest⟩ := hp
  -- a digit begins neither of the tagged options, so those end where the sizes begin
  have hcut : c.taggedOptions.flatten ++ (given c.rows nat ++ given c.cols nat) =
      d.taggedOptions.flatten ++ (given d.rows nat ++ given d.cols nat) := by
    simpa [taggedOptions] using hrest
  obtain ⟨hopt, hsizes⟩ := options_cancel (by decide) c.optional_tagged d.optional_tagged
    c.plain_sizes d.plain_sizes hcut
  simp only [taggedOptions, List.cons.injEq, and_true] at hopt
  obtain ⟨he, hm, hr, ha⟩ := hopt
  have he := given_inj (fun a b => tagged_inj.mp) he
  have hm := given_inj (fun a b => tagged_inj.mp) hm
  have hr := given_inj (fun a b hab => Rotation.degrees_inj.mp (tagged_inj.mp hab)) hr
  have ha := given_inj (fun a b => switch_inj.mp) ha
  rw [ec, ed]
  simp [closedUp, sizes, Untagged.closedUp, he, hm, hr, ha, closedUp_inj hsizes]

theorem sameBytes_iff (c d : DataMatrix) : Command.SameBytes (.dataMatrix c) (.dataMatrix d) ↔
    c.Complete ∧ c.closedUp = d.closedUp := by
  rw [← has_line_iff]
  exact same_bytes_iff line_closedUp (fun _ _ _ _ => closedUp_eq_of_text) c d

theorem eq_of_sameBytes {c d : DataMatrix} (hc : sizes.InOrder c) (hd : sizes.InOrder d)
    (h : Command.SameBytes (.dataMatrix c) (.dataMatrix d)) : c = d :=
  Untagged.eq_of_inOrder hc hd ((sameBytes_iff c d).mp h).2

end DataMatrix

namespace Command

/-- All that is lost on the way is which of the two untagged options a lone one was: symbols sent as
the same bytes are the same unless only one of them has the first option. -/
theorem untagged_close_up (c d : Codablock) (e f : DataMatrix) :
    (SameBytes (.codablock c) (.codablock d) ↔ c.Complete ∧ c.closedUp = d.closedUp) ∧
      (SameBytes (.codablock c) (.codablock d) →
        (c = d ↔ c.rowHeight.isSome = d.rowHeight.isSome)) ∧
      (SameBytes (.dataMatrix e) (.dataMatrix f) ↔ e.Complete ∧ e.closedUp = f.closedUp) ∧
      (SameBytes (.dataMatrix e) (.dataMatrix f) → (e = f ↔ e.rows.isSome = f.rows.isSome)) := by
  have hc := Codablock.sameBytes_iff c d
  have he := DataMatrix.sameBytes_iff e f
  exact ⟨hc, fun h => Untagged.eq_iff_of_closedUp (hc.mp h).2,
    he, fun h => Untagged.eq_iff_of_closedUp (he.mp h).2⟩

/-- A module width is taken for a row height, and a number of columns for one of rows. -/
theorem untagged_taken_for_another :
    (codablock ⟨some 1, some 2, .none, some 5, none, some "A"⟩).render =
        .ok (Utf8.encode "CODABLOCK 1,2,0,5,\"A\"\n") ∧
      (codablock ⟨some 1, some 2, .none, none, some 5, some "A"⟩).render =
        .ok (Utf8.encode "CODABLOCK 1,2,0,5,\"A\"\n") ∧
      codablock ⟨some 1, some 2, .none, some 5, none, some "A"⟩ ≠
        codablock ⟨some 1, some 2, .none, none, some 5, some "A"⟩ ∧
      (dataMatrix { DataMatrix.of 1 2 3 4 "A" with rows := some 5 }).render =
        .ok (Utf8.encode "DMATRIX 1,2,3,4,5,\"A\"\n") ∧
      (dataMatrix { DataMatrix.of 1 2 3 4 "A" with cols := some 5 }).render =
        .ok (Utf8.encode "DMATRIX 1,2,3,4,5,\"A\"\n") ∧
      dataMatrix { DataMatrix.of 1 2 3 4 "A" with rows := some 5 } ≠
        dataMatrix { DataMatrix.of 1 2 3 4 "A" with cols := some 5 } :=
  ⟨rfl, rfl, by decide, rfl, rfl, by decide⟩

end Command

end LabelPrinter

import LabelPrinter.Proofs.Command.Sent

/-!
MaxiCode symbols read back from their lines.
-/

namespace LabelPrinter

open Number LabelPrinter.Part Line

variable {l m : Line}

namespace MaxiCode

variable {mode : Nat} {content content' p p' : String} {s s' k k' : Nat}

theorem bare_eq (c : MaxiCode) (content : String) :
    c.bare content = sized c.expressionLength content := by
  rw [bare]
  cases c.expressionLength <;> rfl

/-- The address and the content behind it; only mode 3 puts quotes around the postcode. -/
def addressed (mode s k : Nat) (p content : String) : List Part :=
  [.nat s, .nat k, if mode = 3 then .quoted p else .field p, .quoted content]

theorem postcode_cancel (hp : '"' ∉ p.toList) (hp' : '"' ∉ p'.toList)
    (h : [.field p, quoted content].flatMap later = [.field p', quoted content'].flatMap later) :
    p = p' ∧ content = content' := by
  have hcut : (p.toList ++ [',']) ++ '"' :: (content.toList ++ ['"']) =
      (p'.toList ++ [',']) ++ '"' :: (content'.toList ++ ['"']) := by
    simpa [later, quoted, quote] using h
  have hq : ∀ {q : String}, '"' ∉ q.toList → '"' ∉ q.toList ++ [','] := by
    intro q hq
    simp [hq]
  obtain ⟨hpost, hrest⟩ := peel_until (hq hp) (hq hp') stops_here stops_here hcut
  have hcontent : content.toList = content'.toList := by simpa using hrest
  exact ⟨String.toList_inj.mp (List.append_cancel_right hpost), String.toList_inj.mp hcontent⟩

theorem addressed_inj (hp : '"' ∉ p.toList) (hp' : '"' ∉ p'.toList)
    (h : (addressed mode s k p content).flatMap later =
      (addressed mode s' k' p' content').flatMap later) :
    s = s' ∧ k = k' ∧ p = p' ∧ content = content' := by
  have hplain : ∀ a b : Nat, ∀ q ∈ [Part.nat a, .nat b], q.Plain [] := by simp [plain_nat]
  by_cases h3 : mode = 3
  · simp only [addressed, if_pos h3] at h
    have hcut : [Part.nat s, .nat k].flatMap later ++ [.quoted p, quoted content].flatMap later =
        [Part.nat s', .nat k'].flatMap later ++ [.quoted p', quoted content'].flatMap later := by
      simpa using h
    obtain ⟨hsk, hrest⟩ := fields_cancel_length (hplain s k) (hplain s' k')
      stops_here stops_here hcut rfl
    obtain ⟨rfl, hcontent⟩ := quoted_cancel hp hp' hrest
    have hlast : ([] ++ [quoted content]).flatMap later = ([] ++ [quoted content']).flatMap later :=
      hcontent
    obtain ⟨-, rfl⟩ := content_cancel (by simp) (by simp) hlast
    simp only [List.cons.injEq, nat_inj, and_true] at hsk
    exact ⟨hsk.1, hsk.2, rfl, rfl⟩
  · simp only [addressed, if_neg h3] at h
    have hcut : [Part.nat s, .nat k].flatMap later ++ [.field p, quoted content].flatMap later =
        [Part.nat s', .nat k'].flatMap later ++ [.field p', quoted content'].flatMap later := by
      simpa using h
    obtain ⟨hsk, hrest⟩ := fields_cancel_length (hplain s k) (hplain s' k')
      stops_here stops_here hcut rfl
    obtain ⟨rfl, rfl⟩ := postcode_cancel hp hp' hrest
    simp only [List.cons.injEq, nat_inj, and_true] at hsk
    exact ⟨hsk.1, hsk.2, rfl, rfl⟩

theorem sent_inj {c d : MaxiCode} (hpc : ∀ s ∈ c.postcode, '"' ∉ s.toList)
    (hpd : ∀ s ∈ d.postcode, '"' ∉ s.toList) (hc : c.line = .ok l) (hd : d.line = .ok m)
    (h : l.text = m.text) : c.sent = d.sent := by
  obtain ⟨x, y, a, t, cs, ec, -, hac, hmc, rfl⟩ := line_eq_ok.mp hc
  obtain ⟨x', y', a', t', ds, ed, -, had, hmd, rfl⟩ := line_eq_ok.mp hd
  have hl := later_eq_of_text h ⟨_, rfl, _, rfl⟩ ⟨_, rfl, _, rfl⟩
  rw [List.flatMap_append, List.flatMap_append] at hl
  have stops : ∀ {c : MaxiCode} {a : Nat} {t : String} {ps : List Part},
      (isStructured a = true → c.hasAddress = true) → c.message a t = .ok ps →
      Stops (· ≠ ',') (ps.flatMap later) := by
    intro c a t ps hac hmc
    rcases (message_eq_ok hac).mp hmc with ⟨-, s, k, p, -, -, -, -, -, rfl⟩ | ⟨-, rfl⟩
    · exact stops_here
    · rw [bare_eq]
      exact (marked_sized _ _).stops
  have hplain : ∀ x y a : Nat, ∀ q ∈ [Part.nat x, .nat y, .nat a], q.Plain [] := by simp [plain_nat]
  obtain ⟨hxy, hrest⟩ := fields_cancel_length (hplain x y a) (hplain x' y' a')
    (stops hac hmc) (stops had hmd) hl rfl
  simp only [List.cons.injEq, nat_inj, and_true] at hxy
  obtain ⟨rfl, rfl, rfl⟩ := hxy
  rcases (message_eq_ok hac).mp hmc with ⟨hs, s, k, p, hsc, hkc, hpo, -, -, rfl⟩ | ⟨hs, rfl⟩ <;>
    rcases (message_eq_ok had).mp hmd with ⟨hs', s', k', p', hsd, hkd, hpo', -, -, rfl⟩ | ⟨hs', rfl⟩
  · obtain ⟨rfl, rfl, rfl, rfl⟩ := addressed_inj (hpc p hpo) (hpd p' hpo') hrest
    rw [ec, ed]
    simp [sent, hs, hsc, hkc, hpo, hsd, hkd, hpo']
  · rw [hs] at hs'
    cases hs'
  · rw [hs] at hs'
    cases hs'
  · rw [bare_eq, bare_eq] at hrest
    obtain ⟨hn, rfl⟩ := sized_inj hrest
    rw [ec, ed]
    simp [sent, hs, hn]

end MaxiCode

end LabelPrinter

import LabelPrinter.Proofs.Command.SymbolLines
import LabelPrinter.Proofs.Line.Text

/-!
MaxiCode symbols on the wire: what each mode carries, and what is checked of it. Of a postcode that
is only the number of its characters.
-/

namespace LabelPrinter

namespace MaxiCode

variable {c : MaxiCode} {content : String} {mode : Nat} {fields : List String} {b : List UInt8}

/-- What a symbol carries, as the fields behind its mode. -/
inductive Carries (c : MaxiCode) (content : String) : Nat → List String → Prop
  | national {s k : Nat} {p : String} : c.serviceClass = some s → c.country = some k →
      c.postcode = some p → (k = usa → p.length = 10) →
      Carries c content 2 [s.repr, k.repr, p, quote content]
  | foreign {s k : Nat} {p : String} : c.serviceClass = some s → c.country = some k →
      c.postcode = some p → p.length = 6 →
      Carries c content 3 [s.repr, k.repr, quote p, quote content]
  | bare {mode : Nat} : mode = 4 ∨ mode = 5 → c.expressionLength = none →
      Carries c content mode [quote content]
  | sized {mode n : Nat} : mode = 4 ∨ mode = 5 → c.expressionLength = some n →
      Carries c content mode ["L" ++ n.repr, content]

theorem message_of_address {s k : Nat} {p : String} (hm : mode = 2 ∨ mode = 3)
    (hs : c.serviceClass = some s) (hk : c.country = some k) (hp : c.postcode = some p)
    (h2 : mode = 2 → k = usa → p.length = 10) (h3 : mode = 3 → p.length = 6) :
    (isStructured mode = true → c.hasAddress = true) ∧ c.message mode content =
      .ok [.nat s, .nat k, if mode = 3 then .quoted p else .field p, .quoted content] := by
  have ha : c.hasAddress = true := by simp [hasAddress, hs, hk, hp]
  have hstructured : isStructured mode = true := by
    rcases hm with rfl | rfl <;> rfl
  refine ⟨fun _ => ha, (message_eq_ok fun _ => ha).mpr (.inl ⟨hstructured, ?_⟩)⟩
  exact ⟨s, k, p, hs, hk, hp, h2, h3, rfl⟩

theorem message_of_free (hm : mode = 4 ∨ mode = 5) :
    (isStructured mode = true → c.hasAddress = true) ∧
      c.message mode content = .ok (c.bare content) := by
  have hfree : isStructured mode = false := by
    rcases hm with rfl | rfl <;> rfl
  have ha (h : isStructured mode = true) : c.hasAddress = true := by
    rw [hfree] at h
    cases h
  exact ⟨ha, (message_eq_ok ha).mpr (.inr ⟨hfree, rfl⟩)⟩

theorem Carries.message (h : c.Carries content mode fields) :
    (2 ≤ mode ∧ mode ≤ 5) ∧ (isStructured mode = true → c.hasAddress = true) ∧
      c.message mode content = .ok (fields.map .field) := by
  cases h with
  | national hs hk hp hlen =>
    exact ⟨by decide, message_of_address (.inl rfl) hs hk hp (fun _ => hlen)
      (fun h => absurd h (by decide))⟩
  | foreign hs hk hp hlen =>
    exact ⟨by decide, message_of_address (.inr rfl) hs hk hp (fun h => absurd h (by decide))
      (fun _ => hlen)⟩
  | bare hm hn =>
    obtain ⟨ha, hmessage⟩ := message_of_free hm
    rw [MaxiCode.bare, hn] at hmessage
    exact ⟨by omega, ha, hmessage⟩
  | sized hm hn =>
    obtain ⟨ha, hmessage⟩ := message_of_free hm
    rw [MaxiCode.bare, hn] at hmessage
    exact ⟨by omega, ha, hmessage⟩

theorem carries_of_message {parts : List Part} (hm : 2 ≤ mode ∧ mode ≤ 5)
    (ha : isStructured mode = true → c.hasAddress = true)
    (h : c.message mode content = .ok parts) :
    ∃ fields, parts = fields.map .field ∧ c.Carries content mode fields := by
  rcases (message_eq_ok ha).mp h with ⟨hs, s, k, p, hsc, hk, hp, h2, h3, rfl⟩ | ⟨hs, rfl⟩
  · simp only [isStructured, Bool.or_eq_true, decide_eq_true_eq] at hs
    rcases hs with rfl | rfl
    · exact ⟨_, rfl, .national hsc hk hp (h2 rfl)⟩
    · exact ⟨_, rfl, .foreign hsc hk hp (h3 rfl)⟩
  · have hfree : mode = 4 ∨ mode = 5 := by
      simp only [isStructured, Bool.or_eq_false_iff, decide_eq_false_iff_not] at hs
      omega
    rw [MaxiCode.bare]
    split
    · next n hn => exact ⟨_, rfl, .sized hfree hn⟩
    · next hn => exact ⟨[quote content], rfl, .bare hfree hn⟩

theorem finish_message (x y mode : Nat) (fields : List String) :
    (Line.of "MAXICODE" ([.nat x, .nat y, .nat mode] ++ fields.map .field)).finish =
      Utf8.encode ("MAXICODE " ++ ",".intercalate (x.repr :: y.repr :: mode.repr :: fields) ++
        "\n") := by
  have hhead : "MAXICODE" ++ " " = "MAXICODE " := by decide
  have h := @Line.finish_fields "MAXICODE" x.repr (y.repr :: mode.repr :: fields)
  rw [hhead] at h
  exact h

theorem render_eq_ok : (Command.maxiCode c).render = .ok b ↔
    ∃ x y mode content fields, c.x = some x ∧ c.y = some y ∧ c.mode = some mode ∧
      c.content = some content ∧ c.Carries content mode fields ∧
      b = Utf8.encode ("MAXICODE " ++ ",".intercalate (x.repr :: y.repr :: mode.repr :: fields) ++
        "\n") := by
  simp only [Command.render, Check.map_eq_ok, line_eq_ok]
  constructor
  · rintro ⟨_, ⟨x, y, mode, content, parts, ec, hm, ha, hparts, rfl⟩, rfl⟩
    obtain ⟨fields, rfl, hf⟩ := carries_of_message hm ha hparts
    exact ⟨x, y, mode, content, fields, by rw [ec], by rw [ec], by rw [ec], by rw [ec], hf,
      finish_message x y mode fields⟩
  · rintro ⟨x, y, mode, content, fields, hx, hy, hmode, hc, hf, rfl⟩
    obtain ⟨hm, ha, hparts⟩ := hf.message
    refine ⟨_, ⟨x, y, mode, content, _, ?_, hm, ha, hparts, rfl⟩, finish_message x y mode fields⟩
    rw [← hx, ← hy, ← hmode, ← hc]

/-- All parameters that the mode needs, with postcodes of these shapes: for the USA in mode 2, and
in mode 3. -/
def CompleteWith (american foreign : String → Prop) (c : MaxiCode) : Prop :=
  c.x.isSome ∧ c.y.isSome ∧ c.content.isSome ∧ ∃ m ∈ c.mode, (2 ≤ m ∧ m ≤ 5) ∧
    (m = 2 ∨ m = 3 → c.serviceClass.isSome ∧ ∃ k ∈ c.country, ∃ p ∈ c.postcode,
      (m = 2 → k = usa → american p) ∧ (m = 3 → foreign p))

def Complete : MaxiCode → Prop := CompleteWith (·.length = 10) (·.length = 6)

theorem complete_iff_carries : c.Complete ↔ c.x.isSome ∧ c.y.isSome ∧
    ∃ m ∈ c.mode, ∃ t ∈ c.content, ∃ fields, c.Carries t m fields := by
  simp only [Complete, CompleteWith, Option.isSome_iff_exists, Option.mem_def]
  constructor
  · rintro ⟨hx, hy, ⟨t, ht⟩, m, hm, ⟨hlow, hhigh⟩, haddress⟩
    refine ⟨hx, hy, m, hm, t, ht, ?_⟩
    by_cases hs : m = 2 ∨ m = 3
    · obtain ⟨⟨s, hs'⟩, k, hk, p, hp, h2, h3⟩ := haddress hs
      rcases hs with rfl | rfl
      · exact ⟨_, .national hs' hk hp (h2 rfl)⟩
      · exact ⟨_, .foreign hs' hk hp (h3 rfl)⟩
    · have hfree : m = 4 ∨ m = 5 := by omega
      cases hn : c.expressionLength with
      | none => exact ⟨_, .bare hfree hn⟩
      | some n => exact ⟨_, .sized hfree hn⟩
  · rintro ⟨hx, hy, m, hm, t, ht, fields, h⟩
    refine ⟨hx, hy, ⟨t, ht⟩, m, hm, h.message.1, fun hs => ?_⟩
    cases h with
    | national hsc hk hp hlen => exact ⟨⟨_, hsc⟩, _, hk, _, hp, fun _ => hlen,
      fun h => absurd h (by decide)⟩
    | foreign hsc hk hp hlen => exact ⟨⟨_, hsc⟩, _, hk, _, hp,
      fun h => absurd h (by decide), fun _ => hlen⟩
    | bare hfree | sized hfree => omega

theorem renders_iff : (∃ b, (Command.maxiCode c).render = .ok b) ↔ c.Complete := by
  simp only [render_eq_ok, complete_iff_carries, Option.isSome_iff_exists, Option.mem_def]
  constructor
  · rintro ⟨_, x, y, m, t, fields, hx, hy, hm, ht, hf, -⟩
    exact ⟨⟨x, hx⟩, ⟨y, hy⟩, m, hm, t, ht, fields, hf⟩
  · rintro ⟨⟨x, hx⟩, ⟨y, hy⟩, m, hm, t, ht, fields, hf⟩
    exact ⟨_, x, y, m, t, fields, hx, hy, hm, ht, hf, rfl⟩

/-- A symbol is refused unless it is complete, and else its line has the parameters of its mode. -/
theorem maxiCode_rendered (c : MaxiCode) :
    ((∃ b, (Command.maxiCode c).render = .ok b) ↔ c.Complete) ∧
      ∀ b, (Command.maxiCode c).render = .ok b ↔
        ∃ x y mode content fields, c.x = some x ∧ c.y = some y ∧ c.mode = some mode ∧
          c.content = some content ∧ c.Carries content mode fields ∧
          b = Utf8.encode ("MAXICODE " ++
            ",".intercalate (x.repr :: y.repr :: mode.repr :: fields) ++ "\n") :=
  ⟨renders_iff, fun _ => render_eq_ok⟩

/-- Five digits, a comma and four digits. -/
def isAmerican (p : String) : Bool :=
  p.length = 10 && (p.toList.take 5).all Char.isDigit && p.toList[5]? = some ',' &&
    (p.toList.drop 6).all Char.isDigit

/-- Six letters or digits. -/
def isForeign (p : String) : Bool := p.length = 6 && p.toList.all Char.isAlphanum

def Documented : MaxiCode → Prop := CompleteWith (isAmerican · = true) (isForeign · = true)

theorem Documented.complete (h : c.Documented) : c.Complete := by
  obtain ⟨hx, hy, ht, m, hm, hrange, haddress⟩ := h
  refine ⟨hx, hy, ht, m, hm, hrange, fun hs => ?_⟩
  obtain ⟨hs, k, hk, p, hp, h2, h3⟩ := haddress hs
  refine ⟨hs, k, hk, p, hp, fun h hk => ?_, fun h => ?_⟩
  · have ha := h2 h hk
    simp only [isAmerican, Bool.and_eq_true, decide_eq_true_eq] at ha
    exact ha.1.1.1
  · have hf := h3 h
    simp only [isForeign, Bool.and_eq_true, decide_eq_true_eq] at hf
    exact hf.1

theorem renders_of_documented (h : c.Documented) : ∃ b, (Command.maxiCode c).render = .ok b :=
  renders_iff.mpr h.complete

/-- The converse does not hold: postcodes of the right length are sent whatever is in them. -/
theorem undocumented_postcodes_sent :
    ¬ Documented ⟨some 1, some 2, some 2, some 1, some usa, some "12345-6789", none, some "A"⟩ ∧
      (Command.maxiCode ⟨some 1, some 2, some 2, some 1, some usa, some "12345-6789", none,
        some "A"⟩).render = .ok (Utf8.encode "MAXICODE 1,2,2,1,840,12345-6789,\"A\"\n") ∧
      ¬ Documented ⟨some 1, some 2, some 3, some 1, some 276, some "D-1011", none, some "A"⟩ ∧
      (Command.maxiCode ⟨some 1, some 2, some 3, some 1, some 276, some "D-1011", none,
        some "A"⟩).render = .ok (Utf8.encode "MAXICODE 1,2,3,1,276,\"D-1011\",\"A\"\n") := by
  have hus : isAmerican "12345-6789" = false := by decide
  have hde : isForeign "D-1011" = false := by decide
  refine ⟨?_, rfl, ?_, rfl⟩
  · rintro ⟨-, -, -, m, ⟨⟩, -, haddress⟩
    obtain ⟨-, k, ⟨⟩, p, ⟨⟩, h2, -⟩ := haddress (.inl rfl)
    exact absurd (hus.symm.trans (h2 rfl rfl)) (by decide)
  · rintro ⟨-, -, -, m, ⟨⟩, -, haddress⟩
    obtain ⟨-, k, ⟨⟩, p, ⟨⟩, -, h3⟩ := haddress (.inr rfl)
    exact absurd (hde.symm.trans (h3 rfl)) (by decide)

end MaxiCode

end LabelPrinter

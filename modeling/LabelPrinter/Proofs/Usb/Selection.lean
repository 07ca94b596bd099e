import LabelPrinter.Proofs.Usb.Endpoints

/-!
Which endpoints a list of them yields: the first of each direction, whatever stands in between.
-/

namespace LabelPrinter.Usb

/-- The first bulk endpoint of this direction has this address. -/
def FirstOf (flow : Flow) (es : List Endpoint) (address : Nat) : Prop :=
  ∃ before e after, es = before ++ e :: after ∧ ¬Offers flow before ∧
    e.transfer = .bulk ∧ e.flow = flow ∧ e.address = address

variable {flow : Flow} {es fs : List Endpoint} {address : Nat}

theorem firstBulk_eq_some : firstBulk flow es = some address ↔ FirstOf flow es address := by
  rw [firstBulk, Option.map_eq_some_iff]
  constructor
  · rintro ⟨e, he, haddress⟩
    obtain ⟨hbulk, before, after, hes, hbefore⟩ := List.find?_eq_some_iff_append.mp he
    obtain ⟨htransfer, hflow⟩ := isBulk_iff.mp hbulk
    refine ⟨before, e, after, hes, ?_, htransfer, hflow, haddress⟩
    rintro ⟨b, hb, hoffer⟩
    have hnot := hbefore b hb
    rw [isBulk_iff.mpr hoffer] at hnot
    cases hnot
  · rintro ⟨before, e, after, rfl, hbefore, htransfer, hflow, haddress⟩
    refine ⟨e, List.find?_eq_some_iff_append.mpr ?_, haddress⟩
    refine ⟨isBulk_iff.mpr ⟨htransfer, hflow⟩, before, after, rfl, fun b hb => ?_⟩
    rw [Bool.not_eq_true', Bool.eq_false_iff, Ne, isBulk_iff]
    exact fun hoffer => hbefore ⟨b, hb, hoffer⟩

theorem firstBulk_filter :
    firstBulk flow (es.filter (·.transfer = .bulk)) = firstBulk flow es := by
  have hbulk : (fun e : Endpoint => decide (decide (e.transfer = .bulk) = true ∧
      e.isBulk flow = true)) = (·.isBulk flow) := by
    funext e
    by_cases h : e.transfer = .bulk <;> simp [Endpoint.isBulk, h]
  rw [firstBulk, List.find?_filter, hbulk]
  rfl

theorem selectBulk_filter : selectBulk (es.filter (·.transfer = .bulk)) = selectBulk es := by
  rw [selectBulk_eq, firstBulk_filter, firstBulk_filter, ← selectBulk_eq]

theorem selectBulk_append {pair : Nat × Nat} (h : selectBulk es = some pair) :
    selectBulk (es ++ fs) = some pair := by
  obtain ⟨hout, hinto⟩ := selectBulk_eq_some.mp h
  rw [selectBulk_eq_some, firstBulk_append, firstBulk_append, hout, hinto]
  exact ⟨rfl, rfl⟩

/-- The other endpoints, and those behind a pair, make no difference. -/
theorem selects_first_of_each (es : List Endpoint) :
    (∀ out into, selectBulk es = some (out, into) ↔
      FirstOf .outgoing es out ∧ FirstOf .incoming es into) ∧
    (selectBulk es = none ↔ ∃ flow, ¬Offers flow es) ∧
    (∀ fs : List Endpoint, fs.filter (·.transfer = .bulk) = es.filter (·.transfer = .bulk) →
      selectBulk fs = selectBulk es) ∧
    ∀ pair fs, selectBulk es = some pair → selectBulk (es ++ fs) = some pair := by
  refine ⟨fun out into => ?_, selectBulk_eq_none, fun fs h => ?_, fun pair fs => selectBulk_append⟩
  · rw [selectBulk_eq_some, firstBulk_eq_some, firstBulk_eq_some]
  · rw [← selectBulk_filter, h, selectBulk_filter]

def mixedEndpoints : List Endpoint :=
  [⟨.interrupt, .incoming, 131⟩, ⟨.bulk, .incoming, 129⟩, ⟨.bulk, .outgoing, 2⟩,
    ⟨.bulk, .outgoing, 4⟩]

theorem selects_first_of_each_mixed :
    ∃ fs, fs ≠ mixedEndpoints ∧
      fs.filter (·.transfer = .bulk) = mixedEndpoints.filter (·.transfer = .bulk) ∧
      selectBulk fs = selectBulk mixedEndpoints ∧ selectBulk mixedEndpoints = some (2, 129) ∧
      selectBulk (mixedEndpoints ++ [⟨.bulk, .incoming, 130⟩]) = some (2, 129) := by
  obtain ⟨-, -, hothers, hmore⟩ := selects_first_of_each mixedEndpoints
  refine ⟨[⟨.bulk, .incoming, 129⟩, ⟨.bulk, .outgoing, 2⟩, ⟨.isochronous, .outgoing, 3⟩,
    ⟨.bulk, .outgoing, 4⟩], by decide, by decide, hothers _ (by decide), rfl, hmore _ _ rfl⟩

end LabelPrinter.Usb

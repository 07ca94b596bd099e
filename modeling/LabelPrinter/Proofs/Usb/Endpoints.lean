import LabelPrinter.Proofs.Usb.Claiming
import Mathlib.Data.List.Basic

/-!
Which endpoints a claim ends up with. Those of all alternate settings are looked through as one
list, so each direction has the first setting that offers it, whatever the other direction has.
-/

namespace LabelPrinter.Usb

open Attempt

def Endpoint.isBulk (flow : Flow) (e : Endpoint) : Bool := e.transfer = .bulk && e.flow = flow

def firstBulk (flow : Flow) (es : List Endpoint) : Option Nat :=
  (es.find? (·.isBulk flow)).map Endpoint.address

def Offers (flow : Flow) (s : List Endpoint) : Prop :=
  ∃ e ∈ s, e.transfer = .bulk ∧ e.flow = flow

/-- The setting at `k` is the first with a bulk endpoint of this direction, and its first one has
this address. -/
structure FirstOffered (settings : List (List Endpoint)) (flow : Flow) (k address : Nat) : Prop where
  offered : ∃ s, settings[k]? = some s ∧ firstBulk flow s = some address
  before : ∀ (l : Nat) s, l < k → settings[l]? = some s → ¬Offers flow s

/-- The first setting with a bulk endpoint has one of each direction. -/
def Paired (settings : List (List Endpoint)) : Prop :=
  ∃ k s, settings[k]? = some s ∧ (∀ flow, Offers flow s) ∧
    ∀ (l : Nat) t flow, l < k → settings[l]? = some t → ¬Offers flow t

section Selection

variable {flow : Flow} {es : List Endpoint} {settings : List (List Endpoint)} {out into : Nat}

theorem isBulk_iff {e : Endpoint} : e.isBulk flow = true ↔ e.transfer = .bulk ∧ e.flow = flow := by
  simp [Endpoint.isBulk]

theorem firstBulk_eq_none : firstBulk flow es = none ↔ ¬Offers flow es := by
  simp only [firstBulk, Option.map_eq_none_iff, List.find?_eq_none, isBulk_iff, Offers,
    not_exists, not_and]

theorem firstBulk_append (es fs : List Endpoint) :
    firstBulk flow (es ++ fs) = (firstBulk flow es).or (firstBulk flow fs) := by
  rw [firstBulk, List.find?_append, Option.map_or]
  rfl

theorem meet_eq (p : BulkPair) (e : Endpoint) : p.meet e =
    ⟨p.out.or (firstBulk .outgoing [e]), p.into.or (firstBulk .incoming [e])⟩ := by
  obtain ⟨out, into⟩ := p
  obtain ⟨transfer, flow, address⟩ := e
  cases transfer <;> cases flow <;> simp [BulkPair.meet, firstBulk, Endpoint.isBulk]

theorem foldl_meet (es : List Endpoint) (p : BulkPair) : es.foldl BulkPair.meet p =
    ⟨p.out.or (firstBulk .outgoing es), p.into.or (firstBulk .incoming es)⟩ := by
  induction es generalizing p with
  | nil => simp [firstBulk]
  | cons e es ih =>
    have hcons (flow : Flow) : firstBulk flow (e :: es) =
        (firstBulk flow [e]).or (firstBulk flow es) := firstBulk_append [e] es
    rw [List.foldl_cons, ih, meet_eq, hcons, hcons, Option.or_assoc, Option.or_assoc]

theorem complete?_eq (p : BulkPair) :
    p.complete? = p.out.bind fun out => p.into.map (out, ·) := by
  obtain ⟨_ | out, _ | into⟩ := p
  · rfl
  · rfl
  · rfl
  · rfl

theorem selectBulk_eq (es : List Endpoint) : selectBulk es =
    (firstBulk .outgoing es).bind fun out => (firstBulk .incoming es).map (out, ·) := by
  rw [selectBulk, foldl_meet, complete?_eq, Option.none_or, Option.none_or]

theorem selectBulk_eq_some : selectBulk es = some (out, into) ↔
    firstBulk .outgoing es = some out ∧ firstBulk .incoming es = some into := by
  simp [selectBulk_eq, Option.bind_eq_some_iff]

theorem selectBulk_eq_none : selectBulk es = none ↔ ∃ flow, ¬Offers flow es := by
  simp only [selectBulk_eq, ← firstBulk_eq_none]
  constructor
  · intro h
    cases hout : firstBulk .outgoing es with
    | none => exact ⟨.outgoing, hout⟩
    | some out =>
      rw [hout, Option.bind_some, Option.map_eq_none_iff] at h
      exact ⟨.incoming, h⟩
  · rintro ⟨flow, hflow⟩
    cases flow with
    | outgoing =>
      rw [hflow]
      rfl
    | incoming =>
      rw [hflow]
      exact Option.bind_fun_none _

theorem offers_flatten : Offers flow settings.flatten ↔ ∃ s ∈ settings, Offers flow s := by
  constructor
  · rintro ⟨e, he, hbulk⟩
    obtain ⟨s, hs, hes⟩ := List.mem_flatten.mp he
    exact ⟨s, hs, e, hes, hbulk⟩
  · rintro ⟨s, hs, e, hes, hbulk⟩
    exact ⟨e, List.mem_flatten.mpr ⟨s, hs, hes⟩, hbulk⟩

theorem firstOffered_zero {s : List Endpoint} {address : Nat} :
    FirstOffered (s :: settings) flow 0 address ↔ firstBulk flow s = some address := by
  constructor
  · rintro ⟨⟨s', hs', hfirst⟩, -⟩
    obtain rfl := Option.some.inj hs'
    exact hfirst
  · intro hfirst
    exact ⟨⟨s, rfl, hfirst⟩, fun l _ hl => absurd hl (Nat.not_lt_zero l)⟩

theorem firstOffered_succ {s : List Endpoint} {k address : Nat} :
    FirstOffered (s :: settings) flow (k + 1) address ↔
      firstBulk flow s = none ∧ FirstOffered settings flow k address := by
  rw [firstBulk_eq_none]
  constructor
  · rintro ⟨hoffered, hbefore⟩
    refine ⟨hbefore 0 s (Nat.succ_pos k) rfl, hoffered, fun l t hl ht => ?_⟩
    exact hbefore (l + 1) t (Nat.succ_lt_succ hl) ht
  · rintro ⟨hs, hoffered, hbefore⟩
    refine ⟨hoffered, fun l t hl ht => ?_⟩
    cases l with
    | zero => exact Option.some.inj ht ▸ hs
    | succ l => exact hbefore l t (Nat.lt_of_succ_lt_succ hl) ht

theorem firstBulk_flatten {address : Nat} : firstBulk flow settings.flatten = some address ↔
    ∃ k, FirstOffered settings flow k address := by
  induction settings with
  | nil =>
    refine ⟨nofun, ?_⟩
    rintro ⟨k, ⟨s, hs, -⟩, -⟩
    cases hs
  | cons s settings ih =>
    rw [List.flatten_cons, firstBulk_append, Option.or_eq_some_iff, ih]
    constructor
    · rintro (hfirst | ⟨hnone, k, hk⟩)
      · exact ⟨0, firstOffered_zero.mpr hfirst⟩
      · exact ⟨k + 1, firstOffered_succ.mpr ⟨hnone, hk⟩⟩
    · rintro ⟨k, hk⟩
      cases k with
      | zero => exact .inl (firstOffered_zero.mp hk)
      | succ k =>
        obtain ⟨hnone, hk⟩ := firstOffered_succ.mp hk
        exact .inr ⟨hnone, k, hk⟩

theorem FirstOffered.offers {k address : Nat} {s : List Endpoint}
    (h : FirstOffered settings flow k address) (hs : settings[k]? = some s) : Offers flow s := by
  obtain ⟨s', hs', hfirst⟩ := h.offered
  obtain rfl := Option.some.inj (hs.symm.trans hs')
  by_contra hnone
  cases (firstBulk_eq_none.mpr hnone).symm.trans hfirst

/-- The directions share a setting only if none of them has had an earlier one to itself. -/
theorem paired_iff {k l : Nat} (hout : FirstOffered settings .outgoing k out)
    (hin : FirstOffered settings .incoming l into) : k = l ↔ Paired settings := by
  constructor
  · rintro rfl
    obtain ⟨s, hs, -⟩ := hout.offered
    refine ⟨k, s, hs, fun flow => ?_, fun l t flow hl ht => ?_⟩
    · cases flow with
      | outgoing => exact hout.offers hs
      | incoming => exact hin.offers hs
    · cases flow with
      | outgoing => exact hout.before l t hl ht
      | incoming => exact hin.before l t hl ht
  · rintro ⟨m, s, hs, hboth, hbefore⟩
    -- a direction is offered first where any is
    have place {flow : Flow} {n address : Nat} (h : FirstOffered settings flow n address) :
        n = m := by
      obtain ⟨t, ht, -⟩ := h.offered
      have hle : ¬n < m := fun hlt => hbefore n t flow hlt ht (h.offers ht)
      have hge : ¬m < n := fun hlt => h.before m s hlt hs (hboth flow)
      omega
    rw [place hout, place hin]

theorem bulk?_eq_some {interfaces : List Interface} :
    Device.bulk? interfaces = some (out, into) ↔
      ∃ i, interfaces.find? (·.number = printerInterface) = some i ∧
        (∃ k, FirstOffered i.settings .outgoing k out) ∧
        ∃ l, FirstOffered i.settings .incoming l into := by
  simp only [Device.bulk?, Option.bind_eq_some_iff, selectBulk_eq_some, firstBulk_flatten]

theorem bulk?_eq_none {interfaces : List Interface} : Device.bulk? interfaces = none ↔
    ∀ i, interfaces.find? (·.number = printerInterface) = some i →
      ∃ flow, ∀ s ∈ i.settings, ¬Offers flow s := by
  simp only [Device.bulk?, Option.bind_eq_none_iff, selectBulk_eq_none, offers_flatten, not_exists,
    not_and]

end Selection

namespace Attempt

variable {α β : Type}

/-- Whatever was called before, the attempt comes to this. -/
def Ends (a : Attempt α) (r : Except Error α) : Prop := ∃ cs, a.Runs r cs

namespace Ends

variable {a : Attempt α} {f : α → Attempt β} {r : Except Error α} {s : α → Except Error β}

theorem bind (h : a.Ends r) (hf : ∀ x, (f x).Ends (s x)) : (a >>= f).Ends (r >>= s) := by
  obtain ⟨cs, hr⟩ := h
  cases r with
  | error e => exact ⟨cs, .bind_error hr⟩
  | ok x =>
    obtain ⟨ds, hx⟩ := hf x
    exact ⟨cs ++ ds, .bind_ok hr hx⟩

theorem undoing (h : a.Ends r) (c : Call) : (undoing c a).Ends r := by
  obtain ⟨cs, hr⟩ := h
  cases r with
  | error e => exact ⟨_, .undoing_error hr c⟩
  | ok x => exact ⟨_, .undoing_ok hr c⟩

end Ends

end Attempt

/-- What taking the interface of a device comes to, the calls aside. -/
def Device.taken (d : Device) (ids : Descriptor) : Except Error Claimed := do
  d.opening.mapError .usb
  d.freed.mapError .usb
  d.claim.mapError .usb
  let interfaces ← d.configuration.mapError .usb
  let (out, into) ← (Device.bulk? interfaces).elim (.error .invalidEndpoints) .ok
  return { device := d, ids, out, into }

def claimOutcome (bus : Bus) (vendor : Nat) (product : Option Nat) : Except Error Claimed := do
  let devices ← bus.mapError .usb
  match locate? devices vendor product with
  | none => throw .notFound
  | some d =>
    let ids ← d.descriptor.mapError .usb
    d.taken ids

theorem take_ends (d : Device) (ids : Descriptor) :
    (do ask (.opening d.name) d.opening; undoing (.close d.name) (d.take ids) :
      Attempt Claimed).Ends (d.taken ids) := by
  obtain ⟨_, hfree, -⟩ := freeInterface_runs d
  obtain ⟨_, hread, -⟩ := readConfig_runs d
  refine .bind ⟨_, .ask _ _⟩ fun _ => .undoing ?_ _
  refine .bind ⟨_, hfree⟩ fun _ => .bind ⟨_, .ask _ _⟩ fun _ => .undoing ?_ _
  exact .bind ⟨_, hread⟩ fun interfaces =>
    .bind ⟨_, endpoints_runs interfaces⟩ fun _ => ⟨_, .pure _⟩

theorem claim_outcome (bus : Bus) (vendor : Nat) (product : Option Nat) :
    (claim bus vendor product).result = claimOutcome bus vendor product := by
  have hends : (claim bus vendor product).Ends (claimOutcome bus vendor product) := by
    refine .bind ⟨_, .ask .list bus⟩ fun devices => ?_
    cases locate? devices vendor product with
    | none => exact ⟨_, .throw _⟩
    | some d =>
      dsimp only
      cases d.descriptor with
      | error e => exact ⟨_, .throw _⟩
      | ok ids => exact take_ends d ids
  obtain ⟨_, hr⟩ := hends
  exact hr.result

section Endings

variable {bus : Bus} {vendor : Nat} {product : Option Nat} {d : Device} {ids : Descriptor}

/-- Every call up to the one that reads the configuration succeeds. -/
structure Granted (bus : Bus) (vendor : Nat) (product : Option Nat) (d : Device)
    (ids : Descriptor) (interfaces : List Interface) : Prop where
  located : bus.printer? vendor product = some d
  described : d.descriptor = .ok ids
  opens : d.opening = .ok ()
  freed : d.freed = .ok ()
  granted : d.claim = .ok ()
  configured : d.configuration = .ok interfaces

theorem answered_bind {α β : Type} {x : Answer α} {f : α → Except Error β} :
    (x.mapError Error.usb >>= f) = .error .invalidEndpoints ↔
      ∃ a, x = .ok a ∧ f a = .error .invalidEndpoints := by
  cases x with
  | error e => exact ⟨nofun, fun ⟨_, h, _⟩ => nomatch h⟩
  | ok a => exact ⟨fun h => ⟨a, rfl, h⟩, fun ⟨_, h, hf⟩ => Except.ok.inj h ▸ hf⟩

theorem taken_invalid_iff : d.taken ids = .error .invalidEndpoints ↔
    ∃ interfaces, d.opening = .ok () ∧ d.freed = .ok () ∧ d.claim = .ok () ∧
      d.configuration = .ok interfaces ∧ Device.bulk? interfaces = none := by
  have hpair (interfaces : List Interface) :
      ((Device.bulk? interfaces).elim (.error .invalidEndpoints) .ok >>= fun pair =>
        pure (Claimed.mk d ids pair.1 pair.2) : Except Error Claimed) = .error .invalidEndpoints ↔
        Device.bulk? interfaces = none := by
    cases Device.bulk? interfaces with
    | none => exact iff_of_true rfl rfl
    | some pair => exact iff_of_false nofun nofun
  unfold Device.taken
  simp only [answered_bind]
  constructor
  · rintro ⟨_, hopen, _, hfree, _, hclaim, interfaces, hread, h⟩
    exact ⟨interfaces, hopen, hfree, hclaim, hread, (hpair interfaces).mp h⟩
  · rintro ⟨interfaces, hopen, hfree, hclaim, hread, h⟩
    exact ⟨_, hopen, _, hfree, _, hclaim, interfaces, hread, (hpair interfaces).mpr h⟩

theorem claim_invalid_iff :
    (claim bus vendor product).result = .error .invalidEndpoints ↔
      ∃ d ids interfaces, Granted bus vendor product d ids interfaces ∧
        Device.bulk? interfaces = none := by
  rw [claim_outcome, claimOutcome, answered_bind]
  constructor
  · rintro ⟨devices, rfl, h⟩
    cases hl : locate? devices vendor product with
    | none =>
      rw [hl] at h
      cases h
    | some d =>
      rw [hl] at h
      obtain ⟨ids, hids, h⟩ := answered_bind.mp h
      obtain ⟨interfaces, hopen, hfree, hclaim, hread, hbulk⟩ := taken_invalid_iff.mp h
      exact ⟨d, ids, interfaces, ⟨hl, hids, hopen, hfree, hclaim, hread⟩, hbulk⟩
  · rintro ⟨d, ids, interfaces, h, hbulk⟩
    cases bus with
    | error e => cases h.located
    | ok devices =>
      have hl : locate? devices vendor product = some d := h.located
      refine ⟨devices, rfl, ?_⟩
      rw [hl]
      refine answered_bind.mpr ⟨ids, h.described, taken_invalid_iff.mpr ?_⟩
      exact ⟨interfaces, h.opens, h.freed, h.granted, h.configured, hbulk⟩

theorem claim_reached_iff {c : Claimed} : (claim bus vendor product).result = .ok c ↔
    ∃ interfaces, Granted bus vendor product c.device c.ids interfaces ∧
      Device.bulk? interfaces = some (c.out, c.into) := by
  rw [claim_ok_iff]
  constructor
  · intro h
    obtain ⟨interfaces, hread, hbulk⟩ := h.describes.bulk
    exact ⟨interfaces, ⟨h.located, h.described, h.opens, h.freed, h.granted, hread⟩, hbulk⟩
  · rintro ⟨interfaces, h, hbulk⟩
    have hdescribes : c.device.Describes c.ids c := ⟨rfl, rfl, interfaces, h.configured, hbulk⟩
    exact ⟨h.located, h.described, h.opens, h.freed, h.granted, hdescribes⟩

end Endings

/-- Each direction has the first setting that offers it, and only a direction that no setting
offers stands in the way. -/
theorem claim_takes_first_offered (bus : Bus) (vendor : Nat) (product : Option Nat) :
    (∀ c, (claim bus vendor product).result = .ok c ↔
      ∃ interfaces i k l, Granted bus vendor product c.device c.ids interfaces ∧
        interfaces.find? (·.number = printerInterface) = some i ∧
        FirstOffered i.settings .outgoing k c.out ∧ FirstOffered i.settings .incoming l c.into ∧
        (k = l ↔ Paired i.settings)) ∧
    ((claim bus vendor product).result = .error .invalidEndpoints ↔
      ∃ d ids interfaces, Granted bus vendor product d ids interfaces ∧
        ∀ i, interfaces.find? (·.number = printerInterface) = some i →
          ∃ flow, ∀ s ∈ i.settings, ¬Offers flow s) := by
  refine ⟨fun c => ?_, ?_⟩
  · rw [claim_reached_iff]
    constructor
    · rintro ⟨interfaces, h, hbulk⟩
      obtain ⟨i, hi, ⟨k, hout⟩, l, hin⟩ := bulk?_eq_some.mp hbulk
      exact ⟨interfaces, i, k, l, h, hi, hout, hin, paired_iff hout hin⟩
    · rintro ⟨interfaces, i, k, l, h, hi, hout, hin, -⟩
      exact ⟨interfaces, h, bulk?_eq_some.mpr ⟨i, hi, ⟨k, hout⟩, l, hin⟩⟩
  · simp only [claim_invalid_iff, bulk?_eq_none]

/-- A printer that has an endpoint out in its first setting and a pair of them in its second. -/
def twoSettings : Device where
  name := "printer"
  bus := 1
  address := 4
  path := .ok [1]
  descriptor := .ok ⟨4611, 560⟩
  activeConfig :=
    .ok [⟨0, [[.ofAddress .bulk 2], [.ofAddress .bulk 4, .ofAddress .bulk 131]]⟩]
  firstConfig := .ok []
  languages := .ok []

theorem pair_across_settings : ∃ c i, (claim (.ok [twoSettings]) 4611 (some 560)).result = .ok c ∧
    twoSettings.activeConfig = .ok [i] ∧ i.number = printerInterface ∧
    ¬∃ s ∈ i.settings, (∃ e ∈ s, e.address = c.out) ∧ ∃ e ∈ s, e.address = c.into :=
  ⟨⟨twoSettings, ⟨4611, 560⟩, 2, 131⟩, _, rfl, rfl, rfl, by decide⟩

end LabelPrinter.Usb

import LabelPrinter.Usb.Claim

/-!
An attempt to take the printer's interface: where it can fail, the calls it has made by then, and
when it succeeds.
-/

namespace LabelPrinter.Usb

namespace Attempt

variable {α β : Type}

/-- Behind whatever was called before, the attempt makes these calls and ends so. -/
def Runs (a : Attempt α) (r : Except Error α) (cs : List Call) : Prop :=
  ∀ log, a.run.run log = (r, log ++ cs)

namespace Runs

variable {a : Attempt α} {f : α → Attempt β} {x : α} {e : Error} {r : Except Error α}
  {s : Except Error β} {cs ds : List Call}

theorem result (h : a.Runs r cs) : a.result = r := congrArg Prod.fst (h [])

theorem calls (h : a.Runs r cs) : a.calls = cs := congrArg Prod.snd (h [])

theorem pure (x : α) : Runs (Pure.pure x) (.ok x) [] := fun log => by
  rw [List.append_nil]
  rfl

theorem throw (e : Error) : Runs (MonadExcept.throw e : Attempt α) (.error e) [] := fun log => by
  rw [List.append_nil]
  rfl

theorem note (c : Call) : (note c).Runs (.ok ()) [c] := fun _ => rfl

theorem ask (c : Call) (answer : Answer α) :
    (ask c answer).Runs (answer.mapError .usb) [c] := fun _ => by
  cases answer <;> rfl

theorem bind_ok (h : a.Runs (.ok x) cs) (hf : (f x).Runs s ds) : (a >>= f).Runs s (cs ++ ds) := by
  intro log
  rw [ExceptT.run_bind, StateT.run_bind, h log, ← List.append_assoc]
  exact hf (log ++ cs)

theorem bind_error (h : a.Runs (.error e) cs) : (a >>= f).Runs (.error e) cs := by
  intro log
  rw [ExceptT.run_bind, StateT.run_bind, h log]
  rfl

theorem undoing_ok (h : a.Runs (.ok x) cs) (c : Call) : (undoing c a).Runs (.ok x) cs := by
  intro log
  rw [undoing, ExceptT.run_tryCatch, StateT.run_bind, h log]
  rfl

theorem undoing_error (h : a.Runs (.error e) cs) (c : Call) :
    (undoing c a).Runs (.error e) (cs ++ [c]) := by
  intro log
  rw [undoing, ExceptT.run_tryCatch, StateT.run_bind, h log, ← List.append_assoc]
  rfl

end Runs

end Attempt

open Attempt

/-- The call opens and closes nothing, and takes and leaves no interface. -/
def Call.Quiet : Call → Prop
  | .opening _ | .claim _ _ | .release _ _ | .close _ => False
  | _ => True

namespace Device

/-- The kernel driver, if it holds the interface, lets go of it. -/
def freed (d : Device) : Answer Unit :=
  match d.kernelDriver with
  | .ok true => d.detach
  | _ => .ok ()

def configuration (d : Device) : Answer (List Interface) :=
  match d.activeConfig with
  | .ok interfaces => .ok interfaces
  | .error _ => d.firstConfig

def bulk? (interfaces : List Interface) : Option (Nat × Nat) :=
  (interfaces.find? (·.number = printerInterface)).bind fun i => selectBulk i.settings.flatten

/-- What is left to do once the interface is claimed. -/
def describe (d : Device) (ids : Descriptor) : Attempt Claimed := do
  let interfaces ← readConfig d
  let (out, into) ← endpoints interfaces
  return { device := d, ids, out, into }

/-- What is left to do once the device is open. -/
def take (d : Device) (ids : Descriptor) : Attempt Claimed := do
  freeInterface d
  ask (.claim d.name printerInterface) d.claim
  undoing (.release d.name printerInterface) (d.describe ids)

/-- The claim is one of this device, as the device describes itself. -/
structure Describes (d : Device) (ids : Descriptor) (c : Claimed) : Prop where
  device : c.device = d
  ids : c.ids = ids
  bulk : ∃ interfaces, d.configuration = .ok interfaces ∧
    bulk? interfaces = some (c.out, c.into)

theorem Describes.unique {d : Device} {ids : Descriptor} {c c' : Claimed}
    (h : d.Describes ids c) (h' : d.Describes ids c') : c = c' := by
  obtain ⟨rfl, rfl, is, hi, hb⟩ := h
  obtain ⟨d', ids', out, into⟩ := c'
  obtain ⟨rfl, rfl, is', hi', hb'⟩ := h'
  obtain rfl := Except.ok.inj (hi.symm.trans hi')
  obtain ⟨rfl, rfl⟩ := Prod.mk.inj (Option.some.inj (hb.symm.trans hb'))
  rfl

end Device

theorem freeInterface_runs (d : Device) :
    ∃ qs, (freeInterface d).Runs (d.freed.mapError .usb) qs ∧ ∀ c ∈ qs, c.Quiet := by
  unfold freeInterface Device.freed
  match d.kernelDriver with
  | .ok true => exact ⟨_, .bind_ok (.note _) (.bind_ok (.note _) (.ask _ _)), by simp [Call.Quiet]⟩
  | .ok false => exact ⟨_, .bind_ok (.note _) (.bind_ok (.note _) (.pure _)), by simp [Call.Quiet]⟩
  | .error e => exact ⟨_, .bind_ok (.note _) (.bind_ok (.note _) (.pure _)), by simp [Call.Quiet]⟩

theorem readConfig_runs (d : Device) :
    ∃ qs, (readConfig d).Runs (d.configuration.mapError .usb) qs ∧ ∀ c ∈ qs, c.Quiet := by
  unfold readConfig Device.configuration
  match d.activeConfig with
  | .ok interfaces => exact ⟨_, .bind_ok (.note _) (.pure _), by simp [Call.Quiet]⟩
  | .error e => exact ⟨_, .bind_ok (.note _) (.ask _ _), by simp [Call.Quiet]⟩

theorem endpoints_runs (interfaces : List Interface) :
    (endpoints interfaces).Runs
      ((Device.bulk? interfaces).elim (.error .invalidEndpoints) .ok) [] := by
  unfold endpoints Device.bulk?
  split
  case h_1 h => simpa [h] using Runs.throw _
  case h_2 i h =>
    split
    case h_1 hs => simpa [h, hs] using Runs.throw _
    case h_2 pair hs => simpa [h, hs] using Runs.pure _

theorem describe_runs (d : Device) (ids : Descriptor) :
    ∃ r rs, (d.describe ids).Runs r rs ∧ (∀ c ∈ rs, c.Quiet) ∧
      ∀ c, r = .ok c ↔ d.Describes ids c := by
  obtain ⟨rs, hr, hq⟩ := readConfig_runs d
  cases hc : d.configuration with
  | error e =>
    rw [hc] at hr
    refine ⟨_, rs, .bind_error hr, hq, fun c => ⟨nofun, fun h => ?_⟩⟩
    obtain ⟨_, he, -⟩ := h.bulk
    exact absurd (hc.symm.trans he) nofun
  | ok interfaces =>
    rw [hc] at hr
    have he := endpoints_runs interfaces
    cases hb : Device.bulk? interfaces with
    | none =>
      rw [hb] at he
      refine ⟨_, _, .bind_ok hr (.bind_error he), by simpa using hq, fun c => ⟨nofun, fun h => ?_⟩⟩
      obtain ⟨_, hi, hb'⟩ := h.bulk
      obtain rfl := Except.ok.inj (hc.symm.trans hi)
      exact absurd (hb.symm.trans hb') nofun
    | some pair =>
      rw [hb] at he
      have hd : d.Describes ids ⟨d, ids, pair.1, pair.2⟩ := ⟨rfl, rfl, interfaces, hc, hb⟩
      have hpure := Runs.pure (⟨d, ids, pair.1, pair.2⟩ : Claimed)
      refine ⟨_, _, .bind_ok hr (.bind_ok he hpure), by simpa using hq, fun c => ⟨?_, fun h => ?_⟩⟩
      · rintro ⟨⟩
        exact hd
      · exact congrArg Except.ok (hd.unique h)

/-- All that can come of taking the interface of an open device, and the calls that this makes. -/
inductive Taking (d : Device) (ids : Descriptor) : Except Error Claimed → List Call → Prop where
  | occupied (e : UsbError) (qs : List Call) : (∀ c ∈ qs, c.Quiet) → d.freed = .error e →
      Taking d ids (.error (.usb e)) qs
  | refused (e : UsbError) (qs : List Call) : (∀ c ∈ qs, c.Quiet) → d.claim = .error e →
      Taking d ids (.error (.usb e)) (qs ++ [.claim d.name printerInterface])
  | undone (e : Error) (qs rs : List Call) : (∀ c ∈ qs, c.Quiet) → d.claim = .ok () →
      (∀ c ∈ rs, c.Quiet) → (∀ c, ¬d.Describes ids c) →
      Taking d ids (.error e)
        (qs ++ .claim d.name printerInterface :: (rs ++ [.release d.name printerInterface]))
  | done (c : Claimed) (qs rs : List Call) : (∀ c ∈ qs, c.Quiet) → d.freed = .ok () →
      d.claim = .ok () → (∀ c ∈ rs, c.Quiet) → d.Describes ids c →
      Taking d ids (.ok c) (qs ++ .claim d.name printerInterface :: rs)

theorem taking (d : Device) (ids : Descriptor) :
    ∃ r cs, (d.take ids).Runs r cs ∧ Taking d ids r cs := by
  obtain ⟨qs, hfree, hqs⟩ := freeInterface_runs d
  have hclaim := Runs.ask (.claim d.name printerInterface) d.claim
  obtain ⟨r, rs, hrest, hrs, hr⟩ := describe_runs d ids
  unfold Device.take
  cases hf : d.freed with
  | error e =>
    rw [hf] at hfree
    exact ⟨_, _, .bind_error hfree, .occupied e qs hqs hf⟩
  | ok _ =>
    rw [hf] at hfree
    cases hc : d.claim with
    | error e =>
      rw [hc] at hclaim
      exact ⟨_, _, .bind_ok hfree (.bind_error hclaim), .refused e qs hqs hc⟩
    | ok _ =>
      rw [hc] at hclaim
      cases r with
      | error e =>
        have hundo := Runs.undoing_error hrest (.release d.name printerInterface)
        refine ⟨_, _, .bind_ok hfree (.bind_ok hclaim hundo), .undone e qs rs hqs hc hrs ?_⟩
        exact fun c hd => absurd ((hr c).mpr hd) nofun
      | ok c =>
        have hkept := Runs.undoing_ok hrest (.release d.name printerInterface)
        exact ⟨_, _, .bind_ok hfree (.bind_ok hclaim hkept),
          .done c qs rs hqs hf hc hrs ((hr c).mp rfl)⟩

def Bus.printer? (bus : Bus) (vendor : Nat) (product : Option Nat) : Option Device :=
  bus.toOption.bind (locate? · vendor product)

/-- All that can come of an attempt to claim, and the calls that it makes. -/
inductive Claiming (bus : Bus) (vendor : Nat) (product : Option Nat) :
    Except Error Claimed → List Call → Prop where
  | unfound (e : Error) :
      (∀ d ∈ bus.printer? vendor product, ∀ ids, d.descriptor ≠ .ok ids) →
      Claiming bus vendor product (.error e) [.list]
  | unopened (d : Device) (e : UsbError) : bus.printer? vendor product = some d →
      d.opening = .error e →
      Claiming bus vendor product (.error (.usb e)) [.list, .opening d.name]
  | untaken (d : Device) (ids : Descriptor) (e : Error) (cs : List Call) :
      bus.printer? vendor product = some d → d.descriptor = .ok ids → d.opening = .ok () →
      Taking d ids (.error e) cs →
      Claiming bus vendor product (.error e) (.list :: .opening d.name :: (cs ++ [.close d.name]))
  | taken (d : Device) (ids : Descriptor) (c : Claimed) (cs : List Call) :
      bus.printer? vendor product = some d → d.descriptor = .ok ids → d.opening = .ok () →
      Taking d ids (.ok c) cs →
      Claiming bus vendor product (.ok c) (.list :: .opening d.name :: cs)

theorem claiming (bus : Bus) (vendor : Nat) (product : Option Nat) :
    ∃ r cs, (claim bus vendor product).Runs r cs ∧ Claiming bus vendor product r cs := by
  cases bus with
  | error e =>
    refine ⟨_, _, .bind_error (.ask .list (.error e)), .unfound _ ?_⟩
    simp [Bus.printer?, Except.toOption]
  | ok ds =>
    have hlist := Runs.ask .list (Except.ok ds : Bus)
    cases hp : Bus.printer? (.ok ds) vendor product with
    | none =>
      have hd : locate? ds vendor product = none := hp
      refine ⟨_, _, .bind_ok hlist ?_, .unfound .notFound (by simp [hp])⟩
      rw [hd]
      exact .throw _
    | some d =>
      have hd : locate? ds vendor product = some d := hp
      cases hi : d.descriptor with
      | error e =>
        refine ⟨_, _, .bind_ok hlist ?_, .unfound (.usb e) (by simp [hp, hi])⟩
        rw [hd]
        dsimp only
        rw [hi]
        exact .throw _
      | ok ids =>
        have hopen := Runs.ask (.opening d.name) d.opening
        obtain ⟨r, cs, htake, ht⟩ := taking d ids
        -- the device is the one to open, whatever comes of that
        have entered {r : Except Error Claimed} {cs : List Call}
            (h : (do ask (.opening d.name) d.opening; undoing (.close d.name) (d.take ids) :
              Attempt Claimed).Runs r cs) :
            (claim (.ok ds) vendor product).Runs r (.list :: cs) := by
          refine .bind_ok hlist ?_
          rw [hd]
          dsimp only
          rw [hi]
          exact h
        cases ho : d.opening with
        | error e =>
          rw [ho] at hopen entered
          exact ⟨_, _, entered (.bind_error hopen), .unopened d e hp ho⟩
        | ok _ =>
          rw [ho] at hopen entered
          cases r with
          | error e =>
            exact ⟨_, _, entered (.bind_ok hopen (.undoing_error htake _)),
              .untaken d ids e cs hp hi ho ht⟩
          | ok c =>
            exact ⟨_, _, entered (.bind_ok hopen (.undoing_ok htake _)),
              .taken d ids c cs hp hi ho ht⟩

theorem claim_claiming (bus : Bus) (vendor : Nat) (product : Option Nat) :
    Claiming bus vendor product (claim bus vendor product).result
      (claim bus vendor product).calls := by
  obtain ⟨r, cs, hr, h⟩ := claiming bus vendor product
  rwa [hr.result, hr.calls]

/-- Every call on the way to this claim succeeds. -/
structure Claimed.Offered (c : Claimed) (bus : Bus) (vendor : Nat) (product : Option Nat) :
    Prop where
  located : bus.printer? vendor product = some c.device
  described : c.device.descriptor = .ok c.ids
  opens : c.device.opening = .ok ()
  freed : c.device.freed = .ok ()
  granted : c.device.claim = .ok ()
  describes : c.device.Describes c.ids c

theorem claim_ok_iff {bus : Bus} {vendor : Nat} {product : Option Nat} {c : Claimed} :
    (claim bus vendor product).result = .ok c ↔ c.Offered bus vendor product := by
  have h := claim_claiming bus vendor product
  generalize (claim bus vendor product).result = r, (claim bus vendor product).calls = cs at h
  cases h with
  | unfound e hn =>
    refine ⟨nofun, fun ho => ?_⟩
    exact absurd ho.described (hn _ ho.located _)
  | unopened d e hp he =>
    refine ⟨nofun, fun ho => ?_⟩
    obtain rfl := Option.some.inj (hp.symm.trans ho.located)
    exact absurd (he.symm.trans ho.opens) nofun
  | untaken d ids e cs hp hi _ ht =>
    refine ⟨nofun, fun ho => ?_⟩
    obtain rfl := Option.some.inj (hp.symm.trans ho.located)
    obtain rfl := Except.ok.inj (hi.symm.trans ho.described)
    cases ht with
    | occupied e _ _ hf => exact absurd (hf.symm.trans ho.freed) nofun
    | refused e _ _ hc => exact absurd (hc.symm.trans ho.granted) nofun
    | undone _ _ _ _ _ _ hn => exact absurd ho.describes (hn c)
  | taken d ids c' cs hp hi hop ht =>
    cases ht with
    | done _ _ _ _ hf hc _ hd =>
      constructor
      · rintro ⟨⟩
        obtain ⟨rfl, rfl, hb⟩ := hd
        exact ⟨hp, hi, hop, hf, hc, rfl, rfl, hb⟩
      · intro ho
        obtain rfl := Option.some.inj (hp.symm.trans ho.located)
        obtain rfl := Except.ok.inj (hi.symm.trans ho.described)
        rw [hd.unique ho.describes]

end LabelPrinter.Usb

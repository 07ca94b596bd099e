import LabelPrinter.Proofs.Usb.Claiming

/-!
What is open on the bus behind some calls, and what an attempt to claim leaves there.
-/

namespace LabelPrinter.Usb

/-- A device that was opened, with the interfaces that are claimed on it. -/
structure Handle where
  device : String
  interfaces : List Nat := []
  deriving DecidableEq, Repr

namespace Handle

/-- The handle of a device that was opened last is changed. -/
def update (device : String) (f : Handle → Handle) : List Handle → List Handle
  | [] => []
  | h :: hs => if h.device = device then f h :: hs else h :: update device f hs

/-- The handles that are open after one more call, which may have succeeded or not. With its
handle a device loses what was claimed on it. -/
def after (hs : List Handle) : Call × Bool → List Handle
  | (.opening d, true) => ⟨d, []⟩ :: hs
  | (.claim d i, true) => update d (fun h => { h with interfaces := i :: h.interfaces }) hs
  | (.release d i, true) => update d (fun h => { h with interfaces := h.interfaces.erase i }) hs
  | (.close d, _) => hs.eraseP (·.device = d)
  | _ => hs

theorem after_quiet {c : Call} (h : c.Quiet) (hs : List Handle) (ok : Bool) :
    after hs (c, ok) = hs := by
  cases c <;> first | rfl | exact h.elim

end Handle

/-- The handles that are open after these calls, the one opened last first. -/
def handles (log : List (Call × Bool)) : List Handle := log.foldl Handle.after []

/-- No claim is made while something is held. -/
def Exclusive (hs : List Handle) (log : List (Call × Bool)) : Prop :=
  ∀ before d i ok later, log = before ++ (.claim d i, ok) :: later →
    ∀ h ∈ before.foldl Handle.after hs, h.interfaces = []

namespace Exclusive

variable {hs : List Handle} {xs ys : List (Call × Bool)}

theorem of_unclaiming (h : ∀ d i ok, (.claim d i, ok) ∉ xs) : Exclusive hs xs := by
  rintro before d i ok later rfl
  exact absurd (by simp) (h d i ok)

theorem claim (h : ∀ h ∈ hs, h.interfaces = []) (d : String) (i : Nat) (ok : Bool) :
    Exclusive hs [(.claim d i, ok)] := by
  intro before d' i' ok' later he
  obtain rfl : before = [] := by
    have hl := congrArg List.length he
    simp only [List.length_append, List.length_cons, List.length_nil] at hl
    exact List.length_eq_zero_iff.mp (by omega)
  exact h

theorem append (hx : Exclusive hs xs) (hy : Exclusive (xs.foldl Handle.after hs) ys) :
    Exclusive hs (xs ++ ys) := by
  intro before d i ok later he
  obtain ⟨zs, rfl, hz⟩ | ⟨zs, rfl, hz⟩ := List.append_eq_append_iff.mp he
  · rw [List.foldl_append]
    exact hy zs d i ok later hz
  · cases zs with
    | nil =>
      have h := hy [] d i ok later hz.symm
      simpa using h
    | cons z zs =>
      obtain ⟨rfl, -⟩ := List.cons.inj hz
      exact hx before d i ok zs rfl

end Exclusive

/-- Whether a call to the device succeeds. -/
def Device.grants (d : Device) : Call → Bool
  | .opening _ => d.opening.isOk
  | .claim _ _ => d.claim.isOk
  | .release _ _ => d.release.isOk
  | _ => true

/-- The calls that are made to a device, each with whether it succeeds. -/
def answered (d? : Option Device) (cs : List Call) : List (Call × Bool) :=
  cs.map fun c => (c, d?.all (·.grants c))

theorem answered_append (d? : Option Device) (cs ds : List Call) :
    answered d? (cs ++ ds) = answered d? cs ++ answered d? ds := List.map_append

/-- The calls turn `hs` into `hs'` and claim nothing while something is held. -/
structure Moves (hs hs' : List Handle) (log : List (Call × Bool)) : Prop where
  leads : log.foldl Handle.after hs = hs'
  exclusive : Exclusive hs log

namespace Moves

variable {hs hs' hs'' : List Handle} {xs ys : List (Call × Bool)}

theorem append (hx : Moves hs hs' xs) (hy : Moves hs' hs'' ys) : Moves hs hs'' (xs ++ ys) := by
  obtain ⟨rfl, hx⟩ := hx
  refine ⟨?_, hx.append hy.exclusive⟩
  rw [List.foldl_append, hy.leads]

theorem of_quiet (h : ∀ x ∈ xs, x.1.Quiet) : Moves hs hs xs := by
  constructor
  · induction xs with
    | nil => rfl
    | cons x xs ih =>
      rw [List.foldl_cons, Handle.after_quiet (h x List.mem_cons_self)]
      exact ih fun y hy => h y (List.mem_cons_of_mem x hy)
  · exact .of_unclaiming fun d i ok hm => h _ hm

theorem quiet {cs : List Call} (h : ∀ c ∈ cs, c.Quiet) (d? : Option Device) :
    Moves hs hs (answered d? cs) :=
  .of_quiet (List.forall_mem_map.mpr h)

theorem idle (d? : Option Device) : Moves hs hs (answered d? []) :=
  .quiet (List.forall_mem_nil _) d?

theorem opening (d : String) (ok : Bool) :
    Moves [] (if ok then [⟨d, []⟩] else []) [(.opening d, ok)] := by
  refine ⟨?_, .of_unclaiming (by simp)⟩
  cases ok <;> rfl

theorem claim (d : String) (i : Nat) (ok : Bool) :
    Moves [⟨d, []⟩] [⟨d, if ok then [i] else []⟩] [(.claim d i, ok)] := by
  refine ⟨?_, .claim (by simp) d i ok⟩
  cases ok <;> simp [Handle.after, Handle.update]

theorem release (d : String) (i : Nat) (ok : Bool) :
    Moves [⟨d, [i]⟩] [⟨d, if ok then [] else [i]⟩] [(.release d i, ok)] := by
  refine ⟨?_, .of_unclaiming (by simp)⟩
  cases ok <;> simp [Handle.after, Handle.update]

theorem close (d : String) (is : List Nat) (ok : Bool) : Moves [⟨d, is⟩] [] [(.close d, ok)] := by
  refine ⟨?_, .of_unclaiming (by simp)⟩
  simp [Handle.after]

theorem entered (d : Device) :
    Moves [] (if d.opening.isOk then [⟨d.name, []⟩] else [])
      (answered d [.list, .opening d.name]) := by
  have hlist : Moves [] [] (answered d [.list]) := .quiet (by simp [Call.Quiet]) d
  exact hlist.append (.opening d.name d.opening.isOk)

theorem claimed {d : Device} (h : d.claim = .ok ()) :
    Moves [⟨d.name, []⟩] [⟨d.name, [printerInterface]⟩]
      (answered d [.claim d.name printerInterface]) := by
  have hclaim : Moves [⟨d.name, []⟩] [⟨d.name, if d.claim.isOk then [printerInterface] else []⟩]
      (answered d [.claim d.name printerInterface]) := .claim d.name printerInterface d.claim.isOk
  rw [h] at hclaim
  exact hclaim

end Moves

variable {bus : Bus} {vendor : Nat} {product : Option Nat} {d : Device} {ids : Descriptor}
  {c : Claimed} {e : Error} {cs : List Call}

theorem Taking.fails (h : Taking d ids (.error e) cs) :
    ∃ is, Moves [⟨d.name, []⟩] [⟨d.name, is⟩] (answered d cs) := by
  cases h with
  | occupied _ _ hq _ => exact ⟨[], .quiet hq d⟩
  | refused _ qs hq _ =>
    rw [answered_append]
    exact ⟨_, (Moves.quiet hq d).append (.claim d.name printerInterface d.claim.isOk)⟩
  -- if the release fails too, the interface stays claimed until the device is closed
  | undone _ qs rs hq hc hr _ =>
    rw [List.append_cons, ← List.append_assoc]
    simp only [answered_append]
    have hclaimed := (Moves.quiet hq d).append (.claimed hc)
    have hread := hclaimed.append (.quiet hr d)
    exact ⟨_, hread.append (.release d.name printerInterface d.release.isOk)⟩

theorem Taking.succeeds (h : Taking d ids (.ok c) cs) :
    c.device = d ∧ Moves [⟨d.name, []⟩] [⟨d.name, [printerInterface]⟩] (answered d cs) := by
  cases h with
  | done _ qs rs hq _ hc hr hd =>
    refine ⟨hd.device, ?_⟩
    rw [List.append_cons]
    simp only [answered_append]
    exact ((Moves.quiet hq d).append (.claimed hc)).append (.quiet hr d)

theorem Claiming.fails (h : Claiming bus vendor product (.error e) cs) :
    Moves [] [] (answered (bus.printer? vendor product) cs) := by
  cases h with
  | unfound e hn => exact .quiet (by simp [Call.Quiet]) _
  | unopened d e hp he =>
    have hentered := Moves.entered d
    rw [he] at hentered
    rw [hp]
    exact hentered
  | untaken d ids e cs hp hi ho ht =>
    have hentered := Moves.entered d
    rw [ho] at hentered
    obtain ⟨is, hcs⟩ := ht.fails
    rw [hp]
    have hclosed := (hentered.append hcs).append (.close d.name is true)
    rw [← List.cons_append, ← List.cons_append, answered_append]
    exact hclosed

theorem Claiming.succeeds (h : Claiming bus vendor product (.ok c) cs) :
    Moves [] [⟨c.device.name, [printerInterface]⟩]
      (answered (bus.printer? vendor product) cs) := by
  cases h with
  | taken d ids _ cs hp hi ho ht =>
    have hentered := Moves.entered d
    rw [ho] at hentered
    obtain ⟨rfl, hcs⟩ := ht.succeeds
    rw [hp]
    exact hentered.append hcs

theorem Claimed.giveUp_moves (c : Claimed) :
    Moves [⟨c.device.name, [printerInterface]⟩] [] (answered c.device c.giveUp) := by
  have hrelease : Moves [⟨c.device.name, [printerInterface]⟩]
      [⟨c.device.name, if c.device.release.isOk then [] else [printerInterface]⟩]
      (answered c.device [.release c.device.name printerInterface]) :=
    .release c.device.name printerInterface c.device.release.isOk
  unfold giveUp
  cases hr : c.device.release with
  | ok _ => exact hrelease.append (.close c.device.name _ true)
  | error e =>
    rw [hr] at hrelease
    exact hrelease.append (hrelease.append (.close c.device.name [printerInterface] true))

end LabelPrinter.Usb

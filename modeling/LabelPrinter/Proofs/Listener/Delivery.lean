import LabelPrinter.Proofs.Listener.History

/-!
Every registration is given exactly the events that are raised while it is registered, in the order
in which they are raised.
-/

namespace LabelPrinter

variable {ε : Type}

/-- The course of a registration: it is added in its place, then comes what happens while it is
registered, and then, if it is removed at all, the call that removes it and the rest. -/
structure Served (hs : List (Happening ε)) (place : Nat) (r : Registration ε)
    (before during after : List (Happening ε)) : Prop where
  history : hs = before ++ .step (.add r.listener) :: during ++ after
  added : (Registry.run before).entries.length = place
  kept : ∀ part h rest, during = part ++ h :: rest →
    ¬(Registry.run (before ++ .step (.add r.listener) :: part)).Retires place h
  standing : r.live = true → after = []
  removed : r.live = false → ∃ rest, after = .step (.remove r.listener) :: rest ∧
    (Registry.run (before ++ .step (.add r.listener) :: during)).Retires place
      (.step (.remove r.listener))
  given_eq : r.handed ++ r.queue = raised during

namespace Served

variable {hs before during after : List (Happening ε)} {place : Nat} {x y : Registration ε}

theorem of_add (listener : String) (hp : (Registry.run hs).entries.length = place) :
    Served (hs ++ [.step (.add listener)]) place { listener := listener } hs [] [] where
  history := by simp
  added := hp
  kept := by simp
  standing := by simp
  removed := by simp
  given_eq := rfl

theorem keep {h : Happening ε} (hx : Served hs place x before during after) (hlive : x.live = true)
    (hn : ¬(Registry.run hs).Retires place h) (hl : y.listener = x.listener)
    (hy : y.live = x.live) (hg : y.given = x.given ++ raised [h]) :
    Served (hs ++ [h]) place y before (during ++ [h]) [] := by
  obtain rfl := hx.standing hlive
  have hh : hs = before ++ .step (.add y.listener) :: during := by
    rw [hx.history, hl, List.append_nil]
  refine ⟨by simp [hh], hx.added, ?_, fun _ => rfl, by simp [hy, hlive], ?_⟩
  · intro part g rest hd
    cases rest using List.reverseRecOn with
    | nil =>
      obtain ⟨rfl, hgh⟩ := List.append_inj' hd rfl
      obtain rfl := List.head_eq_of_cons_eq hgh
      rwa [← hh]
    | append_singleton rest last =>
      have hd' : during ++ [h] = (part ++ g :: rest) ++ [last] := by simpa using hd
      rw [hl]
      exact hx.kept part g rest (List.append_inj' hd' rfl).1
  · rw [raised, List.filterMap_append, ← raised, ← hx.given_eq]
    exact hg

theorem retire {h : Happening ε} (hx : Served hs place x before during after)
    (hlive : x.live = true)
    (hr : (Registry.run hs).Retires place h) (hh : h = .step (.remove x.listener))
    (hl : y.listener = x.listener) (hy : y.live = false) (hg : y.given = x.given) :
    Served (hs ++ [h]) place y before during [h] := by
  obtain rfl := hx.standing hlive
  have hb : hs = before ++ .step (.add y.listener) :: during := by
    rw [hx.history, hl, List.append_nil]
  refine ⟨by simp [hb], hx.added, ?_, by simp [hy], ?_, hg.trans hx.given_eq⟩
  · rw [hl]
    exact hx.kept
  · intro
    rw [hl, ← hh]
    rw [hb, hl] at hr
    exact ⟨[], rfl, hr⟩

theorem outlast {h : Happening ε} (hx : Served hs place x before during after)
    (hlive : x.live = false) (hl : y.listener = x.listener) (hy : y.live = x.live)
    (hg : y.given = x.given) : Served (hs ++ [h]) place y before during (after ++ [h]) := by
  obtain ⟨rest, hr, hret⟩ := hx.removed hlive
  refine ⟨by simp [hx.history, hl], hx.added, ?_, by simp [hy, hlive], ?_, hg.trans hx.given_eq⟩
  · rw [hl]
    exact hx.kept
  · intro
    rw [hl, hr]
    exact ⟨rest ++ [h], rfl, hret⟩

end Served

theorem Registry.served (hs : List (Happening ε)) {place : Nat} {r : Registration ε}
    (h : (Registry.run hs).entries[place]? = some r) :
    ∃ before during after, Served hs place r before during after := by
  -- from the end of the history, since the registration of a place changes with every step
  induction hs using List.reverseRecOn generalizing r with
  | nil => simp [Registry.run] at h
  | append_singleton hs a ih =>
    rw [Registry.run_snoc] at h
    obtain ⟨x, hx, hc⟩ | ⟨hp, ha, hr⟩ := Registry.entry_next h
    · obtain ⟨before, during, after, hb⟩ := ih hx
      cases hc with
      | kept hn hl hs hg =>
        cases hlive : x.live with
        | true =>
          rw [hlive, if_pos rfl] at hg
          exact ⟨_, _, _, hb.keep hlive hn hl hs hg⟩
        | false =>
          rw [hlive, if_neg Bool.false_ne_true, List.append_nil] at hg
          exact ⟨_, _, _, hb.outlast hlive hl hs hg⟩
      | retired hr hh hlive hl hs hg => exact ⟨_, _, _, hb.retire hlive hr hh hl hs hg⟩
    · subst ha
      rw [hr]
      exact ⟨hs, [], [], .of_add r.listener hp⟩

namespace ListenersStep

/-- The part that a step of the listeners plays for the client registry. -/
def client? (endpoint : String) : ListenersStep → Option (Happening Notice)
  | .client s => some (.step s)
  | .raise (.client e) => some (.raise ⟨endpoint, e⟩)
  | .data _ | .raise (.data _) => none

def data? : ListenersStep → Option (Happening DataEvent)
  | .data s => some (.step s)
  | .raise (.data e) => some (.raise e)
  | .client _ | .raise (.client _) => none

end ListenersStep

namespace Listeners

def run (endpoint : String) (steps : List ListenersStep) : Listeners :=
  steps.foldl act { endpoint := endpoint }

theorem run_snoc (endpoint : String) (steps : List ListenersStep) (s : ListenersStep) :
    run endpoint (steps ++ [s]) = (run endpoint steps).act s := by
  rw [run, List.foldl_append]
  rfl

theorem endpoint_run (endpoint : String) (steps : List ListenersStep) :
    (run endpoint steps).endpoint = endpoint := by
  induction steps using List.reverseRecOn with
  | nil => rfl
  | append_singleton steps s ih =>
    rw [run_snoc]
    match s with
    | .client _ | .data _ | .raise (.client _) | .raise (.data _) => exact ih

theorem clients_run (endpoint : String) (steps : List ListenersStep) :
    (run endpoint steps).clients = Registry.run (steps.filterMap (·.client? endpoint)) := by
  induction steps using List.reverseRecOn with
  | nil => rfl
  | append_singleton steps s ih =>
    rw [run_snoc, List.filterMap_append]
    match s with
    | .client s => exact (congrArg (·.act s) ih).trans (Registry.run_snoc _ (.step s)).symm
    | .raise (.client e) =>
      have hl : ((run endpoint steps).act (.raise (.client e))).clients =
          (run endpoint steps).clients.raise ⟨endpoint, e⟩ := by simp [act, raise, endpoint_run]
      rw [hl, ih]
      exact (Registry.run_snoc _ (.raise (⟨endpoint, e⟩ : Notice))).symm
    | .data _ | .raise (.data _) => simpa [ListenersStep.client?, act, raise] using ih

theorem data_run (endpoint : String) (steps : List ListenersStep) :
    (run endpoint steps).data = Registry.run (steps.filterMap (·.data?)) := by
  induction steps using List.reverseRecOn with
  | nil => rfl
  | append_singleton steps s ih =>
    rw [run_snoc, List.filterMap_append]
    match s with
    | .data s => exact (congrArg (·.act s) ih).trans (Registry.run_snoc _ (.step s)).symm
    | .raise (.data e) =>
      exact (congrArg (·.raise e) ih).trans (Registry.run_snoc _ (.raise e)).symm
    | .client _ | .raise (.client _) => simpa [ListenersStep.data?, act, raise] using ih

theorem given_while_registered (endpoint : String) (steps : List ListenersStep) :
    (∀ place r, (run endpoint steps).clients.entries[place]? = some r →
      ∃ before during after,
        Served (steps.filterMap (·.client? endpoint)) place r before during after) ∧
    ∀ place r, (run endpoint steps).data.entries[place]? = some r →
      ∃ before during after, Served (steps.filterMap (·.data?)) place r before during after := by
  constructor
  · intro place r h
    rw [clients_run] at h
    exact Registry.served _ h
  · intro place r h
    rw [data_run] at h
    exact Registry.served _ h

/-- A listener that is removed while its first callback has not come back. -/
def removal : List ListenersStep :=
  [.data (.add "log"), .client (.add "log"), .raise (.client .established), .client (.start 0),
    .raise (.data (.received "OK\n")), .raise (.client .lost), .client (.remove "log"),
    .raise (.client .established)]

def removed : Registration Notice :=
  { listener := "log", live := false, running := some ⟨"tcp://printer", .established⟩,
    queue := [⟨"tcp://printer", .lost⟩] }

theorem given_while_registered_removal :
    (run "tcp://printer" removal).clients.entries[0]? = some removed ∧
      ∃ before during after,
        Served (removal.filterMap (·.client? "tcp://printer")) 0 removed before during after :=
  ⟨rfl, (given_while_registered "tcp://printer" removal).1 0 removed rfl⟩

end Listeners

end LabelPrinter

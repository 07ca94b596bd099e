import LabelPrinter.Proofs.Listener.Alike
import LabelPrinter.Proofs.Run

/-!
A listener that is slow or that panics disturbs nobody else: callers are answered as if it were
not, every registration is given the same events, and the other listeners are handed theirs.
-/

namespace LabelPrinter.Listeners

/-- What a caller may ask of the listeners of a connection. -/
inductive Operation where
  | addClient (listener : String)
  | addData (listener : String)
  | removeClient (listener : String)
  | removeData (listener : String)
  | countClients
  | countData
  | raise (e : Event)

inductive Answer where
  | done
  | found (b : Bool)
  | counted (n : Nat)
  deriving DecidableEq

def answer (l : Listeners) : Operation → Answer
  | .addClient _ | .addData _ | .raise _ => .done
  | .removeClient listener => .found (l.removeClient listener).2
  | .removeData listener => .found (l.removeData listener).2
  | .countClients => .counted l.clients.count
  | .countData => .counted l.data.count

def perform (l : Listeners) : Operation → Listeners
  | .addClient listener => l.addClient listener
  | .addData listener => l.addData listener
  | .removeClient listener => (l.removeClient listener).1
  | .removeData listener => (l.removeData listener).1
  | .countClients | .countData => l
  | .raise e => l.raise e

/-- An operation of a caller, or something that the worker of a registration does. -/
inductive Move where
  | operation (o : Operation)
  | client (place : Nat) (d : Deed)
  | data (place : Nat) (d : Deed)

def Move.operation? : Move → Option Operation
  | .operation o => some o
  | .client _ _ | .data _ _ => none

def next (l : Listeners) : Move → Listeners
  | .operation o => l.perform o
  | .client place d => { l with clients := l.clients.act (d.step place) }
  | .data place d => { l with data := l.data.act (d.step place) }

/-- The listener whose worker moves. -/
def mover? (l : Listeners) : Move → Option String
  | .operation _ => none
  | .client place _ => l.clients.entries[place]?.map (·.listener)
  | .data place _ => l.data.entries[place]?.map (·.listener)

def after (endpoint : String) (ms : List Move) : Listeners := ms.foldl next { endpoint := endpoint }

def course (endpoint : String) (ms : List Move) : List (Turn Listeners Move) :=
  turns next { endpoint := endpoint } ms

def operations (ms : List Move) : List Operation := ms.filterMap Move.operation?

def answers (endpoint : String) (ms : List Move) : List Answer :=
  (course endpoint ms).filterMap fun t => t.action.operation?.map t.state.answer

/-- The operations, and what the workers of the heeded listeners do. -/
def heed? (heeded : String → Bool) (t : Turn Listeners Move) : Option Move :=
  if t.action.operation?.isSome || (t.state.mover? t.action).any heeded then some t.action else none

def heedOnly (heeded : String → Bool) (endpoint : String) (ms : List Move) : List Move :=
  (course endpoint ms).filterMap (heed? heeded)

variable {heeded : String → Bool} {endpoint : String} {l m : Listeners}

structure Alike (heeded : String → Bool) (l m : Listeners) : Prop where
  endpoint_eq : l.endpoint = m.endpoint
  clients : l.clients.Alike heeded m.clients
  data : l.data.Alike heeded m.data

theorem Alike.of_common {n : Listeners} (hl : l.Alike heeded n) (hm : m.Alike heeded n) :
    l.Alike heeded m :=
  ⟨hl.endpoint_eq.trans hm.endpoint_eq.symm, hl.clients.of_common hm.clients,
    hl.data.of_common hm.data⟩

theorem Alike.answer (h : l.Alike heeded m) (o : Operation) : l.answer o = m.answer o := by
  cases o with
  | addClient _ | addData _ | raise _ => rfl
  | removeClient listener => exact congrArg Answer.found (h.clients.remove listener).2
  | removeData listener => exact congrArg Answer.found (h.data.remove listener).2
  | countClients => exact congrArg Answer.counted h.clients.count
  | countData => exact congrArg Answer.counted h.data.count

theorem Alike.perform (h : l.Alike heeded m) (o : Operation) :
    (l.perform o).Alike heeded (m.perform o) := by
  cases o with
  | addClient listener => exact ⟨h.endpoint_eq, h.clients.add listener, h.data⟩
  | addData listener => exact ⟨h.endpoint_eq, h.clients, h.data.add listener⟩
  | removeClient listener => exact ⟨h.endpoint_eq, (h.clients.remove listener).1, h.data⟩
  | removeData listener => exact ⟨h.endpoint_eq, h.clients, (h.data.remove listener).1⟩
  | countClients | countData => exact h
  | raise e =>
    cases e with
    | client e =>
      refine ⟨h.endpoint_eq, ?_, h.data⟩
      simp only [Listeners.perform, raise, h.endpoint_eq]
      exact h.clients.raise _
    | data e => exact ⟨h.endpoint_eq, h.clients, h.data.raise e⟩

theorem Alike.next (h : l.Alike heeded m) (a : Move) : (l.next a).Alike heeded (m.next a) := by
  cases a with
  | operation o => exact h.perform o
  | client place d =>
    refine ⟨h.endpoint_eq, ?_, h.data⟩
    simp only [Listeners.next, d.act_step]
    exact h.clients.work d.works place
  | data place d =>
    refine ⟨h.endpoint_eq, h.clients, ?_⟩
    simp only [Listeners.next, d.act_step]
    exact h.data.work d.works place

theorem Alike.unheeded (h : l.Alike heeded m) {a : Move} (ho : a.operation? = none)
    (hm : (l.mover? a).any heeded = false) : (l.next a).Alike heeded m := by
  cases a with
  | operation o => cases ho
  | client place d =>
    refine ⟨h.endpoint_eq, ?_, h.data⟩
    simp only [Listeners.next, d.act_step]
    exact h.clients.unheeded d.works fun x hx => by simpa [mover?, hx] using hm
  | data place d =>
    refine ⟨h.endpoint_eq, h.clients, ?_⟩
    simp only [Listeners.next, d.act_step]
    exact h.data.unheeded d.works fun x hx => by simpa [mover?, hx] using hm

theorem after_snoc (ms : List Move) (a : Move) :
    after endpoint (ms ++ [a]) = (after endpoint ms).next a := by
  rw [after, List.foldl_append]
  rfl

theorem course_snoc (ms : List Move) (a : Move) :
    course endpoint (ms ++ [a]) = course endpoint ms ++ [⟨after endpoint ms, a⟩] :=
  turns_snoc next _ ms a

theorem answers_snoc (ms : List Move) (a : Move) :
    answers endpoint (ms ++ [a]) =
      answers endpoint ms ++ (a.operation?.map (after endpoint ms).answer).toList := by
  cases ha : a.operation? <;> simp [answers, course_snoc, ha]

/-- What the other workers do makes no difference. -/
theorem alike_heedOnly (heeded : String → Bool) (endpoint : String) (ms : List Move) :
    (after endpoint ms).Alike heeded (after endpoint (heedOnly heeded endpoint ms)) ∧
      answers endpoint ms = answers endpoint (heedOnly heeded endpoint ms) := by
  induction ms using List.reverseRecOn with
  | nil => exact ⟨⟨rfl, .refl _, .refl _⟩, rfl⟩
  | append_singleton ms a ih =>
    obtain ⟨ha, hans⟩ := ih
    have hheed : heedOnly heeded endpoint (ms ++ [a]) =
        heedOnly heeded endpoint ms ++ (heed? heeded ⟨after endpoint ms, a⟩).toList := by
      cases hh : heed? heeded ⟨after endpoint ms, a⟩ <;> simp [heedOnly, course_snoc, hh]
    rw [hheed, after_snoc, answers_snoc]
    by_cases hh : a.operation?.isSome || ((after endpoint ms).mover? a).any heeded
    · have hsame := funext ha.answer
      rw [heed?, if_pos hh, Option.toList_some, after_snoc, answers_snoc, hans, hsame]
      exact ⟨ha.next a, rfl⟩
    · obtain ⟨ho, hm⟩ : a.operation? = none ∧ ((after endpoint ms).mover? a).any heeded = false := by
        simpa using hh
      rw [heed?, if_neg hh, Option.toList_none, List.append_nil, ho]
      exact ⟨ha.unheeded ho hm, by simpa using hans⟩

theorem heedOnly_none (endpoint : String) (ms : List Move) :
    heedOnly (fun _ => false) endpoint ms = (operations ms).map .operation := by
  induction ms using List.reverseRecOn with
  | nil => rfl
  | append_singleton ms a ih =>
    rw [heedOnly, course_snoc, List.filterMap_append, ← heedOnly, ih]
    cases a <;> simp [heed?, Move.operation?, operations]

theorem alike_of_heedOnly {ms ns : List Move}
    (h : heedOnly heeded endpoint ms = heedOnly heeded endpoint ns) :
    (after endpoint ms).Alike heeded (after endpoint ns) ∧
      answers endpoint ms = answers endpoint ns := by
  obtain ⟨hms, hans⟩ := alike_heedOnly heeded endpoint ms
  obtain ⟨hns, hbns⟩ := alike_heedOnly heeded endpoint ns
  rw [h] at hms hans
  exact ⟨hms.of_common hns, hans.trans hbns.symm⟩

theorem alike_of_operations (endpoint : String) {ms ns : List Move}
    (h : operations ms = operations ns) :
    (after endpoint ms).Alike (fun _ => false) (after endpoint ns) ∧
      answers endpoint ms = answers endpoint ns :=
  alike_of_heedOnly (by rw [heedOnly_none, heedOnly_none, h])

theorem clients_foldl_client (ds : List Deed) (l : Listeners) (place : Nat) :
    ((ds.map (.client place)).foldl next l).clients =
      ds.foldl (fun r d => r.act (d.step place)) l.clients := by
  rw [List.foldl_map]
  exact (List.foldl_hom Listeners.clients fun _ _ => rfl).symm

theorem data_foldl_data (ds : List Deed) (l : Listeners) (place : Nat) :
    ((ds.map (.data place)).foldl next l).data =
      ds.foldl (fun r d => r.act (d.step place)) l.data := by
  rw [List.foldl_map]
  exact (List.foldl_hom Listeners.data fun _ _ => rfl).symm

/-- One registry after two runs that may differ in the callbacks of this listener. -/
structure Undisturbed {ε : Type} (listener : String) (r s : Registry ε) : Prop where
  given : List.Forall₂ (fun x y => x.listener = y.listener ∧ x.live = y.live ∧ x.given = y.given)
    r.entries s.entries
  handed : ∀ (place : Nat) (x y : Registration ε), r.entries[place]? = some x →
    s.entries[place]? = some y → x.listener ≠ listener → x.queue = [] → y.queue = [] →
    x.handed = y.handed

theorem undisturbed_of_alike {ε : Type} {r s : Registry ε} (h : r.Alike heeded s)
    (listener : String) : Undisturbed listener r s := by
  refine ⟨h.imp fun x y hxy => ⟨hxy.listener_eq, hxy.live_eq, hxy.given_eq⟩, ?_⟩
  intro place x y hx hy _ hqx hqy
  have hgiven := (h.at_place hx hy).given_eq
  rwa [Registration.given, Registration.given, hqx, hqy, List.append_nil, List.append_nil] at hgiven

/-- What two runs with the same operations have in common, however the callbacks of this listener
went in them. -/
structure Isolated (endpoint listener : String) (ms ns : List Move) : Prop where
  answers_eq : answers endpoint ms = answers endpoint ns
  /-- Callers never wait: whatever the workers do before an operation, its answer is the same. -/
  prompt : ∀ (ws : List Move) (o : Operation), (∀ w ∈ ws, w.operation? = none) →
    (after endpoint (ms ++ ws)).answer o = (after endpoint ms).answer o
  clients : Undisturbed listener (after endpoint ms).clients (after endpoint ns).clients
  data : Undisturbed listener (after endpoint ms).data (after endpoint ns).data
  /-- Every registration can be drained by its own worker alone. -/
  clients_drained : ∀ (place : Nat) x, (after endpoint ms).clients.entries[place]? = some x →
    ∃ (ds : List Deed) (y : _),
      (after endpoint (ms ++ ds.map (.client place))).clients.entries[place]? = some y ∧ x.Drained y
  data_drained : ∀ (place : Nat) x, (after endpoint ms).data.entries[place]? = some x →
    ∃ (ds : List Deed) (y : _),
      (after endpoint (ms ++ ds.map (.data place))).data.entries[place]? = some y ∧ x.Drained y
  /-- If all other workers did the same, the other registrations are the same in every respect. -/
  alike : heedOnly (· ≠ listener) endpoint ms = heedOnly (· ≠ listener) endpoint ns →
    (after endpoint ms).Alike (· ≠ listener) (after endpoint ns)

theorem isolated_of_operations (endpoint listener : String) {ms ns : List Move}
    (h : operations ms = operations ns) : Isolated endpoint listener ms ns := by
  obtain ⟨halike, hanswers⟩ := alike_of_operations endpoint h
  refine ⟨hanswers, ?_, undisturbed_of_alike halike.clients listener,
    undisturbed_of_alike halike.data listener, ?_, ?_, fun h => (alike_of_heedOnly h).1⟩
  · intro ws o hw
    have hws : operations ws = [] := List.filterMap_eq_nil_iff.mpr hw
    have hsame : operations (ms ++ ws) = operations ms := by
      rw [operations, List.filterMap_append, ← operations, ← operations, hws, List.append_nil]
    exact (alike_of_operations endpoint hsame).1.answer o
  · intro place x hx
    refine ⟨Deed.rest x, x.drain, ?_, x.drained_drain⟩
    rw [after, List.foldl_append, clients_foldl_client, Deed.entries_foldl_step, ← after, hx,
      Option.map_some, Deed.foldl_rest]
  · intro place x hx
    refine ⟨Deed.rest x, x.drain, ?_, x.drained_drain⟩
    rw [after, List.foldl_append, data_foldl_data, Deed.entries_foldl_step, ← after, hx,
      Option.map_some, Deed.foldl_rest]

/-- One listener is stuck in its first callback and is then removed; another is registered twice. -/
def stuck : List Move :=
  [.operation (.addClient "panel"), .operation (.addClient "log"), .operation (.addClient "log"),
    .operation (.raise (.client .established)), .client 0 .calls, .client 1 .calls,
    .client 1 (.comesBack .returns), .operation (.removeClient "panel"), .operation .countClients,
    .operation (.raise (.client .lost)), .client 1 .calls]

/-- The same with a listener that panics instead, and with the other one behind. -/
def panicking : List Move :=
  [.operation (.addClient "panel"), .operation (.addClient "log"), .operation (.addClient "log"),
    .operation (.raise (.client .established)), .client 0 .calls, .client 0 (.comesBack .panics),
    .operation (.removeClient "panel"), .operation .countClients,
    .operation (.raise (.client .lost)), .client 1 .calls, .client 1 (.comesBack .returns),
    .client 1 .calls]

theorem isolated_of_operations_stuck :
    operations stuck = operations panicking ∧ Isolated "tcp://printer" "panel" stuck panicking ∧
      answers "tcp://printer" stuck = [.done, .done, .done, .done, .found true, .counted 2, .done] :=
  ⟨rfl, isolated_of_operations "tcp://printer" "panel" rfl, by decide⟩

end LabelPrinter.Listeners

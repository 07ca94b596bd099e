import LabelPrinter.Command

/-!
What a check that passed has checked, and which command one that failed is about.
-/

namespace LabelPrinter.Check

variable {α β : Type} {command reason : String}

@[simp]
theorem bind_eq_ok {x : Checked α} {f : α → Checked β} {b : β} :
    (x >>= f) = .ok b ↔ ∃ a, x = .ok a ∧ f a = .ok b := by
  cases x with
  | error e => simp [bind, Except.bind]
  | ok a => simp [bind, Except.bind]

@[simp]
theorem map_eq_ok {x : Checked α} {f : α → β} {b : β} :
    f <$> x = .ok b ↔ ∃ a, x = .ok a ∧ f a = b := by
  cases x with
  | error e => simp [Functor.map, Except.map]
  | ok a => simp [Functor.map, Except.map]

@[simp]
theorem pure_eq_ok {a b : α} : (pure a : Checked α) = .ok b ↔ a = b := by
  simp [pure, Except.pure]

@[simp]
theorem require_eq_ok {o : Option α} {a : α} : require command o reason = .ok a ↔ o = some a := by
  cases o <;> simp [require]

@[simp]
theorem ensure_eq_ok {b : Bool} {u : Unit} : ensure command b reason = .ok u ↔ b = true := by
  cases b <;> simp [ensure]

@[simp]
theorem finite_eq_ok {x y : Float} {name : String} :
    finite command x name = .ok y ↔ x.isFinite = true ∧ x = y := by
  by_cases h : x.isFinite = true <;> simp [finite, h]

@[simp]
theorem position_eq_ok {x y : Option Nat} {p : Nat × Nat} :
    position command x y = .ok p ↔ x = some p.1 ∧ y = some p.2 := by
  obtain ⟨a, b⟩ := p
  cases x <;> cases y <;> simp [position]

/-- An error, if there is one, names that command. -/
def Blames (command : String) (x : Checked α) : Prop := ∀ e, x = .error e → e.command = command

@[simp]
theorem blames_ok {a : α} : Blames command (.ok a) := nofun

@[simp]
theorem blames_pure {a : α} : Blames command (pure a) := nofun

@[simp]
theorem blames_error {e : ValidationError} :
    Blames command (.error e : Checked α) ↔ e.command = command := by
  simp [Blames]

@[simp]
theorem blames_bind {x : Checked α} {f : α → Checked β} : Blames command (x >>= f) ↔
    Blames command x ∧ ∀ a, x = .ok a → Blames command (f a) := by
  cases x with
  | error e => simp [bind, Except.bind]
  | ok a => simp [bind, Except.bind]

@[simp]
theorem blames_map {x : Checked α} {f : α → β} : Blames command (f <$> x) ↔ Blames command x := by
  cases x with
  | error e => simp [Functor.map, Except.map]
  | ok a => simp [Functor.map, Except.map]

@[simp]
theorem blames_require {o : Option α} {reason : String} :
    Blames command (require command o reason) := by
  cases o <;> simp [require]

@[simp]
theorem blames_ensure {b : Bool} {reason : String} : Blames command (ensure command b reason) := by
  cases b <;> simp [ensure]

@[simp]
theorem blames_finite {x : Float} {name : String} : Blames command (finite command x name) := by
  rw [finite]
  split <;> simp

@[simp]
theorem blames_position {x y : Option Nat} : Blames command (position command x y) := by
  cases x <;> cases y <;> simp [position]

end LabelPrinter.Check

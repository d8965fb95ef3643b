/-!
Checks in a row.

A computation that ends at its first fault comes to a value exactly when every check
on the way does.
-/

namespace Gatehouse.Checks

variable {ε δ α β : Type}

theorem bind_eq_ok {x : Except ε α} {f : α → Except ε β} {b : β} :
    (x >>= f) = .ok b ↔ ∃ a, x = .ok a ∧ f a = .ok b := by
  cases x with
  | error e =>
      constructor
      · intro h
        cases h
      · rintro ⟨a, h, _⟩
        cases h
  | ok a =>
      constructor
      · exact fun h => ⟨a, rfl, h⟩
      · rintro ⟨_, same, h⟩
        cases same
        exact h

theorem pure_eq_ok {a b : α} : (pure a : Except ε α) = .ok b ↔ a = b :=
  Except.ok.injEq a b ▸ Iff.rfl

/-- A check that throws a fault is passed when its condition does not hold. -/
theorem unless_eq_ok {p : Prop} [Decidable p] {e : ε} {k : Unit → Except ε β} {b : β} :
    (if p then throw e >>= k else k ()) = .ok b ↔ ¬ p ∧ k () = .ok b := by
  by_cases h : p
  · rw [if_pos h, bind_eq_ok]
    constructor
    · rintro ⟨_, thrown, _⟩
      cases thrown
    · rintro ⟨no, _⟩
      exact absurd h no
  · rw [if_neg h, and_iff_right h]

/-- The same where the fault is the value of a branch. -/
theorem ite_eq_ok {p : Prop} [Decidable p] {e : ε} {x : Except ε β} {b : β} :
    (if p then .error e else x) = .ok b ↔ ¬ p ∧ x = .ok b := by
  by_cases h : p
  · simp [h]
  · simp [h]

theorem mapError_eq_ok {f : ε → δ} {x : Except ε α} {a : α} :
    x.mapError f = .ok a ↔ x = .ok a := by
  cases x with
  | error e =>
      constructor
      · intro h
        cases h
      · intro h
        cases h
  | ok b =>
      constructor
      · intro h
        cases h
        rfl
      · intro h
        cases h
        rfl

theorem mapError_eq_error {f : ε → δ} {x : Except ε α} {d : δ} :
    x.mapError f = .error d ↔ ∃ e, x = .error e ∧ f e = d := by
  cases x with
  | error e =>
      constructor
      · intro h
        cases h
        exact ⟨e, rfl, rfl⟩
      · rintro ⟨_, same, rfl⟩
        cases same
        rfl
  | ok a =>
      constructor
      · intro h
        cases h
      · rintro ⟨_, same, _⟩
        cases same

theorem map_eq_ok {f : α → β} {x : Except ε α} {b : β} :
    x.map f = .ok b ↔ ∃ a, x = .ok a ∧ f a = b := by
  cases x <;> simp [Except.map]

/-- A value is there when something is seen of it. -/
theorem exists_of_view (x : Except ε α) (view : α → β) (seen : β)
    (h : x.toOption.map view = some seen) : ∃ a, x = .ok a ∧ view a = seen := by
  cases x with
  | error e => cases h
  | ok a => exact ⟨a, rfl, Option.some.inj h⟩

end Gatehouse.Checks

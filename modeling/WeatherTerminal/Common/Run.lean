import Mathlib.Tactic.Common
/-!
# Runs

What a run of steps keeps. Support for the state machines below: a
computation that may fail, taken apart into its halves, and a fold of a
step function over a list of inputs.
-/

namespace WeatherTerminal

/-- A sequence of two computations succeeds only where both halves do. -/
theorem exists_of_bind_eq_ok {ε α β : Type} {x : Except ε α} {f : α → Except ε β} {b : β}
    (h : x >>= f = Except.ok b) : ∃ a, x = Except.ok a ∧ f a = Except.ok b := by
  rcases x with e | a
  · cases h
  · exact ⟨a, rfl, h⟩

theorem error_of_bind_eq_error {ε α β : Type} {x : Except ε α} {f : α → Except ε β} {e : ε}
    (h : x >>= f = Except.error e) :
    x = Except.error e ∨ ∃ a, x = Except.ok a ∧ f a = Except.error e := by
  rcases x with e' | a
  · exact Or.inl (congrArg Except.error (Except.error.inj h))
  · exact Or.inr ⟨a, rfl, h⟩

/-- A mapped one succeeds where the computation does, with its value mapped.
-/
theorem exists_of_map_eq_ok {ε α β : Type} {x : Except ε α} {f : α → β} {b : β}
    (h : x.map f = Except.ok b) : ∃ a, x = Except.ok a ∧ f a = b := by
  rcases x with e | a
  · cases h
  · exact ⟨a, rfl, Except.ok.inj h⟩

theorem error_of_map_eq_error {ε α β : Type} {x : Except ε α} {f : α → β} {e : ε}
    (h : x.map f = Except.error e) : x = Except.error e := by
  rcases x with e' | a
  · exact congrArg Except.error (Except.error.inj h)
  · cases h

/-- Without its errors a sequence is the sequence of the values. -/
theorem toOption_bind {ε α β : Type} (x : Except ε α) (f : α → Except ε β) :
    (x >>= f).toOption = x.toOption.bind fun a => (f a).toOption := by
  cases x <;> rfl

/-- Without its errors a mapped computation has its value mapped. -/
theorem toOption_map {ε α β : Type} (x : Except ε α) (f : α → β) :
    (x.map f).toOption = x.toOption.map f := by
  cases x <;> rfl

/-- A computation has a value where it succeeds with it. -/
theorem toOption_eq_some {ε α : Type} {x : Except ε α} {a : α} :
    x.toOption = some a ↔ x = .ok a := by
  cases x with
  | error e => exact iff_of_false (fun h => by cases h) (fun h => by cases h)
  | ok b => exact ⟨fun h => congrArg Except.ok (Option.some.inj h),
      fun h => congrArg some (Except.ok.inj h)⟩

end WeatherTerminal

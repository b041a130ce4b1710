import Mathlib.Data.Option.Basic

/-!
# Computations that may fail

Inversion of successful `Except` computations.
-/

namespace Fallible

universe u v

variable {ε : Type u} {α β : Type v}

/-- A successful sequence is two successes. -/
theorem bind_ok {x : Except ε α} {f : α → Except ε β} {b : β} (h : (x >>= f) = .ok b) :
    ∃ a, x = .ok a ∧ f a = .ok b := by
  cases x with
  | error e => cases h
  | ok a => exact ⟨a, rfl, h⟩

/-- A mapped success is a success. -/
theorem map_ok {x : Except ε α} {f : α → β} {b : β} (h : x.map f = .ok b) :
    ∃ a, x = .ok a ∧ f a = b := by
  cases x with
  | error e => cases h
  | ok a => exact ⟨a, rfl, Except.ok.inj h⟩

/-- A sequence fails in its first computation or behind it. -/
theorem bind_error {x : Except ε α} {f : α → Except ε β} {e : ε} (h : (x >>= f) = .error e) :
    x = .error e ∨ ∃ a, x = .ok a ∧ f a = .error e := by
  cases x with
  | error failure =>
    cases h
    exact .inl rfl
  | ok a => exact .inr ⟨a, rfl, h⟩

/-- A sequence whose first computation succeeds goes on with its value. -/
theorem ok_bind {x : Except ε α} {a : α} (h : x = .ok a) (f : α → Except ε β) :
    (x >>= f) = f a := by
  rw [h]
  rfl

/-- A computation that succeeds is the success of its value. -/
theorem eq_ok_getD {x : Except ε α} (h : x.isOk = true) (a : α) : x = .ok (x.toOption.getD a) := by
  cases x with
  | error e => cases h
  | ok b => rfl

end Fallible

/-
Sequencing of checks that fail with a value: what the success and the failure of a sequence say of
its parts.
-/
import Mathlib.Logic.Basic

namespace Xahc.Data

variable {ε α β : Type} {x : Except ε α} {f : α → Except ε β}

theorem bind_ok {b : β} : (x >>= f) = .ok b ↔ ∃ a, x = .ok a ∧ f a = .ok b := by
  cases x <;> simp [bind, Except.bind]

theorem bind_error {e : ε} (h : (x >>= f) = .error e) : x = .error e ∨ ∃ a, x = .ok a ∧ f a = .error e := by
  cases x with
  | error _ => exact Or.inl (by simpa [bind, Except.bind] using h)
  | ok a => exact Or.inr ⟨a, rfl, h⟩

end Xahc.Data

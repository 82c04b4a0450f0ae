/-
Tables whose entries expire. What counts is the entries that have not: a table may keep the others for any time.
-/
import Mathlib.Data.Option.Basic
import Mathlib.Order.Lattice

namespace Xahc.Data.Expiring

section
variable {K V T : Type} [LinearOrder T] {expiry : V → T} {now now' : T} {f g : K → Option V}

/-- The entries that have not expired. -/
def live (expiry : V → T) (now : T) (f : K → Option V) : K → Option V :=
  fun k => (f k).filter fun v => decide (now < expiry v)

theorem live_eq_some {k : K} {v : V} : live expiry now f k = some v ↔ f k = some v ∧ now < expiry v := by
  rw [live, Option.filter_eq_some_iff, decide_eq_true_iff]

/-- What expires stays expired. -/
theorem live_live (hle : now ≤ now') : live expiry now' (live expiry now f) = live expiry now' f := by
  funext k
  ext v
  rw [live_eq_some, live_eq_some, live_eq_some, and_assoc]
  exact and_congr_right fun _ => ⟨fun h => h.2, fun h => ⟨lt_of_le_of_lt hle h, h⟩⟩

/-- Tables with the same live entries have the same ones later. -/
theorem live_later (h : live expiry now f = live expiry now g) (hle : now ≤ now') :
    live expiry now' f = live expiry now' g := by
  rw [← live_live hle, h, live_live hle]

variable [DecidableEq K]

theorem live_update (k : K) (v : Option V) : live expiry now (Function.update f k v) =
    Function.update (live expiry now f) k (v.filter fun v => decide (now < expiry v)) := by
  funext k'
  by_cases hk : k' = k
  · subst hk
    rw [live, Function.update_self, Function.update_self]
  · rw [live, Function.update_of_ne hk, Function.update_of_ne hk, live]

/-- A key may be bound, bound over or dropped in both. -/
theorem live_update_congr (h : live expiry now f = live expiry now g) (k : K) (v : Option V) :
    live expiry now (Function.update f k v) = live expiry now (Function.update g k v) := by
  rw [live_update, live_update, h]

/-- Dropping an expired entry changes nothing that counts. -/
theorem live_drop {k : K} (h : ∀ v, f k = some v → expiry v ≤ now) :
    live expiry now (Function.update f k none) = live expiry now f := by
  rw [live_update, Option.filter_none]
  have hdead : live expiry now f k = none := by
    rw [live, Option.filter_eq_none_iff]
    intro v hv
    simpa using h v hv
  rw [← hdead, Function.update_eq_self]

end

end Xahc.Data.Expiring

/-
Token buckets: a level that is refilled up to a cap and drawn from when it covers the cost of a call. What
calls spend is bounded by what the bucket held and what it was credited.
-/
import Mathlib.Algebra.Order.Field.Basic
import Mathlib.Tactic.Linarith

namespace Xahc.Data.TokenBucket

variable {K : Type} [Field K] [LinearOrder K]

/-- Refill the level by `credit`, up to the cap, and take the cost out if the level covers it. -/
def draw (cap cost level credit : K) : K × Bool :=
  let level := min cap (level + credit)
  if level < cost then (level, false) else (level - cost, true)

/-- What a call takes out. -/
def spent (cost : K) (allowed : Bool) : K := if allowed then cost else 0

/-- How far a clock moves forward from a reading to the next. -/
def forward (prev t : K) : K := max 0 (t - prev)

/-- How far a clock moves forward along its readings, after the reading `prev`. -/
def rise (prev : K) : List K → K
  | [] => 0
  | t :: ts => forward prev t + rise t ts

variable {cap cost level credit : K}

/-- A bucket that has filled up is a new one. -/
theorem draw_full (hfull : cap ≤ level + credit) : draw cap cost level credit = draw cap cost cap 0 := by
  rw [draw, draw, min_eq_left hfull, add_zero, min_self]

theorem draw_add_spent (cap cost level credit : K) :
    (draw cap cost level credit).1 + spent cost (draw cap cost level credit).2 = min cap (level + credit) := by
  unfold draw
  dsimp only
  split <;> simp [spent]

/-- A call spends no more than the level and the credit. -/
theorem draw_le (cap cost level credit : K) :
    (draw cap cost level credit).1 + spent cost (draw cap cost level credit).2 ≤ level + credit :=
  (draw_add_spent cap cost level credit).trans_le (min_le_right _ _)

/-- A call spends no more than the cap. -/
theorem draw_le_cap (cap cost level credit : K) :
    (draw cap cost level credit).1 + spent cost (draw cap cost level credit).2 ≤ cap :=
  (draw_add_spent cap cost level credit).trans_le (min_le_left _ _)

variable [IsStrictOrderedRing K]

theorem draw_nonneg (hcap : 0 ≤ cap) (hlevel : 0 ≤ level + credit) : 0 ≤ (draw cap cost level credit).1 := by
  have hmin : 0 ≤ min cap (level + credit) := le_min hcap hlevel
  unfold draw
  dsimp only
  split_ifs with hlt
  · exact hmin
  · exact sub_nonneg.2 (not_lt.1 hlt)

/-- Along readings in order the clock moves no further than to the last one. -/
theorem rise_le_of_sorted {hi : K} : ∀ {ts : List K} {prev : K}, (prev :: ts).Pairwise (· ≤ ·) → prev ≤ hi →
    (∀ t ∈ ts, t ≤ hi) → rise prev ts ≤ hi - prev
  | [], prev, _, hprev, _ => sub_nonneg.2 hprev
  | t :: ts, prev, hsorted, _, hle => by
    obtain ⟨hfirst, hrest⟩ := List.pairwise_cons.1 hsorted
    obtain ⟨ht, hts⟩ := List.forall_mem_cons.1 hle
    have hstep : forward prev t = t - prev := max_eq_right (sub_nonneg.2 (hfirst t List.mem_cons_self))
    have ih := rise_le_of_sorted hrest ht hts
    rw [rise, hstep]
    linarith

end Xahc.Data.TokenBucket

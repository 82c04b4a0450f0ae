/-
Depths in a relation: the heaviest path from a point, its weight cut off at a cap. The depth of a point follows
from those of its successors, and a point whose descents all end reaches no cycle.
-/
import Mathlib.Algebra.BigOperators.Group.List.Basic
import Mathlib.Algebra.Ring.Nat
import Mathlib.Data.List.Chain
import Mathlib.Logic.Relation
import Mathlib.Order.Bounds.Basic
import Mathlib.Order.MinMax

namespace Xahc.Data

open Relation

section
variable {V : Type} {E : V → V → Prop} {weight : V → Nat} {cap : Nat} {f : V}

/-! ## Depth -/

/-- The weights of the paths from a point, each at most the cap. -/
def pathWeights (E : V → V → Prop) (weight : V → Nat) (cap : Nat) (f : V) : Set Nat :=
  fun d => ∃ p, (f :: p).IsChain E ∧ d = min cap ((f :: p).map weight).sum

/-- The heaviest path from a point weighs that much. -/
def IsDepth (E : V → V → Prop) (weight : V → Nat) (cap : Nat) (f : V) (d : Nat) : Prop :=
  IsGreatest (pathWeights E weight cap f) d

theorem min_add_min (a b : Nat) : min cap (a + min cap b) = min cap (a + b) := by omega

/-- The depth of a point is its own weight on top of the deepest successor. -/
theorem isDepth_of_next {below : Nat} (hle : ∀ c, E f c → ∃ d, IsDepth E weight cap c d ∧ d ≤ below)
    (hmax : below = 0 ∨ ∃ c, E f c ∧ IsDepth E weight cap c below) :
    IsDepth E weight cap f (min cap (weight f + below)) := by
  constructor
  · rcases hmax with rfl | ⟨c, hc, ⟨p, hp, hbelow⟩, -⟩
    · exact ⟨[], List.isChain_singleton f, by simp⟩
    · refine ⟨c :: p, List.isChain_cons_cons.2 ⟨hc, hp⟩, ?_⟩
      rw [hbelow, min_add_min, List.map_cons (l := c :: p), List.sum_cons]
  · rintro d ⟨p, hp, rfl⟩
    cases p with
    | nil =>
      rw [List.map_singleton, List.sum_singleton]
      exact min_le_min le_rfl (Nat.le_add_right _ _)
    | cons c p =>
      obtain ⟨hc, hp⟩ := List.isChain_cons_cons.1 hp
      obtain ⟨d, hd, hbelow⟩ := hle c hc
      have hpath : min cap ((c :: p).map weight).sum ≤ below := (hd.2 ⟨p, hp, rfl⟩).trans hbelow
      rw [List.map_cons, List.sum_cons, ← min_add_min]
      exact min_le_min le_rfl (Nat.add_le_add_left hpath _)

/-! ## Cycles -/

/-- A cycle that the point leads to. -/
def ReachesCycle (E : V → V → Prop) (f : V) : Prop := ∃ g, ReflTransGen E f g ∧ TransGen E g g

theorem reachesCycle_of_next {c : V} (hc : E f c) (h : ReachesCycle E c) : ReachesCycle E f := by
  obtain ⟨g, hreach, hcycle⟩ := h
  exact ⟨g, .head hc hreach, hcycle⟩

/-- Where every descent ends there is no cycle. -/
theorem not_reachesCycle_of_acc (h : Acc (fun c f => E f c) f) : ¬ReachesCycle E f := by
  induction h with
  | intro f _ ih =>
    rintro ⟨g, hreach, hcycle⟩
    rcases ReflTransGen.cases_head hreach with rfl | ⟨c, hc, hreach⟩
    · -- round the cycle once from the first point on it
      obtain ⟨c, hc, hback⟩ := TransGen.head'_iff.1 hcycle
      exact ih c hc ⟨f, hback, hcycle⟩
    · exact ih c hc ⟨g, hreach, hcycle⟩

end

end Xahc.Data

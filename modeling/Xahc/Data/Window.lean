/-
A list found inside a larger one at a position: what a reader that walks a buffer by index sees of
the pieces the buffer was assembled from.
-/
import Mathlib.Data.List.Basic

namespace Xahc.Data

variable {α : Type} {d a b bs : List α} {x : α} {p i : Nat}

/-- `d` reads `bs` from position `p` on. -/
def At (d : List α) (p : Nat) (bs : List α) : Prop := bs <+: d.drop p

theorem at_zero (d : List α) : At d 0 d := List.prefix_rfl

theorem At.left (h : At d p (a ++ b)) : At d p a := (List.prefix_append a b).trans h

theorem At.right (h : At d p (a ++ b)) : At d (p + a.length) b := by
  obtain ⟨rest, h⟩ := h
  refine ⟨rest, ?_⟩
  rw [← List.drop_drop, ← h, List.append_assoc, List.drop_left]

theorem At.getElem? (h : At d p bs) (hi : i < bs.length) : d[p + i]? = bs[i]? := by
  obtain ⟨rest, h⟩ := h
  rw [← List.getElem?_drop, ← h, List.getElem?_append_left hi]

theorem At.head (h : At d p (x :: b)) : d[p]? = some x := by
  simpa using h.getElem? (i := 0) (by simp)

theorem At.tail (h : At d p (x :: b)) : At d (p + 1) b := At.right (a := [x]) h

theorem At.length_le (h : At d p bs) : bs.length ≤ d.length - p := by
  simpa using List.IsPrefix.length_le h

/-- The bytes between the two ends of the piece are the piece. -/
theorem At.take_drop (h : At d p bs) : (d.drop p).take bs.length = bs :=
  (List.prefix_iff_eq_take.mp h).symm

end Xahc.Data

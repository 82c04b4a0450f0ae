/-
Regions of a memory: what a range holds after this or another range was overwritten.
-/
import Mathlib.Data.List.Basic

namespace Xahc.Data

variable {α : Type}

/-- The `len` cells from `ptr` on. -/
def region (mem : List α) (ptr len : Nat) : List α := (mem.drop ptr).take len

/-- The memory with `cells` over what is at `ptr`. -/
def splice (mem : List α) (ptr : Nat) (cells : List α) : List α :=
  mem.take ptr ++ cells ++ mem.drop (ptr + cells.length)

variable {mem cells : List α} {ptr len p n i : Nat}

theorem region_length (h : ptr + len ≤ mem.length) : (region mem ptr len).length = len := by
  rw [region, List.length_take, List.length_drop]
  omega

theorem getElem?_region (hi : i < len) : (region mem ptr len)[i]? = mem[ptr + i]? := by
  rw [region, List.getElem?_take_of_lt hi, List.getElem?_drop]

theorem splice_length (h : ptr + cells.length ≤ mem.length) : (splice mem ptr cells).length = mem.length := by
  rw [splice, List.length_append, List.length_append, List.length_take, List.length_drop]
  omega

/-- Every cell of the overwritten memory: the new ones inside the range, the old ones outside. -/
theorem getElem?_splice (h : ptr + cells.length ≤ mem.length) (i : Nat) :
    (splice mem ptr cells)[i]? = if ptr ≤ i ∧ i < ptr + cells.length then cells[i - ptr]? else mem[i]? := by
  have htake : (mem.take ptr).length = ptr := by
    rw [List.length_take]
    omega
  rw [splice, List.append_assoc]
  by_cases hlow : i < ptr
  · rw [if_neg (by omega), List.getElem?_append_left (by omega), List.getElem?_take_of_lt hlow]
  · rw [List.getElem?_append_right (by omega), htake]
    by_cases hin : i < ptr + cells.length
    · rw [if_pos ⟨by omega, hin⟩, List.getElem?_append_left (by omega)]
    · rw [if_neg (by omega), List.getElem?_append_right (by omega), List.getElem?_drop]
      congr 1
      omega

/-- A range that does not meet the overwritten one is as it was. -/
theorem region_splice_of_disjoint (h : ptr + cells.length ≤ mem.length) (hdis : p + n ≤ ptr ∨ ptr + cells.length ≤ p) :
    region (splice mem ptr cells) p n = region mem p n := by
  apply List.ext_getElem?
  intro i
  by_cases hi : i < n
  · rw [getElem?_region hi, getElem?_region hi, getElem?_splice h, if_neg (by omega)]
  · have hnone (xs : List α) : (region xs p n)[i]? = none := by
      rw [List.getElem?_eq_none_iff, region, List.length_take]
      omega
    rw [hnone, hnone]

/-- The overwritten range and what lies behind it. -/
theorem region_splice (h : ptr + cells.length ≤ mem.length) (hlen : cells.length ≤ len) :
    region (splice mem ptr cells) ptr len = cells ++ region mem (ptr + cells.length) (len - cells.length) := by
  have htake : (mem.take ptr).length = ptr := by
    rw [List.length_take]
    omega
  have hdrop : (splice mem ptr cells).drop ptr = cells ++ mem.drop (ptr + cells.length) := by
    rw [splice, List.append_assoc, List.drop_append_of_le_length (by omega), List.drop_of_length_le (by omega), List.nil_append]
  rw [region, hdrop, List.take_append, List.take_of_length_le hlen, region]

theorem region_splice_self (h : ptr + cells.length ≤ mem.length) :
    region (splice mem ptr cells) ptr cells.length = cells := by
  rw [region_splice h (Nat.le_refl _), Nat.sub_self, region, List.take_zero, List.append_nil]

theorem region_add : region mem ptr (len + n) = region mem ptr len ++ region mem (ptr + len) n := by
  rw [region, List.take_add, List.drop_drop, region, region]

/-- A range overwritten at its end, or beyond. -/
theorem region_splice_end (h : ptr + len + cells.length ≤ mem.length) :
    region (splice mem (ptr + len) cells) ptr (len + cells.length) = region mem ptr len ++ cells := by
  rw [region_add, region_splice_of_disjoint h (.inl (Nat.le_refl _)), region_splice_self h]

/-- A part of a range. -/
theorem region_region (h : i + n ≤ len) : region (region mem ptr len) i n = region mem (ptr + i) n := by
  rw [region, region, region, List.drop_take, List.drop_drop, List.take_take, Nat.min_eq_left (by omega)]

end Xahc.Data

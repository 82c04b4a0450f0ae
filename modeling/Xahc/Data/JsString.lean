/-
The few string operations of JavaScript the models need, on Lean strings: trimming of white space
and line terminators, and splitting at a separator.
-/
import Mathlib.Data.List.DropRight

namespace Xahc.Data

/-- ECMAScript white space and line terminators. -/
def isJsSpace (c : Char) : Bool :=
  let n := c.toNat
  (0x09 ≤ n && n ≤ 0x0D) || n == 0x20 || n == 0xA0 || n == 0x1680 || (0x2000 ≤ n && n ≤ 0x200A) ||
    n == 0x2028 || n == 0x2029 || n == 0x202F || n == 0x205F || n == 0x3000 || n == 0xFEFF

/-- `s.trim()`, on characters. -/
def jsTrim (s : List Char) : List Char := (s.dropWhile isJsSpace).rdropWhile isJsSpace

/-- `s.split(sep)` for a one-character separator, on characters. -/
def jsSplit (sep : Char) (s : List Char) : List (List Char) := s.splitOn sep

theorem jsSplit_append (sep : Char) (s t : List Char) :
    jsSplit sep (s ++ sep :: t) = jsSplit sep s ++ jsSplit sep t :=
  List.splitOn_append_cons_self s t

theorem jsSplit_of_notMem {sep : Char} {s : List Char} (h : sep ∉ s) : jsSplit sep s = [s] :=
  List.splitOn_eq_singleton h

@[simp] theorem jsTrim_nil : jsTrim [] = [] := rfl

/-- White space in front is trimmed away. -/
theorem jsTrim_cons {c : Char} (h : isJsSpace c = true) (s : List Char) : jsTrim (c :: s) = jsTrim s := by
  rw [jsTrim, List.dropWhile_cons_of_pos h, jsTrim]

end Xahc.Data

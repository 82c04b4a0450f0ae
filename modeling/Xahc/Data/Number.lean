/-
Integers as double-precision numbers: rounded to 53 bits, half to even, and infinite from where the rounding
leaves the range. A sum that is rounded at each step is exact while it is small, and stays large once it is not.
-/
import Mathlib.Data.Int.Order.Basic
import Mathlib.Tactic.NormNum
import Mathlib.Tactic.Positivity

namespace Xahc.Data.Number

/-! ## Rounding -/

/-- A magnitude rounded to 53 bits. -/
def roundNat (m : Nat) : Nat :=
  if m < 2 ^ 53 then m
  else
    let ulp := 2 ^ (m.log2 - 52)
    let q := m / ulp
    let r := m % ulp
    (if 2 * r < ulp ∨ (2 * r = ulp ∧ q % 2 = 0) then q else q + 1) * ulp

/-- The magnitudes from here on are infinite. -/
@[irreducible] def infinite : Nat := 2 ^ 1024

/-- The number nearest to an integer, none where it is infinite. -/
def round (n : Int) : Option Int :=
  let m := roundNat n.natAbs
  if infinite ≤ m then none else some (n.sign * m)

theorem roundNat_of_lt {m : Nat} (h : m < 2 ^ 53) : roundNat m = m := if_pos h

/-- What does not fit 53 bits does not fit them rounded. -/
theorem le_roundNat {m : Nat} (h : 2 ^ 53 ≤ m) : 2 ^ 53 ≤ roundNat m := by
  have hlog : 53 ≤ m.log2 := (Nat.le_log2 (by omega)).2 h
  have hm : 2 ^ 52 * 2 ^ (m.log2 - 52) ≤ m := by
    rw [← pow_add, Nat.add_sub_cancel' (by omega)]
    exact Nat.log2_self_le (by omega)
  have hq : 2 ^ 52 ≤ m / 2 ^ (m.log2 - 52) := (Nat.le_div_iff_mul_le (by positivity)).2 hm
  have hulp : 2 ≤ 2 ^ (m.log2 - 52) := by
    calc 2 = 2 ^ 1 := rfl
      _ ≤ 2 ^ (m.log2 - 52) := Nat.pow_le_pow_right (by norm_num) (by omega)
  rw [roundNat, if_neg (by omega)]
  dsimp only
  calc 2 ^ 53 = 2 ^ 52 * 2 := by norm_num
    _ ≤ _ := Nat.mul_le_mul ?_ hulp
  split
  · exact hq
  · omega

theorem round_exact {n : Int} (h : n.natAbs < 2 ^ 53) : round n = some n := by
  have hpow (k : Nat) (hk : 53 ≤ k) : ¬2 ^ k ≤ roundNat n.natAbs := by
    rw [roundNat_of_lt h, not_le]
    exact h.trans_le (Nat.pow_le_pow_right (by decide) hk)
  have hfinite : ¬infinite ≤ roundNat n.natAbs := by
    unfold infinite
    exact hpow 1024 (by decide)
  rw [round, if_neg hfinite, roundNat_of_lt h, Int.sign_mul_natAbs]

/-- What does not fit 53 bits rounds to a number on the same side that does not either. -/
theorem round_large {n m : Int} (h : round n = some m) (hlarge : 2 ^ 53 ≤ n.natAbs) :
    (2 ^ 53 ≤ n ∧ 2 ^ 53 ≤ m) ∨ (n ≤ -2 ^ 53 ∧ m ≤ -2 ^ 53) := by
  have hround := le_roundNat hlarge
  unfold round at h
  dsimp only at h
  split_ifs at h
  injection h with h
  subst h
  rcases lt_trichotomy n 0 with hneg | rfl | hpos
  · right
    rw [Int.sign_eq_neg_one_of_neg hneg]
    omega
  · omega
  · left
    rw [Int.sign_eq_one_of_pos hpos]
    omega

/-! ## Sums -/

/-- The sum of a number, none where it is infinite, and an integer that is not. -/
def add (m : Option Int) (d : Int) : Option Int := m.bind fun m => round (m + d)

/-- The number is `n`, or it and `n` are both beyond the bound, on the same side where the number is finite. -/
def Tracks (bound n : Int) : Option Int → Prop
  | some m => m = n ∨ (bound ≤ n ∧ bound ≤ m) ∨ (n ≤ -bound ∧ m ≤ -bound)
  | none => bound ≤ n ∨ n ≤ -bound

theorem tracks_round (n : Int) : Tracks (2 ^ 53) n (round n) := by
  by_cases hsmall : n.natAbs < 2 ^ 53
  · rw [round_exact hsmall]
    exact .inl rfl
  · cases h : round n with
    | none =>
      show 2 ^ 53 ≤ n ∨ n ≤ -2 ^ 53
      omega
    | some m => exact .inr (round_large h (not_lt.1 hsmall))

theorem Tracks.weaken {bound bound' n : Int} {m : Option Int} (h : Tracks bound n m) (hle : bound' ≤ bound) :
    Tracks bound' n m := by
  cases m <;> unfold Tracks at * <;> omega

/-- Adding an integer takes away as much of the bound. -/
theorem Tracks.add {bound n : Int} {m : Option Int} (h : Tracks bound n m) (d room : Int) (hlo : -room ≤ d)
    (hhi : d ≤ room) (hroom : room < bound) (hbound : bound ≤ 2 ^ 53) : Tracks (bound - room) (n + d) (add m d) := by
  cases m with
  | none =>
    show bound - room ≤ n + d ∨ n + d ≤ -(bound - room)
    unfold Tracks at h
    dsimp only at h
    omega
  | some m =>
    have hround := tracks_round (m + d)
    show Tracks _ _ (round (m + d))
    cases hsum : round (m + d) with
    | none =>
      rw [hsum] at hround
      unfold Tracks at *
      dsimp only at *
      omega
    | some m' =>
      rw [hsum] at hround
      unfold Tracks at *
      dsimp only at *
      omega

/-- A number that tracks a small integer is that integer. -/
theorem Tracks.eq_of_small {bound n : Int} {m : Option Int} (h : Tracks bound n m) (hlo : -bound < n) (hhi : n < bound) :
    m = some n := by
  cases m with
  | none =>
    unfold Tracks at h
    dsimp only at h
    omega
  | some m =>
    unfold Tracks at h
    congr 1
    dsimp only at h
    omega

/-- A small number is the integer it tracks. -/
theorem Tracks.eq_of_small' {bound n m : Int} (h : Tracks bound n (some m)) (hlo : -bound < m) (hhi : m < bound) : m = n := by
  unfold Tracks at h
  dsimp only at h
  omega

/-- A number that tracks an integer is beyond what the integer is beyond. -/
theorem Tracks.outside {bound n m : Int} (h : Tracks bound n (some m)) {lo hi : Int} (hn : n < lo ∨ hi < n)
    (hlo : -bound < lo) (hhi : hi < bound) : m < lo ∨ hi < m := by
  unfold Tracks at h
  dsimp only at h
  omega

end Xahc.Data.Number

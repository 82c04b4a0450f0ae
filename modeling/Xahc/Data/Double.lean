/-
Binary floating point over the non-negative rationals: rounding to the nearest number of a format, ties to even. On which
side of a number of the format a rational comes out is decided half-way to its neighbour.
-/
import Mathlib.Algebra.Order.Field.Power
import Mathlib.Algebra.Order.Floor.Semifield
import Mathlib.Algebra.Order.Round
import Mathlib.Data.Int.Log
import Mathlib.Data.Rat.Floor
import Mathlib.Tactic.FieldSimp
import Mathlib.Tactic.Linarith
import Mathlib.Tactic.Positivity
import Mathlib.Tactic.Ring

namespace Xahc.Data

/-! ## Rounding to an integer -/

/-- The nearest integer, half-way the even one. -/
def roundEven (q : ℚ) : ℤ :=
  let f := ⌊q⌋
  if q - f < 1 / 2 then f
  else if 1 / 2 < q - f then f + 1
  else if f % 2 = 0 then f else f + 1

/-- Above an integer comes what is past the half, and the half itself above an odd one. -/
theorem roundEven_le_iff {q : ℚ} {n : ℤ} : roundEven q ≤ n ↔ q < n + 1 / 2 ∨ q = n + 1 / 2 ∧ Even n := by
  have hlo := Int.floor_le q
  have hhi := Int.lt_floor_add_one q
  unfold roundEven
  dsimp only
  rcases lt_trichotomy ⌊q⌋ n with hlt | rfl | hgt
  · have hle : ((⌊q⌋ + 1 : ℤ) : ℚ) ≤ n := by exact_mod_cast hlt
    push_cast at hle
    exact iff_of_true (by split_ifs <;> omega) (.inl (by linarith))
  · split_ifs with hbelow habove heven
    · exact iff_of_true le_rfl (.inl (by linarith))
    · exact iff_of_false (by omega) (by rintro (h | ⟨h, -⟩) <;> linarith)
    · exact iff_of_true le_rfl (.inr ⟨by linarith, Int.even_iff.2 heven⟩)
    · refine iff_of_false (by omega) ?_
      rintro (h | ⟨-, h⟩)
      · linarith
      · exact heven (Int.even_iff.1 h)
  · have hle : ((n + 1 : ℤ) : ℚ) ≤ ⌊q⌋ := by exact_mod_cast hgt
    push_cast at hle
    exact iff_of_false (by split_ifs <;> omega) (by rintro (h | ⟨h, -⟩) <;> linarith)

/-- Below an integer comes what is short of the half, and the half itself below an odd one. -/
theorem le_roundEven_iff {q : ℚ} {n : ℤ} : n ≤ roundEven q ↔ n - 1 / 2 < q ∨ q = n - 1 / 2 ∧ Even n := by
  have hpred : roundEven q ≤ n - 1 ↔ _ := roundEven_le_iff
  have hnot : n ≤ roundEven q ↔ ¬roundEven q ≤ n - 1 := by omega
  rw [hnot, hpred, not_or, not_lt, not_and]
  have hhalf : (((n - 1 : ℤ) : ℚ)) + 1 / 2 = n - 1 / 2 := by
    push_cast
    ring
  rw [hhalf, Int.even_sub_one]
  constructor
  · rintro ⟨hle, heven⟩
    rcases hle.lt_or_eq with h | h
    · exact .inl h
    · exact .inr ⟨h.symm, not_not.1 (heven h.symm)⟩
  · rintro (h | ⟨h, heven⟩)
    · exact ⟨h.le, fun heq => absurd heq h.ne'⟩
    · exact ⟨h.ge, fun _ hodd => hodd heven⟩

theorem roundEven_intCast (n : ℤ) : roundEven n = n :=
  le_antisymm (roundEven_le_iff.2 (.inl (by linarith))) (le_roundEven_iff.2 (.inl (by linarith)))

theorem roundEven_mono {p q : ℚ} (h : p ≤ q) : roundEven p ≤ roundEven q := by
  have hp := le_roundEven_iff.1 (le_refl (roundEven p))
  refine le_roundEven_iff.2 ?_
  rcases h.lt_or_eq with h | rfl
  · rcases hp with hp | ⟨hp, -⟩ <;> exact .inl (by linarith)
  · exact hp

/-- The quotient by an odd number is never half-way. -/
theorem roundEven_div {N b : ℕ} (hb : Odd b) :
    (2 * (N % b) < b ∧ roundEven (N / b) = (N / b : ℕ)) ∨ (b < 2 * (N % b) ∧ roundEven (N / b) = (N / b : ℕ) + 1) := by
  have hpos : (0 : ℚ) < b := by exact_mod_cast hb.pos
  have hN : (N : ℚ) = b * (N / b : ℕ) + (N % b : ℕ) := by exact_mod_cast (Nat.div_add_mod N b).symm
  have hlt : ((N % b : ℕ) : ℚ) < b := by exact_mod_cast Nat.mod_lt N hb.pos
  have hnonneg : (0 : ℚ) ≤ (N % b : ℕ) := Nat.cast_nonneg _
  have hne : 2 * (N % b) ≠ b := fun h => Nat.not_even_iff_odd.2 hb (h ▸ even_two_mul _)
  generalize N / b = q, N % b = r at *
  have hval : (N : ℚ) / b = q + r / b := by rw [hN, add_div, mul_div_cancel_left₀ _ hpos.ne']
  have hfrac : (0 : ℚ) ≤ r / b := div_nonneg hnonneg hpos.le
  have hfrac' : (r : ℚ) / b < 1 := (div_lt_one hpos).2 hlt
  rw [hval]
  rcases Nat.lt_or_gt_of_ne hne with h | h
  · have hhalf : (r : ℚ) / b < 1 / 2 := by
      rw [div_lt_div_iff₀ hpos (by norm_num), one_mul, mul_comm]
      exact_mod_cast h
    refine .inl ⟨h, le_antisymm (roundEven_le_iff.2 (.inl ?_)) (le_roundEven_iff.2 (.inl ?_))⟩ <;>
    · push_cast
      linarith
  · have hhalf : 1 / 2 < (r : ℚ) / b := by
      rw [div_lt_div_iff₀ (by norm_num) hpos, one_mul, mul_comm (r : ℚ)]
      exact_mod_cast h
    refine .inr ⟨h, le_antisymm (roundEven_le_iff.2 (.inl ?_)) (le_roundEven_iff.2 (.inl ?_))⟩ <;>
    · push_cast
      linarith

/-! ## Formats -/

/-- A binary format, its exponents not bounded above. -/
structure Format where
  /-- A significand has one bit more. -/
  fractionBits : ℕ
  /-- The exponent of the smallest number. -/
  minExp : ℤ

namespace Format

variable (F : Format)

/-- The numbers of the format. -/
def Representable (x : ℚ) : Prop := ∃ (m : ℕ) (e : ℤ), x = m * 2 ^ e ∧ m ≤ 2 ^ (F.fractionBits + 1) ∧ F.minExp ≤ e

/-- The exponent of the last bit of a number of this size. -/
def exponent (q : ℚ) : ℤ := max (Int.log 2 q - F.fractionBits) F.minExp

/-- The nearest number of the format, half-way the one with the even significand. -/
def nearest (q : ℚ) : ℚ := roundEven (q / 2 ^ F.exponent q) * 2 ^ F.exponent q

variable {F} {p q : ℚ} {m : ℕ} {e : ℤ}

/-! ## Binades -/

theorem minExp_le_exponent (q : ℚ) : F.minExp ≤ F.exponent q := le_max_right _ _

theorem exponent_mono (hp : 0 < p) (h : p ≤ q) : F.exponent p ≤ F.exponent q :=
  max_le_max_right _ (Int.sub_le_sub_right (Int.log_mono_right hp h) _)

/-- A power of two apart: `k` bits. -/
theorem pow_mul_zpow (k : ℕ) (e : ℤ) : (2 : ℚ) ^ k * 2 ^ e = 2 ^ (e + k) := by
  rw [zpow_add₀ (by norm_num), zpow_natCast, mul_comm]

/-- A significand takes one bit more than the fraction. -/
theorem lt_top (hp : 0 < p) : p < 2 ^ (F.fractionBits + 1) * 2 ^ F.exponent p := by
  have hlog : Int.log 2 p - F.fractionBits ≤ F.exponent p := le_max_left _ _
  have hlt := (Int.lt_zpow_iff_log_lt (b := 2) (by decide) hp).2 (Int.lt_succ (Int.log 2 p))
  rw [pow_mul_zpow]
  refine hlt.trans_le ?_
  rw [Nat.cast_ofNat]
  refine zpow_le_zpow_right₀ (by norm_num) ?_
  push_cast
  omega

/-- Above the smallest exponent a significand has its first bit. -/
theorem bottom_le (hq : 0 < q) (h : F.minExp < F.exponent q) : 2 ^ F.fractionBits * 2 ^ F.exponent q ≤ q := by
  have hlog : F.exponent q = Int.log 2 q - F.fractionBits := by
    unfold exponent at *
    omega
  rw [pow_mul_zpow, hlog, sub_add_cancel]
  exact_mod_cast Int.zpow_log_le_self (b := 2) (by decide) hq

theorem exponent_eq (hlo : 2 ^ F.fractionBits * 2 ^ e ≤ p) (hhi : p < 2 ^ (F.fractionBits + 1) * 2 ^ e) (he : F.minExp ≤ e) :
    F.exponent p = e := by
  have hpos : 0 < p := lt_of_lt_of_le (by positivity) hlo
  rw [pow_mul_zpow] at hlo hhi
  have hle : e + F.fractionBits ≤ Int.log 2 p := (Int.zpow_le_iff_le_log (by decide) hpos).1 (by exact_mod_cast hlo)
  have hlt : Int.log 2 p < e + (F.fractionBits + 1 : ℕ) :=
    (Int.lt_zpow_iff_log_lt (by decide) hpos).1 (by exact_mod_cast hhi)
  unfold exponent
  push_cast at hlt
  omega

/-! ## The nearest number -/

theorem nearest_eq (h : F.exponent p = e) : F.nearest p = roundEven (p / 2 ^ e) * 2 ^ e := by rw [nearest, h]

theorem nearest_zero : F.nearest 0 = 0 := by
  have hzero : roundEven 0 = 0 := roundEven_intCast 0
  rw [nearest, zero_div, hzero, Int.cast_zero, zero_mul]

theorem nearest_le_top (hp : 0 < p) : F.nearest p ≤ 2 ^ (F.fractionBits + 1) * 2 ^ F.exponent p := by
  have hround : roundEven (p / 2 ^ F.exponent p) ≤ 2 ^ (F.fractionBits + 1) := by
    refine roundEven_le_iff.2 (.inl ?_)
    have hlt := (div_lt_iff₀ (by positivity)).2 (lt_top (F := F) hp)
    push_cast
    linarith
  refine mul_le_mul_of_nonneg_right ?_ (by positivity)
  exact_mod_cast hround

theorem bottom_le_nearest (hq : 0 < q) (h : F.minExp < F.exponent q) :
    2 ^ F.fractionBits * 2 ^ F.exponent q ≤ F.nearest q := by
  have hround : 2 ^ F.fractionBits ≤ roundEven (q / 2 ^ F.exponent q) := by
    refine le_roundEven_iff.2 (.inl ?_)
    have hle := (le_div_iff₀ (by positivity)).2 (bottom_le hq h)
    push_cast
    linarith
  refine mul_le_mul_of_nonneg_right ?_ (by positivity)
  exact_mod_cast hround

/-- The significand of the nearest number. -/
theorem exists_nearest_eq (hp : 0 ≤ p) : ∃ m : ℕ, F.nearest p = m * 2 ^ F.exponent p := by
  have hround : 0 ≤ roundEven (p / 2 ^ F.exponent p) :=
    le_roundEven_iff.2 (.inl (lt_of_lt_of_le (by norm_num) (div_nonneg hp (by positivity))))
  obtain ⟨m, hm⟩ := Int.eq_ofNat_of_zero_le hround
  exact ⟨m, by rw [nearest, hm, Int.cast_natCast]⟩

theorem nearest_nonneg (hp : 0 ≤ p) : 0 ≤ F.nearest p := by
  obtain ⟨m, hm⟩ := exists_nearest_eq (F := F) hp
  rw [hm]
  positivity

theorem nearest_mono (hp : 0 ≤ p) (h : p ≤ q) : F.nearest p ≤ F.nearest q := by
  rcases hp.eq_or_lt with rfl | hp
  · rw [nearest_zero]
    exact nearest_nonneg h
  have hq : 0 < q := hp.trans_le h
  rcases (exponent_mono (F := F) hp h).eq_or_lt with heq | hlt
  · rw [nearest, nearest, heq]
    refine mul_le_mul_of_nonneg_right ?_ (by positivity)
    exact_mod_cast roundEven_mono (div_le_div_of_nonneg_right h (by positivity))
  · -- in different binades the boundary is between them
    calc F.nearest p ≤ 2 ^ (F.fractionBits + 1) * 2 ^ F.exponent p := nearest_le_top hp
      _ ≤ 2 ^ F.fractionBits * 2 ^ F.exponent q := by
        rw [pow_mul_zpow, pow_mul_zpow]
        refine zpow_le_zpow_right₀ (by norm_num) ?_
        push_cast
        omega
      _ ≤ F.nearest q := bottom_le_nearest hq ((minExp_le_exponent p).trans_lt hlt)

/-! ## The numbers of a format -/

/-- Multiples of a smaller last bit are numbers of the format as they are. -/
theorem nearest_of_exponent_le (h : F.exponent p ≤ e) (hp : p = m * 2 ^ e) : F.nearest p = p := by
  obtain ⟨k, rfl⟩ := Int.le.dest h
  have hquot : p / 2 ^ F.exponent p = ((m * 2 ^ k : ℕ) : ℤ) := by
    rw [div_eq_iff (by positivity)]
    nth_rewrite 1 [hp]
    rw [← pow_mul_zpow]
    push_cast
    ring
  rw [nearest, hquot, roundEven_intCast, ← hquot, div_mul_cancel₀ _ (by positivity)]

theorem Representable.nearest (h : F.Representable p) : F.nearest p = p := by
  obtain ⟨m, e, hp, hm, he⟩ := h
  rcases m.eq_zero_or_pos with rfl | hmpos
  · rw [Nat.cast_zero, zero_mul] at hp
    rw [hp, nearest_zero]
  have hexp : ∀ {m e}, p = (m : ℕ) * 2 ^ e → 0 < m → m < 2 ^ (F.fractionBits + 1) → F.minExp ≤ e → F.exponent p ≤ e := by
    intro m e hp hm hlt he
    have hpos : 0 < p := by
      rw [hp]
      positivity
    have hlog : Int.log 2 p < e + (F.fractionBits + 1 : ℕ) := by
      refine (Int.lt_zpow_iff_log_lt (by decide) hpos).1 ?_
      rw [Nat.cast_ofNat, ← pow_mul_zpow, hp]
      exact mul_lt_mul_of_pos_right (by exact_mod_cast hlt) (by positivity)
    unfold exponent
    push_cast at hlog
    omega
  rcases hm.lt_or_eq with hlt | rfl
  · exact nearest_of_exponent_le (hexp hp hmpos hlt he) hp
  · -- the carry: one bit with the next exponent
    have hcarry : p = ((2 ^ F.fractionBits : ℕ) : ℚ) * 2 ^ (e + 1) := by
      rw [hp, zpow_add_one₀ (by norm_num)]
      push_cast
      ring
    refine nearest_of_exponent_le (hexp hcarry (by positivity) ?_ (by omega)) hcarry
    exact Nat.pow_lt_pow_right (by decide) (Nat.lt_succ_self _)

theorem nearest_representable (hp : 0 ≤ p) : F.Representable (F.nearest p) := by
  rcases hp.eq_or_lt with rfl | hpos
  · exact ⟨0, F.minExp, by rw [nearest_zero, Nat.cast_zero, zero_mul], Nat.zero_le _, le_rfl⟩
  obtain ⟨m, hval⟩ := exists_nearest_eq (F := F) hp
  refine ⟨m, F.exponent p, hval, ?_, minExp_le_exponent p⟩
  have htop := nearest_le_top (F := F) hpos
  rw [hval] at htop
  exact_mod_cast le_of_mul_le_mul_right htop (by positivity)

/-- A number that is not too small has all its bits. -/
theorem Representable.normal (h : F.Representable p) (hp : 2 ^ F.fractionBits * 2 ^ F.minExp ≤ p) :
    ∃ (m : ℕ) (e : ℤ), p = m * 2 ^ e ∧ 2 ^ F.fractionBits ≤ m ∧ m < 2 ^ (F.fractionBits + 1) ∧ F.minExp ≤ e := by
  have hpos : 0 < p := lt_of_lt_of_le (by positivity) hp
  have hunit : (0 : ℚ) < 2 ^ F.exponent p := by positivity
  have hbottom : 2 ^ F.fractionBits * 2 ^ F.exponent p ≤ p := by
    rcases (minExp_le_exponent (F := F) p).eq_or_lt with heq | hlt
    · rwa [← heq]
    · exact bottom_le hpos hlt
  obtain ⟨m, hm⟩ := exists_nearest_eq (F := F) hpos.le
  have hval : p = m * 2 ^ F.exponent p := h.nearest.symm.trans hm
  refine ⟨m, F.exponent p, hval, ?_, ?_, minExp_le_exponent p⟩
  · have hle := le_of_mul_le_mul_right (hbottom.trans_eq hval) hunit
    exact_mod_cast hle
  · have hlt := lt_of_mul_lt_mul_right (hval.symm.trans_lt (lt_top hpos)) hunit.le
    exact_mod_cast hlt

/-! ## Half-way -/

/-- Where the number is at most one of the format. -/
theorem nearest_le_iff (hp : 0 ≤ p) (hlo : 2 ^ F.fractionBits ≤ m) (hhi : m < 2 ^ (F.fractionBits + 1)) (he : F.minExp ≤ e) :
    F.nearest p ≤ m * 2 ^ e ↔ p < (m + 1 / 2) * 2 ^ e ∨ p = (m + 1 / 2) * 2 ^ e ∧ Even m := by
  have hunit : (0 : ℚ) < 2 ^ e := by positivity
  have hm : (2 : ℚ) ^ F.fractionBits ≤ m := by exact_mod_cast hlo
  have hm' : (m : ℚ) + 1 ≤ 2 ^ (F.fractionBits + 1) := by exact_mod_cast hhi
  rcases lt_or_ge p (2 ^ F.fractionBits * 2 ^ e) with hbelow | hbottom
  · have hrep : F.Representable (m * 2 ^ e) := ⟨m, e, rfl, hhi.le, he⟩
    have hle : p ≤ m * 2 ^ e := hbelow.le.trans (mul_le_mul_of_nonneg_right hm hunit.le)
    refine iff_of_true ((nearest_mono hp hle).trans_eq hrep.nearest) (.inl ?_)
    nlinarith
  rcases lt_or_ge p (2 ^ (F.fractionBits + 1) * 2 ^ e) with htop | habove
  · rw [nearest_eq (exponent_eq hbottom htop he), mul_le_mul_iff_of_pos_right hunit, ← Int.cast_natCast m, Int.cast_le,
      roundEven_le_iff, div_lt_iff₀ hunit, div_eq_iff hunit.ne', Int.even_coe_nat]
  · have hrep : F.Representable (2 ^ (F.fractionBits + 1) * 2 ^ e) := ⟨2 ^ (F.fractionBits + 1), e, by push_cast; rfl, le_rfl, he⟩
    have hle := hrep.nearest.symm.trans_le (nearest_mono (by positivity) habove)
    have hlt : (m + 1) * 2 ^ e ≤ 2 ^ (F.fractionBits + 1) * (2 : ℚ) ^ e := mul_le_mul_of_nonneg_right hm' hunit.le
    refine iff_of_false (fun h => ?_) ?_
    · nlinarith
    · rintro (h | ⟨h, -⟩) <;> nlinarith

/-- Where the number is at least one of the format. A power of two is taken with the smaller last bit below it. -/
theorem le_nearest_iff (hp : 0 ≤ p) (hlo : 2 ^ F.fractionBits < m) (hhi : m ≤ 2 ^ (F.fractionBits + 1)) (he : F.minExp ≤ e) :
    m * 2 ^ e ≤ F.nearest p ↔ (m - 1 / 2) * 2 ^ e < p ∨ p = (m - 1 / 2) * 2 ^ e ∧ Even m := by
  have hunit : (0 : ℚ) < 2 ^ e := by positivity
  have hm : (2 : ℚ) ^ F.fractionBits + 1 ≤ m := by exact_mod_cast hlo
  have hm' : (m : ℚ) ≤ 2 ^ (F.fractionBits + 1) := by exact_mod_cast hhi
  rcases lt_or_ge p (2 ^ F.fractionBits * 2 ^ e) with hbelow | hbottom
  · have hrep : F.Representable (2 ^ F.fractionBits * 2 ^ e) :=
      ⟨2 ^ F.fractionBits, e, by push_cast; rfl, Nat.pow_le_pow_right (by decide) (Nat.le_succ _), he⟩
    have hle := (nearest_mono hp hbelow.le).trans_eq hrep.nearest
    refine iff_of_false (fun h => ?_) ?_
    · nlinarith
    · rintro (h | ⟨h, -⟩) <;> nlinarith
  rcases lt_or_ge p (2 ^ (F.fractionBits + 1) * 2 ^ e) with htop | habove
  · rw [nearest_eq (exponent_eq hbottom htop he), mul_le_mul_iff_of_pos_right hunit, ← Int.cast_natCast m, Int.cast_le,
      le_roundEven_iff, lt_div_iff₀ hunit, div_eq_iff hunit.ne', Int.even_coe_nat]
  · have hrep : F.Representable (m * 2 ^ e) := ⟨m, e, rfl, hhi, he⟩
    have hle : m * 2 ^ e ≤ p := (mul_le_mul_of_nonneg_right hm' hunit.le).trans habove
    refine iff_of_true (hrep.nearest.symm.trans_le (nearest_mono (by positivity) hle)) (.inl ?_)
    nlinarith

end Format

/-! ## Double precision -/

/-- The numbers of double precision, but for those that are infinite. -/
def double : Format := ⟨52, -1074⟩

/-- A rational read as a double; none where it is infinite. -/
def toDouble (q : ℚ) : Option ℚ := if 2 ^ 1024 ≤ double.nearest q then none else some (double.nearest q)

/-- Every integer up to 2^53 is a double. -/
theorem double_natCast_of_le {n : ℕ} (h : n ≤ 2 ^ 53) : double.Representable n :=
  ⟨n, 0, by rw [zpow_zero, mul_one], h, by decide⟩

theorem natCast_mul_zpow (m k : ℕ) : (m : ℚ) * 2 ^ (k : ℤ) = ((m * 2 ^ k : ℕ) : ℚ) := by
  push_cast
  rw [zpow_natCast]

/-- What is left of a double without its fraction is one. -/
theorem double_floor {x : ℚ} (h : double.Representable x) : double.Representable ⌊x⌋₊ := by
  obtain ⟨m, e, rfl, hm, he⟩ := h
  rcases le_or_gt 0 e with hnat | hneg
  · obtain ⟨k, rfl⟩ := Int.eq_ofNat_of_zero_le hnat
    rw [natCast_mul_zpow, Nat.floor_natCast, ← natCast_mul_zpow]
    exact ⟨m, k, rfl, hm, he⟩
  · refine double_natCast_of_le (Nat.floor_le_of_le ?_)
    have hle : (2 : ℚ) ^ e ≤ 1 := zpow_le_one_of_nonpos₀ (by norm_num) hneg.le
    calc (m : ℚ) * 2 ^ e ≤ m * 1 := mul_le_mul_of_nonneg_left hle (Nat.cast_nonneg m)
      _ ≤ 2 ^ 53 := by
        rw [mul_one]
        exact_mod_cast hm

/-- From 2^52 on a double has no fraction. -/
theorem floor_double {x : ℚ} (h : double.Representable x) (hx : 2 ^ 52 ≤ x) : (⌊x⌋₊ : ℚ) = x := by
  have hmin : (2 : ℚ) ^ double.fractionBits * 2 ^ double.minExp ≤ x := by
    refine le_trans (mul_le_of_le_one_right (by positivity) ?_) hx
    exact zpow_le_one_of_nonpos₀ (by norm_num) (by decide)
  obtain ⟨m, e, rfl, -, hm, -⟩ := h.normal hmin
  have he : 0 ≤ e := by
    by_contra hneg
    have hle : (2 : ℚ) ^ e ≤ 2 ^ (-1 : ℤ) := zpow_le_zpow_right₀ (by norm_num) (by omega)
    have hm : (m : ℚ) < 2 ^ 53 := by exact_mod_cast hm
    have hlt : (m : ℚ) * 2 ^ e < 2 ^ 53 * 2 ^ (-1 : ℤ) := mul_lt_mul hm hle (by positivity) (by positivity)
    norm_num at hlt hx
    linarith
  obtain ⟨k, rfl⟩ := Int.eq_ofNat_of_zero_le he
  rw [natCast_mul_zpow, Nat.floor_natCast]

end Xahc.Data

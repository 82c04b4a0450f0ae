/-
Decimals with a bounded number of digits. A positive decimal is written in one way with a mantissa that does not
end in zero; whether it fits some digits and a range of exponents is read off that mantissa.
-/
import Xahc.Data.Json
import Mathlib.Algebra.Order.Field.Power
import Mathlib.Data.Rat.Cast.Order
import Mathlib.Tactic.Positivity
import Mathlib.Tactic.Ring

namespace Xahc.Data

/-! ## The number of digits -/

theorem digit_le {c : Char} (hc : c.isDigit = true) : c.toNat - 48 ≤ 9 := by
  simp only [Char.isDigit, Bool.and_eq_true, decide_eq_true_eq, UInt32.le_iff_toNat_le] at hc
  have : c.toNat ≤ 57 := hc.2
  omega

theorem digitsNat_snoc (ds : List Char) (c : Char) : digitsNat (ds ++ [c]) = 10 * digitsNat ds + (c.toNat - 48) := by
  rw [digitsNat, Nat.ofDigitChars_append, Nat.ofDigitChars_cons, Nat.ofDigitChars_nil]
  rfl

theorem digitsNat_cons (c : Char) (ds : List Char) :
    digitsNat (c :: ds) = (c.toNat - 48) * 10 ^ ds.length + digitsNat ds := by
  induction ds using List.reverseRecOn with
  | nil => simp [digitsNat, Nat.ofDigitChars_cons]
  | append_singleton ds d ih =>
    rw [← List.cons_append, digitsNat_snoc, ih, digitsNat_snoc, List.length_append, List.length_singleton, pow_succ]
    ring

theorem digitsNat_append (a b : List Char) : digitsNat (a ++ b) = digitsNat a * 10 ^ b.length + digitsNat b := by
  induction a with
  | nil => simp [digitsNat]
  | cons c a ih =>
    rw [List.cons_append, digitsNat_cons, ih, digitsNat_cons, List.length_append, pow_add]
    ring

theorem digitsNat_lt {ds : List Char} (hds : ∀ c ∈ ds, c.isDigit = true) : digitsNat ds < 10 ^ ds.length := by
  induction ds with
  | nil => decide
  | cons c ds ih =>
    obtain ⟨hc, hds⟩ := List.forall_mem_cons.1 hds
    have hle := digit_le hc
    have hlt := ih hds
    rw [digitsNat_cons, List.length_cons, pow_succ]
    calc (c.toNat - 48) * 10 ^ ds.length + digitsNat ds
      _ < (c.toNat - 48) * 10 ^ ds.length + 10 ^ ds.length := by omega
      _ = (c.toNat - 48 + 1) * 10 ^ ds.length := by ring
      _ ≤ 10 * 10 ^ ds.length := Nat.mul_le_mul_right _ (by omega)
      _ = 10 ^ ds.length * 10 := mul_comm _ _

theorem digit_pos {c : Char} (hc : c.isDigit = true) (hne : c ≠ '0') : 0 < c.toNat - 48 := by
  simp only [Char.isDigit, Bool.and_eq_true, decide_eq_true_eq, UInt32.le_iff_toNat_le] at hc
  have hlo : 48 ≤ c.toNat := hc.1
  have hzero : c.toNat ≠ 48 := fun h => hne (Char.toNat_inj.1 h)
  omega

/-- Without leading zeros the number is as long as its digits. -/
theorem le_digitsNat {c : Char} {ds : List Char} (hc : c.isDigit = true) (hne : c ≠ '0') :
    10 ^ ds.length ≤ digitsNat (c :: ds) := by
  rw [digitsNat_cons]
  exact (Nat.le_mul_of_pos_left _ (digit_pos hc hne)).trans (Nat.le_add_right _ _)

/-- Numbers with `a` and with `b` digits are not the same. -/
theorem digits_unique {m a b : Nat} (ha : 10 ^ (a - 1) ≤ m) (ha' : m < 10 ^ a) (hb : 10 ^ (b - 1) ≤ m)
    (hb' : m < 10 ^ b) : a = b := by
  have hab := (Nat.pow_lt_pow_iff_right (by decide : 1 < 10)).1 (ha.trans_lt hb')
  have hba := (Nat.pow_lt_pow_iff_right (by decide : 1 < 10)).1 (hb.trans_lt ha')
  omega

/-! ## Mantissa and exponent -/

/-- A decimal at a larger exponent than that of a mantissa that does not end in zero has that mantissa, shifted. -/
theorem mantissa_shift {a b : Nat} {e x : Int} (ha : a % 10 ≠ 0) (h : (a : ℚ) * 10 ^ e = b * 10 ^ x) :
    x ≤ e ∧ b = a * 10 ^ (e - x).toNat := by
  have hshift {m n : Nat} {e x : Int} (hle : x ≤ e) (h : (m : ℚ) * 10 ^ e = n * 10 ^ x) : n = m * 10 ^ (e - x).toNat := by
    have hsplit : (10 : ℚ) ^ e = 10 ^ (e - x).toNat * 10 ^ x := by
      rw [← zpow_natCast, ← zpow_add₀ (by norm_num), Int.toNat_of_nonneg (by omega), Int.sub_add_cancel]
    rw [hsplit, ← mul_assoc] at h
    have hcancel := mul_right_cancel₀ (zpow_ne_zero x (by norm_num)) h
    exact_mod_cast hcancel.symm
  rcases le_or_gt x e with hle | hlt
  · exact ⟨hle, hshift hle h⟩
  · have hmul := hshift hlt.le h.symm
    have hpos : (x - e).toNat = (x - e).toNat - 1 + 1 := by omega
    rw [hpos, pow_succ, ← mul_assoc] at hmul
    exact absurd (by rw [hmul, Nat.mul_mod_left]) ha

/-- A decimal has one mantissa that does not end in zero, and one exponent. -/
theorem mantissa_unique {a b : Nat} {e x : Int} (ha : a % 10 ≠ 0) (hb : b % 10 ≠ 0)
    (h : (a : ℚ) * 10 ^ e = b * 10 ^ x) : a = b ∧ e = x := by
  obtain ⟨hle, hmul⟩ := mantissa_shift ha h
  obtain rfl : e = x := le_antisymm (mantissa_shift hb h.symm).1 hle
  rw [Int.sub_self, Int.toNat_zero, pow_zero, mul_one] at hmul
  exact ⟨hmul.symm, rfl⟩

/-- A decimal with a mantissa of that many digits and an exponent in the range. -/
def FitsDecimal (digits : Nat) (lo hi : Int) (q : ℚ) : Prop :=
  ∃ (m : Nat) (x : Int), 10 ^ (digits - 1) ≤ m ∧ m < 10 ^ digits ∧ lo ≤ x ∧ x ≤ hi ∧ q = m * 10 ^ x

/-- A mantissa that does not end in zero fits when it is no longer, and its exponent is in the range once it is
filled up with zeros. -/
theorem fitsDecimal_iff {digits len k : Nat} {lo hi e : Int} (hk : k % 10 ≠ 0) (hlo : 10 ^ (len - 1) ≤ k)
    (hhi : k < 10 ^ len) : FitsDecimal digits lo hi (k * 10 ^ e) ↔
      len ≤ digits ∧ lo ≤ e + (len - digits) ∧ e + (len - digits) ≤ hi := by
  have hlen : 0 < len := by
    rcases Nat.eq_zero_or_pos len with rfl | h
    · have : k = 0 := by omega
      exact absurd (by rw [this]) hk
    · exact h
  have hfill (d : Nat) : 10 ^ (len + d - 1) ≤ k * 10 ^ d ∧ k * 10 ^ d < 10 ^ (len + d) := by
    constructor
    · rw [Nat.sub_add_comm hlen, pow_add]
      exact Nat.mul_le_mul_right _ hlo
    · rw [pow_add]
      exact Nat.mul_lt_mul_of_pos_right hhi (by positivity)
  constructor
  · rintro ⟨m, x, hm, hm', hx, hx', heq⟩
    obtain ⟨hle, rfl⟩ := mantissa_shift hk heq
    obtain ⟨hfill1, hfill2⟩ := hfill (e - x).toNat
    have hdigits := digits_unique hfill1 hfill2 hm hm'
    omega
  · rintro ⟨hle, hx, hx'⟩
    obtain ⟨hfill1, hfill2⟩ := hfill (digits - len)
    rw [Nat.add_sub_cancel' hle] at hfill1 hfill2
    refine ⟨k * 10 ^ (digits - len), e + (len - digits), hfill1, hfill2, hx, hx', ?_⟩
    have hsplit : e = ((digits - len : Nat) : Int) + (e + (len - digits)) := by omega
    conv_lhs => rw [hsplit, zpow_add₀ (by norm_num), zpow_natCast]
    push_cast
    ring

end Xahc.Data

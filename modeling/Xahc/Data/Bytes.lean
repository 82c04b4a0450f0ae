/-
Byte strings read big-endian, and their hexadecimal text: the value a byte string denotes, the
string of a given width that denotes a value, the digits a byte string is written as, and the round
trips between the three.
-/
import Mathlib.Data.Nat.Digits.Lemmas
import Mathlib.Tactic.IntervalCases
import Mathlib.Tactic.Ring

namespace Xahc.Data

/-- A byte string. -/
abbrev Bytes := List UInt8

/-! ## Big-endian values -/

/-- The number a byte string denotes, most significant byte first. -/
def beNat (b : Bytes) : Nat := Nat.ofDigits 256 (b.reverse.map UInt8.toNat)

/-- The low `w` bytes of a number, most significant first. -/
def natBE : Nat → Nat → Bytes
  | 0, _ => []
  | w + 1, v => UInt8.ofNat (v / 256 ^ w) :: natBE w v

@[simp] theorem natBE_length (w v : Nat) : (natBE w v).length = w := by
  induction w with
  | zero => rfl
  | succ w ih => simp [natBE, ih]

@[simp] theorem beNat_nil : beNat [] = 0 := rfl

theorem beNat_append (a b : Bytes) : beNat (a ++ b) = beNat a * 256 ^ b.length + beNat b := by
  simp only [beNat, List.reverse_append, List.map_append, Nat.ofDigits_append, List.length_map,
    List.length_reverse]
  ring

theorem beNat_cons (x : UInt8) (b : Bytes) : beNat (x :: b) = x.toNat * 256 ^ b.length + beNat b := by
  simpa [beNat, Nat.ofDigits] using beNat_append [x] b

theorem beNat_lt (b : Bytes) : beNat b < 256 ^ b.length := by
  have digits : ∀ d ∈ b.reverse.map UInt8.toNat, d < 256 := by
    intro d hd
    obtain ⟨x, -, rfl⟩ := List.mem_map.mp hd
    exact x.toNat_lt
  simpa [beNat] using Nat.ofDigits_lt_base_pow_length (by decide) digits

theorem beNat_natBE (w v : Nat) : beNat (natBE w v) = v % 256 ^ w := by
  induction w with
  | zero => simp [natBE, Nat.mod_one]
  | succ w ih =>
    have byte : (UInt8.ofNat (v / 256 ^ w)).toNat = v / 256 ^ w % 256 := UInt8.toNat_ofNat'
    rw [natBE, beNat_cons, natBE_length, ih, byte, pow_succ, Nat.mod_mul]
    ring

/-- Byte strings of one length that denote one number are the same. -/
theorem beNat_inj {a b : Bytes} (hlen : a.length = b.length) (h : beNat a = beNat b) : a = b := by
  induction a generalizing b with
  | nil => exact (List.eq_nil_of_length_eq_zero hlen.symm).symm
  | cons x a ih =>
    cases b with
    | nil => cases hlen
    | cons y b =>
      have hlen : a.length = b.length := Nat.succ.inj hlen
      have ha := beNat_lt a
      have hb := beNat_lt b
      rw [beNat_cons, beNat_cons, hlen] at h
      rw [hlen] at ha
      have hpos : 0 < 256 ^ b.length := Nat.pow_pos (by decide)
      have hhead : x.toNat = y.toNat := by
        have hdiv := congrArg (· / 256 ^ b.length) h
        simpa only [Nat.mul_comm _ (256 ^ b.length), Nat.mul_add_div hpos, Nat.div_eq_of_lt ha, Nat.div_eq_of_lt hb,
          Nat.add_zero] using hdiv
      rw [hhead] at h
      rw [UInt8.toNat_inj.1 hhead, ih hlen (Nat.add_left_cancel h)]

theorem natBE_beNat (b : Bytes) : natBE b.length (beNat b) = b :=
  beNat_inj (natBE_length _ _) (by rw [beNat_natBE, Nat.mod_eq_of_lt (beNat_lt b)])

/-- Byte strings of one length are ordered as their numbers are. -/
theorem lt_iff_beNat_lt {a b : Bytes} (h : a.length = b.length) : a < b ↔ beNat a < beNat b := by
  induction a generalizing b with
  | nil =>
    obtain rfl := List.eq_nil_of_length_eq_zero h.symm
    simp
  | cons x a ih =>
    cases b with
    | nil => cases h
    | cons y b =>
      have hlen : a.length = b.length := Nat.succ.inj h
      have ha := beNat_lt a
      have hb := beNat_lt b
      rw [hlen] at ha
      rw [List.cons_lt_cons_iff, ih hlen, beNat_cons, beNat_cons, hlen, UInt8.lt_iff_toNat_lt]
      constructor
      · rintro (hlt | ⟨rfl, hlt⟩)
        · have hmul := Nat.mul_le_mul_right (256 ^ b.length) (Nat.succ_le_of_lt hlt)
          rw [Nat.succ_mul] at hmul
          omega
        · omega
      · intro hlt
        rcases Nat.lt_trichotomy x.toNat y.toNat with hxy | hxy | hxy
        · exact .inl hxy
        · rw [hxy] at hlt
          exact .inr ⟨UInt8.toNat_inj.1 hxy, by omega⟩
        · have hmul := Nat.mul_le_mul_right (256 ^ b.length) (Nat.succ_le_of_lt hxy)
          rw [Nat.succ_mul] at hmul
          omega

/-! ## Hexadecimal text -/

/-- The digit a value below sixteen is written as. -/
def hexDigit (n : Nat) : Char := if n < 10 then Char.ofNat (48 + n) else Char.ofNat (55 + n)

/-- The lower-case hex digit of a number below 16. -/
def lowerHexDigit (n : Nat) : Char := if n < 10 then Char.ofNat (48 + n) else Char.ofNat (87 + n)

/-- The value of a digit, either case. -/
def hexVal (c : Char) : Option Nat :=
  if '0' ≤ c ∧ c ≤ '9' then some (c.toNat - 48)
  else if 'a' ≤ c ∧ c ≤ 'f' then some (c.toNat - 87)
  else if 'A' ≤ c ∧ c ≤ 'F' then some (c.toNat - 55)
  else none

/-- A byte string as upper-case hexadecimal digits, two to a byte. -/
def encodeHex : Bytes → List Char
  | [] => []
  | x :: b => hexDigit (x.toNat / 16) :: hexDigit (x.toNat % 16) :: encodeHex b

/-- A byte string as lower-case hexadecimal digits. -/
def encodeLowerHex : Bytes → List Char
  | [] => []
  | x :: b => lowerHexDigit (x.toNat / 16) :: lowerHexDigit (x.toNat % 16) :: encodeLowerHex b

/-- The number a digit string denotes; a character that is no digit counts as zero. -/
def hexNat (cs : List Char) : Nat := cs.foldl (fun acc c => acc * 16 + (hexVal c).getD 0) 0

theorem hexVal_hexDigit {n : Nat} (h : n < 16) : hexVal (hexDigit n) = some n := by
  interval_cases n <;> decide

theorem hexVal_lowerHexDigit {n : Nat} (h : n < 16) : hexVal (lowerHexDigit n) = some n := by
  interval_cases n <;> decide

theorem toUpper_hexDigit {n : Nat} (h : n < 16) : (hexDigit n).toUpper = hexDigit n := by
  interval_cases n <;> decide

theorem byte_halves (x : UInt8) : x.toNat / 16 < 16 ∧ x.toNat % 16 < 16 := by
  have := x.toNat_lt
  omega

@[simp] theorem encodeHex_length (b : Bytes) : (encodeHex b).length = 2 * b.length := by
  induction b with
  | nil => rfl
  | cons x b ih => simp only [encodeHex, List.length_cons, ih]; ring

theorem encodeHex_append (a b : Bytes) : encodeHex (a ++ b) = encodeHex a ++ encodeHex b := by
  induction a with
  | nil => rfl
  | cons x a ih => simp [encodeHex, ih]

theorem encodeHex_isHex (b : Bytes) : ∀ c ∈ encodeHex b, (hexVal c).isSome := by
  induction b with
  | nil => simp [encodeHex]
  | cons x b ih =>
    obtain ⟨hi, lo⟩ := byte_halves x
    simp only [encodeHex, List.mem_cons, forall_eq_or_imp]
    exact ⟨by simp [hexVal_hexDigit hi], by simp [hexVal_hexDigit lo], ih⟩

theorem encodeHex_toUpper (b : Bytes) : (encodeHex b).map Char.toUpper = encodeHex b := by
  induction b with
  | nil => rfl
  | cons x b ih =>
    obtain ⟨hi, lo⟩ := byte_halves x
    simp [encodeHex, toUpper_hexDigit hi, toUpper_hexDigit lo, ih]

/-- The fold of `hexNat`, from any value read so far. -/
theorem hexFold_encodeHex (b : Bytes) (n : Nat) :
    (encodeHex b).foldl (fun acc c => acc * 16 + (hexVal c).getD 0) n = n * 256 ^ b.length + beNat b := by
  induction b generalizing n with
  | nil => simp [encodeHex]
  | cons x b ih =>
    obtain ⟨hi, lo⟩ := byte_halves x
    have halves : x.toNat / 16 * 16 + x.toNat % 16 = x.toNat := Nat.div_add_mod' _ _
    simp only [encodeHex, List.foldl_cons, hexVal_hexDigit hi, hexVal_hexDigit lo, Option.getD_some, ih,
      beNat_cons, List.length_cons]
    calc ((n * 16 + x.toNat / 16) * 16 + x.toNat % 16) * 256 ^ b.length + beNat b
        = (n * 256 + (x.toNat / 16 * 16 + x.toNat % 16)) * 256 ^ b.length + beNat b := by ring
      _ = n * 256 ^ (b.length + 1) + (x.toNat * 256 ^ b.length + beNat b) := by rw [halves]; ring

/-- Reading the digits of a byte string gives the number the bytes denote. -/
theorem hexNat_encodeHex (b : Bytes) : hexNat (encodeHex b) = beNat b := by
  simpa [hexNat] using hexFold_encodeHex b 0

end Xahc.Data

/-
Numbers in JSON text: a number read from its digits, and the number that `JSON.stringify` writes read
back, the sign of zero apart.
-/
import Xahc.Data.Json
import Mathlib.Data.List.TakeWhile
import Mathlib.Tactic.IntervalCases
import Mathlib.Tactic.Positivity

namespace Xahc.Data

/-! ## Reading -/

/-- The number `±m · 10^e`. -/
def JsNum.normalize (neg : Bool) (m : Nat) (e : Int) : JsNum :=
  if h : m % 10 ≠ 0 then ⟨neg, m, e, .inl h⟩
  else if m = 0 then ⟨neg, 0, 0, .inr ⟨rfl, rfl⟩⟩
  else normalize neg (m / 10) (e + 1)
termination_by m
decreasing_by omega

/-- The integer part: digits without a leading zero. -/
def readInteger (s : List Char) : Option (List Char × List Char) :=
  let int := s.takeWhile Char.isDigit
  -- a zero is the whole integer part or does not lead it
  if int = [] ∨ (int.head? = some '0' ∧ int ≠ ['0']) then none else some (int, s.dropWhile Char.isDigit)

/-- The digits after a point, where there is one. -/
def readFraction : List Char → Option (List Char × List Char)
  | '.' :: s => if s.takeWhile Char.isDigit = [] then none else some (s.takeWhile Char.isDigit, s.dropWhile Char.isDigit)
  | s => some ([], s)

/-- The exponent, where there is one. -/
def readExponent : List Char → Option (Int × List Char)
  | c :: s =>
    if c = 'e' ∨ c = 'E' then
      let (neg, s) := match s with
        | '-' :: s => (true, s)
        | '+' :: s => (false, s)
        | s => (false, s)
      let ds := s.takeWhile Char.isDigit
      if ds = [] then none else some (if neg then -digitsNat ds else digitsNat ds, s.dropWhile Char.isDigit)
    else some (0, c :: s)
  | [] => some (0, [])

/-- A number after its sign: the integer part, then a fraction and an exponent where they are. -/
def readUnsigned (neg : Bool) (s : List Char) : Option (JsNum × List Char) := do
  let (int, s) ← readInteger s
  let (frac, s) ← readFraction s
  let (exp, s) ← readExponent s
  return (.normalize neg (digitsNat (int ++ frac)) (exp - frac.length), s)

/-- A number of a JSON text, and what comes after it. -/
def readNumber : List Char → Option (JsNum × List Char)
  | '-' :: s => readUnsigned true s
  | s => readUnsigned false s

/-! ## Reading what was written -/

/-- A text that does not go on with the number, string or other value before it. -/
def Stops (s : List Char) : Prop := ∀ c ∈ s.head?, c = ',' ∨ c = ']' ∨ c = '}'

/-- The number without the sign of zero. -/
def JsNum.unsignZero (n : JsNum) : JsNum := if n.digits = 0 then ⟨false, 0, 0, .inr ⟨rfl, rfl⟩⟩ else n

theorem normalize_mul_pow (neg : Bool) {d : Nat} (hd : d % 10 ≠ 0) (z : Nat) :
    ∀ e : Int, JsNum.normalize neg (d * 10 ^ z) e = ⟨neg, d, e + z, .inl hd⟩ := by
  induction z with
  | zero =>
    intro e
    rw [JsNum.normalize]
    simp [hd]
  | succ z ih =>
    intro e
    have hne : d * 10 ^ (z + 1) ≠ 0 := by
      have : d ≠ 0 := fun h => hd (by rw [h])
      positivity
    have hdiv : d * 10 ^ (z + 1) / 10 = d * 10 ^ z := by rw [pow_succ, ← mul_assoc, Nat.mul_div_cancel _ (by omega)]
    have hmod : ¬d * 10 ^ (z + 1) % 10 ≠ 0 := by rw [pow_succ, ← mul_assoc, Nat.mul_mod_left]; simp
    rw [JsNum.normalize, dif_neg hmod, if_neg hne, hdiv, ih]
    simp only [JsNum.mk.injEq, true_and]
    omega

/-- Decimal text has no leading zero. -/
theorem toDigits_head {n : Nat} (hn : n ≠ 0) : (Nat.toDigits 10 n).head? ≠ some '0' := by
  induction n using Nat.strongRecOn with
  | ind n ih =>
    by_cases hlt : n < 10
    · rw [Nat.toDigits_of_lt_base hlt]
      interval_cases n <;> first | exact absurd rfl hn | decide
    · rw [Nat.toDigits_of_base_le (by omega) (by omega), List.head?_append_of_ne_nil _ Nat.toDigits_ne_nil]
      exact ih (n / 10) (by omega) (by omega)

/-- A run of digits ends where the next character is none. -/
theorem span_digits {ds rest : List Char} (hds : ∀ c ∈ ds, c.isDigit = true)
    (hrest : ∀ c ∈ rest.head?, c.isDigit = false) :
    (ds ++ rest).takeWhile Char.isDigit = ds ∧ (ds ++ rest).dropWhile Char.isDigit = rest := by
  rw [List.takeWhile_append_of_pos hds, List.dropWhile_append_of_pos hds]
  cases rest with
  | nil => simp
  | cons c rest =>
    have hc : ¬c.isDigit = true := by simp [hrest c rfl]
    rw [List.takeWhile_cons_of_neg hc, List.dropWhile_cons_of_neg hc, List.append_nil]
    exact ⟨rfl, rfl⟩

theorem Stops.not_digit {rest : List Char} (h : Stops rest) : ∀ c ∈ rest.head?, c.isDigit = false := by
  intro c hc
  rcases h c hc with rfl | rfl | rfl <;> decide

/-- The text of a fraction. -/
def fractionText (frac : List Char) : List Char := if frac = [] then [] else '.' :: frac

/-- The text of an exponent, with its sign. -/
def exponentText : Option Int → List Char
  | none => []
  | some e => 'e' :: (if 0 ≤ e then '+' else '-') :: (toString e.natAbs).toList

/-- Decimal text: digits, digits after a point, and an exponent. -/
def decimalText (int frac : List Char) (e : Option Int) : List Char := int ++ (fractionText frac ++ exponentText e)

theorem readInteger_append {int rest : List Char} (hint : ∀ c ∈ int, c.isDigit = true) (hne : int ≠ [])
    (hlead : int.head? = some '0' → int = ['0']) (hrest : ∀ c ∈ rest.head?, c.isDigit = false) :
    readInteger (int ++ rest) = some (int, rest) := by
  have hspan := span_digits hint hrest
  have hok : ¬(int = [] ∨ (int.head? = some '0' ∧ int ≠ ['0'])) := by
    rintro (h | ⟨hzero, h⟩)
    · exact hne h
    · exact h (hlead hzero)
  simp only [readInteger, hspan.1, hspan.2, if_neg hok]

theorem readFraction_append {frac rest : List Char} (hfrac : ∀ c ∈ frac, c.isDigit = true)
    (hrest : ∀ c ∈ rest.head?, c.isDigit = false ∧ c ≠ '.') :
    readFraction (fractionText frac ++ rest) = some (frac, rest) := by
  have hspan := span_digits hfrac fun c hc => (hrest c hc).1
  unfold fractionText
  split_ifs with hne
  · subst hne
    cases rest with
    | nil => rfl
    | cons c rest =>
      have hc : c ≠ '.' := (hrest c rfl).2
      simp [readFraction, hc]
  · simp only [List.cons_append, readFraction, hspan.1, hspan.2, if_neg hne]

theorem readExponent_append {e : Option Int} {rest : List Char} (hrest : Stops rest) :
    readExponent (exponentText e ++ rest) = some (e.getD 0, rest) := by
  cases e with
  | none =>
    show readExponent rest = some (0, rest)
    cases rest with
    | nil => rfl
    | cons c rest =>
      have hc : ¬(c = 'e' ∨ c = 'E') := by
        rcases hrest c rfl with rfl | rfl | rfl <;> decide
      simp only [readExponent, if_neg hc]
  | some e =>
    have hspan := span_digits (fun c => isDigit_of_mem_toString (n := e.natAbs)) hrest.not_digit
    have hne := toString_toList_ne_nil e.natAbs
    have hval := digitsNat_toString e.natAbs
    unfold exponentText
    by_cases hsign : 0 ≤ e
    · simp only [if_pos hsign, List.cons_append, readExponent, true_or, if_true, hspan, if_neg hne, hval]
      simp [abs_of_nonneg hsign]
    · simp only [if_neg hsign, List.cons_append, readExponent, true_or, if_true, hspan, if_neg hne, hval]
      simp [abs_of_neg (not_le.1 hsign)]

/-- After the integer part comes a point, an exponent or the end. -/
theorem exponentText_head {e : Option Int} {rest : List Char} (hrest : Stops rest) :
    ∀ c ∈ (exponentText e ++ rest).head?, c.isDigit = false ∧ c ≠ '.' := by
  cases e with
  | none =>
    intro c hc
    rcases hrest c hc with rfl | rfl | rfl <;> decide
  | some e =>
    intro c hc
    obtain rfl : 'e' = c := Option.some.inj hc
    decide

theorem fractionText_head {frac : List Char} {e : Option Int} {rest : List Char} (hrest : Stops rest) :
    ∀ c ∈ (fractionText frac ++ (exponentText e ++ rest)).head?, c.isDigit = false := by
  unfold fractionText
  split_ifs
  · exact fun c hc => (exponentText_head hrest c hc).1
  · intro c hc
    obtain rfl : '.' = c := Option.some.inj hc
    decide

theorem readUnsigned_decimalText (neg : Bool) {int frac : List Char} {e : Option Int} {rest : List Char}
    (hint : ∀ c ∈ int, c.isDigit = true) (hne : int ≠ []) (hlead : int.head? = some '0' → int = ['0'])
    (hfrac : ∀ c ∈ frac, c.isDigit = true) (hrest : Stops rest) :
    readUnsigned neg (decimalText int frac e ++ rest) =
      some (.normalize neg (digitsNat (int ++ frac)) (e.getD 0 - frac.length), rest) := by
  rw [readUnsigned, decimalText, List.append_assoc, List.append_assoc,
    readInteger_append hint hne hlead (fractionText_head hrest)]
  simp only [Option.bind_eq_bind, Option.bind_some, readFraction_append hfrac (exponentText_head hrest),
    readExponent_append hrest, Option.pure_def]

/-- Text that writes the number `m · 10^e`, its digits without leading zeros. -/
def Writes (body : List Char) (m : Nat) (e : Int) : Prop :=
  ∃ (int frac : List Char) (exp : Option Int) (z : Nat), body = decimalText int frac exp ∧
    (∀ c ∈ int, c.isDigit = true) ∧ int ≠ [] ∧ (int.head? = some '0' → int = ['0']) ∧
    (∀ c ∈ frac, c.isDigit = true) ∧ digitsNat (int ++ frac) = m * 10 ^ z ∧ exp.getD 0 - frac.length + z = e

/-- The digits of a number that is not zero. -/
structure Digits (m : Nat) (ds : List Char) : Prop where
  digits : ∀ c ∈ ds, c.isDigit = true
  ne_nil : ds ≠ []
  head : ds.head? ≠ some '0'
  value : digitsNat ds = m

theorem digits_toString {m : Nat} (hm : m ≠ 0) : Digits m (toString m).toList where
  digits := fun c => isDigit_of_mem_toString
  ne_nil := toString_toList_ne_nil m
  head := by
    rw [Nat.toString_eq_ofList_toDigits, String.toList_ofList]
    exact toDigits_head hm
  value := digitsNat_toString m

theorem isDigit_of_mem_zeros {k : Nat} {c : Char} (hc : c ∈ List.replicate k '0') : c.isDigit = true := by
  rw [List.eq_of_mem_replicate hc]
  decide

section
variable {m : Nat} {ds : List Char}

theorem Digits.writes_integer (h : Digits m ds) (k : Nat) : Writes (ds ++ List.replicate k '0') m k := by
  refine ⟨ds ++ List.replicate k '0', [], none, k, by simp [decimalText, fractionText, exponentText], ?_, by simp [h.ne_nil],
    ?_, by simp, ?_, by simp⟩
  · intro c hc
    rcases List.mem_append.1 hc with hc | hc
    · exact h.digits c hc
    · exact isDigit_of_mem_zeros hc
  · rw [List.head?_append_of_ne_nil _ h.ne_nil]
    exact fun hzero => absurd hzero h.head
  · rw [List.append_nil, digitsNat, Nat.ofDigitChars_append, ← digitsNat, h.value, Nat.ofDigitChars_replicate_zero, mul_comm]

theorem Digits.writes_point (h : Digits m ds) {k : Nat} (hk : 0 < k) (hlt : k < ds.length) :
    Writes (ds.take k ++ '.' :: ds.drop k) m (k - ds.length : Int) := by
  have hne : ds.drop k ≠ [] := by
    rw [← List.length_pos_iff, List.length_drop]
    omega
  have htake : ds.take k ≠ [] := by
    rw [← List.length_pos_iff, List.length_take]
    omega
  refine ⟨ds.take k, ds.drop k, none, 0, by simp [decimalText, fractionText, exponentText, hne], ?_, htake, ?_, ?_, ?_, ?_⟩
  · exact fun c hc => h.digits c (List.mem_of_mem_take hc)
  · rw [List.head?_take, if_neg (by omega)]
    exact fun hzero => absurd hzero h.head
  · exact fun c hc => h.digits c (List.mem_of_mem_drop hc)
  · rw [List.take_append_drop, h.value, pow_zero, mul_one]
  · rw [List.length_drop]
    simp only [Option.getD_none]
    omega

theorem Digits.writes_small (h : Digits m ds) (k : Nat) :
    Writes ('0' :: '.' :: List.replicate k '0' ++ ds) m (-(k + ds.length : Nat) : Int) := by
  refine ⟨['0'], List.replicate k '0' ++ ds, none, 0, by simp [decimalText, fractionText, exponentText, h.ne_nil], by simp,
    by simp, by simp, ?_, ?_, ?_⟩
  · intro c hc
    rcases List.mem_append.1 hc with hc | hc
    · exact isDigit_of_mem_zeros hc
    · exact h.digits c hc
  · rw [digitsNat, Nat.ofDigitChars_append, Nat.ofDigitChars_append, Nat.ofDigitChars_replicate_zero]
    simpa [Nat.ofDigitChars_cons] using h.value
  · simp only [Option.getD_none, List.length_append, List.length_replicate]
    omega

theorem Digits.writes_exponent {d : Char} (h : Digits m (d :: ds)) (e : Int) :
    Writes (d :: fractionText ds ++ exponentText (some e)) m (e - ds.length) := by
  refine ⟨[d], ds, some e, 0, by simp [decimalText], ?_, by simp, ?_, ?_, ?_, by simp⟩
  · intro c hc
    rw [List.mem_singleton.1 hc]
    exact h.digits d List.mem_cons_self
  · exact fun hzero => absurd hzero h.head
  · exact fun c hc => h.digits c (List.mem_cons_of_mem _ hc)
  · rw [List.singleton_append, h.value, pow_zero, mul_one]

end

/-- `String(n)` writes the number, after its sign. -/
theorem toStr_writes (n : JsNum) :
    ∃ body, n.toStr.toList = (if n.neg ∧ n.digits ≠ 0 then '-' :: body else body) ∧ Writes body n.digits n.exp := by
  unfold JsNum.toStr
  dsimp only
  rw [String.toList_ofList]
  refine ⟨_, rfl, ?_⟩
  by_cases hzero : n.digits = 0
  · have hexp : n.exp = 0 := by
      rcases n.canonical with h | h
      · rw [hzero] at h
        exact absurd rfl h
      · exact h.2
    rw [if_pos hzero, hzero, hexp]
    exact ⟨['0'], [], none, 0, by simp [decimalText, fractionText, exponentText], by simp, by simp, by simp, by simp,
      by simp [Nat.ofDigitChars_cons], by simp⟩
  rw [if_neg hzero]
  have hds := digits_toString hzero
  have hne := hds.ne_nil
  -- the four layouts of `String(n)`: an integer, a point inside the digits, a small fraction, an exponent
  generalize (toString n.digits).toList = ds at hds hne ⊢
  have htail : ∀ e : Int, 'e' :: (if 0 ≤ e then '+' else '-') :: (toString e.natAbs).toList = exponentText (some e) :=
    fun e => rfl
  simp only [htail]
  split_ifs with hint hpoint hsmall
  · have h := hds.writes_integer n.exp.toNat
    rwa [Int.toNat_of_nonneg hint.1] at h
  · have h := hds.writes_point (k := (ds.length + n.exp).toNat) (by omega) (by omega)
    rwa [show ((ds.length + n.exp).toNat - ds.length : Int) = n.exp by omega] at h
  · have h := hds.writes_small (-(ds.length + n.exp)).toNat
    rwa [show (-((-(ds.length + n.exp)).toNat + ds.length : Nat) : Int) = n.exp by omega] at h
  · cases ds with
    | nil => exact absurd rfl hne
    | cons d ds =>
      have h := hds.writes_exponent ((d :: ds).length + n.exp - 1)
      rw [show ((d :: ds).length + n.exp - 1 - ds.length : Int) = n.exp by
        rw [List.length_cons]
        omega] at h
      cases ds with
      | nil => exact h
      | cons d' ds => exact h

theorem readNumber_of_digit {c : Char} (hc : c.isDigit = true) (s : List Char) :
    readNumber (c :: s) = readUnsigned false (c :: s) := by
  have hne : c ≠ '-' := by
    rintro rfl
    cases hc
  simp [readNumber, hne]

/-- The number that `String(n)` writes is read back, without the sign of zero, where nothing goes on with it. -/
theorem readNumber_toStr (n : JsNum) {rest : List Char} (hrest : Stops rest) :
    readNumber (n.toStr.toList ++ rest) = some (n.unsignZero, rest) := by
  obtain ⟨body, htext, int, frac, exp, z, rfl, hint, hne, hlead, hfrac, hval, hexp⟩ := toStr_writes n
  have hread : ∀ neg, readUnsigned neg (decimalText int frac exp ++ rest) =
      some (.normalize neg (n.digits * 10 ^ z) (exp.getD 0 - frac.length), rest) := by
    intro neg
    rw [readUnsigned_decimalText neg hint hne hlead hfrac hrest, hval]
  rw [htext]
  -- where there is no sign, the text starts with a digit
  have hunsigned : readNumber (decimalText int frac exp ++ rest) =
      some (.normalize false (n.digits * 10 ^ z) (exp.getD 0 - frac.length), rest) := by
    rw [← hread false]
    cases int with
    | nil => exact absurd rfl hne
    | cons c int => exact readNumber_of_digit (hint c List.mem_cons_self) _
  by_cases hzero : n.digits = 0
  · rw [if_neg (by simp [hzero]), hunsigned, JsNum.unsignZero, if_pos hzero, hzero, Nat.zero_mul, JsNum.normalize]
    rfl
  · have hcanonical : n.digits % 10 ≠ 0 := n.canonical.resolve_right fun h => hzero h.1
    rw [JsNum.unsignZero, if_neg hzero]
    by_cases hneg : n.neg = true
    · rw [if_pos ⟨hneg, hzero⟩]
      show readUnsigned true (decimalText int frac exp ++ rest) = _
      rw [hread, normalize_mul_pow _ hcanonical, hexp, ← hneg]
    · rw [if_neg fun h => hneg h.1, hunsigned, normalize_mul_pow _ hcanonical, hexp]
      rw [Bool.not_eq_true] at hneg
      rw [← hneg]

end Xahc.Data

/-
Amounts: native drops, and issued amounts as exact decimals. Token values are parsed without loss,
compared without rounding and printed back as plain decimals with the same value.
-/
import Xahc.Data.Bytes
import Xahc.Data.Json
import Mathlib.Algebra.Order.Field.Power
import Mathlib.Data.Rat.Cast.Order
import Mathlib.Tactic.Positivity
import Mathlib.Tactic.FieldSimp
import Mathlib.Tactic.Ring

namespace Xahc.Facilitator

open Xahc.Data

/-! ## Native drops -/

/-- 100e9 XAH in drops. -/
def MAX_DROPS : Nat := 100000000000 * 1000000

/-- `STRICT_DROPS.test(value)`. -/
def isStrictDrops (value : String) : Bool := value ≠ "" && value.toList.all Char.isDigit

/-- The drops of a decimal string, at least one and at most the supply. -/
def parseStrictDrops (value : String) : Option Nat :=
  if !isStrictDrops value then none
  else
    let n := digitsNat value.toList
    if n ≤ 0 ∨ n > MAX_DROPS then none else some n

/-- `BigInt(s)` of a decimal string. -/
def bigIntOf (s : String) : Option Nat := if isStrictDrops s then some (digitsNat s.toList) else none

theorem bigIntOf_toString (n : Nat) : bigIntOf (toString n) = some n := by
  have hne : toString n ≠ "" := fun h => toString_toList_ne_nil n (by rw [h, String.toList_empty])
  have hall : (toString n).toList.all Char.isDigit = true := List.all_eq_true.2 fun c => isDigit_of_mem_toString
  rw [bigIntOf, isStrictDrops, hall, decide_eq_true hne, Bool.and_self, if_pos rfl, digitsNat_toString]

/-! ## Token values -/

/-- The least exponent of a token value. -/
def TOKEN_EXP_MIN : Int := -96

/-- The greatest exponent of a token value. -/
def TOKEN_EXP_MAX : Int := 80

/-- The digits a token value holds. -/
def TOKEN_MAX_MANT_DIGITS : Nat := 16

/-- `mant · 10^exp`. -/
structure TokenValue where
  mant : Nat
  exp : Int
  deriving DecidableEq, Repr

/-- `/^([0-9]+)(?:\.([0-9]+))?(?:[eE]([+-]?[0-9]+))?$/`, its groups; an absent exponent is 0. -/
def tokenGroups (s : List Char) : Option (List Char × List Char × Int) :=
  let intPart := s.takeWhile Char.isDigit
  let (dotted, fracPart, rest) := match s.dropWhile Char.isDigit with
    | '.' :: rest => (true, rest.takeWhile Char.isDigit, rest.dropWhile Char.isDigit)
    | rest => (false, [], rest)
  if intPart.isEmpty ∨ (dotted ∧ fracPart.isEmpty) then none
  else match rest with
    | [] => some (intPart, fracPart, 0)
    | c :: rest => if c = 'e' ∨ c = 'E' then (signedDigits rest).map fun e => (intPart, fracPart, e) else none

/-- The value of a decimal string in lowest terms, where it is positive and fits a token amount. -/
def parseTokenValue (value : String) : Option TokenValue :=
  match tokenGroups value.toList with
  | none => none
  | some (intPart, fracPart, exp10) =>
    let digits := (intPart ++ fracPart).dropWhile (· == '0')
    if digits.isEmpty then none
    else
      let kept := digits.rdropWhile (· == '0')
      let exp := exp10 - fracPart.length + (digits.length - kept.length : Nat)
      if kept.length > TOKEN_MAX_MANT_DIGITS then none
      else
        let mant := digitsNat kept
        if mant ≤ 0 then none
        else
          let normExp := exp + (kept.length - TOKEN_MAX_MANT_DIGITS : Int)
          if normExp < TOKEN_EXP_MIN ∨ normExp > TOKEN_EXP_MAX then none else some ⟨mant, exp⟩

/-- Negative, zero or positive as `a` is less than, equal to or greater than `b`. -/
def cmpTokenValue (a b : TokenValue) : Int :=
  let e := if a.exp < b.exp then a.exp else b.exp
  let ma := a.mant * 10 ^ (a.exp - e).toNat
  let mb := b.mant * 10 ^ (b.exp - e).toNat
  if ma = mb then 0 else if ma > mb then 1 else -1

/-- A value written out without an exponent. -/
def tokenValueToString (v : TokenValue) : String :=
  let digits := (toString v.mant).toList
  let neg := (-v.exp).toNat
  String.ofList <|
    if v.exp ≥ 0 then digits ++ List.replicate v.exp.toNat '0'
    else if neg < digits.length then digits.take (digits.length - neg) ++ '.' :: digits.drop (digits.length - neg)
    else '0' :: '.' :: (List.replicate (neg - digits.length) '0' ++ digits)

/-! ## Currencies -/

/-- A token: its currency code and its issuer. -/
structure Asset where
  currency : String
  issuer : String
  deriving DecidableEq, Repr

/-- An amount of a token, its value as text. -/
structure IssuedAmount where
  currency : String
  issuer : String
  value : String
  deriving DecidableEq, Repr

/-- The 40 hexadecimal digits of a currency code given as those digits or as three ASCII characters. -/
def canonicalizeCurrency (cur : String) : Option String :=
  let cs := cur.toList
  if cs.length = 40 ∧ cs.all (fun c => (hexVal c).isSome) then
    let hex := cs.map Char.toUpper
    if hex.all (· == '0') then none else some (String.ofList hex)
  else if cs.length = 3 ∧ cs.all (fun c => ' ' ≤ c && c ≤ '~') then
    if cur = "XRP" then none
    else
      let bytes : Bytes := List.replicate 12 0 ++ cs.map (fun c => UInt8.ofNat c.toNat) ++ List.replicate 5 0
      some (String.ofList (encodeHex bytes))
  else none

/-! ## The value a token value stands for -/

/-- The value as a number. -/
def TokenValue.toRat (v : TokenValue) : ℚ := v.mant * 10 ^ v.exp

theorem zpow_sub_mul (m : Nat) {e f : Int} (h : e ≤ f) :
    (m : ℚ) * 10 ^ f = ((m * 10 ^ (f - e).toNat : Nat) : ℚ) * 10 ^ e := by
  have hf : f = ((f - e).toNat : Int) + e := by omega
  conv_lhs => rw [hf, zpow_add₀ (by norm_num), zpow_natCast]
  push_cast
  ring

/-- At an exponent that neither exceeds, mantissas compare as the values do. -/
theorem scaled_lt (a b : TokenValue) {e : Int} (ha : e ≤ a.exp) (hb : e ≤ b.exp) :
    a.mant * 10 ^ (a.exp - e).toNat < b.mant * 10 ^ (b.exp - e).toNat ↔ a.toRat < b.toRat := by
  rw [TokenValue.toRat, TokenValue.toRat, zpow_sub_mul a.mant ha, zpow_sub_mul b.mant hb,
    mul_lt_mul_iff_left₀ (by positivity), Nat.cast_lt]

/-- The comparison is that of the values. -/
theorem cmpTokenValue_lt (a b : TokenValue) : cmpTokenValue a b < 0 ↔ a.toRat < b.toRat := by
  rw [← scaled_lt a b (e := if a.exp < b.exp then a.exp else b.exp) (by split <;> omega) (by split <;> omega)]
  unfold cmpTokenValue
  dsimp only
  split
  · omega
  · split <;> omega

theorem cmpTokenValue_gt (a b : TokenValue) : cmpTokenValue a b > 0 ↔ b.toRat < a.toRat := by
  rw [← scaled_lt b a (e := if a.exp < b.exp then a.exp else b.exp) (by split <;> omega) (by split <;> omega)]
  unfold cmpTokenValue
  dsimp only
  split
  · omega
  · split <;> omega

theorem cmpTokenValue_eq (a b : TokenValue) : cmpTokenValue a b = 0 ↔ a.toRat = b.toRat := by
  have hlt := cmpTokenValue_lt a b
  have hgt := cmpTokenValue_gt a b
  constructor
  · intro h
    refine le_antisymm (not_lt.1 fun hlt' => ?_) (not_lt.1 fun hlt' => ?_)
    · have := hgt.2 hlt'
      omega
    · have := hlt.2 hlt'
      omega
  · intro h
    have h1 : ¬cmpTokenValue a b < 0 := fun hc => absurd (hlt.1 hc) (by rw [h]; exact lt_irrefl _)
    have h2 : ¬cmpTokenValue a b > 0 := fun hc => absurd (hgt.1 hc) (by rw [h]; exact lt_irrefl _)
    omega

/-! ## Parsing and printing -/

/-- Leading zeros carry no value. -/
theorem digitsNat_dropWhile (l : List Char) : digitsNat (l.dropWhile (· == '0')) = digitsNat l := by
  induction l with
  | nil => rfl
  | cons c l ih =>
    by_cases hc : c = '0'
    · subst hc
      rw [List.dropWhile_cons_of_pos (by rfl), ih]
      rfl
    · rw [List.dropWhile_cons_of_neg (by simpa using hc)]

/-- Trailing zeros are a power of ten. -/
theorem digitsNat_rdropWhile (l : List Char) :
    digitsNat l = digitsNat (l.rdropWhile (· == '0')) * 10 ^ (l.length - (l.rdropWhile (· == '0')).length) := by
  induction l using List.reverseRecOn with
  | nil => rfl
  | append_singleton l c ih =>
    by_cases hc : c = '0'
    · subst hc
      have hle := (List.rdropWhile_prefix (· == '0') (l := l)).length_le
      have hlen : (l ++ ['0']).length - (l.rdropWhile (· == '0')).length =
          l.length - (l.rdropWhile (· == '0')).length + 1 := by
        rw [List.length_append, List.length_singleton]
        omega
      have hsnoc : digitsNat (l ++ ['0']) = 10 * digitsNat l := by
        simp [digitsNat, Nat.ofDigitChars_append, Nat.ofDigitChars_cons]
      rw [List.rdropWhile_concat_pos _ _ _ (by rfl), hsnoc, hlen, ih, pow_succ]
      ring
    · rw [List.rdropWhile_concat_neg _ _ _ (by simpa using hc)]
      simp

/-- A parsed value is the value of the text's decimal. -/
theorem parseTokenValue_toRat {value : String} {v : TokenValue} (h : parseTokenValue value = some v) :
    ∃ i f e, tokenGroups value.toList = some (i, f, e) ∧
      v.toRat = digitsNat (i ++ f) * 10 ^ (e - f.length) := by
  unfold parseTokenValue at h
  split at h
  · cases h
  rename_i i f e hg
  refine ⟨i, f, e, hg, ?_⟩
  dsimp only at h
  split_ifs at h
  cases h
  rw [TokenValue.toRat, ← digitsNat_dropWhile (i ++ f), digitsNat_rdropWhile ((i ++ f).dropWhile (· == '0')),
    zpow_add₀ (by norm_num), zpow_natCast]
  push_cast
  ring

/-- The groups of a text with a point between two runs of digits. -/
theorem tokenGroups_dotted {i f : List Char} (hi : i ≠ []) (hf : f ≠ []) (hid : ∀ c ∈ i, c.isDigit = true)
    (hfd : ∀ c ∈ f, c.isDigit = true) : tokenGroups (i ++ '.' :: f) = some (i, f, 0) := by
  have hdot : Char.isDigit '.' = false := by decide
  have htake : (i ++ '.' :: f).takeWhile Char.isDigit = i := by
    rw [List.takeWhile_append_of_pos hid, List.takeWhile_cons_of_neg (by simp [hdot]), List.append_nil]
  have hdrop : (i ++ '.' :: f).dropWhile Char.isDigit = '.' :: f := by
    rw [List.dropWhile_append_of_pos hid, List.dropWhile_cons_of_neg (by simp [hdot])]
  have hf1 : f.takeWhile Char.isDigit = f := List.takeWhile_eq_self_iff.2 hfd
  have hf2 : f.dropWhile Char.isDigit = [] := List.dropWhile_eq_nil_iff.2 hfd
  simp [tokenGroups, htake, hdrop, hf1, hf2, hi, hf]

theorem tokenGroups_digits {i : List Char} (hi : i ≠ []) (hid : ∀ c ∈ i, c.isDigit = true) :
    tokenGroups i = some (i, [], 0) := by
  have htake : i.takeWhile Char.isDigit = i := List.takeWhile_eq_self_iff.2 hid
  have hdrop : i.dropWhile Char.isDigit = [] := List.dropWhile_eq_nil_iff.2 hid
  simp [tokenGroups, htake, hdrop, hi]

/-- The groups of a printed value write that value. -/
theorem tokenGroups_tokenValueToString (v : TokenValue) :
    ∃ i f, tokenGroups (tokenValueToString v).toList = some (i, f, 0) ∧
      v.toRat = digitsNat (i ++ f) * 10 ^ (0 - (f.length : Int)) := by
  have hdig : ∀ c ∈ (toString v.mant).toList, c.isDigit = true := fun c => isDigit_of_mem_toString
  have hval := digitsNat_toString v.mant
  have hne := toString_toList_ne_nil v.mant
  unfold tokenValueToString
  dsimp only
  rw [String.toList_ofList]
  generalize (toString v.mant).toList = digits at *
  -- a nonnegative exponent is written out in zeros
  split
  · rename_i hexp
    refine ⟨_, [], tokenGroups_digits (by simp [hne]) ?_, ?_⟩
    · intro c hc
      rcases List.mem_append.1 hc with hc | hc
      · exact hdig c hc
      · rw [List.eq_of_mem_replicate hc]
        decide
    · have hzeros : digitsNat (digits ++ List.replicate v.exp.toNat '0') = 10 ^ v.exp.toNat * v.mant := by
        rw [digitsNat, Nat.ofDigitChars_append, ← digitsNat, hval, Nat.ofDigitChars_replicate_zero]
      have hexp' : v.exp = (v.exp.toNat : Int) := by omega
      rw [List.append_nil, hzeros, TokenValue.toRat]
      conv_lhs => rw [hexp', zpow_natCast]
      push_cast
      simp [mul_comm]
  rename_i hexp
  have hexp' : v.exp = 0 - ((-v.exp).toNat : Int) := by omega
  -- a negative one puts the point among the digits, or in front of the zeros that fill them up
  split
  · rename_i hneg
    refine ⟨_, _, tokenGroups_dotted ?_ ?_ ?_ ?_, ?_⟩
    · exact fun h => by
        have := congrArg List.length h
        simp only [List.length_take, List.length_nil] at this
        omega
    · exact fun h => by
        have := congrArg List.length h
        simp only [List.length_drop, List.length_nil] at this
        omega
    · exact fun c hc => hdig c (List.mem_of_mem_take hc)
    · exact fun c hc => hdig c (List.mem_of_mem_drop hc)
    · have hlen : (digits.drop (digits.length - (-v.exp).toNat)).length = (-v.exp).toNat := by
        rw [List.length_drop]
        omega
      rw [List.take_append_drop, hval, hlen, ← hexp', TokenValue.toRat]
  · rename_i hneg
    refine ⟨['0'], List.replicate ((-v.exp).toNat - digits.length) '0' ++ digits,
      tokenGroups_dotted (i := ['0']) (by simp) (by simp [hne]) (by simp) ?_, ?_⟩
    · intro c hc
      rcases List.mem_append.1 hc with hc | hc
      · rw [List.eq_of_mem_replicate hc]
        decide
      · exact hdig c hc
    · have hlen : (List.replicate ((-v.exp).toNat - digits.length) '0' ++ digits).length = (-v.exp).toNat := by
        rw [List.length_append, List.length_replicate]
        omega
      have hzeros : digitsNat (['0'] ++ (List.replicate ((-v.exp).toNat - digits.length) '0' ++ digits)) = v.mant := by
        rw [digitsNat, Nat.ofDigitChars_append, Nat.ofDigitChars_append, Nat.ofDigitChars_replicate_zero]
        simpa [Nat.ofDigitChars_cons] using hval
      rw [hzeros, hlen, ← hexp', TokenValue.toRat]

/-- Printing a value and parsing it again gives the same value. -/
theorem parseTokenValue_tokenValueToString {v v' : TokenValue}
    (h : parseTokenValue (tokenValueToString v) = some v') : v'.toRat = v.toRat := by
  obtain ⟨i, f, e, hg, hv'⟩ := parseTokenValue_toRat h
  obtain ⟨i', f', hg', hv⟩ := tokenGroups_tokenValueToString v
  obtain ⟨rfl, rfl, rfl⟩ : i = i' ∧ f = f' ∧ e = 0 := by simpa using hg.symm.trans hg'
  rw [hv, hv']

end Xahc.Facilitator

/-
The spending limit the author reads out of an intent: the number in front of a unit, taken as drops in double precision, and
on which texts it is the number that stands there.
-/
import Mathlib.Tactic.NormNum.Parity
import Xahc.Data.Double
import Xahc.Data.Json
import Xahc.Data.Scan

namespace Xahc.Cli

open Xahc.Data

/-! ## Numbers in front of units -/

/-- A decimal number: its digits without the point, and how many of them stand behind it. -/
structure Decimal where
  mantissa : Nat
  decimals : Nat
  deriving DecidableEq, Repr

/-- A text of digits as a number: a point may stand among them or at either end, but not alone. -/
def parseDecimal (s : List Char) : Option Decimal :=
  let int := s.takeWhile Char.isDigit
  match s.dropWhile Char.isDigit with
  | [] => if int = [] then none else some ⟨digitsNat int, 0⟩
  | c :: frac =>
    if c = '.' ∧ frac.all Char.isDigit ∧ int ++ frac ≠ [] then some ⟨digitsNat (int ++ frac), frac.length⟩ else none

/-- A character that may stand in a number. -/
def isNumberChar (c : Char) : Bool := c.isDigit || c == '.'

/-- The digits in front of a unit, the text before them, and their value. -/
structure Found where
  before : List Char
  num : List Char
  value : Decimal
  deriving DecidableEq, Repr

/-- The number in front of a unit's first occurrence: back over spaces, then over digits and points. Digits that a
letter or another digit stands before are not trusted. -/
def numberBefore (unit lc : List Char) : Option Found := do
  let pre ← beforeFirst unit lc
  let text := pre.rdropWhile (· == ' ')
  let before := text.rdropWhile isNumberChar
  let num := text.rtakeWhile isNumberChar
  guard !(before.getLast?.any Char.isAlphanum)
  let value ← parseDecimal num
  some ⟨before, num, value⟩

/-- The units an amount is read in. -/
inductive AmountUnit
  | xah | drops
  deriving DecidableEq, Repr

/-- The unit as it is looked for. -/
def AmountUnit.text : AmountUnit → String
  | .xah => "xah"
  | .drops => "drops"

/-- What the unit is worth, in drops. -/
def AmountUnit.worth : AmountUnit → Nat
  | .xah => 1000000
  | .drops => 1

/-- The exact value of a decimal number. -/
def Decimal.value (v : Decimal) : ℚ := v.mantissa / 10 ^ v.decimals

/-- `u64::MAX as f64`: the double nearest to 2^64 - 1. -/
def u64MaxAsF64 : ℚ := double.nearest (2 ^ 64 - 1)

/-- `if unit == "xah" { num * 1_000_000.0 } else { num }`; none where the product is infinite. -/
def scaled (unit : AmountUnit) (num : ℚ) : Option ℚ :=
  match unit with
  | .xah => toDouble (num * 1000000)
  | .drops => some num

/-- The number parsed as an `f64` and taken as drops: none where it is infinite or would saturate the cast to a `u64`. -/
def toDrops (unit : AmountUnit) (value : Decimal) : Option Nat := do
  let num ← toDouble value.value
  let scaled ← scaled unit num
  if u64MaxAsF64 < scaled then none else some (min ⌊scaled⌋₊ (2 ^ 64 - 1))

/-- The units in the order they are looked for. A number found ends the search, also when it is refused. -/
def extractFrom (lc : List Char) : List AmountUnit → Option Nat
  | [] => none
  | unit :: units =>
    match numberBefore unit.text.toList lc with
    | none => extractFrom lc units
    | some f => toDrops unit f.value

/-- The amount in drops: the number in front of XAH, or else of drops. -/
def extractDrops (toLowercase : List Char → List Char) (intent : String) : Option Nat :=
  extractFrom (toLowercase intent.toList) [.xah, .drops]

/-! ## Whole amounts -/

/-- What it is for a number to stand in front of a unit. -/
structure NumberBefore (unit lc : List Char) (f : Found) : Prop where
  unit : ∃ spaces, OccursFirst unit lc (f.before ++ f.num ++ spaces) ∧ ∀ c ∈ spaces, c = ' '
  num : ∀ c ∈ f.num, isNumberChar c = true
  value : parseDecimal f.num = some f.value
  before : ∀ c, f.before.getLast? = some c → c.isAlphanum = false ∧ isNumberChar c = false

/-- The number a limit is read from, and its unit. -/
inductive Selected (lc : List Char) : Found → AmountUnit → Prop
  | xah {f : Found} : NumberBefore "xah".toList lc f → Selected lc f .xah
  | drops {f : Found} : (∀ g, ¬NumberBefore "xah".toList lc g) → NumberBefore "drops".toList lc f → Selected lc f .drops

/-- The digits read are the whole number that is written there, and the amount is exactly its value. `joins` are the
characters that go on with a written number besides digits and points: separators of thousands, and signs. -/
def WholeAmount (joins : Char → Bool) (lc : List Char) (d : Nat) : Prop :=
  ∃ f unit, Selected lc f unit ∧
    (∀ c, f.before.getLast? = some c → c.isDigit = false ∧ c ≠ '.' ∧ joins c = false) ∧
    f.value.mantissa * unit.worth = d * 10 ^ f.value.decimals

theorem parseDecimal_ne_nil {s : List Char} {v : Decimal} (h : parseDecimal s = some v) : s ≠ [] := by
  rintro rfl
  cases h

theorem numberBefore_iff {unit lc : List Char} {f : Found} : numberBefore unit lc = some f ↔ NumberBefore unit lc f := by
  have hguard {b : Bool} {x : Option Found} : (guard (b = true) >>= fun _ => x) = some f ↔ b = true ∧ x = some f := by
    cases b <;> simp [guard]
  unfold numberBefore
  rw [Option.bind_eq_bind, Option.bind_eq_some_iff]
  constructor
  · rintro ⟨pre, hpre, h⟩
    obtain ⟨hlast, h⟩ := hguard.1 h
    obtain ⟨v, hv, h⟩ := Option.bind_eq_some_iff.1 h
    cases h
    -- the two walks back are runs of spaces and of number characters, each as long as it can be
    obtain ⟨hspaces, hsp, -⟩ := trailing_run_iff.1 (⟨rfl, rfl⟩ : pre.rdropWhile (· == ' ') = _ ∧ pre.rtakeWhile (· == ' ') = _)
    obtain ⟨htext, hnum, hbefore⟩ := trailing_run_iff.1
      (⟨rfl, rfl⟩ : (pre.rdropWhile (· == ' ')).rdropWhile isNumberChar = _ ∧ (pre.rdropWhile (· == ' ')).rtakeWhile isNumberChar = _)
    refine ⟨⟨pre.rtakeWhile (· == ' '), ?_, fun c hc => beq_iff_eq.1 (hsp c hc)⟩, hnum, hv, fun c hc => ⟨?_, hbefore c hc⟩⟩
    · rw [← htext, ← hspaces]
      exact beforeFirst_iff.1 hpre
    · dsimp only at hc
      rw [hc] at hlast
      simpa using hlast
  · rintro ⟨⟨spaces, hocc, hsp⟩, hnum, hv, hbefore⟩
    obtain ⟨before, num, v⟩ := f
    dsimp only at hocc hnum hv hbefore
    -- the number is not empty, so the spaces end where it starts
    have hlast : ∀ c, (before ++ num).getLast? = some c → (c == ' ') = false := by
      intro c hc
      rw [List.getLast?_append_of_ne_nil _ (parseDecimal_ne_nil hv)] at hc
      have hclass := hnum c (List.mem_of_getLast? hc)
      rw [beq_eq_false_iff_ne]
      rintro rfl
      cases hclass
    obtain ⟨htext, -⟩ := (trailing_run_iff (p := (· == ' '))).2
      ⟨rfl, fun c hc => beq_iff_eq.2 (hsp c hc), hlast⟩
    obtain ⟨hb, hn⟩ := (trailing_run_iff (p := isNumberChar)).2 ⟨rfl, hnum, fun c hc => (hbefore c hc).2⟩
    refine ⟨_, beforeFirst_iff.2 hocc, ?_⟩
    rw [htext]
    dsimp only
    rw [hb, hn]
    refine hguard.2 ⟨?_, ?_⟩
    · cases hc : before.getLast? with
      | none => rfl
      | some c =>
        rw [Option.any_some, (hbefore c hc).1]
        rfl
    · rw [hv]
      rfl

theorem numberBefore_none {unit lc : List Char} (h : numberBefore unit lc = none) (f : Found) : ¬NumberBefore unit lc f := by
  intro hf
  rw [numberBefore_iff.2 hf] at h
  cases h

/-- One number at most is selected. -/
theorem Selected.unique {lc : List Char} {f g : Found} {u v : AmountUnit} (hf : Selected lc f u) (hg : Selected lc g v) :
    f = g ∧ u = v := by
  have hone {unit : List Char} (hf : NumberBefore unit lc f) (hg : NumberBefore unit lc g) : f = g :=
    Option.some.inj ((numberBefore_iff.2 hf).symm.trans (numberBefore_iff.2 hg))
  cases hf with
  | xah hf =>
    cases hg with
    | xah hg => exact ⟨hone hf hg, rfl⟩
    | drops hnone _ => exact absurd hf (hnone f)
  | drops hnone hf =>
    cases hg with
    | xah hg => exact absurd hg (hnone g)
    | drops _ hg => exact ⟨hone hf hg, rfl⟩

/-- The search answers with the number selected, taken as drops. -/
theorem extractDrops_iff {toLowercase : List Char → List Char} {intent : String} {d : Nat} :
    extractDrops toLowercase intent = some d ↔
      ∃ f unit, Selected (toLowercase intent.toList) f unit ∧ toDrops unit f.value = some d := by
  unfold extractDrops
  generalize toLowercase intent.toList = lc
  rw [extractFrom, extractFrom, extractFrom, AmountUnit.text, AmountUnit.text]
  -- drops are looked for only where no number stands in front of XAH
  cases hx : numberBefore "xah".toList lc with
  | some f =>
    have hsel : Selected lc f .xah := .xah (numberBefore_iff.1 hx)
    dsimp only
    constructor
    · intro h
      exact ⟨f, _, hsel, h⟩
    · rintro ⟨g, unit, hg, h⟩
      obtain ⟨rfl, rfl⟩ := hsel.unique hg
      exact h
  | none =>
    cases hd : numberBefore "drops".toList lc with
    | some f =>
      have hsel : Selected lc f .drops := .drops (numberBefore_none hx) (numberBefore_iff.1 hd)
      dsimp only
      constructor
      · intro h
        exact ⟨f, _, hsel, h⟩
      · rintro ⟨g, unit, hg, h⟩
        obtain ⟨rfl, rfl⟩ := hsel.unique hg
        exact h
    | none =>
      refine iff_of_false nofun ?_
      rintro ⟨f, unit, hsel, -⟩
      cases hsel with
      | xah hf => exact numberBefore_none hx f hf
      | drops _ hf => exact numberBefore_none hd f hf

/-! ## Drops in double precision -/

/-- What a number comes to as drops, before it is cut to a `u64`; infinite doubles are not told from large ones. -/
def product : AmountUnit → ℚ → ℚ
  | .xah, q => double.nearest (double.nearest q * 1000000)
  | .drops, q => double.nearest q

theorem u64MaxAsF64_eq : u64MaxAsF64 = 2 ^ 64 := by decide +kernel

theorem Decimal.value_nonneg (v : Decimal) : 0 ≤ v.value := by
  unfold Decimal.value
  positivity

theorem product_nonneg {unit : AmountUnit} {q : ℚ} (hq : 0 ≤ q) : 0 ≤ product unit q := by
  have hnum : 0 ≤ double.nearest q := Format.nearest_nonneg hq
  cases unit with
  | xah => exact Format.nearest_nonneg (mul_nonneg hnum (by norm_num))
  | drops => exact hnum

theorem product_representable {unit : AmountUnit} {q : ℚ} (hq : 0 ≤ q) : double.Representable (product unit q) := by
  cases unit with
  | xah => exact Format.nearest_representable (mul_nonneg (Format.nearest_nonneg hq) (by norm_num))
  | drops => exact Format.nearest_representable hq

/-- The product is no less than the number parsed. -/
theorem nearest_le_product (unit : AmountUnit) {q : ℚ} (hq : 0 ≤ q) : double.nearest q ≤ product unit q := by
  have hnum : 0 ≤ double.nearest q := Format.nearest_nonneg hq
  cases unit with
  | drops => exact le_rfl
  | xah =>
    calc double.nearest q = double.nearest (double.nearest q) := (Format.nearest_representable hq).nearest.symm
      _ ≤ double.nearest (double.nearest q * 1000000) := Format.nearest_mono hnum (by linarith)

theorem toDouble_eq_some {q x : ℚ} : toDouble q = some x ↔ double.nearest q < 2 ^ 1024 ∧ x = double.nearest q := by
  unfold toDouble
  split_ifs with h
  · exact iff_of_false nofun fun hx => absurd h (not_le.2 hx.1)
  · rw [Option.some.injEq, eq_comm, and_iff_right (not_le.1 h)]

/-- A number is read where its product is in the range of a `u64`, or just above it. -/
theorem toDrops_eq_some {unit : AmountUnit} {v : Decimal} {d : Nat} :
    toDrops unit v = some d ↔ product unit v.value ≤ 2 ^ 64 ∧ d = min ⌊product unit v.value⌋₊ (2 ^ 64 - 1) := by
  have hle := nearest_le_product unit v.value_nonneg
  have hfinite : (2 : ℚ) ^ 64 < 2 ^ 1024 := pow_lt_pow_right₀ (by norm_num) (by norm_num)
  have hscaled (hp : product unit v.value ≤ 2 ^ 64) :
      scaled unit (double.nearest v.value) = some (product unit v.value) := by
    cases unit with
    | xah => exact toDouble_eq_some.2 ⟨hp.trans_lt hfinite, rfl⟩
    | drops => rfl
  have hback {x : ℚ} (hx : scaled unit (double.nearest v.value) = some x) : x = product unit v.value := by
    cases unit with
    | xah => exact (toDouble_eq_some.1 hx).2
    | drops => exact (Option.some.inj hx).symm
  unfold toDrops
  rw [u64MaxAsF64_eq]
  constructor
  · intro h
    obtain ⟨num, hnum, h⟩ := Option.bind_eq_some_iff.1 h
    obtain ⟨x, hx, h⟩ := Option.bind_eq_some_iff.1 h
    obtain ⟨-, rfl⟩ := toDouble_eq_some.1 hnum
    obtain rfl := hback hx
    split_ifs at h with hlt
    exact ⟨not_lt.1 hlt, (Option.some.inj h).symm⟩
  · rintro ⟨hp, rfl⟩
    refine Option.bind_eq_some_iff.2 ⟨_, toDouble_eq_some.2 ⟨(hle.trans hp).trans_lt hfinite, rfl⟩, ?_⟩
    exact Option.bind_eq_some_iff.2 ⟨_, hscaled hp, if_neg (not_lt.2 hp)⟩

/-- Whole numbers are read as they are while their drops fit 53 bits. -/
theorem toDrops_whole {unit : AmountUnit} {n : ℕ} (h : n * unit.worth ≤ 2 ^ 53) :
    toDrops unit ⟨n, 0⟩ = some (n * unit.worth) := by
  have hvalue : Decimal.value ⟨n, 0⟩ = n := by rw [Decimal.value, pow_zero, div_one]
  have hn : double.Representable n :=
    double_natCast_of_le ((Nat.le_mul_of_pos_right n (by cases unit <;> decide)).trans h)
  have hproduct : product unit n = (n * unit.worth : ℕ) := by
    cases unit with
    | xah =>
      rw [product, hn.nearest]
      have hexact := (double_natCast_of_le h).nearest
      rw [AmountUnit.worth] at hexact ⊢
      push_cast at hexact ⊢
      exact hexact
    | drops => rw [product, hn.nearest, AmountUnit.worth, mul_one]
  rw [toDrops_eq_some, hvalue, hproduct, Nat.floor_natCast]
  refine ⟨?_, by omega⟩
  exact_mod_cast h.trans (by norm_num)

example : toDrops .xah ⟨82, 1⟩ = some 8199999 := by decide +kernel

/-- The number is in the range: at most 2^64, in double precision. -/
def InRange (v : Decimal) : AmountUnit → Prop
  | .xah => v.value < 18446744073709552734375 / 10 ^ 9
  | .drops => v.value ≤ 2 ^ 64 + 2 ^ 11

theorem nearest_le_top_iff {q : ℚ} (hq : 0 ≤ q) : double.nearest q ≤ 2 ^ 64 ↔ q ≤ 2 ^ 64 + 2 ^ 11 := by
  have htop := Format.nearest_le_iff (F := double) (m := 2 ^ 52) (e := 12) hq le_rfl (by decide) (by decide)
  norm_num at htop
  norm_num
  rw [htop, le_iff_lt_or_eq]

theorem product_le_iff {unit : AmountUnit} {v : Decimal} : product unit v.value ≤ 2 ^ 64 ↔ InRange v unit := by
  have hnonneg := v.value_nonneg
  have hnum : 0 ≤ double.nearest v.value := Format.nearest_nonneg hnonneg
  cases unit with
  | drops => exact nearest_le_top_iff hnonneg
  | xah =>
    show double.nearest (double.nearest v.value * 1000000) ≤ 2 ^ 64 ↔ v.value < 18446744073709552734375 / 10 ^ 9
    rw [nearest_le_top_iff (mul_nonneg hnum (by norm_num))]
    -- the bound is half-way between the last double whose product is in the range and the next one, which is even
    have hlast := Format.nearest_le_iff (F := double) (m := 18446744073709 * 256 + 141) (e := -8) hnonneg (by decide)
      (by decide) (by decide)
    have hnext := Format.le_nearest_iff (F := double) (m := 18446744073709 * 256 + 142) (e := -8) hnonneg (by decide)
      (by decide) (by decide)
    norm_num at hlast hnext ⊢
    constructor
    · intro hle
      by_contra hge
      have hnum := hnext.2 ((not_lt.1 hge).lt_or_eq.imp_right Eq.symm)
      linarith
    · intro hlt
      have hnum := hlast.2 hlt
      linarith

/-! ## Which amounts survive -/

/-- The amount `D` comes back from its number of XAH. Its 53 bits are `m`: where they are less than `2 ^ 33 * 10 ^ 6`, the double
nearest to the number is as near as it has to be, and else it is off by the remainder of `2 ^ 13 * m` by `5 ^ 6`, of which the
product takes back `2 ^ 12` at most. Below 2^52 what is too much is cut off again. -/
def Survives (D : ℕ) : Prop :=
  ∀ (m : ℕ) (e : ℤ), (D : ℚ) = m * 2 ^ e → 2 ^ 33 * 10 ^ 6 ≤ m → m < 2 ^ 53 →
    if e < 0 then 2 ^ 13 * m % 5 ^ 6 ≤ 2 ^ 12 ∨ 5 ^ 6 < 2 * (2 ^ 13 * m % 5 ^ 6)
    else 2 ^ 13 * m % 5 ^ 6 < 2 ^ 12 ∨ 5 ^ 6 - 2 ^ 12 < 2 ^ 13 * m % 5 ^ 6 ∨
      (2 ^ 13 * m % 5 ^ 6 = 2 ^ 12 ∨ 2 ^ 13 * m % 5 ^ 6 = 5 ^ 6 - 2 ^ 12) ∧ Even m

/-- The amount is a double, and the one that its number comes to. The greatest `u64` is neither, but cut off. -/
def Exact (unit : AmountUnit) (D : ℕ) : Prop :=
  D = 2 ^ 64 - 1 ∨ (D < 2 ^ 64 ∧ double.Representable D ∧ (unit = .xah → Survives D))

/-- The bits of the double nearest to `m * 2 ^ e / 10 ^ 6`, where `j` makes them 53. -/
def millionth (j m : ℕ) : ℤ := roundEven (((2 ^ j * m : ℕ) : ℚ) / ((5 ^ 6 : ℕ) : ℚ))

section
variable {m j : ℕ} {e : ℤ}

theorem zpow_split (j : ℕ) (e : ℤ) : (2 : ℚ) ^ e = 2 ^ j * 2 ^ (e - j) := by rw [Format.pow_mul_zpow, sub_add_cancel]

theorem nearest_mul_million (hlo : 2 ^ 46 * 10 ^ 6 ≤ 2 ^ j * m) (hhi : 2 ^ j * m < 2 ^ 47 * 10 ^ 6) (he : -1000 ≤ e - j) :
    double.nearest (m * 2 ^ e / 10 ^ 6) * 1000000 = millionth j m * 5 ^ 6 * 2 ^ (e - j) := by
  have hlast : (2 : ℚ) ^ (e - j) = 2 ^ 6 * 2 ^ (e - j - 6) := zpow_split 6 (e - j)
  have hexp : double.exponent (m * 2 ^ e / 10 ^ 6) = e - j - 6 := by
    have hlo' : (2 : ℚ) ^ 46 * 10 ^ 6 ≤ 2 ^ j * m := by exact_mod_cast hlo
    have hhi' : (2 : ℚ) ^ j * m < 2 ^ 47 * 10 ^ 6 := by exact_mod_cast hhi
    have hunit : (0 : ℚ) < 2 ^ (e - j - 6) := by positivity
    have hval : (m : ℚ) * 2 ^ e / 10 ^ 6 = 2 ^ j * m * (2 ^ 6 / 10 ^ 6) * 2 ^ (e - j - 6) := by
      rw [zpow_split j e, hlast]
      ring
    refine Format.exponent_eq ?_ ?_ ?_
    · rw [hval]
      refine mul_le_mul_of_nonneg_right ?_ hunit.le
      show (2 : ℚ) ^ 52 ≤ _
      linarith
    · rw [hval]
      refine mul_lt_mul_of_pos_right ?_ hunit
      show _ < (2 : ℚ) ^ 53
      linarith
    · show (-1074 : ℤ) ≤ _
      omega
  have hquot : (m : ℚ) * 2 ^ e / 10 ^ 6 / 2 ^ (e - j - 6) = ((2 ^ j * m : ℕ) : ℚ) / ((5 ^ 6 : ℕ) : ℚ) := by
    rw [zpow_split j e, hlast]
    push_cast
    field_simp
    norm_num
    ring
  rw [Format.nearest_eq hexp, hquot, hlast, millionth]
  ring

/-- Where the product is no less than the amount. -/
theorem le_product_iff (hlo : 2 ^ 46 * 10 ^ 6 ≤ 2 ^ j * m) (hhi : 2 ^ j * m < 2 ^ 47 * 10 ^ 6) (he : -1000 ≤ e - j)
    (hm : 2 ^ 52 < m) (hm' : m ≤ 2 ^ 53) :
    m * 2 ^ e ≤ product .xah (m * 2 ^ e / 10 ^ 6) ↔
      (m - 1 / 2) * 2 ^ j < (millionth j m * 5 ^ 6 : ℚ) ∨ (millionth j m * 5 ^ 6 : ℚ) = (m - 1 / 2) * 2 ^ j ∧ Even m := by
  have hunit : (0 : ℚ) < 2 ^ (e - j) := by positivity
  have hnum : 0 ≤ double.nearest (m * 2 ^ e / 10 ^ 6) := Format.nearest_nonneg (by positivity)
  unfold product
  rw [Format.le_nearest_iff (mul_nonneg hnum (by norm_num)) hm hm' (by show (-1074 : ℤ) ≤ e; omega),
    nearest_mul_million hlo hhi he, zpow_split j e, ← mul_assoc, mul_lt_mul_iff_of_pos_right hunit,
    mul_left_inj' hunit.ne']

/-- Where the product is no more than the amount. -/
theorem product_le_iff_millionth (hlo : 2 ^ 46 * 10 ^ 6 ≤ 2 ^ j * m) (hhi : 2 ^ j * m < 2 ^ 47 * 10 ^ 6) (he : -1000 ≤ e - j)
    (hm : 2 ^ 52 ≤ m) (hm' : m < 2 ^ 53) :
    product .xah (m * 2 ^ e / 10 ^ 6) ≤ m * 2 ^ e ↔
      (millionth j m * 5 ^ 6 : ℚ) < (m + 1 / 2) * 2 ^ j ∨ (millionth j m * 5 ^ 6 : ℚ) = (m + 1 / 2) * 2 ^ j ∧ Even m := by
  have hunit : (0 : ℚ) < 2 ^ (e - j) := by positivity
  have hnum : 0 ≤ double.nearest (m * 2 ^ e / 10 ^ 6) := Format.nearest_nonneg (by positivity)
  unfold product
  rw [Format.nearest_le_iff (mul_nonneg hnum (by norm_num)) hm hm' (by show (-1074 : ℤ) ≤ e; omega),
    nearest_mul_million hlo hhi he, zpow_split j e, ← mul_assoc, mul_lt_mul_iff_of_pos_right hunit,
    mul_left_inj' hunit.ne']

/-- The bits of the double, off by the remainder. -/
theorem millionth_cases (j m : ℕ) :
    (2 * (2 ^ j * m % 5 ^ 6) < 5 ^ 6 ∧ (millionth j m * 5 ^ 6 : ℚ) = 2 ^ j * m - (2 ^ j * m % 5 ^ 6 : ℕ)) ∨
      (5 ^ 6 < 2 * (2 ^ j * m % 5 ^ 6) ∧ (millionth j m * 5 ^ 6 : ℚ) = 2 ^ j * m + (5 ^ 6 - (2 ^ j * m % 5 ^ 6 : ℕ))) := by
  have hdiv : (2 ^ j * m : ℚ) = 5 ^ 6 * (2 ^ j * m / 5 ^ 6 : ℕ) + (2 ^ j * m % 5 ^ 6 : ℕ) := by
    exact_mod_cast (Nat.div_add_mod (2 ^ j * m) (5 ^ 6)).symm
  rw [hdiv, millionth]
  rcases roundEven_div (N := 2 ^ j * m) (b := 5 ^ 6) (by decide) with ⟨hr, hq⟩ | ⟨hr, hq⟩
  · refine .inl ⟨hr, ?_⟩
    rw [hq, Int.cast_natCast]
    ring
  · refine .inr ⟨hr, ?_⟩
    rw [hq, Int.cast_add, Int.cast_natCast, Int.cast_one]
    ring

/-- The product is short of the amount where the remainder was cut off and is more than half a bit of the amount. -/
theorem le_product_iff_remainder (hlo : 2 ^ 33 * 10 ^ 6 ≤ m) (hhi : m < 2 ^ 53) (he : -900 ≤ e) :
    m * 2 ^ e ≤ product .xah (m * 2 ^ e / 10 ^ 6) ↔
      (2 ^ 13 * m % 5 ^ 6 < 2 ^ 12 ∨ 2 ^ 13 * m % 5 ^ 6 = 2 ^ 12 ∧ Even m) ∨ 5 ^ 6 < 2 * (2 ^ 13 * m % 5 ^ 6) := by
  rw [le_product_iff (j := 13) (by omega) (by omega) (by omega) (by omega) hhi.le]
  have hcases := millionth_cases 13 m
  have hr : 2 ^ 13 * m % 5 ^ 6 < 5 ^ 6 := Nat.mod_lt _ (by decide)
  generalize 2 ^ 13 * m % 5 ^ 6 = r at *
  rcases hcases with ⟨hcut, hval⟩ | ⟨hup, hval⟩
  · have hlt : (m - 1 / 2 : ℚ) * 2 ^ 13 < 2 ^ 13 * m - r ↔ r < 2 ^ 12 := by
      rw [← Nat.cast_lt (α := ℚ)]
      push_cast
      constructor <;> intro h <;> linarith
    have heq : (2 ^ 13 * m - r : ℚ) = (m - 1 / 2) * 2 ^ 13 ↔ r = 2 ^ 12 := by
      rw [← Nat.cast_inj (R := ℚ)]
      push_cast
      constructor <;> intro h <;> linarith
    rw [hval, hlt, heq, or_iff_left (b := 5 ^ 6 < 2 * r) (by omega)]
  · have hr : (r : ℚ) < 5 ^ 6 := by exact_mod_cast hr
    rw [hval]
    exact iff_of_true (.inl (by linarith)) (.inr hup)

/-- The product is above the amount where what is missing in the remainder was added and is more than half a bit of the
amount. -/
theorem product_le_iff_remainder (hlo : 2 ^ 33 * 10 ^ 6 ≤ m) (hhi : m < 2 ^ 53) (he : -900 ≤ e) :
    product .xah (m * 2 ^ e / 10 ^ 6) ≤ m * 2 ^ e ↔
      (5 ^ 6 - 2 ^ 12 < 2 ^ 13 * m % 5 ^ 6 ∨ 2 ^ 13 * m % 5 ^ 6 = 5 ^ 6 - 2 ^ 12 ∧ Even m) ∨
        2 * (2 ^ 13 * m % 5 ^ 6) < 5 ^ 6 := by
  rw [product_le_iff_millionth (j := 13) (by omega) (by omega) (by omega) (by omega) hhi]
  have hcases := millionth_cases 13 m
  generalize 2 ^ 13 * m % 5 ^ 6 = r at *
  rcases hcases with ⟨hcut, hval⟩ | ⟨hup, hval⟩
  · have hr : (0 : ℚ) ≤ r := Nat.cast_nonneg r
    rw [hval]
    exact iff_of_true (.inl (by linarith)) (.inr hcut)
  · have hbound : ((5 ^ 6 - 2 ^ 12 : ℕ) : ℚ) = 5 ^ 6 - 2 ^ 12 := by norm_num
    have hlt : (2 ^ 13 * m + (5 ^ 6 - r) : ℚ) < (m + 1 / 2) * 2 ^ 13 ↔ 5 ^ 6 - 2 ^ 12 < r := by
      rw [← Nat.cast_lt (α := ℚ), hbound]
      constructor <;> intro h <;> linarith
    have heq : (2 ^ 13 * m + (5 ^ 6 - r) : ℚ) = (m + 1 / 2) * 2 ^ 13 ↔ r = 5 ^ 6 - 2 ^ 12 := by
      rw [← Nat.cast_inj (R := ℚ), hbound]
      constructor <;> intro h <;> linarith
    rw [hval, hlt, heq, or_iff_left (b := 2 * r < 5 ^ 6) (by omega)]

/-- It is above it by one bit at most. -/
theorem product_le_succ (hlo : 2 ^ 33 * 10 ^ 6 ≤ m) (hhi : m < 2 ^ 53) (he : -900 ≤ e) :
    product .xah (m * 2 ^ e / 10 ^ 6) ≤ (m + 1) * 2 ^ e := by
  have hunit : (0 : ℚ) < 2 ^ (e - 13) := by positivity
  have hnum : 0 ≤ double.nearest (m * 2 ^ e / 10 ^ 6) := Format.nearest_nonneg (by positivity)
  have hsucc : double.Representable ((m + 1) * 2 ^ e) :=
    ⟨m + 1, e, by push_cast; rfl, hhi, by show (-1074 : ℤ) ≤ e; omega⟩
  have hle : (millionth 13 m * 5 ^ 6 : ℚ) ≤ (m + 1) * 2 ^ 13 := by
    rcases millionth_cases 13 m with ⟨-, hval⟩ | ⟨hup, hval⟩
    · have hr : (0 : ℚ) ≤ (2 ^ 13 * m % 5 ^ 6 : ℕ) := Nat.cast_nonneg _
      rw [hval]
      linarith
    · have hup : (5 : ℚ) ^ 6 < 2 * (2 ^ 13 * m % 5 ^ 6 : ℕ) := by exact_mod_cast hup
      rw [hval]
      linarith
  refine (Format.nearest_mono (mul_nonneg hnum (by norm_num)) ?_).trans_eq hsucc.nearest
  rw [nearest_mul_million (j := 13) (by omega) (by omega) (by omega), zpow_split 13 e, ← mul_assoc]
  exact mul_le_mul_of_nonneg_right hle hunit.le

/-- An amount whose bits are less than those of a million comes back. -/
theorem product_eq (hlo : 2 ^ 52 ≤ m) (hhi : m < 2 ^ 33 * 10 ^ 6) (he : -900 ≤ e) :
    product .xah (m * 2 ^ e / 10 ^ 6) = m * 2 ^ e := by
  have hnear : |(millionth 14 m * 5 ^ 6 : ℚ) - 2 ^ 14 * m| < 2 ^ 13 := by
    rw [abs_sub_lt_iff]
    rcases millionth_cases 14 m with ⟨hr, hval⟩ | ⟨hr, hval⟩
    · have hr : (2 : ℚ) * (2 ^ 14 * m % 5 ^ 6 : ℕ) < 5 ^ 6 := by exact_mod_cast hr
      have hr' : (0 : ℚ) ≤ (2 ^ 14 * m % 5 ^ 6 : ℕ) := Nat.cast_nonneg _
      rw [hval]
      constructor <;> linarith
    · have hr : (5 : ℚ) ^ 6 < 2 * (2 ^ 14 * m % 5 ^ 6 : ℕ) := by exact_mod_cast hr
      have hr' : ((2 ^ 14 * m % 5 ^ 6 : ℕ) : ℚ) < 5 ^ 6 := by exact_mod_cast Nat.mod_lt (2 ^ 14 * m) (by decide)
      rw [hval]
      constructor <;> linarith
  obtain ⟨hnear, hnear'⟩ := abs_sub_lt_iff.1 hnear
  refine le_antisymm ?_ ?_
  · rw [product_le_iff_millionth (j := 14) (by omega) (by omega) (by omega) hlo (by omega)]
    exact .inl (by linarith)
  · rcases hlo.lt_or_eq with hlo | rfl
    · rw [le_product_iff (j := 14) (by omega) (by omega) (by omega) hlo (by omega)]
      exact .inl (by linarith)
    · -- a power of two: the bit below it is half as much
      have hdouble : ((2 ^ 52 : ℕ) : ℚ) * 2 ^ e = (2 ^ 53 : ℕ) * 2 ^ (e - 1) := by
        rw [zpow_split 1 e]
        push_cast
        ring
      rw [hdouble, le_product_iff (j := 13) (by decide) (by decide) (by omega) (by decide) le_rfl]
      refine .inl ?_
      have hbits : millionth 13 (2 ^ 53) = 4722366482869645 := by decide +kernel
      rw [hbits]
      norm_num

end

/-- An amount of at least one has no bits far behind the point. -/
theorem exponent_ge {D m : ℕ} {e : ℤ} (hD : (D : ℚ) = m * 2 ^ e) (hpos : 0 < D) (hm : m < 2 ^ 53) : -900 ≤ e := by
  by_contra hlt
  have hone : (1 : ℚ) ≤ D := by exact_mod_cast hpos
  have hle : (2 : ℚ) ^ e ≤ 2 ^ (-53 : ℤ) := zpow_le_zpow_right₀ (by norm_num) (by omega)
  have hm : (m : ℚ) < 2 ^ 53 := by exact_mod_cast hm
  have hprod : (m : ℚ) * 2 ^ e < 2 ^ 53 * 2 ^ (-53 : ℤ) := mul_lt_mul hm hle (by positivity) (by positivity)
  rw [← hD] at hprod
  norm_num at hprod
  linarith

/-- What the conditions on the bits of an amount say of its product. -/
theorem Survives.floor {D : ℕ} (h : Survives D) (hrep : double.Representable D) :
    ⌊product .xah (D / 10 ^ 6)⌋₊ = D := by
  rcases D.eq_zero_or_pos with rfl | hpos
  · decide +kernel
  have hone : (1 : ℚ) ≤ D := by exact_mod_cast hpos
  have hsmall : (2 : ℚ) ^ double.fractionBits * 2 ^ double.minExp ≤ 1 := by
    rw [Format.pow_mul_zpow]
    exact zpow_le_one_of_nonpos₀ (by norm_num) (by decide)
  obtain ⟨m, e, hD, hlo, hhi, -⟩ := hrep.normal (hsmall.trans hone)
  have hlo : 2 ^ 52 ≤ m := hlo
  have hhi : m < 2 ^ 53 := hhi
  have he := exponent_ge hD hpos hhi
  rcases lt_or_ge m (2 ^ 33 * 10 ^ 6) with hfew | hmany
  · rw [hD, product_eq hlo hfew he, ← hD, Nat.floor_natCast]
  have hsurvives := h m e hD hmany hhi
  have hlow := le_product_iff_remainder hmany hhi he
  have hhigh := product_le_iff_remainder hmany hhi he
  have hsucc := product_le_succ hmany hhi he
  rw [← hD] at hlow hhigh
  split_ifs at hsurvives with hneg
  · have heven : Even m := by
      obtain ⟨k, hk⟩ := Int.eq_ofNat_of_zero_le (show 0 ≤ -e - 1 by omega)
      have hbits : m = D * 2 ^ (k + 1) := by
        have hcast : (m : ℚ) = D * 2 ^ (k + 1) := by
          rw [hD, mul_assoc, mul_comm ((2 : ℚ) ^ e), Format.pow_mul_zpow, show e + (k + 1 : ℕ) = 0 by push_cast; omega,
            zpow_zero, mul_one]
        exact_mod_cast hcast
      rw [hbits, pow_succ, ← mul_assoc]
      exact even_two.mul_left _
    have hle : (D : ℚ) ≤ product .xah (D / 10 ^ 6) := by
      refine hlow.2 ?_
      rcases hsurvives with h | h
      · exact .inl (h.lt_or_eq.imp_right fun h => ⟨h, heven⟩)
      · exact .inr h
    -- what is too much is less than one, and cut off
    have hbit : (2 : ℚ) ^ e < 1 := zpow_lt_one_of_neg₀ (by norm_num) hneg
    have hlt : product .xah (D / 10 ^ 6) < D + 1 := by
      rw [hD]
      linarith
    exact (Nat.floor_eq_iff (by linarith)).2 ⟨hle, hlt⟩
  · have hsame : product .xah (D / 10 ^ 6) = D := by
      refine le_antisymm (hhigh.2 ?_) (hlow.2 ?_)
      · rcases hsurvives with h | h | ⟨h | h, heven⟩
        · exact .inr (by omega)
        · exact .inl (.inl h)
        · exact .inr (by omega)
        · exact .inl (.inr ⟨h, heven⟩)
      · rcases hsurvives with h | h | ⟨h | h, heven⟩
        · exact .inl (.inl h)
        · exact .inr (by omega)
        · exact .inl (.inr ⟨h, heven⟩)
        · exact .inr (by omega)
    rw [hsame, Nat.floor_natCast]

/-- What the product of an amount says of its bits. -/
theorem Survives.of_floor {D : ℕ} (h : ⌊product .xah (D / 10 ^ 6)⌋₊ = D) : Survives D := by
  intro m e hD hmany hhi
  have hpos : 0 < D := by
    have hm : (0 : ℚ) < m := by exact_mod_cast (show 0 < m by omega)
    have hcast : (0 : ℚ) < D := by
      rw [hD]
      positivity
    exact_mod_cast hcast
  have he := exponent_ge hD hpos hhi
  have hnonneg : (0 : ℚ) ≤ D / 10 ^ 6 := by positivity
  have hrep : double.Representable (product .xah (D / 10 ^ 6)) := product_representable hnonneg
  have hle : (D : ℚ) ≤ product .xah (D / 10 ^ 6) := by
    have hfloor := Nat.floor_le (show 0 ≤ product .xah (D / 10 ^ 6) from product_nonneg hnonneg)
    rwa [h] at hfloor
  have hlow := le_product_iff_remainder hmany hhi he
  rw [← hD] at hlow
  rcases hlow.1 hle with (hr | ⟨hr, heven⟩) | hr
  · split_ifs
    · exact .inl hr.le
    · exact .inl hr
  · split_ifs
    · exact .inl hr.le
    · exact .inr (.inr ⟨.inl hr, heven⟩)
  · split_ifs with hneg
    · exact .inr hr
    · have hhigh := product_le_iff_remainder hmany hhi he
      rw [← hD] at hhigh
      -- from 2^52 on the product has no fraction
      have hlarge : (2 : ℚ) ^ 52 ≤ D := by
        have hunit : (1 : ℚ) ≤ 2 ^ e := one_le_zpow₀ (by norm_num) (not_lt.1 hneg)
        have hm : (2 : ℚ) ^ 52 ≤ m := by exact_mod_cast (show 2 ^ 52 ≤ m by omega)
        rw [hD]
        exact hm.trans (le_mul_of_one_le_right (Nat.cast_nonneg m) hunit)
      have hge : product .xah (D / 10 ^ 6) ≤ D := by rw [← floor_double hrep (hlarge.trans hle), h]
      rcases hhigh.1 hge with (hr' | ⟨hr', heven⟩) | hr'
      · exact .inr (.inl hr')
      · exact .inr (.inr ⟨.inr hr', heven⟩)
      · omega

theorem product_top {unit : AmountUnit} : product unit ((2 ^ 64 - 1 : ℕ) / unit.worth) = 2 ^ 64 := by
  cases unit <;> decide +kernel

/-- Cut to a `u64`, the product is the amount exactly where the amount is exact. -/
theorem exact_iff {unit : AmountUnit} {D : ℕ} :
    min ⌊product unit (D / unit.worth)⌋₊ (2 ^ 64 - 1) = D ↔ Exact unit D := by
  have hnonneg : (0 : ℚ) ≤ D / unit.worth := by positivity
  constructor
  · intro h
    by_cases htop : D = 2 ^ 64 - 1
    · exact .inl htop
    have hfloor : ⌊product unit (D / unit.worth)⌋₊ = D := by omega
    refine .inr ⟨by omega, ?_, ?_⟩
    · rw [← hfloor]
      exact double_floor (product_representable hnonneg)
    · rintro rfl
      refine .of_floor ?_
      rwa [AmountUnit.worth, Nat.cast_ofNat, show (1000000 : ℚ) = 10 ^ 6 by norm_num] at hfloor
  · rintro (rfl | ⟨hlt, hrep, hsurvives⟩)
    · rw [product_top]
      norm_num
    · have hfloor : ⌊product unit (D / unit.worth)⌋₊ = D := by
        cases unit with
        | drops => rw [AmountUnit.worth, Nat.cast_one, div_one, product, hrep.nearest, Nat.floor_natCast]
        | xah =>
          have hfloor := (hsurvives rfl).floor hrep
          rwa [show (10 : ℚ) ^ 6 = ((1000000 : ℕ) : ℚ) by norm_num] at hfloor
      omega

/-- The author reads a limit off a whole number exactly when, with the number selected in the range, nothing that joins digits
stands before it, and it is a whole number of drops that is exact in double precision. -/
theorem extract_drops_whole_iff (toLowercase : List Char → List Char) (joins : Char → Bool) (intent : String) :
    (∀ d, extractDrops toLowercase intent = some d → WholeAmount joins (toLowercase intent.toList) d) ↔
      ∀ f unit, Selected (toLowercase intent.toList) f unit → InRange f.value unit →
        (∀ c, f.before.getLast? = some c → joins c = false) ∧
          ∃ D, f.value.mantissa * unit.worth = D * 10 ^ f.value.decimals ∧ Exact unit D := by
  have hvalue {v : Decimal} {unit : AmountUnit} {D : ℕ} (h : v.mantissa * unit.worth = D * 10 ^ v.decimals) :
      v.value = D / unit.worth := by
    have hworth : (unit.worth : ℚ) ≠ 0 := by cases unit <;> decide
    rw [Decimal.value, div_eq_div_iff (by positivity) hworth]
    exact_mod_cast h
  constructor
  · intro h f unit hsel hin
    obtain ⟨d, hd⟩ : ∃ d, toDrops unit f.value = some d := ⟨_, toDrops_eq_some.2 ⟨product_le_iff.2 hin, rfl⟩⟩
    obtain ⟨g, unit', hg, hwhole, hexact⟩ := h d (extractDrops_iff.2 ⟨f, unit, hsel, hd⟩)
    obtain ⟨rfl, rfl⟩ := hsel.unique hg
    obtain ⟨-, hcut⟩ := toDrops_eq_some.1 hd
    rw [hvalue hexact] at hcut
    exact ⟨fun c hc => (hwhole c hc).2.2, d, hexact, exact_iff.1 hcut.symm⟩
  · intro h d hd
    obtain ⟨f, unit, hsel, hdrops⟩ := extractDrops_iff.1 hd
    obtain ⟨hle, hcut⟩ := toDrops_eq_some.1 hdrops
    obtain ⟨hjoins, D, hwhole, hexact⟩ := h f unit hsel (product_le_iff.1 hle)
    rw [hvalue hwhole, exact_iff.2 hexact] at hcut
    subst hcut
    refine ⟨f, unit, hsel, fun c hc => ?_, hwhole⟩
    have hclass : isNumberChar c = false := by
      cases hsel with
      | xah hf => exact (hf.before c hc).2
      | drops _ hf => exact (hf.before c hc).2
    rw [isNumberChar, Bool.or_eq_false_iff, beq_eq_false_iff_ne] at hclass
    exact ⟨hclass.1, hclass.2, hjoins c hc⟩

/-- A separator of thousands and a minus sign. -/
def commaOrMinus (c : Char) : Bool := c == ',' || c == '-'

/-- A thousand comes out as nothing, minus five as five, a drop and a half as one, and 8.2 XAH as a drop less. -/
theorem extract_drops_fragments :
    (extractDrops (List.map Char.toLower) "at most 1,000 XAH" = some 0 ∧
      ¬∀ d, extractDrops (List.map Char.toLower) "at most 1,000 XAH" = some d →
        WholeAmount commaOrMinus ("at most 1,000 XAH".toList.map Char.toLower) d) ∧
      extractDrops (List.map Char.toLower) "send -5 XAH" = some 5000000 ∧
        extractDrops (List.map Char.toLower) "cap at 1.5 drops" = some 1 ∧
          extractDrops (List.map Char.toLower) "8.2 XAH" = some 8199999 := by
  have hruns : extractDrops (List.map Char.toLower) "at most 1,000 XAH" = some 0 ∧
      extractDrops (List.map Char.toLower) "send -5 XAH" = some 5000000 ∧
        extractDrops (List.map Char.toLower) "cap at 1.5 drops" = some 1 ∧
          extractDrops (List.map Char.toLower) "8.2 XAH" = some 8199999 := by decide +kernel
  obtain ⟨hcomma, hothers⟩ := hruns
  refine ⟨⟨hcomma, fun h => ?_⟩, hothers⟩
  obtain ⟨f, unit, hsel, hwhole, -⟩ := h 0 hcomma
  have hfound : numberBefore "xah".toList ("at most 1,000 XAH".toList.map Char.toLower) =
      some ⟨"at most 1,".toList, "000".toList, ⟨0, 0⟩⟩ := by decide +kernel
  obtain ⟨rfl, -⟩ := hsel.unique (.xah (numberBefore_iff.1 hfound))
  have hjoins := (hwhole ',' (by decide +kernel)).2.2
  cases hjoins

end Xahc.Cli

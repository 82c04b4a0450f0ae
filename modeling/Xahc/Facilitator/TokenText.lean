/-
Token values as text: the grammar that is accepted, the decimal a literal denotes, and that parsing gives that
decimal in its one canonical form exactly where the ledger can hold it.
-/
import Xahc.Data.Decimal
import Xahc.Data.Number
import Xahc.Facilitator.Amount
import Mathlib.Data.Sign.Basic
import Mathlib.Data.Nat.Factorization.Basic

namespace Xahc.Facilitator

open Xahc.Data

/-! ## Literals -/

/-- One digit or more. -/
structure DigitRun where
  chars : List Char
  ne_nil : chars ≠ []
  digits : ∀ c ∈ chars, c.isDigit = true

/-- What follows the mantissa: `e` or `E`, a sign or none, and digits. -/
structure ExponentLiteral where
  marker : Char
  sign : Option Char
  digits : DigitRun
  marker_eq : marker = 'e' ∨ marker = 'E'
  sign_eq : ∀ c ∈ sign, c = '+' ∨ c = '-'

/-- Digits, possibly a point and digits, possibly an exponent. -/
structure TokenLiteral where
  int : DigitRun
  frac : Option DigitRun
  exp : Option ExponentLiteral

namespace ExponentLiteral

/-- The characters of an exponent. -/
def text (e : ExponentLiteral) : List Char := e.marker :: (e.sign.toList ++ e.digits.chars)

/-- The exponent's value. -/
def value (e : ExponentLiteral) : Int :=
  if e.sign = some '-' then -digitsNat e.digits.chars else digitsNat e.digits.chars

end ExponentLiteral

namespace TokenLiteral

/-- The digits behind the point. -/
def fracDigits (l : TokenLiteral) : List Char := (l.frac.map DigitRun.chars).getD []

/-- The point and the digits behind it. -/
def fracText (l : TokenLiteral) : List Char := (l.frac.map fun f => '.' :: f.chars).getD []

/-- The exponent's characters. -/
def expText (l : TokenLiteral) : List Char := (l.exp.map ExponentLiteral.text).getD []

/-- The characters of a literal. -/
def text (l : TokenLiteral) : List Char := l.int.chars ++ (l.fracText ++ l.expText)

/-- The power of ten. -/
def exponent (l : TokenLiteral) : Int := (l.exp.map ExponentLiteral.value).getD 0

/-- The decimal that the literal denotes. -/
def value (l : TokenLiteral) : ℚ :=
  (digitsNat l.int.chars + digitsNat l.fracDigits / 10 ^ l.fracDigits.length) * 10 ^ l.exponent

end TokenLiteral

/-! ## The groups of a literal -/

theorem not_isDigit_of_head {s : List Char} (h : ∀ c ∈ s.head?, c.isDigit = false) :
    s.takeWhile Char.isDigit = [] ∧ s.dropWhile Char.isDigit = s := by
  cases s with
  | nil => exact ⟨rfl, rfl⟩
  | cons c s =>
    have hc := h c rfl
    exact ⟨List.takeWhile_cons_of_neg (by simp [hc]), List.dropWhile_cons_of_neg (by simp [hc])⟩

/-- A run of digits ends where no digit follows. -/
theorem DigitRun.span (d : DigitRun) {s : List Char} (h : ∀ c ∈ s.head?, c.isDigit = false) :
    (d.chars ++ s).takeWhile Char.isDigit = d.chars ∧ (d.chars ++ s).dropWhile Char.isDigit = s := by
  obtain ⟨htake, hdrop⟩ := not_isDigit_of_head h
  exact ⟨by rw [List.takeWhile_append_of_pos d.digits, htake, List.append_nil],
    by rw [List.dropWhile_append_of_pos d.digits, hdrop]⟩

theorem DigitRun.accepted (d : DigitRun) : (d.chars.isEmpty || !d.chars.all Char.isDigit) = false := by
  rw [Bool.or_eq_false_iff, Bool.not_eq_false', List.isEmpty_eq_false_iff, List.all_eq_true]
  exact ⟨d.ne_nil, d.digits⟩

theorem signedDigits_text (e : ExponentLiteral) : signedDigits (e.sign.toList ++ e.digits.chars) = some e.value := by
  obtain ⟨marker, sign, d, -, hsign⟩ := e
  unfold ExponentLiteral.value
  dsimp only at hsign ⊢
  have haccepted := d.accepted
  rcases sign with - | c
  · -- without a sign the text starts with a digit
    have hne (c : Char) (hc : c.isDigit = false) (s : List Char) : d.chars ≠ c :: s := fun h =>
      Bool.false_ne_true (hc.symm.trans (d.digits c (h ▸ List.mem_cons_self)))
    rw [Option.toList_none, List.nil_append, if_neg (by simp)]
    unfold signedDigits
    split
    rename_i neg ds heq
    split at heq
    · rename_i s hs
      exact absurd hs (hne '-' (by decide) s)
    · rename_i s hs
      exact absurd hs (hne '+' (by decide) s)
    · cases heq
      rw [haccepted]
      rfl
  · rw [Option.toList_some, List.singleton_append]
    rcases hsign c rfl with rfl | rfl
    · simp only [signedDigits, haccepted]
      simp
    · simp only [signedDigits, haccepted]
      simp

theorem tokenGroups_text (l : TokenLiteral) : tokenGroups l.text = some (l.int.chars, l.fracDigits, l.exponent) := by
  obtain ⟨int, frac, exp⟩ := l
  have hint := int.ne_nil
  -- neither an exponent nor a point starts with a digit, so each run of digits ends where it was written
  have hexp : ∀ c ∈ (TokenLiteral.expText ⟨int, frac, exp⟩).head?, c.isDigit = false := by
    unfold TokenLiteral.expText
    rcases exp with - | e
    · simp
    · intro c hc
      obtain rfl : e.marker = c := Option.some.inj hc
      rcases e.marker_eq with h | h <;> rw [h] <;> decide
  have hdot : ∀ c ∈ (TokenLiteral.fracText ⟨int, frac, exp⟩ ++ TokenLiteral.expText ⟨int, frac, exp⟩).head?,
      c.isDigit = false := by
    rcases frac with - | f
    · exact hexp
    · intro c hc
      obtain rfl : '.' = c := Option.some.inj hc
      decide
  unfold tokenGroups TokenLiteral.text
  rw [(int.span hdot).1, (int.span hdot).2]
  rcases frac with - | f <;> rcases exp with - | e
  · simp [TokenLiteral.fracText, TokenLiteral.expText, TokenLiteral.fracDigits, TokenLiteral.exponent, hint]
  · have hsigned := signedDigits_text e
    rcases e.marker_eq with h | h <;>
      simp [TokenLiteral.fracText, TokenLiteral.expText, TokenLiteral.fracDigits, TokenLiteral.exponent, hint,
        ExponentLiteral.text, h, hsigned]
  · have hfrac := f.ne_nil
    have hspan := f.span hexp
    simp only [TokenLiteral.fracText, TokenLiteral.expText, TokenLiteral.fracDigits, TokenLiteral.exponent,
      Option.map_none, Option.map_some, Option.getD_none, Option.getD_some, List.cons_append] at hspan ⊢
    rw [List.append_nil] at hspan
    simp [hspan.1, hspan.2, hint, hfrac]
  · have hfrac := f.ne_nil
    have hspan := f.span hexp
    have hsigned := signedDigits_text e
    simp only [TokenLiteral.fracText, TokenLiteral.expText, TokenLiteral.fracDigits, TokenLiteral.exponent,
      Option.map_some, Option.getD_some, List.cons_append] at hspan ⊢
    simp only [hspan.1, hspan.2]
    simp [hint, hfrac, ExponentLiteral.text, e.marker_eq, hsigned]

theorem TokenLiteral.isDigit_of_mem (l : TokenLiteral) : ∀ c ∈ l.int.chars ++ l.fracDigits, c.isDigit = true := by
  intro c hc
  rcases List.mem_append.1 hc with hc | hc
  · exact l.int.digits c hc
  · unfold fracDigits at hc
    rcases hf : l.frac with - | f
    · rw [hf] at hc
      cases hc
    · rw [hf] at hc
      exact f.digits c hc

theorem signedDigits_sound {s : List Char} {n : Int} (h : signedDigits s = some n) {marker : Char}
    (hmarker : marker = 'e' ∨ marker = 'E') : ∃ e : ExponentLiteral, e.text = marker :: s ∧ e.value = n := by
  have hrun {ds : List Char} (hds : ¬((ds.isEmpty || !ds.all Char.isDigit) = true)) :
      ds ≠ [] ∧ ∀ c ∈ ds, c.isDigit = true := by
    rw [Bool.not_eq_true, Bool.or_eq_false_iff, Bool.not_eq_false', List.isEmpty_eq_false_iff, List.all_eq_true] at hds
    exact hds
  unfold signedDigits at h
  split at h
  rename_i neg ds heq
  split_ifs at h with hbad hneg
  all_goals
    obtain ⟨hne, hdigits⟩ := hrun hbad
    injection h with h
  · -- negative: only after a minus sign
    split at heq <;> cases heq
    · exact ⟨⟨marker, some '-', ⟨_, hne, hdigits⟩, hmarker, by simp⟩, rfl, by simpa [ExponentLiteral.value] using h⟩
    · cases hneg
    · cases hneg
  · split at heq <;> cases heq
    · exact absurd rfl hneg
    · exact ⟨⟨marker, some '+', ⟨_, hne, hdigits⟩, hmarker, by simp⟩, rfl, by simpa [ExponentLiteral.value] using h⟩
    · exact ⟨⟨marker, none, ⟨_, hne, hdigits⟩, hmarker, by simp⟩, rfl, by simpa [ExponentLiteral.value] using h⟩

theorem tokenGroups_sound {s i f : List Char} {e : Int} (h : tokenGroups s = some (i, f, e)) :
    ∃ l : TokenLiteral, l.text = s ∧ l.int.chars = i ∧ l.fracDigits = f ∧ l.exponent = e := by
  have hrun (s : List Char) : ∀ c ∈ s.takeWhile Char.isDigit, c.isDigit = true := fun _ => List.mem_takeWhile_imp
  unfold tokenGroups at h
  split at h
  rename_i dotted frac rest heq
  dsimp only at h
  split_ifs at h with hbad
  rw [not_or, List.isEmpty_iff, not_and, List.isEmpty_iff] at hbad
  obtain ⟨hint, hfrac⟩ := hbad
  -- the point and the fraction, or none
  obtain ⟨fr, hfr, hrest⟩ : ∃ fr : Option DigitRun, (fr.map DigitRun.chars).getD [] = frac ∧
      (fr.map fun f => '.' :: f.chars).getD [] ++ rest = s.dropWhile Char.isDigit := by
    split at heq
    · rename_i tail hdrop
      cases heq
      refine ⟨some ⟨_, hfrac rfl, hrun tail⟩, rfl, ?_⟩
      rw [Option.map_some, Option.getD_some, List.cons_append, List.takeWhile_append_dropWhile, hdrop]
    · cases heq
      exact ⟨none, rfl, rfl⟩
  -- the exponent, or none
  obtain ⟨ex, hex, hexp, rfl, rfl⟩ : ∃ ex : Option ExponentLiteral, (ex.map ExponentLiteral.text).getD [] = rest ∧
      (ex.map ExponentLiteral.value).getD 0 = e ∧ s.takeWhile Char.isDigit = i ∧ frac = f := by
    split at h
    · cases h
      exact ⟨none, rfl, rfl, rfl, rfl⟩
    · split_ifs at h with hmarker
      rw [Option.map_eq_some_iff] at h
      obtain ⟨n, hn, h⟩ := h
      cases h
      obtain ⟨ex, htext, hvalue⟩ := signedDigits_sound hn hmarker
      exact ⟨some ex, htext, hvalue, rfl, rfl⟩
  refine ⟨⟨⟨_, hint, hrun s⟩, fr, ex⟩, ?_, rfl, hfr, hexp⟩
  unfold TokenLiteral.text TokenLiteral.fracText TokenLiteral.expText
  dsimp only
  rw [hex, hrest, List.takeWhile_append_dropWhile]

/-! ## The value parsed -/

theorem TokenLiteral.value_eq (l : TokenLiteral) :
    l.value = digitsNat (l.int.chars ++ l.fracDigits) * 10 ^ (l.exponent - l.fracDigits.length) := by
  rw [value, digitsNat_append, zpow_sub₀ (by norm_num), zpow_natCast]
  push_cast
  field_simp

/-- The form in which a value is parsed, and that the ledger can hold: no zero at the end of the mantissa, and
sixteen digits of it with an exponent in the range. -/
structure Canonical (v : TokenValue) : Prop where
  mant : v.mant % 10 ≠ 0
  fits : FitsDecimal TOKEN_MAX_MANT_DIGITS TOKEN_EXP_MIN TOKEN_EXP_MAX v.toRat

/-- A value has one canonical form. -/
theorem Canonical.eq {v w : TokenValue} (hv : Canonical v) (hw : Canonical w) (h : v.toRat = w.toRat) : v = w := by
  obtain ⟨hmant, hexp⟩ := mantissa_unique hv.mant hw.mant h
  cases v
  cases w
  cases hmant
  cases hexp
  rfl

/-- What the ledger can hold has a canonical form. -/
theorem exists_canonical {q : ℚ} (h : FitsDecimal TOKEN_MAX_MANT_DIGITS TOKEN_EXP_MIN TOKEN_EXP_MAX q) :
    ∃ v : TokenValue, v.toRat = q ∧ Canonical v := by
  obtain ⟨m, x, hm, -, -, -, rfl⟩ := id h
  have hne : m ≠ 0 := by
    have := Nat.pow_pos (n := TOKEN_MAX_MANT_DIGITS - 1) (by decide : 0 < 10)
    omega
  obtain ⟨z, k, hk, rfl⟩ := Nat.exists_eq_pow_mul_and_not_dvd hne 10 (by decide)
  have hvalue : (TokenValue.mk k (x + z)).toRat = (10 ^ z * k : Nat) * 10 ^ x := by
    rw [TokenValue.toRat, zpow_add₀ (by norm_num), zpow_natCast]
    push_cast
    ring
  exact ⟨⟨k, x + z⟩, hvalue, fun hmod => hk (Nat.dvd_of_mod_eq_zero hmod), by rwa [hvalue]⟩

/-- Digits without the zeros at either end: a number of that length that does not end in zero. -/
theorem strip_zeros {ds : List Char} (hds : ∀ c ∈ ds, c.isDigit = true) (hne : ds.dropWhile (· == '0') ≠ []) :
    let kept := (ds.dropWhile (· == '0')).rdropWhile (· == '0')
    digitsNat kept % 10 ≠ 0 ∧ 10 ^ (kept.length - 1) ≤ digitsNat kept ∧ digitsNat kept < 10 ^ kept.length := by
  intro kept
  have hsub : ∀ c ∈ kept, c.isDigit = true := fun c hc =>
    hds c ((List.dropWhile_suffix _).subset ((List.rdropWhile_prefix (· == '0') _).subset hc))
  obtain ⟨c, rest, hcons⟩ := List.exists_cons_of_ne_nil hne
  have hhead : c ≠ '0' := by
    have := List.head_dropWhile_not (· == '0') hne
    simpa [hcons] using this
  have hkept : kept ≠ [] := by
    intro hnil
    have := List.rdropWhile_eq_nil_iff.1 hnil c (by rw [hcons]; exact List.mem_cons_self)
    exact hhead (by simpa using this)
  have hlast : kept.getLast hkept ≠ '0' := by
    simpa using List.rdropWhile_last_not (· == '0') _ hkept
  refine ⟨?_, ?_, digitsNat_lt hsub⟩
  · have hpos := digit_pos (hsub _ (List.getLast_mem hkept)) hlast
    have hle := digit_le (hsub _ (List.getLast_mem hkept))
    rw [← List.dropLast_append_getLast hkept, digitsNat_snoc]
    omega
  · obtain ⟨c', rest', hcons'⟩ := List.exists_cons_of_ne_nil hkept
    have hsame : c' = c := by
      have hprefix : kept <+: c :: rest := hcons ▸ List.rdropWhile_prefix (· == '0') _
      rw [hcons'] at hprefix
      exact (List.cons_prefix_cons.1 hprefix).1
    rw [hcons']
    exact le_digitsNat (hsub c' (by rw [hcons']; exact List.mem_cons_self)) (hsame ▸ hhead)

/-- A literal is parsed to the canonical form of its value, where it has one. -/
theorem parseTokenValue_eq_some {s : String} {l : TokenLiteral} (hl : l.text = s.toList) {v : TokenValue} :
    parseTokenValue s = some v ↔ v.toRat = l.value ∧ Canonical v := by
  have hdigits := l.isDigit_of_mem
  have hvalue := l.value_eq
  unfold parseTokenValue
  rw [← hl, tokenGroups_text]
  dsimp only
  rw [← digitsNat_dropWhile, digitsNat_rdropWhile] at hvalue
  have hstrip := strip_zeros hdigits
  generalize l.int.chars ++ l.fracDigits = ds at *
  by_cases hzero : ds.dropWhile (· == '0') = []
  · -- zero is no payment
    rw [hzero] at hvalue ⊢
    constructor
    · intro h
      cases h
    · rintro ⟨heq, hcanonical⟩
      have hmant := hcanonical.mant
      have hpos : v.toRat ≠ 0 := mul_ne_zero (by exact_mod_cast fun h => hmant (by rw [h])) (zpow_ne_zero _ (by norm_num))
      exact absurd (heq.trans (by simpa using hvalue)) hpos
  · obtain ⟨hmant, hlo, hhi⟩ := hstrip hzero
    rw [if_neg (by simpa using hzero)]
    generalize (ds.dropWhile (· == '0')).rdropWhile (· == '0') = kept at *
    generalize hexp : l.exponent - l.fracDigits.length + ((ds.dropWhile (· == '0')).length - kept.length : Nat) = exp
    have hw : (TokenValue.mk (digitsNat kept) exp).toRat = l.value := by
      rw [TokenValue.toRat, hvalue, ← hexp, zpow_add₀ (by norm_num), zpow_natCast]
      push_cast
      ring
    have hfits : FitsDecimal TOKEN_MAX_MANT_DIGITS TOKEN_EXP_MIN TOKEN_EXP_MAX (digitsNat kept * 10 ^ exp) ↔ _ :=
      fitsDecimal_iff hmant hlo hhi
    constructor
    · intro h
      split_ifs at h with hlen hpos hrange
      cases h
      exact ⟨hw, hmant, hfits.2 ⟨by omega, by omega, by omega⟩⟩
    · rintro ⟨heq, hcanonical⟩
      have hcanonical' : Canonical ⟨digitsNat kept, exp⟩ := ⟨hmant, by
        rw [hw, ← heq]
        exact hcanonical.fits⟩
      rw [hcanonical.eq hcanonical' (heq.trans hw.symm)]
      obtain ⟨hlen, hmin, hmax⟩ := hfits.1 hcanonical'.fits
      have hpos : ¬digitsNat kept ≤ 0 := fun h => hmant (by rw [Nat.le_zero.1 h])
      rw [if_neg (by omega), if_neg hpos, if_neg (by omega)]

/-! ## The exponent as a number -/

/-- `parseTokenValue` with its exponents the numbers of the language, rounded at each step. -/
def parseTokenValueNumber (value : String) : Option TokenValue :=
  match tokenGroups value.toList with
  | none => none
  | some (intPart, fracPart, expPart) =>
    let exp10 := Number.round expPart
    if exp10.isNone then none
    else
      let digits := (intPart ++ fracPart).dropWhile (· == '0')
      let exp := Number.add exp10 (-fracPart.length)
      if digits.isEmpty then none
      else
        let kept := digits.rdropWhile (· == '0')
        let trailing := digits.length - kept.length
        let exp := if trailing > 0 then Number.add exp trailing else exp
        if kept.length > TOKEN_MAX_MANT_DIGITS then none
        else
          let mant := digitsNat kept
          if mant ≤ 0 then none
          else
            -- an infinite exponent is out of range
            (Number.add exp (kept.length - TOKEN_MAX_MANT_DIGITS : Int)).bind fun normExp =>
              if normExp < TOKEN_EXP_MIN ∨ normExp > TOKEN_EXP_MAX then none else exp.map fun exp => ⟨mant, exp⟩

theorem TokenLiteral.digits_length_le (l : TokenLiteral) : (l.int.chars ++ l.fracDigits).length ≤ l.text.length := by
  have hfrac : l.fracDigits.length ≤ l.fracText.length := by
    unfold fracDigits fracText
    rcases l.frac with - | f
    · exact le_rfl
    · exact Nat.le_succ _
  rw [text, List.length_append, List.length_append, List.length_append]
  omega

/-- The exponent of the kept digits tracks the exact one: shifted by the fraction, and by the zeros cut off. -/
theorem tracks_exponent (e : Int) {frac trailing : Nat} (hfrac : frac ≤ 2 ^ 29) (htrailing : trailing ≤ 2 ^ 29) :
    Number.Tracks (2 ^ 53 - 2 ^ 30) (e - frac + trailing)
      (if trailing > 0 then Number.add (Number.add (Number.round e) (-frac)) trailing
        else Number.add (Number.round e) (-frac)) := by
  have hshift := (Number.tracks_round e).add (-frac) (2 ^ 29) (by omega) (by omega) (by norm_num) le_rfl
  split_ifs with hpos
  · exact (hshift.add _ (2 ^ 29) (by omega) (by omega) (by norm_num) (by norm_num)).weaken (by norm_num)
  · rw [show trailing = 0 by omega, Nat.cast_zero, add_zero]
    exact hshift.weaken (by norm_num)

/-- On strings that can be held in memory no exponent is rounded that matters. -/
theorem parseTokenValueNumber_eq {s : String} (hs : s.length ≤ 2 ^ 29) : parseTokenValueNumber s = parseTokenValue s := by
  unfold parseTokenValueNumber parseTokenValue
  cases hg : tokenGroups s.toList with
  | none => rfl
  | some g =>
    obtain ⟨i, f, e⟩ := g
    dsimp only
    have hlen : (i ++ f).length ≤ 2 ^ 29 := by
      obtain ⟨l, htext, rfl, rfl, rfl⟩ := tokenGroups_sound hg
      exact l.digits_length_le.trans (by rwa [htext, String.length_toList])
    have hdigits : ((i ++ f).dropWhile (· == '0')).length ≤ 2 ^ 29 := (List.dropWhile_suffix _).length_le.trans hlen
    have hfrac : f.length ≤ 2 ^ 29 := by
      rw [List.length_append] at hlen
      omega
    generalize (i ++ f).dropWhile (· == '0') = digits at hdigits ⊢
    generalize digits.rdropWhile (· == '0') = kept
    by_cases hempty : digits.isEmpty = true
    · rw [if_pos hempty, if_pos hempty, ite_self]
    by_cases hprec : kept.length > TOKEN_MAX_MANT_DIGITS
    · rw [if_neg hempty, if_neg hempty, if_pos hprec, if_pos hprec, ite_self]
    by_cases hmant : digitsNat kept ≤ 0
    · rw [if_neg hempty, if_neg hempty, if_neg hprec, if_neg hprec, if_pos hmant, if_pos hmant, ite_self]
    rw [if_neg hempty, if_neg hempty, if_neg hprec, if_neg hprec, if_neg hmant, if_neg hmant]
    -- each sum tracks the exact one; what is far out stays out of range
    have htracks := Number.tracks_round e
    have hexp := tracks_exponent e hfrac (show digits.length - kept.length ≤ 2 ^ 29 by omega)
    generalize Number.round e = exp10 at htracks hexp ⊢
    generalize hE : e - f.length + (digits.length - kept.length : Nat) = exp at hexp ⊢
    generalize (if digits.length - kept.length > 0 then
      Number.add (Number.add exp10 (-f.length)) (digits.length - kept.length : Nat)
      else Number.add exp10 (-f.length)) = exp' at hexp ⊢
    have hmax : (TOKEN_MAX_MANT_DIGITS : Int) = 16 := rfl
    have hmin : TOKEN_EXP_MIN = -96 := rfl
    have hmax' : TOKEN_EXP_MAX = 80 := rfl
    have hnorm := hexp.add (kept.length - TOKEN_MAX_MANT_DIGITS : Int) 16 (by omega) (by omega) (by norm_num) (by norm_num)
    generalize Number.add exp' (kept.length - TOKEN_MAX_MANT_DIGITS : Int) = normExp at hnorm ⊢
    by_cases hrange : exp + (kept.length - TOKEN_MAX_MANT_DIGITS : Int) < TOKEN_EXP_MIN ∨
        exp + (kept.length - TOKEN_MAX_MANT_DIGITS : Int) > TOKEN_EXP_MAX
    · rw [if_pos hrange]
      cases normExp with
      | none => rw [Option.bind_none, ite_self]
      | some normExp =>
        have hout := hnorm.outside hrange (by omega) (by omega)
        rw [Option.bind_some, if_pos hout, ite_self]
    · have hfinite := htracks.eq_of_small (by omega) (by omega)
      have hexact := hexp.eq_of_small (by omega) (by omega)
      have hexact' := hnorm.eq_of_small (by omega) (by omega)
      rw [hfinite, hexact, hexact', Option.isNone_some, if_neg Bool.false_ne_true, Option.bind_some, if_neg hrange,
        if_neg hrange, Option.map_some]

/-! ## Exactness -/

/-- The comparison is the sign of the difference. -/
theorem cmpTokenValue_eq_sign (a b : TokenValue) : cmpTokenValue a b = (SignType.sign (a.toRat - b.toRat) : Int) := by
  have hsign (x y : Nat) : (if x = y then 0 else if x > y then 1 else -1 : Int) = 0 ∨
      (if x = y then 0 else if x > y then 1 else -1 : Int) = 1 ∨
        (if x = y then 0 else if x > y then 1 else -1 : Int) = -1 := by
    split_ifs
    · exact .inl rfl
    · exact .inr (.inl rfl)
    · exact .inr (.inr rfl)
  have hcases : cmpTokenValue a b = 0 ∨ cmpTokenValue a b = 1 ∨ cmpTokenValue a b = -1 := hsign _ _
  rcases lt_trichotomy a.toRat b.toRat with hlt | heq | hgt
  · have hneg := (cmpTokenValue_lt a b).2 hlt
    rw [sign_neg (sub_neg.2 hlt), SignType.coe_neg_one]
    omega
  · rw [heq, sub_self, sign_zero, SignType.coe_zero]
    exact (cmpTokenValue_eq a b).2 heq
  · have hpos := (cmpTokenValue_gt a b).2 hgt
    rw [sign_pos (sub_pos.2 hgt), SignType.coe_one]
    omega

/-- A string is parsed exactly when it is a literal of a decimal that the ledger can hold, to that decimal in its
canonical form; parsed values are equal as their forms are, and compare as they do. -/
theorem tokenValues_exact {s : String} (hs : s.length ≤ 2 ^ 29) :
    ((parseTokenValueNumber s).isSome = true ↔
        ∃ l : TokenLiteral, l.text = s.toList ∧ FitsDecimal 16 (-96) 80 l.value) ∧
      (∀ l : TokenLiteral, l.text = s.toList → ∀ v, parseTokenValueNumber s = some v →
        (v.mant : ℚ) * 10 ^ v.exp = l.value ∧ v.mant % 10 ≠ 0) ∧
      ∀ s' : String, s'.length ≤ 2 ^ 29 → ∀ l l' : TokenLiteral, l.text = s.toList → l'.text = s'.toList →
        ∀ v v', parseTokenValueNumber s = some v → parseTokenValueNumber s' = some v' →
          (l.value = l'.value ↔ v.mant = v'.mant ∧ v.exp = v'.exp) ∧
            cmpTokenValue v v' = (SignType.sign (l.value - l'.value) : Int) := by
  -- up to this length the doubles in which the code keeps an exponent are exact
  rw [parseTokenValueNumber_eq hs]
  refine ⟨?_, ?_, ?_⟩
  · constructor
    · intro h
      obtain ⟨v, hv⟩ := Option.isSome_iff_exists.1 h
      obtain ⟨i, f, e, hg, -⟩ := parseTokenValue_toRat hv
      obtain ⟨l, hl, -⟩ := tokenGroups_sound hg
      obtain ⟨heq, hcanonical⟩ := (parseTokenValue_eq_some hl).1 hv
      exact ⟨l, hl, heq ▸ hcanonical.fits⟩
    · rintro ⟨l, hl, hfits⟩
      obtain ⟨v, heq, hcanonical⟩ := exists_canonical hfits
      rw [(parseTokenValue_eq_some hl).2 ⟨heq, hcanonical⟩]
      rfl
  · intro l hl v hv
    obtain ⟨heq, hcanonical⟩ := (parseTokenValue_eq_some hl).1 hv
    exact ⟨heq, hcanonical.mant⟩
  · intro s' hs' l l' hl hl' v v' hv hv'
    rw [parseTokenValueNumber_eq hs'] at hv'
    obtain ⟨heq, hcanonical⟩ := (parseTokenValue_eq_some hl).1 hv
    obtain ⟨heq', hcanonical'⟩ := (parseTokenValue_eq_some hl').1 hv'
    rw [← heq, ← heq']
    -- canonical forms of one value are the same form
    refine ⟨⟨?_, ?_⟩, cmpTokenValue_eq_sign v v'⟩
    · intro h
      rw [hcanonical.eq hcanonical' h]
      exact ⟨rfl, rfl⟩
    · rintro ⟨hmant, hexp⟩
      rw [TokenValue.toRat, TokenValue.toRat, hmant, hexp]

theorem tokenValues_exact_padded :
    ∃ l l' : TokenLiteral, l.text = "2.50".toList ∧ l'.text = "25e-1".toList ∧ l.value = l'.value := by
  have h := tokenValues_exact (s := "2.50") (by decide)
  have h' := tokenValues_exact (s := "25e-1") (by decide)
  have hparse : parseTokenValueNumber "2.50" = some ⟨25, -1⟩ ∧ parseTokenValueNumber "25e-1" = some ⟨25, -1⟩ := by
    decide +kernel
  obtain ⟨l, hl, -⟩ := h.1.1 (by rw [hparse.1]; rfl)
  obtain ⟨l', hl', -⟩ := h'.1.1 (by rw [hparse.2]; rfl)
  exact ⟨l, l', hl, hl', (h.2.2 "25e-1" (by decide) l l' hl hl' _ _ hparse.1 hparse.2).1.2 ⟨rfl, rfl⟩⟩

end Xahc.Facilitator

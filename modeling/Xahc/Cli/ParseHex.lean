/-
The hex literals of test files: what the parser makes of a text, the literals it should accept, and on which texts
the two agree.
-/
import Xahc.Chain.Compose
import Xahc.Data.Utf8

namespace Xahc.Cli

open Xahc.Data Xahc.Data.Checked Xahc.Chain

/-! ## The parser -/

/-- `str::trim`. -/
def trim (s : List Char) : List Char := (s.dropWhile isWhitespace).rdropWhile isWhitespace

/-- The value of a text byte as a digit. -/
def byteDigit (x : UInt8) : Option Nat := hexVal (Char.ofNat x.toNat)

/-- One digit more, as long as the value fits a byte. -/
def u8Digit (n : Nat) (x : UInt8) : Option Nat := do
  let d ← byteDigit x
  guard (n * 16 + d < 256)
  some (n * 16 + d)

/-- The hex digits of a byte string as a `u8`. -/
def u8Digits (b : Bytes) : Option Nat := b.foldlM u8Digit 0

/-- `u8::from_str_radix(s, 16)`: a plus sign may stand before the digits; a sign alone is no number, and neither
is nothing. -/
def u8FromStrRadix (b : Bytes) : Option UInt8 :=
  match b with
  | [] => none
  | x :: rest => (if x = 0x2B ∧ rest ≠ [] then u8Digits rest else u8Digits (x :: rest)).map .ofNat

/-- The pairs of bytes from offset `i` on, up to the first one that is no number. -/
def hexBytes (b : Bytes) : (turns i : Nat) → Checked (Except String Bytes)
  | 0, _ => return .ok []
  | turns + 1, i => do
    match u8FromStrRadix (← strSlice b i (i + 2)) with
    | none => return .error "hex byte"
    | some x =>
      match ← hexBytes b turns (i + 2) with
      | .error e => return .error e
      | .ok rest => return .ok (x :: rest)

/-- `parse_hex`: trims, drops the prefix and reads two bytes at a time. -/
def parseHex (s : String) : Checked (Except String Bytes) := do
  let b := utf8 (trimHexPrefix (trim s.toList))
  if b.length % 2 ≠ 0 then return .error "odd-length hex"
  hexBytes b (b.length / 2) 0

/-! ## The literals -/

/-- The bytes pairs of digits denote. -/
def decodeHex : List Char → Option Bytes
  | [] => some []
  | hi :: lo :: s => do
    let hi ← hexVal hi
    let lo ← hexVal lo
    let rest ← decodeHex s
    some (.ofNat (hi * 16 + lo) :: rest)
  | [_] => none

/-- A literal and its bytes: pairs of hex digits, after at most one prefix. -/
def Denotes (s : String) (b : Bytes) : Prop :=
  ∃ digits, (trim s.toList = digits ∨ trim s.toList = '0' :: 'x' :: digits) ∧ decodeHex digits = some b

/-- The parser answers, with the bytes of the literal if the text is one and with an error if not. -/
def ReadsLiteral (s : String) : Prop := ∃ r, parseHex s = .ok r ∧ ∀ b, r = .ok b ↔ Denotes s b

/-! ## Pairs -/

/-- What the number parser takes for the first of two digits. -/
def isLeading (c : Char) : Bool := c == '+' || (hexVal c).isSome

/-- A text of pairs the number parser takes. -/
inductive Numerals : List Char → Prop
  | nil : Numerals []
  | pair {c d : Char} {s : List Char} : isLeading c = true → (hexVal d).isSome = true → Numerals s →
    Numerals (c :: d :: s)

/-- The next two bytes of a text are not all the bytes of its next characters. -/
def SplitsNext : List Char → Prop
  | [] => False
  | c :: s => 3 ≤ c.utf8Size ∨ c.utf8Size = 1 ∧ ∃ d t, s = d :: t ∧ d.utf8Size ≠ 1

/-- Pairs of bytes, taken as long as they are numbers, come to a character that a pair splits. -/
def Splits (s : List Char) : Prop := ∃ pre rest, Numerals pre ∧ s = pre ++ rest ∧ SplitsNext rest

/-! ## Digits -/

theorem hexVal_range {c : Char} {n : Nat} (h : hexVal c = some n) : c.toNat < 128 ∧ n < 16 := by
  unfold hexVal at h
  split_ifs at h with h1 h2 h3
  · cases h
    have hle : c.toNat ≤ 57 := h1.2
    omega
  · cases h
    have hle : c.toNat ≤ 102 := h2.2
    omega
  · cases h
    have hle : c.toNat ≤ 70 := h3.2
    omega

theorem utf8Size_ascii {c : Char} : c.utf8Size = 1 ↔ c.toNat < 128 := by
  rw [Char.utf8Size_eq_one_iff, UInt32.le_iff_toNat_le]
  exact Nat.lt_succ_iff.symm

theorem ascii_byte {c : Char} (h : c.utf8Size = 1) : c.val.toUInt8.toNat = c.toNat := by
  have hlt := utf8Size_ascii.1 h
  rw [UInt32.toNat_toUInt8]
  exact Nat.mod_eq_of_lt (lt_trans hlt (by decide))

theorem byteDigit_ascii {c : Char} (h : c.utf8Size = 1) : byteDigit c.val.toUInt8 = hexVal c := by
  rw [byteDigit, ascii_byte h, Char.ofNat_toNat]

theorem isLeading_ascii {c : Char} (h : isLeading c = true) : c.utf8Size = 1 := by
  rw [isLeading, Bool.or_eq_true, beq_iff_eq] at h
  rcases h with rfl | h
  · rfl
  · obtain ⟨n, hn⟩ := Option.isSome_iff_exists.1 h
    exact utf8Size_ascii.2 (hexVal_range hn).1

theorem digit_ascii {c : Char} (h : (hexVal c).isSome = true) : c.utf8Size = 1 :=
  isLeading_ascii (by rw [isLeading, h, Bool.or_true])

theorem u8Digit_some {n d : Nat} {x : UInt8} (h : byteDigit x = some d) (hlt : n * 16 + d < 256) :
    u8Digit n x = some (n * 16 + d) := by
  rw [u8Digit, h, Option.bind_eq_bind, Option.bind_some, guard, if_pos hlt]
  rfl

theorem u8Digit_none {n : Nat} {x : UInt8} (h : byteDigit x = none) : u8Digit n x = none := by
  rw [u8Digit, h]
  rfl

/-- Two characters of a byte each, as a number. -/
theorem radix_pair {c d : Char} (hc : c.utf8Size = 1) (hd : d.utf8Size = 1) :
    u8FromStrRadix (utf8 [c, d]) = if c = '+' then (hexVal d).map .ofNat else
      (hexVal c).bind fun hi => (hexVal d).map fun lo => .ofNat (hi * 16 + lo) := by
  have hplus : c.val.toUInt8 = 0x2B ↔ c = '+' := by
    rw [← UInt8.toNat_inj, ascii_byte hc, ← Char.toNat_inj]
    rfl
  have hutf8 : utf8 [c, d] = [c.val.toUInt8, d.val.toUInt8] := by rw [utf8_ascii hc, utf8_ascii hd]; rfl
  have hbc := byteDigit_ascii hc
  have hbd := byteDigit_ascii hd
  rw [hutf8, u8FromStrRadix]
  -- from_str_radix takes a plus sign, so a pair with one in front is read as a single digit
  by_cases h : c = '+'
  · rw [if_pos ⟨hplus.2 h, List.cons_ne_nil _ _⟩, if_pos h, u8Digits, List.foldlM_cons]
    rcases hv : hexVal d with _ | n
    · rw [u8Digit_none (hbd.trans hv)]
      rfl
    · have hlt := (hexVal_range hv).2
      rw [u8Digit_some (hbd.trans hv) (by omega), Nat.zero_mul, Nat.zero_add]
      rfl
  · rw [if_neg fun hx => h (hplus.1 hx.1), if_neg h, u8Digits, List.foldlM_cons]
    rcases hv : hexVal c with _ | m
    · rw [u8Digit_none (hbc.trans hv)]
      rfl
    · have hm := (hexVal_range hv).2
      rw [u8Digit_some (hbc.trans hv) (by omega), Nat.zero_mul, Nat.zero_add, Option.bind_eq_bind, Option.bind_some,
        List.foldlM_cons]
      rcases hw : hexVal d with _ | n
      · rw [u8Digit_none (hbd.trans hw)]
        rfl
      · have hn := (hexVal_range hw).2
        rw [u8Digit_some (hbd.trans hw) (by omega)]
        rfl

theorem radix_pair_some {c d : Char} (hc : isLeading c = true) (hd : (hexVal d).isSome = true) :
    ∃ x, u8FromStrRadix (utf8 [c, d]) = some x := by
  rw [radix_pair (isLeading_ascii hc) (digit_ascii hd)]
  obtain ⟨n, hn⟩ := Option.isSome_iff_exists.1 hd
  by_cases h : c = '+'
  · rw [if_pos h, hn]
    exact ⟨_, rfl⟩
  · rw [isLeading, beq_eq_false_iff_ne.2 h, Bool.false_or] at hc
    obtain ⟨m, hm⟩ := Option.isSome_iff_exists.1 hc
    rw [if_neg h, hm, hn]
    exact ⟨_, rfl⟩

/-- A first byte that is neither a sign nor a digit begins no number. -/
theorem radix_none {b : Bytes} {x : UInt8} (hx : x ≠ 0x2B) (hdigit : byteDigit x = none) :
    u8FromStrRadix (x :: b) = none := by
  rw [u8FromStrRadix, if_neg fun h => hx h.1, u8Digits, List.foldlM_cons, u8Digit_none hdigit]
  rfl

theorem radix_pair_none {c d : Char} (hc : c.utf8Size = 1) (hd : d.utf8Size = 1)
    (h : ¬(isLeading c = true ∧ (hexVal d).isSome = true)) : u8FromStrRadix (utf8 [c, d]) = none := by
  rw [radix_pair hc hd]
  by_cases hplus : c = '+'
  · rw [if_pos hplus]
    rcases hv : hexVal d with _ | n
    · rfl
    · exact absurd ⟨by rw [isLeading, beq_iff_eq.2 hplus, Bool.true_or], by rw [hv]; rfl⟩ h
  · rw [if_neg hplus]
    rcases hv : hexVal c with _ | m
    · rfl
    · rcases hw : hexVal d with _ | n
      · rfl
      · exact absurd ⟨by rw [isLeading, hv]; exact Bool.or_true _, by rw [hw]; rfl⟩ h

/-- A character of several bytes is no number. -/
theorem radix_wide {c : Char} (h : c.utf8Size ≠ 1) : u8FromStrRadix (utf8 [c]) = none := by
  obtain ⟨lead, tail, heq, -, hhigh, -⟩ := utf8EncodeChar_shape c
  have htail : tail ≠ [] := by
    rintro rfl
    exact h (by rw [← String.length_utf8EncodeChar, heq]; rfl)
  have hlead := hhigh htail
  have hutf8 : utf8 [c] = lead :: tail := by
    rw [utf8_cons, heq]
    exact List.append_nil _
  rw [hutf8]
  refine radix_none ?_ ?_
  · rintro rfl
    revert hlead
    decide
  · rcases hv : byteDigit lead with _ | n
    · rfl
    · have hlt := (hexVal_range hv).1
      rw [toNat_ofNat_valid (Or.inl (lt_trans lead.toNat_lt (by decide)))] at hlt
      omega

/-! ## What the walk over the pairs comes to -/

theorem Numerals.even {s : List Char} (h : Numerals s) : (utf8 s).length % 2 = 0 := by
  induction h with
  | nil => rfl
  | pair hc hd _ ih =>
    rw [utf8_ascii (isLeading_ascii hc), utf8_ascii (digit_ascii hd), List.length_cons, List.length_cons]
    omega

theorem Numerals.tail {c d : Char} {s : List Char} (h : Numerals (c :: d :: s)) :
    (isLeading c = true ∧ (hexVal d).isSome = true) ∧ Numerals s := by
  cases h with
  | pair hc hd hs => exact ⟨⟨hc, hd⟩, hs⟩

theorem Splits.cases {c : Char} {s : List Char} (h : Splits (c :: s)) :
    SplitsNext (c :: s) ∨ ∃ d t, s = d :: t ∧ (isLeading c = true ∧ (hexVal d).isSome = true) ∧ Splits t := by
  obtain ⟨pre, rest, hpre, heq, hrest⟩ := h
  cases hpre with
  | nil => exact Or.inl (heq ▸ hrest)
  | @pair c' d pre hc hd hpre =>
    obtain ⟨rfl, rfl⟩ := List.cons.inj heq
    exact Or.inr ⟨d, pre ++ rest, rfl, ⟨hc, hd⟩, pre, rest, hpre, rfl, hrest⟩

theorem Splits.pair {c d : Char} {s : List Char} (hc : isLeading c = true) (hd : (hexVal d).isSome = true) (h : Splits s) :
    Splits (c :: d :: s) := by
  obtain ⟨pre, rest, hpre, rfl, hrest⟩ := h
  exact ⟨c :: d :: pre, rest, .pair hc hd hpre, rfl, hrest⟩

theorem not_splitsNext {c d : Char} {s : List Char} (hc : c.utf8Size = 1) (hd : d.utf8Size = 1) :
    ¬SplitsNext (c :: d :: s) := by
  rintro (h | ⟨-, d', t, heq, h⟩)
  · omega
  · exact h ((List.cons.inj heq).1 ▸ hd)

theorem splits_pair_iff {c d : Char} {s : List Char} (hc : c.utf8Size = 1) (hd : d.utf8Size = 1) :
    Splits (c :: d :: s) ↔ (isLeading c = true ∧ (hexVal d).isSome = true) ∧ Splits s := by
  constructor
  · intro h
    rcases h.cases with hnext | ⟨d', t, heq, hnum, h⟩
    · exact absurd hnext (not_splitsNext hc hd)
    · obtain ⟨rfl, rfl⟩ := List.cons.inj heq
      exact ⟨hnum, h⟩
  · rintro ⟨⟨hleading, hdigit⟩, h⟩
    exact h.pair hleading hdigit

/-- A character of two bytes is a pair of its own, and no number. -/
theorem two_bytes {c : Char} {s : List Char} (hc : c.utf8Size = 2) : ¬Numerals (c :: s) ∧ ¬Splits (c :: s) := by
  have hnot (h : isLeading c = true) : False := absurd (isLeading_ascii h) (by omega)
  constructor
  · rintro (_ | ⟨hleading, -, -⟩)
    exact hnot hleading
  · intro hsplit
    rcases hsplit.cases with (hnext | ⟨hnext, -⟩) | ⟨d, t, -, ⟨hleading, -⟩, -⟩
    · omega
    · omega
    · exact hnot hleading

theorem Numerals.not_splits {s : List Char} (h : Numerals s) : ¬Splits s := by
  induction h with
  | nil =>
    rintro ⟨pre, rest, -, heq, hrest⟩
    rw [(List.append_eq_nil_iff.1 heq.symm).2] at hrest
    exact hrest
  | pair hc hd _ ih =>
    intro h
    exact ih ((splits_pair_iff (isLeading_ascii hc) (digit_ascii hd)).1 h).2

theorem decodeHex_numerals : ∀ {s : List Char} {b : Bytes}, decodeHex s = some b → Numerals s ∧ '+' ∉ s
  | [], _, _ => ⟨.nil, List.not_mem_nil⟩
  | [_], _, h => (nomatch h)
  | c :: d :: s, b, h => by
    obtain ⟨hi, hhi, h⟩ := Option.bind_eq_some_iff.1 h
    obtain ⟨lo, hlo, h⟩ := Option.bind_eq_some_iff.1 h
    obtain ⟨rest, hrest, -⟩ := Option.bind_eq_some_iff.1 h
    obtain ⟨hnum, hplus⟩ := decodeHex_numerals hrest
    refine ⟨.pair ?_ ?_ hnum, ?_⟩
    · rw [isLeading, hhi]
      exact Bool.or_true _
    · rw [hlo]
      rfl
    · rw [List.mem_cons, List.mem_cons]
      rintro (rfl | rfl | h)
      · cases hhi
      · cases hlo
      · exact hplus h

/-- Where there is no sign, the pair's number is the value of its two digits. -/
theorem decodeHex_pair {c d : Char} {s : List Char} {x : UInt8} {b : Bytes} (hc : c.utf8Size = 1) (hd : d.utf8Size = 1)
    (hplus : c ≠ '+') (hx : u8FromStrRadix (utf8 [c, d]) = some x) (hb : decodeHex s = some b) :
    decodeHex (c :: d :: s) = some (x :: b) := by
  rw [radix_pair hc hd, if_neg hplus] at hx
  obtain ⟨hi, hhi, hx⟩ := Option.bind_eq_some_iff.1 hx
  obtain ⟨lo, hlo, rfl⟩ := Option.map_eq_some_iff.1 hx
  rw [decodeHex, hhi, hlo, hb]
  rfl

/-- What the walk makes of a text of an even number of bytes: the values of its pairs, a panic where a pair splits a
character, or an error. -/
inductive Outcome (s : List Char) : Checked (Except String Bytes) → Prop
  | read {b : Bytes} : Numerals s → ('+' ∉ s → decodeHex s = some b) → Outcome s (.ok (.ok b))
  | split : Splits s → Outcome s (.error .charBoundary)
  | refused {e : String} : ¬Numerals s → ¬Splits s → Outcome s (.ok (.error e))

/-- One turn on a pair of two characters. -/
theorem outcome_pair {b : Bytes} {c d : Char} {s : List Char} {turns i : Nat} (hc : c.utf8Size = 1) (hd : d.utf8Size = 1)
    (hslice : strSlice b i (i + 2) = .ok (utf8 [c, d])) (hrest : Outcome s (hexBytes b turns (i + 2))) :
    Outcome (c :: d :: s) (hexBytes b (turns + 1) i) := by
  rw [hexBytes, hslice, ok_bind]
  by_cases hnum : isLeading c = true ∧ (hexVal d).isSome = true
  · obtain ⟨x, hx⟩ := radix_pair_some hnum.1 hnum.2
    rw [hx]
    dsimp only
    generalize hexBytes b turns (i + 2) = r at hrest ⊢
    cases hrest with
    | @read b hs hb =>
      refine .read (.pair hnum.1 hnum.2 hs) fun hplus => ?_
      rw [List.mem_cons, List.mem_cons, not_or, not_or] at hplus
      exact decodeHex_pair hc hd (Ne.symm hplus.1) hx (hb hplus.2.2)
    | split hs => exact .split (hs.pair hnum.1 hnum.2)
    | refused hs hsplit =>
      exact .refused (fun h => hs h.tail.2) fun h => hsplit ((splits_pair_iff hc hd).1 h).2
  · rw [radix_pair_none hc hd hnum]
    exact .refused (fun h => hnum h.tail.1) fun h => hnum ((splits_pair_iff hc hd).1 h).1

theorem hexBytes_outcome (pre s : List Char) (turns : Nat) (h : (utf8 s).length = 2 * turns) :
    Outcome s (hexBytes (utf8 (pre ++ s)) turns (utf8 pre).length) := by
  induction turns generalizing pre s with
  | zero =>
    obtain rfl : s = [] := by
      cases s with
      | nil => rfl
      | cons c s =>
        obtain ⟨lead, tail, heq, -⟩ := utf8EncodeChar_shape c
        rw [utf8_cons, heq] at h
        cases h
    exact .read .nil fun _ => rfl
  | succ turns ih =>
    obtain ⟨c, s, rfl⟩ : ∃ c t, s = c :: t := by
      cases s with
      | nil => cases h
      | cons c t => exact ⟨c, t, rfl⟩
    have hsize : (utf8 (c :: s)).length = c.utf8Size + (utf8 s).length := by
      rw [utf8_cons, List.length_append, String.length_utf8EncodeChar]
    rcases Nat.lt_or_ge 2 c.utf8Size with hwide | hnarrow
    · -- the pair ends inside a character of three bytes or four
      have hslice := strSlice_split pre [] s (c := c) (k := 2) (by omega) hwide
      rw [List.append_nil] at hslice
      rw [hexBytes, show (utf8 pre).length + 2 = (utf8 pre).length + (utf8 []).length + 2 from rfl, hslice]
      exact .split ⟨[], c :: s, .nil, rfl, Or.inl hwide⟩
    rcases Nat.lt_or_ge 1 c.utf8Size with htwo | hone
    · have hlen : (utf8 [c]).length = 2 := by
        rw [utf8_cons, List.length_append, String.length_utf8EncodeChar]
        exact Nat.le_antisymm hnarrow htwo
      have hslice := strSlice_chars pre [c] s
      rw [hlen, List.append_assoc] at hslice
      rw [hexBytes, show pre ++ c :: s = pre ++ ([c] ++ s) from rfl, hslice, ok_bind, radix_wide (by omega)]
      obtain ⟨hnum, hsplit⟩ := two_bytes (s := s) (Nat.le_antisymm hnarrow htwo)
      exact .refused hnum hsplit
    have hc : c.utf8Size = 1 := Nat.le_antisymm hone (Char.utf8Size_pos c)
    obtain ⟨d, s, rfl⟩ : ∃ d t, s = d :: t := by
      cases s with
      | nil =>
        rw [hsize, hc] at h
        have hnil : (utf8 []).length = 0 := rfl
        omega
      | cons d t => exact ⟨d, t, rfl⟩
    by_cases hd : d.utf8Size = 1
    · have hlen : (utf8 [c, d]).length = 2 := by rw [utf8_ascii hc, utf8_ascii hd]; rfl
      have hslice := strSlice_chars pre [c, d] s
      have hrest := ih (pre ++ [c, d]) s (by rw [hsize, hc, utf8_ascii hd, List.length_cons] at h; omega)
      rw [utf8_append pre, List.length_append, hlen] at hrest
      rw [hlen] at hslice
      rw [List.append_assoc] at hslice hrest
      exact outcome_pair hc hd hslice hrest
    · -- the pair ends inside the second character
      have hslice := strSlice_split pre [c] s (c := d) (k := 1) (by omega) (by have := Char.utf8Size_pos d; omega)
      have hlen : (utf8 [c]).length = 1 := by rw [utf8_ascii hc]; rfl
      rw [hlen, List.append_assoc, Nat.add_assoc] at hslice
      rw [hexBytes, show pre ++ c :: d :: s = pre ++ ([c] ++ d :: s) from rfl, hslice]
      exact .split ⟨[], c :: d :: s, .nil, rfl, Or.inr ⟨hc, d, s, rfl, hd⟩⟩

/-! ## Prefixes -/

theorem trimHexPrefix_cons (s : List Char) : trimHexPrefix ('0' :: 'x' :: s) = trimHexPrefix s := by
  rw [trimHexPrefix]

/-- A text loses its prefix, or it starts with none. -/
theorem trimHexPrefix_cases (s : List Char) : (∃ t, s = '0' :: 'x' :: t) ∨ (∀ t, s ≠ '0' :: 'x' :: t) ∧ trimHexPrefix s = s := by
  unfold trimHexPrefix
  split
  · next t => exact Or.inl ⟨t, rfl⟩
  · next h => exact Or.inr ⟨h, rfl⟩

/-- A literal is what is left after the prefixes, if there was one at most. -/
theorem denotes_iff (s : String) (b : Bytes) : Denotes s b ↔
    decodeHex (trimHexPrefix (trim s.toList)) = some b ∧ ∀ t, trim s.toList ≠ '0' :: 'x' :: '0' :: 'x' :: t := by
  unfold Denotes
  generalize trim s.toList = text
  obtain ⟨t, rfl⟩ | ⟨hnone, heq⟩ := trimHexPrefix_cases text
  · rw [trimHexPrefix_cons]
    obtain ⟨u, rfl⟩ | ⟨hnone, heq⟩ := trimHexPrefix_cases t
    · constructor
      · rintro ⟨digits, rfl | heq, hb⟩
        · cases hb
        · rw [← (List.cons.inj (List.cons.inj heq).2).2] at hb
          cases hb
      · rintro ⟨-, h⟩
        exact absurd rfl (h u)
    · rw [heq]
      constructor
      · rintro ⟨digits, rfl | heq, hb⟩
        · cases hb
        · obtain rfl := (List.cons.inj (List.cons.inj heq).2).2
          exact ⟨hb, fun u h => hnone u (List.cons.inj (List.cons.inj h).2).2⟩
      · rintro ⟨hb, -⟩
        exact ⟨t, Or.inr rfl, hb⟩
  · rw [heq]
    constructor
    · rintro ⟨digits, rfl | rfl, hb⟩
      · exact ⟨hb, fun u => hnone _⟩
      · exact absurd rfl (hnone digits)
    · rintro ⟨hb, -⟩
      exact ⟨text, Or.inl rfl, hb⟩

/-! ## The texts read right -/

/-- What has to hold of a text for the parser to be right about it: behind all its prefixes no pair of bytes splits a
character before a pair is no number, and where every pair is one, none has a sign and there is one prefix at most. -/
def Unambiguous (s : String) : Prop :=
  let digits := trimHexPrefix (trim s.toList)
  (utf8 digits).length % 2 = 0 →
    ¬Splits digits ∧ (Numerals digits → '+' ∉ digits ∧ ∀ t, trim s.toList ≠ '0' :: 'x' :: '0' :: 'x' :: t)

/-- The parser reads a text right exactly when the text is unambiguous. -/
theorem parse_hex_reads_iff (s : String) : ReadsLiteral s ↔ Unambiguous s := by
  unfold ReadsLiteral Unambiguous parseHex
  simp only [denotes_iff]
  generalize trimHexPrefix (trim s.toList) = digits
  by_cases hodd : (utf8 digits).length % 2 ≠ 0
  · rw [if_pos hodd]
    refine iff_of_true ⟨_, rfl, fun b => ?_⟩ fun h => absurd h hodd
    refine iff_of_false (nomatch ·) fun h => hodd (decodeHex_numerals h.1).1.even
  · rw [if_neg hodd]
    have heven := not_not.1 hodd
    have houtcome := hexBytes_outcome [] digits ((utf8 digits).length / 2) (by omega)
    rw [List.nil_append, show (utf8 []).length = 0 from rfl] at houtcome
    generalize hexBytes _ _ _ = r at houtcome ⊢
    cases houtcome with
    | @read b hnum hb =>
      constructor
      · rintro ⟨r, ⟨⟩, hr⟩ -
        obtain ⟨hdecode, hprefix⟩ := (hr b).1 rfl
        exact ⟨hnum.not_splits, fun _ => ⟨(decodeHex_numerals hdecode).2, hprefix⟩⟩
      · intro h
        obtain ⟨hplus, hprefix⟩ := (h heven).2 hnum
        refine ⟨_, rfl, fun b' => ?_⟩
        rw [hb hplus, Except.ok.injEq, Option.some.injEq, and_iff_left hprefix]
    | split hsplit =>
      refine iff_of_false ?_ fun h => (h heven).1 hsplit
      rintro ⟨r, hr, -⟩
      cases hr
    | refused hnum hsplit =>
      refine iff_of_true ⟨_, rfl, fun b => ?_⟩ fun _ => ⟨hsplit, fun h => absurd h hnum⟩
      exact iff_of_false (nomatch ·) fun h => hnum (decodeHex_numerals h.1).1

/-- A sign is taken for a digit, a second prefix is removed, and a character of two bytes in the wrong place panics. -/
theorem parse_hex_signed_prefixed_split :
    (¬ReadsLiteral "+f" ∧ parseHex "+f" = .ok (.ok [0x0f])) ∧
      (¬ReadsLiteral "0x0x00" ∧ parseHex "0x0x00" = .ok (.ok [0x00])) ∧
        ¬ReadsLiteral "aéb" ∧ parseHex "aéb" = .error .charBoundary := by
  have hruns : parseHex "+f" = .ok (.ok [0x0f]) ∧ parseHex "0x0x00" = .ok (.ok [0x00]) ∧
      parseHex "aéb" = .error .charBoundary := by decide +kernel
  obtain ⟨hsigned, hprefixed, hsplit⟩ := hruns
  have hdenotes {s : String} {b : Bytes} (h : parseHex s = .ok (.ok b)) (hs : ReadsLiteral s) :
      decodeHex (trimHexPrefix (trim s.toList)) = some b ∧ ∀ t, trim s.toList ≠ '0' :: 'x' :: '0' :: 'x' :: t := by
    obtain ⟨r, hr, hb⟩ := hs
    rw [h] at hr
    cases hr
    exact (denotes_iff s b).1 ((hb b).1 rfl)
  refine ⟨⟨fun h => ?_, hsigned⟩, ⟨fun h => ?_, hprefixed⟩, fun h => ?_, hsplit⟩
  · exact (decodeHex_numerals (hdenotes hsigned h).1).2 (by decide +kernel)
  · exact (hdenotes hprefixed h).2 ['0', '0'] (by decide +kernel)
  · obtain ⟨r, hr, -⟩ := h
    rw [hsplit] at hr
    cases hr

end Xahc.Cli

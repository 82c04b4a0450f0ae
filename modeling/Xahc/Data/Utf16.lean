/-
JavaScript strings as UTF-16 code units, and their quoted form in JSON text: one character or lone
surrogate at a time, escaped where JSON asks for it, and read back.
-/
import Xahc.Data.Bytes

namespace Xahc.Data

/-! ## Code units -/

/-- A JavaScript string: its UTF-16 code units, among them surrogates without a partner. -/
abbrev JsStr := List UInt16

/-- The code units of a character: itself, or a surrogate pair. -/
def charUnits (c : Char) : JsStr :=
  if c.toNat < 0x10000 then [UInt16.ofNat c.toNat]
  else
    [UInt16.ofNat (0xD800 + (c.toNat - 0x10000) / 0x400), UInt16.ofNat (0xDC00 + (c.toNat - 0x10000) % 0x400)]

/-- A string in UTF-16. -/
def utf16 (s : String) : JsStr := s.toList.flatMap charUnits

/-- A character, or a surrogate without a partner. -/
inductive CodePoint
  | scalar (c : Char)
  | lone (u : UInt16)
  deriving DecidableEq, Repr

/-- The units of a code point. -/
def CodePoint.units : CodePoint → JsStr
  | .scalar c => charUnits c
  | .lone u => [u]

/-- The first unit of a surrogate pair. -/
def isHighSurrogate (u : UInt16) : Bool := 0xD800 ≤ u.toNat && u.toNat < 0xDC00

/-- The second unit of a surrogate pair. -/
def isLowSurrogate (u : UInt16) : Bool := 0xDC00 ≤ u.toNat && u.toNat < 0xE000

/-- A unit that is not the first of a pair. -/
def singleUnit (u : UInt16) : CodePoint :=
  if isHighSurrogate u || isLowSurrogate u then .lone u else .scalar (Char.ofNat u.toNat)

/-- The code points of a string of units; a surrogate without its partner stands alone. -/
def codePoints : JsStr → List CodePoint
  | u :: v :: rest =>
    -- two surrogates that fit are one character
    if isHighSurrogate u && isLowSurrogate v then
      .scalar (Char.ofNat (0x10000 + (u.toNat - 0xD800) * 0x400 + (v.toNat - 0xDC00))) :: codePoints rest
    else singleUnit u :: codePoints (v :: rest)
  | [u] => [singleUnit u]
  | [] => []

theorem toNat_ofNat_valid {n : Nat} (h : n.isValidChar) : (Char.ofNat n).toNat = n := by
  rw [Char.ofNat, dif_pos h]
  rfl

theorem singleUnit_units (u : UInt16) : (singleUnit u).units = [u] := by
  unfold singleUnit
  split_ifs with hs
  · rfl
  · have hlt := u.toNat_lt
    have hvalid : u.toNat.isValidChar := by
      simp only [isHighSurrogate, isLowSurrogate, Bool.or_eq_true, Bool.and_eq_true, decide_eq_true_eq] at hs
      unfold Nat.isValidChar
      omega
    rw [CodePoint.units, charUnits, toNat_ofNat_valid hvalid, if_pos (by omega), UInt16.ofNat_toNat]

/-- A pair of surrogates is the character beyond the first 65536 that it encodes. -/
theorem charUnits_pair {u v : UInt16} (hu : isHighSurrogate u = true) (hv : isLowSurrogate v = true) :
    charUnits (Char.ofNat (0x10000 + (u.toNat - 0xD800) * 0x400 + (v.toNat - 0xDC00))) = [u, v] := by
  simp only [isHighSurrogate, isLowSurrogate, Bool.and_eq_true, decide_eq_true_eq] at hu hv
  have hvalid : (0x10000 + (u.toNat - 0xD800) * 0x400 + (v.toNat - 0xDC00)).isValidChar := by
    unfold Nat.isValidChar
    omega
  rw [charUnits, toNat_ofNat_valid hvalid, if_neg (by omega)]
  have hhigh : 0xD800 + (0x10000 + (u.toNat - 0xD800) * 0x400 + (v.toNat - 0xDC00) - 0x10000) / 0x400 = u.toNat := by
    omega
  have hlow : 0xDC00 + (0x10000 + (u.toNat - 0xD800) * 0x400 + (v.toNat - 0xDC00) - 0x10000) % 0x400 = v.toNat := by
    omega
  rw [hhigh, hlow, UInt16.ofNat_toNat, UInt16.ofNat_toNat]

theorem codePoints_units (us : JsStr) : (codePoints us).flatMap CodePoint.units = us := by
  fun_induction codePoints us with
  | case1 u v rest hpair ih =>
    rw [Bool.and_eq_true] at hpair
    rw [List.flatMap_cons, ih, CodePoint.units, charUnits_pair hpair.1 hpair.2]
    rfl
  | case2 u v rest _ ih => rw [List.flatMap_cons, ih, singleUnit_units]; rfl
  | case3 u => rw [List.flatMap_cons, singleUnit_units]; rfl
  | case4 => rfl

/-! ## Quoting -/

/-- The letter that stands for a character after a backslash. -/
def escapeLetter (c : Char) : Option Char :=
  if c = '"' then some '"'
  else if c = '\\' then some '\\'
  else if c.toNat = 0x08 then some 'b'
  else if c.toNat = 0x0C then some 'f'
  else if c = '\n' then some 'n'
  else if c = '\r' then some 'r'
  else if c = '\t' then some 't'
  else none

/-- The unit that a letter stands for after a backslash. -/
def unescape (e : Char) : Option UInt16 :=
  if e = '"' then some 0x22
  else if e = '\\' then some 0x5C
  else if e = '/' then some 0x2F
  else if e = 'b' then some 0x08
  else if e = 'f' then some 0x0C
  else if e = 'n' then some 0x0A
  else if e = 'r' then some 0x0D
  else if e = 't' then some 0x09
  else none

/-- Four hex digits. -/
def hex4 (u : UInt16) : List Char :=
  [u.toNat / 4096, u.toNat / 256 % 16, u.toNat / 16 % 16, u.toNat % 16].map lowerHexDigit

/-- The unit four hex digits spell. -/
def readHex4 (a b c d : Char) : Option UInt16 := do
  let a ← hexVal a
  let b ← hexVal b
  let c ← hexVal c
  let d ← hexVal d
  return UInt16.ofNat (((a * 16 + b) * 16 + c) * 16 + d)

/-- A code point as `JSON.stringify` writes it: escaped where it has to be. -/
def quoteCodePoint : CodePoint → List Char
  | .scalar c =>
    match escapeLetter c with
    | some e => ['\\', e]
    | none => if c.toNat < 0x20 then '\\' :: 'u' :: hex4 (UInt16.ofNat c.toNat) else [c]
  | .lone u => '\\' :: 'u' :: hex4 u

/-- `JSON.stringify` of a string. -/
def quote (s : JsStr) : List Char := '"' :: (codePoints s).flatMap quoteCodePoint ++ ['"']

/-- The rest of a quoted string, after its opening quotation mark. -/
def readString : List Char → Option (JsStr × List Char)
  | [] => none
  | c :: rest =>
    if c = '"' then some ([], rest)
    else if c = '\\' then
      match rest with
      | 'u' :: a :: b :: c :: d :: rest =>
        (readHex4 a b c d).bind fun u => (readString rest).map fun r => (u :: r.1, r.2)
      | e :: rest => (unescape e).bind fun u => (readString rest).map fun r => (u :: r.1, r.2)
      | [] => none
    -- control characters may not stand for themselves
    else if c.toNat < 0x20 then none
    else (readString rest).map fun r => (charUnits c ++ r.1, r.2)

/-! ## Reading back -/

theorem unescape_escapeLetter {c e : Char} (h : escapeLetter c = some e) :
    e ≠ 'u' ∧ unescape e = some (UInt16.ofNat c.toNat) ∧ charUnits c = [UInt16.ofNat c.toNat] := by
  have hunits : c.toNat < 0x10000 → charUnits c = [UInt16.ofNat c.toNat] := fun hlt => if_pos hlt
  unfold escapeLetter at h
  split_ifs at h with hquote hback hb hf hn hr ht <;> obtain rfl := Option.some.inj h
  · subst hquote
    decide
  · subst hback
    decide
  · rw [hb]
    exact ⟨by decide, by decide, hb ▸ hunits (by omega)⟩
  · rw [hf]
    exact ⟨by decide, by decide, hf ▸ hunits (by omega)⟩
  · subst hn
    decide
  · subst hr
    decide
  · subst ht
    decide

theorem readHex4_hex4 (u : UInt16) :
    ∃ a b c d, hex4 u = [a, b, c, d] ∧ readHex4 a b c d = some u := by
  have hlt := u.toNat_lt
  refine ⟨_, _, _, _, rfl, ?_⟩
  have hval : ((u.toNat / 4096 * 16 + u.toNat / 256 % 16) * 16 + u.toNat / 16 % 16) * 16 + u.toNat % 16 = u.toNat := by
    omega
  simp only [readHex4, hexVal_lowerHexDigit (show u.toNat / 4096 < 16 by omega),
    hexVal_lowerHexDigit (show u.toNat / 256 % 16 < 16 by omega),
    hexVal_lowerHexDigit (show u.toNat / 16 % 16 < 16 by omega),
    hexVal_lowerHexDigit (show u.toNat % 16 < 16 by omega), Option.bind_eq_bind, Option.bind_some, hval,
    UInt16.ofNat_toNat, Option.pure_def]

theorem readString_hex4 (u : UInt16) (rest : List Char) :
    readString ('\\' :: 'u' :: hex4 u ++ rest) = (readString rest).map fun r => (u :: r.1, r.2) := by
  obtain ⟨a, b, c, d, hhex, hread⟩ := readHex4_hex4 u
  rw [hhex]
  show readString ('\\' :: 'u' :: a :: b :: c :: d :: rest) = _
  rw [readString, if_neg (by decide), if_pos rfl]
  simp only [hread, Option.bind_some]

/-- A quoted code point is read as its units. -/
theorem readString_quoteCodePoint (p : CodePoint) (rest : List Char) :
    readString (quoteCodePoint p ++ rest) = (readString rest).map fun r => (p.units ++ r.1, r.2) := by
  cases p with
  | lone u => exact readString_hex4 u rest
  | scalar c =>
    unfold quoteCodePoint
    dsimp only
    split
    · rename_i e he
      obtain ⟨hne, hunescape, hunits⟩ := unescape_escapeLetter he
      show readString ('\\' :: e :: rest) = _
      rw [readString.eq_def, CodePoint.units, hunits]
      dsimp only
      rw [if_neg (by decide), if_pos rfl]
      split
      · rename_i heq
        exact absurd (List.cons.inj heq).1 hne
      · rename_i heq
        obtain ⟨rfl, rfl⟩ := List.cons.inj heq
        rw [hunescape, Option.bind_some]
        rfl
      · rename_i heq
        cases heq
    · rename_i hnone
      split_ifs with hcontrol
      · have hunits : (CodePoint.scalar c).units = [UInt16.ofNat c.toNat] := if_pos (by omega)
        rw [hunits]
        exact readString_hex4 _ rest
      · show readString (c :: rest) = _
        have hquote : c ≠ '"' := by
          rintro rfl
          cases hnone
        have hback : c ≠ '\\' := by
          rintro rfl
          cases hnone
        rw [readString.eq_def]
        dsimp only
        -- a character that needs no escape is none of the three the reader looks for
        rw [if_neg hquote, if_neg hback, if_neg hcontrol]
        rfl

theorem readString_flatMap (ps : List CodePoint) (rest : List Char) :
    readString (ps.flatMap quoteCodePoint ++ '"' :: rest) = some (ps.flatMap CodePoint.units, rest) := by
  induction ps with
  | nil =>
    show readString ('"' :: rest) = _
    rw [readString.eq_def]
    rfl
  | cons p ps ih =>
    rw [List.flatMap_cons, List.append_assoc, readString_quoteCodePoint, ih]
    rfl

/-- A quoted string is read back, whatever follows it. -/
theorem readString_quote (s : JsStr) (rest : List Char) :
    ∃ body, quote s ++ rest = '"' :: body ∧ readString body = some (s, rest) := by
  refine ⟨(codePoints s).flatMap quoteCodePoint ++ '"' :: rest, by simp [quote], ?_⟩
  rw [readString_flatMap, codePoints_units]

/-! ## UTF-8 -/

/-- The UTF-8 bytes of a text. -/
def utf8 (text : List Char) : Bytes := text.flatMap String.utf8EncodeChar

theorem utf8_injective : Function.Injective utf8 := by
  intro a b h
  have hbytes : (String.ofList a).toByteArray = (String.ofList b).toByteArray := by
    rw [String.toByteArray_ofList, String.toByteArray_ofList]
    exact congrArg List.toByteArray h
  exact String.ofList_inj.1 (String.toByteArray_inj.1 hbytes)

end Xahc.Data

/-
The transaction types a hook fires on: how a list of names and numbers is read, the 256-bit mask it becomes, and what
the ledger reads off that mask.
-/
import Xahc.Cli.ParseHex
import Xahc.Data.Json

namespace Xahc.Cli

open Xahc.Data Xahc.Chain

/-! ## The table -/

/-- Every transaction type, with its number. -/
def TX_TYPES : List (String × Nat) :=
  [("Payment", 0), ("EscrowCreate", 1), ("EscrowFinish", 2), ("AccountSet", 3), ("EscrowCancel", 4),
   ("SetRegularKey", 5), ("NicknameSet", 6), ("OfferCreate", 7), ("OfferCancel", 8), ("Contract", 9),
   ("TicketCreate", 10), ("SpinalTap", 11), ("SignerListSet", 12), ("PaymentChannelCreate", 13),
   ("PaymentChannelFund", 14), ("PaymentChannelClaim", 15), ("CheckCreate", 16), ("CheckCash", 17),
   ("CheckCancel", 18), ("DepositPreauth", 19), ("TrustSet", 20), ("AccountDelete", 21), ("SetHook", 22),
   ("NFTokenMint", 25), ("NFTokenBurn", 26), ("NFTokenCreateOffer", 27), ("NFTokenCancelOffer", 28),
   ("NFTokenAcceptOffer", 29), ("Clawback", 30), ("URITokenMint", 45), ("URITokenBurn", 46), ("URITokenBuy", 47),
   ("URITokenCreateSellOffer", 48), ("URITokenCancelSellOffer", 49), ("Cron", 92), ("CronSet", 93),
   ("SetRemarks", 94), ("Remit", 95), ("GenesisMint", 96), ("Import", 97), ("ClaimReward", 98), ("Invoke", 99),
   ("Amendment", 100), ("Fee", 101), ("UNLModify", 102), ("EmitFailure", 103), ("UNLReport", 104)]

/-- The bit of `ttHOOK_SET`, which is the one that fires when set. -/
def SETHOOK_BIT : Nat := 22

/-! ## The mask -/

/-- Bit `n` set, counted from the last byte. -/
def setBit (buf : Bytes) (n : Nat) : Bytes := buf.modify (31 - n / 8) (· ||| 1 <<< UInt8.ofNat (n % 8))

/-- Bit `n` cleared. -/
def clearBit (buf : Bytes) (n : Nat) : Bytes := buf.modify (31 - n / 8) (· &&& ~~~(1 <<< UInt8.ofNat (n % 8)))

/-- What one row of the table does to the mask. -/
def encodeType (want : Finset Nat) (buf : Bytes) (v : Nat) : Bytes :=
  if v = SETHOOK_BIT then
    if v ∈ want then setBit buf v else clearBit buf v
  else if v ∈ want then clearBit buf v
  else buf

/-- The mask of a set of types, in hex. -/
def encodeHookOn (want : Finset Nat) : List Char :=
  encodeHex (TX_TYPES.foldl (fun buf row => encodeType want buf row.2) (List.replicate 32 0xFF))

/-! ## The list -/

/-- One digit more of a decimal number that stays a `u32`. -/
def u32Digit (n : Nat) (c : Char) : Option Nat :=
  if c.isDigit ∧ n * 10 + (c.toNat - 48) < 2 ^ 32 then some (n * 10 + (c.toNat - 48)) else none

/-- `str::parse::<u32>`: a plus sign may stand before the digits. -/
def parseU32 : List Char → Option Nat
  | [] => none
  | '+' :: s => if s = [] then none else s.foldlM u32Digit 0
  | s => s.foldlM u32Digit 0

/-- The number of a type given by number or by name. -/
def resolveTxType (spec : List Char) : Except String Nat :=
  let tok := trim spec
  match parseU32 tok with
  | some n =>
    if TX_TYPES.any (·.2 == n) then .ok n
    else .error s!"transaction-type number {n} is not a known Xahau type"
  | none =>
    match TX_TYPES.find? (·.1.toList == tok) with
    | some (_, v) => .ok v
    | none => .error ("unknown transaction type `" ++ String.ofList tok ++ "` (use a name like Payment or a number)")

/-- The items of a list, without the white space around them and without the empty ones. -/
def tokens (spec : String) : List (List Char) := ((spec.toList.splitOn ',').map trim).filter (· ≠ [])

/-- The types of a comma-separated list. -/
def parseTypes (spec : String) : Except String (Finset Nat) :=
  (tokens spec).foldlM (fun out tok => do return insert (← resolveTxType tok) out) ∅

/-! ## What a list and a mask mean -/

/-- A number as text. -/
def Numeral (tok : List Char) (n : Nat) : Prop :=
  ∃ digits, digits ≠ [] ∧ (tok = digits ∨ tok = '+' :: digits) ∧ (∀ c ∈ digits, c.isDigit = true) ∧ digitsNat digits = n

/-- An item names a type, or gives its number. -/
def Names (tok : List Char) (n : Nat) : Prop :=
  (∃ name, (name, n) ∈ TX_TYPES ∧ name.toList = tok) ∨ Numeral tok n ∧ ∃ name, (name, n) ∈ TX_TYPES

/-- The list has a token for the type. -/
def Listed (spec : String) (n : Nat) : Prop := ∃ tok ∈ tokens spec, Names tok n

/-- The ledger's rule: a hook fires on a type whose bit is zero, and on the setting of hooks when its bit is one. -/
def fires (hex : List Char) (n : Nat) : Bool :=
  if n = SETHOOK_BIT then (hexNat hex).testBit n else !(hexNat hex).testBit n

/-! ## Bits -/

/-- The bit of a big-endian byte string. -/
def bit (b : Bytes) (n : Nat) : Bool := (b[b.length - 1 - n / 8]?.getD 0).toNat.testBit (n % 8)

theorem testBit_beNat {b : Bytes} {n : Nat} (h : n < 8 * b.length) : (beNat b).testBit n = bit b n := by
  induction b with
  | nil => exact absurd h (Nat.not_lt_zero _)
  | cons x b ih =>
    have hlt := beNat_lt b
    have hpow : (256 : Nat) ^ b.length = 2 ^ (8 * b.length) := by rw [pow_mul]; rfl
    rw [beNat_cons, mul_comm, hpow, Nat.testBit_two_pow_mul_add _ (hpow ▸ hlt)]
    unfold bit
    rw [List.length_cons, Nat.add_sub_cancel]
    rw [List.length_cons] at h
    by_cases hn : n < 8 * b.length
    · rw [if_pos hn, ih hn, bit]
      obtain ⟨i, hi⟩ : ∃ i, b.length - n / 8 = i + 1 := ⟨b.length - 1 - n / 8, by omega⟩
      rw [hi, List.getElem?_cons_succ, show b.length - 1 - n / 8 = i by omega]
    · rw [if_neg hn, show b.length - n / 8 = 0 by omega, List.getElem?_cons_zero,
        Option.getD_some, show n - 8 * b.length = n % 8 by omega]

theorem bit_modify {b : Bytes} {n m : Nat} {f : UInt8 → UInt8} (hb : b.length = 32) (hn : n < 256) (hm : m < 256) :
    bit (b.modify (31 - m / 8) f) n =
      if n / 8 = m / 8 then (f (b[31 - m / 8]?.getD 0)).toNat.testBit (n % 8) else bit b n := by
  have hlt : 31 - n / 8 < b.length := by omega
  unfold bit
  rw [List.length_modify, hb, show 32 - 1 - n / 8 = 31 - n / 8 from rfl, List.getElem?_modify, List.getElem?_eq_getElem hlt,
    Option.map_eq_map, Option.map_some]
  by_cases h : n / 8 = m / 8
  · rw [if_pos h, ← h, List.getElem?_eq_getElem hlt, if_pos rfl]
    rfl
  · rw [if_neg h, if_neg (by omega)]

/-- The bits of a mask of one bit, and of its complement. -/
theorem mask_bit {k n : Nat} (hk : k < 8) (hn : n < 8) :
    (1 <<< UInt8.ofNat k).toNat.testBit n = decide (n = k) ∧
      (~~~(1 <<< UInt8.ofNat k)).toNat.testBit n = !decide (n = k) := by
  interval_cases k <;> interval_cases n <;> decide

section
variable {buf : Bytes} {want : Finset Nat} {n v : Nat}

theorem bit_setBit (hb : buf.length = 32) (hn : n < 256) (hv : v < 256) :
    bit (setBit buf v) n = if n = v then true else bit buf n := by
  have hmask := (mask_bit (Nat.mod_lt v (by decide)) (Nat.mod_lt n (by decide))).1
  rw [setBit, bit_modify hb hn hv, UInt8.toNat_or, Nat.testBit_or, hmask]
  by_cases hbyte : n / 8 = v / 8
  · rw [if_pos hbyte]
    by_cases h : n = v
    · rw [if_pos h, decide_eq_true (congrArg (· % 8) h), Bool.or_true]
    · rw [if_neg h, decide_eq_false (by omega), Bool.or_false, bit, hb, ← hbyte]
  · rw [if_neg hbyte, if_neg fun h => hbyte (congrArg (· / 8) h)]

theorem bit_clearBit (hb : buf.length = 32) (hn : n < 256) (hv : v < 256) :
    bit (clearBit buf v) n = if n = v then false else bit buf n := by
  have hmask := (mask_bit (Nat.mod_lt v (by decide)) (Nat.mod_lt n (by decide))).2
  rw [clearBit, bit_modify hb hn hv, UInt8.toNat_and, Nat.testBit_and, hmask]
  by_cases hbyte : n / 8 = v / 8
  · rw [if_pos hbyte]
    by_cases h : n = v
    · rw [if_pos h, decide_eq_true (congrArg (· % 8) h), Bool.not_true, Bool.and_false]
    · rw [if_neg h, decide_eq_false (by omega), Bool.not_false, Bool.and_true, bit, hb, ← hbyte]
  · rw [if_neg hbyte, if_neg fun h => hbyte (congrArg (· / 8) h)]

theorem encodeType_length : (encodeType want buf v).length = buf.length := by
  unfold encodeType setBit clearBit
  split_ifs <;> simp

/-- A row decides its own bit, unless the type is one not asked for, and no other. -/
theorem bit_encodeType (hb : buf.length = 32) (hn : n < 256) (hv : v < 256) :
    bit (encodeType want buf v) n =
      if n = v then (if v = SETHOOK_BIT then decide (v ∈ want) else !decide (v ∈ want) && bit buf n) else bit buf n := by
  unfold encodeType
  by_cases hset : v = SETHOOK_BIT
  · rw [if_pos hset, if_pos hset]
    by_cases hwant : v ∈ want
    · rw [if_pos hwant, bit_setBit hb hn hv, decide_eq_true hwant]
    · rw [if_neg hwant, bit_clearBit hb hn hv, decide_eq_false hwant]
  · rw [if_neg hset, if_neg hset]
    by_cases hwant : v ∈ want
    · rw [if_pos hwant, bit_clearBit hb hn hv, decide_eq_true hwant, Bool.not_true, Bool.false_and]
    · rw [if_neg hwant, decide_eq_false hwant, Bool.not_false, Bool.true_and, ite_self]

/-- The bit a mask has to have for a type: rows of the table have their say, every other bit stays one. -/
def wantedBit (want : Finset Nat) (rows : List (String × Nat)) (n : Nat) : Bool :=
  if n ∈ rows.map Prod.snd then (if n = SETHOOK_BIT then decide (n ∈ want) else !decide (n ∈ want)) else true

theorem bit_encode_rows (rows : List (String × Nat)) (hrows : ∀ row ∈ rows, row.2 < 256) (hn : n < 256) :
    (rows.foldl (fun buf row => encodeType want buf row.2) (List.replicate 32 0xFF)).length = 32 ∧
      bit (rows.foldl (fun buf row => encodeType want buf row.2) (List.replicate 32 0xFF)) n = wantedBit want rows n := by
  induction rows using List.reverseRecOn with
  | nil =>
    refine ⟨rfl, ?_⟩
    have hlt : 31 - n / 8 < 32 := by omega
    have hbits : ∀ k, k < 8 → (0xFF : UInt8).toNat.testBit k = true := by decide
    rw [List.foldl_nil, bit, List.length_replicate, List.getElem?_replicate, if_pos hlt, Option.getD_some]
    exact hbits _ (Nat.mod_lt _ (by decide))
  | append_singleton rows row ih =>
    obtain ⟨hlen, hbit⟩ := ih fun r hr => hrows r (List.mem_append_left _ hr)
    have hrow := hrows row (List.mem_append_right _ (List.mem_singleton_self _))
    rw [List.foldl_append, List.foldl_cons, List.foldl_nil]
    refine ⟨encodeType_length.trans hlen, ?_⟩
    rw [bit_encodeType hlen hn hrow, hbit]
    simp only [wantedBit, List.map_append, List.mem_append, List.map_singleton, List.mem_singleton]
    by_cases h : n = row.2
    · subst h
      by_cases hset : row.2 = SETHOOK_BIT <;> by_cases hmem : row.2 ∈ rows.map Prod.snd <;>
        by_cases hwant : row.2 ∈ want <;> simp [hset, hmem, hwant]
    · simp [h]

end

theorem fires_encode {want : Finset Nat} (hwant : ∀ n ∈ want, ∃ name, (name, n) ∈ TX_TYPES) {n : Nat} (hn : n < 256) :
    fires (encodeHookOn want) n = true ↔ n ∈ want := by
  have hrows : ∀ row ∈ TX_TYPES, row.2 < 256 := by decide +kernel
  have hset : SETHOOK_BIT ∈ TX_TYPES.map Prod.snd := by decide +kernel
  obtain ⟨hlen, hbit⟩ := @bit_encode_rows want n TX_TYPES hrows hn
  have htest : (hexNat (encodeHookOn want)).testBit n = wantedBit want TX_TYPES n := by
    rw [encodeHookOn, hexNat_encodeHex, testBit_beNat (by omega), hbit]
  unfold fires
  rw [htest, wantedBit]
  by_cases h : n = SETHOOK_BIT
  · rw [if_pos h, if_pos (h ▸ hset), if_pos h, decide_eq_true_iff]
  · rw [if_neg h]
    by_cases hmem : n ∈ TX_TYPES.map Prod.snd
    · rw [if_pos hmem, if_neg h, Bool.not_not, decide_eq_true_iff]
    · rw [if_neg hmem]
      refine iff_of_false Bool.false_ne_true fun hn => hmem ?_
      obtain ⟨name, hname⟩ := hwant n hn
      exact List.mem_map_of_mem hname

/-! ## Reading the list -/

theorem ofDigitChars_le (s : List Char) (acc : Nat) : acc ≤ Nat.ofDigitChars 10 s acc := by
  induction s generalizing acc with
  | nil => exact le_rfl
  | cons c s ih =>
    rw [Nat.ofDigitChars_cons]
    exact le_trans (by omega) (ih _)

/-- Digits that never leave 32 bits on the way are a number of 32 bits. -/
theorem u32_digits_iff {s : List Char} {acc n : Nat} (hacc : acc < 2 ^ 32) :
    s.foldlM u32Digit acc = some n ↔ (∀ c ∈ s, c.isDigit = true) ∧ Nat.ofDigitChars 10 s acc = n ∧ n < 2 ^ 32 := by
  induction s generalizing acc with
  | nil =>
    rw [List.foldlM_nil]
    constructor
    · rintro ⟨⟩
      exact ⟨nofun, rfl, hacc⟩
    · rintro ⟨-, rfl, -⟩
      rfl
  | cons c s ih =>
    rw [List.foldlM_cons, u32Digit, List.forall_mem_cons, Nat.ofDigitChars_cons, Nat.mul_comm 10 acc]
    have hle := ofDigitChars_le s (acc * 10 + (c.toNat - 48))
    by_cases h : c.isDigit = true ∧ acc * 10 + (c.toNat - 48) < 2 ^ 32
    · rw [if_pos h, Option.bind_eq_bind, Option.bind_some, ih h.2, and_iff_right h.1]
      rfl
    · rw [if_neg h]
      refine iff_of_false (nomatch ·) ?_
      rintro ⟨⟨hc, -⟩, heq, hn⟩
      have heq : Nat.ofDigitChars 10 s (acc * 10 + (c.toNat - 48)) = n := heq
      exact h ⟨hc, by omega⟩

theorem parseU32_iff {tok : List Char} {n : Nat} : parseU32 tok = some n ↔ Numeral tok n ∧ n < 2 ^ 32 := by
  have hdigits {s : List Char} (hs : s ≠ []) (hplus : s.head? ≠ some '+') :
      s.foldlM u32Digit 0 = some n ↔ Numeral s n ∧ n < 2 ^ 32 := by
    rw [u32_digits_iff (by decide), ← and_assoc]
    refine and_congr_left fun _ => ⟨fun h => ⟨s, hs, Or.inl rfl, h.1, h.2⟩, ?_⟩
    rintro ⟨digits, -, rfl | rfl, hd, hn⟩
    · exact ⟨hd, hn⟩
    · exact absurd rfl hplus
  -- a plus sign in front is dropped, if digits follow it
  cases tok with
  | nil =>
    refine iff_of_false (nomatch ·) ?_
    rintro ⟨⟨digits, hne, rfl | h, -⟩, -⟩
    · exact hne rfl
    · cases h
  | cons c s =>
    by_cases hc : c = '+'
    · subst hc
      rw [parseU32]
      by_cases hs : s = []
      · rw [if_pos hs, hs]
        refine iff_of_false (nomatch ·) ?_
        rintro ⟨⟨digits, hne, rfl | h, hd, -⟩, -⟩
        · exact absurd (hd '+' (List.mem_singleton_self _)) (by decide)
        · exact hne (List.cons.inj h).2.symm
      · rw [if_neg hs, u32_digits_iff (by decide), ← and_assoc]
        refine and_congr_left fun _ => ⟨fun h => ⟨s, hs, Or.inr rfl, h.1, h.2⟩, ?_⟩
        rintro ⟨digits, -, rfl | h, hd, hn⟩
        · exact absurd (hd '+' List.mem_cons_self) (by decide)
        · obtain rfl := (List.cons.inj h).2
          exact ⟨hd, hn⟩
    · rw [parseU32, hdigits (List.cons_ne_nil _ _) fun h => hc (Option.some.inj h)]
      · exact nofun
      · rintro s' h
        exact hc (List.cons.inj h).1

theorem names_nodup : (TX_TYPES.map Prod.fst).Nodup := by decide +kernel

theorem names_no_numerals : ∀ row ∈ TX_TYPES, parseU32 row.1.toList = none := by decide +kernel

theorem type_lt {name : String} {n : Nat} (h : (name, n) ∈ TX_TYPES) : n < 256 := by
  have hrows : ∀ row ∈ TX_TYPES, row.2 < 256 := by decide +kernel
  exact hrows _ h

theorem numeral_parses {tok : List Char} {name : String} {n : Nat} (h : Numeral tok n) (hn : (name, n) ∈ TX_TYPES) :
    parseU32 tok = some n :=
  parseU32_iff.2 ⟨h, lt_trans (type_lt hn) (by decide)⟩

/-- An item resolves to the one type it names. -/
theorem resolveTxType_iff {spec : List Char} {n : Nat} : resolveTxType spec = .ok n ↔ Names (trim spec) n := by
  unfold resolveTxType Names
  generalize trim spec = tok
  dsimp only
  -- a spec that reads as a number is looked up by value alone, and no name reads as a number
  cases hparse : parseU32 tok with
  | some m =>
    have hany : TX_TYPES.any (·.2 == m) = true ↔ ∃ name, (name, m) ∈ TX_TYPES := by
      rw [List.any_eq_true]
      constructor
      · rintro ⟨⟨name, v⟩, hrow, hv⟩
        obtain rfl : v = m := beq_iff_eq.1 hv
        exact ⟨name, hrow⟩
      · rintro ⟨name, hrow⟩
        exact ⟨_, hrow, beq_self_eq_true m⟩
    dsimp only
    constructor
    · intro h
      by_cases hm : TX_TYPES.any (·.2 == m) = true
      · rw [if_pos hm] at h
        cases h
        exact Or.inr ⟨(parseU32_iff.1 hparse).1, hany.1 hm⟩
      · rw [if_neg hm] at h
        cases h
    · rintro (⟨name, hrow, rfl⟩ | ⟨hnum, name, hrow⟩)
      · cases (names_no_numerals _ hrow).symm.trans hparse
      · cases (numeral_parses hnum hrow).symm.trans hparse
        rw [if_pos (hany.2 ⟨name, hrow⟩)]
  | none =>
    dsimp only
    cases hfind : TX_TYPES.find? (·.1.toList == tok) with
    | some row =>
      obtain ⟨name, v⟩ := row
      have hrow := List.mem_of_find?_eq_some hfind
      have hname : name.toList = tok := by simpa using List.find?_some hfind
      dsimp only
      constructor
      · rintro ⟨⟩
        exact Or.inl ⟨name, hrow, hname⟩
      · rintro (⟨name', hrow', heq⟩ | ⟨hnum, name', hrow'⟩)
        · obtain rfl := String.toList_inj.1 (heq.trans hname.symm)
          cases List.inj_on_of_nodup_map names_nodup hrow hrow' rfl
          rfl
        · cases (numeral_parses hnum hrow').symm.trans hparse
    | none =>
      refine iff_of_false (nomatch ·) ?_
      rintro (⟨name, hrow, rfl⟩ | ⟨hnum, name, hrow⟩)
      · exact List.find?_eq_none.1 hfind _ hrow (beq_self_eq_true _)
      · cases (numeral_parses hnum hrow).symm.trans hparse

theorem trim_trim (s : List Char) : trim (trim s) = trim s := by
  have hhead : (trim s).dropWhile isWhitespace = trim s := by
    rw [List.dropWhile_eq_self_iff]
    intro hpos
    obtain ⟨t, ht⟩ := List.rdropWhile_prefix isWhitespace (s.dropWhile isWhitespace)
    have hlen : 0 < (s.dropWhile isWhitespace).length := by
      rw [← ht, List.length_append]
      exact Nat.add_pos_left hpos _
    have hfirst : (trim s)[0] = (s.dropWhile isWhitespace)[0] :=
      (List.getElem_append_left hpos).symm.trans (List.getElem_of_eq ht (by rwa [ht]))
    rw [hfirst]
    exact Bool.not_eq_true _ ▸ List.dropWhile_get_zero_not _ _ hlen
  rw [trim, hhead]
  exact List.rdropWhile_idempotent _ _

theorem parseTypes_from {toks : List (List Char)} {out want : Finset Nat}
    (h : toks.foldlM (fun out tok => do return insert (← resolveTxType tok) out) out = .ok want) (n : Nat) :
    n ∈ want ↔ n ∈ out ∨ ∃ tok ∈ toks, Names (trim tok) n := by
  induction toks generalizing out with
  | nil =>
    cases h
    simp
  | cons tok toks ih =>
    rw [List.foldlM_cons] at h
    cases hv : resolveTxType tok with
    | error e =>
      rw [hv] at h
      cases h
    | ok v =>
      rw [hv] at h
      have hnames : Names (trim tok) n ↔ n = v := by
        rw [← resolveTxType_iff, hv, Except.ok.injEq, eq_comm]
      simp only [ih h, Finset.mem_insert, List.mem_cons, exists_eq_or_imp, hnames, or_assoc, or_left_comm]

/-- The set a list is read into is the set of the types it lists. -/
theorem parseTypes_listed {spec : String} {want : Finset Nat} (h : parseTypes spec = .ok want) (n : Nat) :
    n ∈ want ↔ Listed spec n := by
  rw [parseTypes_from h n, Listed]
  have htrim : ∀ tok ∈ tokens spec, trim tok = tok := by
    intro tok htok
    obtain ⟨s, -, rfl⟩ := List.mem_map.1 (List.mem_filter.1 htok).1
    exact trim_trim s
  constructor
  · rintro (h | ⟨tok, htok, hn⟩)
    · cases h
    · exact ⟨tok, htok, htrim tok htok ▸ hn⟩
  · rintro ⟨tok, htok, hn⟩
    exact Or.inr ⟨tok, htok, (htrim tok htok).symm ▸ hn⟩

theorem Names.row {tok : List Char} {n : Nat} (h : Names tok n) : ∃ name, (name, n) ∈ TX_TYPES := by
  rcases h with ⟨name, hrow, -⟩ | ⟨-, hrow⟩
  · exact ⟨name, hrow⟩
  · exact hrow

/-- Whatever list of types is accepted, the ledger reads exactly the listed types off its mask, and two lists of the
same types have the same mask. -/
theorem hook_on_fires_iff_listed {spec : String} {want : Finset Nat} (h : parseTypes spec = .ok want) :
    (encodeHookOn want).length = 64 ∧ (∀ n < 256, fires (encodeHookOn want) n = true ↔ Listed spec n) ∧
      (∀ n, Listed spec n → n < 256) ∧
        ∀ spec' want', parseTypes spec' = .ok want' → (∀ n, Listed spec' n ↔ Listed spec n) →
          encodeHookOn want' = encodeHookOn want := by
  have hlisted := parseTypes_listed h
  have hrow (n : Nat) (hn : Listed spec n) : ∃ name, (name, n) ∈ TX_TYPES := by
    obtain ⟨tok, -, hn⟩ := hn
    exact hn.row
  refine ⟨?_, fun n hn => ?_, fun n hn => type_lt (hrow n hn).choose_spec, fun spec' want' h' hsame => ?_⟩
  · have hrows : ∀ row ∈ TX_TYPES, row.2 < 256 := by decide +kernel
    rw [encodeHookOn, encodeHex_length, (bit_encode_rows TX_TYPES hrows (show 0 < 256 by decide)).1]
  · rw [fires_encode (fun n hn => hrow n ((hlisted n).1 hn)) hn, hlisted]
  · have heq : want' = want := by
      ext n
      rw [parseTypes_listed h', hlisted, hsame]
    rw [heq]

/-- A payment, listed twice, and the setting of hooks. -/
theorem hook_on_fires_iff_listed_sample :
    ∃ want, parseTypes "Payment, 22,+0" = .ok want ∧ (fires (encodeHookOn want) 22 = true ↔ Listed "Payment, 22,+0" 22) := by
  have h : parseTypes "Payment, 22,+0" = .ok (insert 0 (insert 22 (insert 0 ∅))) := by rfl
  exact ⟨_, h, (hook_on_fires_iff_listed h).2.1 22 (by decide)⟩

end Xahc.Cli

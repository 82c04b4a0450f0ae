/-
The host functions the guardrail Hook calls, as the simulator models them: reads that copy a value
into a caller's buffer and report its length or a negative code, the originating transaction, the
hook state, and the byte encodings the C headers decode.
-/
import Xahc.Data.Bytes

namespace Xahc.Guardrail

open Xahc.Data

/-- A 20-byte account id. -/
abbrev AccountID := {b : Bytes // b.length = 20}

/-- The account whose 20 bytes are all `b`. -/
def AccountID.filled (b : UInt8) : AccountID := ⟨List.replicate 20 b, List.length_replicate⟩

/-! ## Reads into a buffer -/

/-- The code of an absent value. -/
def DOESNT_EXIST : Int := -5

/-- The code of a buffer that is too small. -/
def TOO_SMALL : Int := -4

/-- The answer of a host read: its return code, and the bytes it left at the buffer's start. -/
structure HostRead where
  rc : Int
  buf : Bytes
  deriving DecidableEq, Repr

/-- `hookParam`, `state` and `otxnField` copy a value out the same way: absent and oversized values
are told apart only by their negative codes, and neither touches the buffer. -/
def readInto (wlen : Nat) : Option Bytes → HostRead
  | none => ⟨DOESNT_EXIST, []⟩
  | some val => if wlen < val.length then ⟨TOO_SMALL, []⟩ else ⟨val.length, val⟩

theorem readInto_rc_eq {wlen n : Nat} {v : Option Bytes} (hn : n ≤ wlen) :
    (readInto wlen v).rc = n ↔ ∃ b, v = some b ∧ b.length = n := by
  cases v with
  | none => simp [readInto, DOESNT_EXIST]
  | some b =>
    by_cases h : wlen < b.length
    · simp only [readInto, if_pos h, TOO_SMALL, Option.some.injEq, exists_eq_left']
      omega
    · simp [readInto, h]

theorem readInto_fits {wlen : Nat} {b : Bytes} (h : b.length ≤ wlen) :
    readInto wlen (some b) = ⟨b.length, b⟩ := by
  simp [readInto, Nat.not_lt.mpr h]

theorem readInto_rc_neg {wlen : Nat} {v : Option Bytes} :
    (readInto wlen v).rc < 0 ↔ v = none ∨ ∃ b, v = some b ∧ wlen < b.length := by
  cases v with
  | none => simp [readInto, DOESNT_EXIST]
  | some b =>
    by_cases h : wlen < b.length
    · simp [readInto, TOO_SMALL, h]
    · simp [readInto, h]

/-! ## 64-bit buffers -/

/-- `be64`: an 8-byte big-endian buffer as a `u64`. -/
def be64 (b : Bytes) : UInt64 :=
  ((b.getD 0 0).toUInt64 <<< 56) ||| ((b.getD 1 0).toUInt64 <<< 48) |||
  ((b.getD 2 0).toUInt64 <<< 40) ||| ((b.getD 3 0).toUInt64 <<< 32) |||
  ((b.getD 4 0).toUInt64 <<< 24) ||| ((b.getD 5 0).toUInt64 <<< 16) |||
  ((b.getD 6 0).toUInt64 <<< 8) ||| (b.getD 7 0).toUInt64

/-- The 4-byte form the `PER` parameter may take. -/
def be32 (b : Bytes) : UInt64 :=
  ((b.getD 0 0).toUInt64 <<< 24) ||| ((b.getD 1 0).toUInt64 <<< 16) |||
  ((b.getD 2 0).toUInt64 <<< 8) ||| (b.getD 3 0).toUInt64

/-- `wr64`: a `u64` as an 8-byte big-endian buffer. -/
def wr64 (v : UInt64) : Bytes :=
  [(v >>> 56).toUInt8, (v >>> 48).toUInt8, (v >>> 40).toUInt8, (v >>> 32).toUInt8,
   (v >>> 24).toUInt8, (v >>> 16).toUInt8, (v >>> 8).toUInt8, v.toUInt8]

@[simp] theorem wr64_length (v : UInt64) : (wr64 v).length = 8 := rfl

/-- A byte or-ed in below the bits already in place adds up with them. -/
theorem or_byte_toNat {h : UInt64} {l : UInt8} {m i k : Nat} {s : UInt64} (hh : h.toNat = m * 2 ^ i)
    (hs : s.toNat = k) (hi : i = k + 8) (hk : k ≤ 56) :
    (h ||| (l.toUInt64 <<< s)).toNat = (m * 256 + l.toNat) * 2 ^ k := by
  have hl := l.toNat_lt
  have below : l.toNat * 2 ^ k < 2 ^ i := by
    rw [hi, pow_add, mul_comm]
    exact Nat.mul_lt_mul_of_pos_left hl (by positivity)
  have fits : l.toNat * 2 ^ k < 2 ^ 64 :=
    below.trans_le (Nat.pow_le_pow_right (by decide) (by omega))
  have shifted : (l.toUInt64 <<< s).toNat = l.toNat * 2 ^ k := by
    rw [UInt64.toNat_shiftLeft, hs, Nat.mod_eq_of_lt (by omega : k < 64), Nat.shiftLeft_eq,
      UInt8.toNat_toUInt64, Nat.mod_eq_of_lt fits]
  rw [UInt64.toNat_or, shifted, hh, mul_comm, ← Nat.two_pow_add_eq_or_of_lt below, hi, pow_add]
  ring

theorem be32_toNat {b : Bytes} (h : b.length = 4) : (be32 b).toNat = beNat b := by
  match b, h with
  | [b0, b1, b2, b3], _ =>
    have h0 : ((0 : UInt64) ||| (b0.toUInt64 <<< 24)).toNat = _ :=
      or_byte_toNat (m := 0) (i := 32) (k := 24) rfl rfl rfl (by decide)
    have h1 := or_byte_toNat (l := b1) (k := 16) (s := 16) h0 rfl rfl (by decide)
    have h2 := or_byte_toNat (l := b2) (k := 8) (s := 8) h1 rfl rfl (by decide)
    have h3 := or_byte_toNat (l := b3) (k := 0) (s := 0) h2 rfl rfl (by decide)
    simp only [UInt64.zero_or, UInt64.shiftLeft_zero] at h3
    simp only [be32, List.getD_cons_zero, List.getD_cons_succ, h3, beNat_cons, beNat_nil, List.length_cons,
      List.length_nil]
    ring

theorem be64_toNat {b : Bytes} (h : b.length = 8) : (be64 b).toNat = beNat b := by
  match b, h with
  | [b0, b1, b2, b3, b4, b5, b6, b7], _ =>
    have h0 : ((0 : UInt64) ||| (b0.toUInt64 <<< 56)).toNat = _ :=
      or_byte_toNat (m := 0) (i := 64) (k := 56) rfl rfl rfl (by decide)
    have h1 := or_byte_toNat (l := b1) (k := 48) (s := 48) h0 rfl rfl (by decide)
    have h2 := or_byte_toNat (l := b2) (k := 40) (s := 40) h1 rfl rfl (by decide)
    have h3 := or_byte_toNat (l := b3) (k := 32) (s := 32) h2 rfl rfl (by decide)
    have h4 := or_byte_toNat (l := b4) (k := 24) (s := 24) h3 rfl rfl (by decide)
    have h5 := or_byte_toNat (l := b5) (k := 16) (s := 16) h4 rfl rfl (by decide)
    have h6 := or_byte_toNat (l := b6) (k := 8) (s := 8) h5 rfl rfl (by decide)
    have h7 := or_byte_toNat (l := b7) (k := 0) (s := 0) h6 rfl rfl (by decide)
    simp only [UInt64.zero_or, UInt64.shiftLeft_zero] at h7
    simp only [be64, List.getD_cons_zero, List.getD_cons_succ, h7, beNat_cons, beNat_nil, List.length_cons,
      List.length_nil]
    ring

/-- Only the first eight bytes of a longer buffer are read. -/
theorem be64_append {a : Bytes} (h : a.length = 8) (b : Bytes) : be64 (a ++ b) = be64 a := by
  match a, h with
  | [_, _, _, _, _, _, _, _], _ => rfl

theorem shr_toUInt8 (v s : UInt64) {k : Nat} (hs : s.toNat = 8 * k) (hk : k < 8) :
    (v >>> s).toUInt8 = UInt8.ofNat (v.toNat / 256 ^ k) := by
  apply UInt8.toNat_inj.mp
  have hp : (256 : Nat) ^ k = 2 ^ (8 * k) := by rw [pow_mul]; norm_num
  rw [UInt64.toNat_toUInt8, UInt64.toNat_shiftRight, hs, Nat.mod_eq_of_lt (by omega : 8 * k < 64),
    UInt8.toNat_ofNat', Nat.shiftRight_eq_div_pow, hp]

theorem wr64_eq (v : UInt64) : wr64 v = natBE 8 v.toNat := by
  have last : v.toUInt8 = UInt8.ofNat (v.toNat / 256 ^ 0) := by simp
  simp only [wr64, natBE, last, shr_toUInt8 v 56 (k := 7) rfl (by decide),
    shr_toUInt8 v 48 (k := 6) rfl (by decide), shr_toUInt8 v 40 (k := 5) rfl (by decide),
    shr_toUInt8 v 32 (k := 4) rfl (by decide), shr_toUInt8 v 24 (k := 3) rfl (by decide),
    shr_toUInt8 v 16 (k := 2) rfl (by decide), shr_toUInt8 v 8 (k := 1) rfl (by decide)]

@[simp] theorem be64_wr64 (v : UInt64) : be64 (wr64 v) = v := by
  apply UInt64.toNat_inj.mp
  rw [be64_toNat (wr64_length v), wr64_eq, beNat_natBE, Nat.mod_eq_of_lt]
  exact v.toNat_lt

/-! ## The originating transaction -/

/-- The field code of the amount. -/
def sfAmount : Nat := (6 <<< 16) + 1

/-- The field code of the account. -/
def sfAccount : Nat := (8 <<< 16) + 1

/-- The field code of the destination. -/
def sfDestination : Nat := (8 <<< 16) + 3

/-- The part of `TxFixture` that describes the transaction; its install-time half is `Install`. -/
structure Otxn where
  tt : Int
  drops : UInt64
  account : AccountID
  destination : AccountID
  /-- Explicit field overrides, which take priority over the fields above. -/
  fields : Nat → Option Bytes := fun _ => none

/-- The 8 bytes a native amount is served as: the sign bit set, the "not native" bit clear. -/
def nativeAmount (d : UInt64) : Bytes :=
  ((0x40 : UInt8) ||| ((d >>> 56) &&& 0x3F).toUInt8) ::
    [(d >>> 48).toUInt8, (d >>> 40).toUInt8, (d >>> 32).toUInt8, (d >>> 24).toUInt8,
     (d >>> 16).toUInt8, (d >>> 8).toUInt8, (d >>> 0).toUInt8]

/-- The serialised value of a field of the transaction. -/
def Otxn.field (tx : Otxn) (fid : Nat) : Option Bytes :=
  match tx.fields fid with
  | some bytes => some bytes
  | none =>
    if fid = sfAmount then some (nativeAmount tx.drops)
    else if fid = sfAccount then some tx.account.1
    else if fid = sfDestination then some tx.destination.1
    else none

/-- `otxn_field` into a buffer of `wlen` bytes. -/
def Otxn.otxnField (tx : Otxn) (wlen fid : Nat) : HostRead := readInto wlen (tx.field fid)

/-- `xahcOtxnDrops`: the native drops of the transaction, or a negative code where the field is not
8 bytes or the amount is issued. -/
def xahcOtxnDrops (tx : Otxn) : Int :=
  let r := tx.otxnField 8 sfAmount
  if r.rc ≠ 8 then -1
  else if r.buf.getD 0 0 &&& 0x80 ≠ 0 then -2
  else (be64 ((r.buf.getD 0 0 &&& 0x3F) :: r.buf.tail)).toInt64.toInt

theorem toInt64_toInt {d : UInt64} (h : d.toNat < 2 ^ 63) : d.toInt64.toInt = d.toNat := by
  show d.toBitVec.toInt = _
  rw [BitVec.toInt_eq_toNat_of_lt (by simpa using by omega)]
  rfl

theorem and_0x3F_toNat (x : UInt8) : (x &&& 0x3F).toNat = x.toNat % 64 := by
  simpa using Nat.and_two_pow_sub_one_eq_mod x.toNat 6

/-- The drops of an 8-byte native amount are its low 62 bits. -/
theorem drops_of_native {tx : Otxn} {b : Bytes} (hb : tx.field sfAmount = some b) (hlen : b.length = 8)
    (hnat : b.getD 0 0 &&& 0x80 = 0) : xahcOtxnDrops tx = ((beNat b % 2 ^ 62 : Nat) : Int) := by
  match b, hlen with
  | x :: rest, hlen =>
    have hrest : rest.length = 7 := by simpa using hlen
    have value : (be64 ((x &&& 0x3F) :: rest)).toNat = beNat (x :: rest) % 2 ^ 62 := by
      have lo := beNat_lt rest
      rw [be64_toNat (by simp [hrest]), beNat_cons, beNat_cons, and_0x3F_toNat, hrest]
      rw [hrest] at lo
      omega
    have read : tx.otxnField 8 sfAmount = ⟨8, x :: rest⟩ := by
      rw [Otxn.otxnField, hb, readInto_fits (by omega), hlen]; rfl
    simp only [List.getD_cons_zero] at hnat
    simp only [xahcOtxnDrops, read, List.getD_cons_zero, List.tail_cons, hnat, ne_eq, not_true_eq_false,
      if_false]
    rw [toInt64_toInt (by omega), value]

/-- A payment whose amount reads as non-negative drops carries an 8-byte native amount. -/
theorem native_of_drops {tx : Otxn} (h : 0 ≤ xahcOtxnDrops tx) :
    ∃ b, tx.field sfAmount = some b ∧ b.length = 8 ∧ b.getD 0 0 &&& 0x80 = 0 := by
  unfold xahcOtxnDrops at h
  simp only at h
  split at h
  · omega
  · rename_i hrc
    split at h
    · omega
    · rename_i hbit
      obtain ⟨b, hb, hlen⟩ := (readInto_rc_eq (n := 8) (le_refl 8)).mp (not_not.mp hrc)
      rw [Otxn.otxnField, hb, readInto_fits (by omega)] at hbit
      exact ⟨b, hb, hlen, not_not.mp hbit⟩

theorem nativeAmount_length (d : UInt64) : (nativeAmount d).length = 8 := rfl

theorem native_top_byte (t : UInt8) :
    ((0x40 ||| (t &&& 0x3F)) &&& 0x80 = 0) ∧ (0x40 ||| (t &&& 0x3F)).toNat = 64 + t.toNat % 64 := by
  have value : (0x40 ||| (t &&& 0x3F)).toNat = 64 + t.toNat % 64 := by
    have := Nat.two_pow_add_eq_or_of_lt (i := 6) (b := t.toNat % 64) (by omega) 1
    rw [UInt8.toNat_or, and_0x3F_toNat]
    simpa using this.symm
  refine ⟨?_, value⟩
  apply UInt8.toNat_inj.mp
  rw [UInt8.toNat_and, value]
  have hm : t.toNat % 64 < 64 := Nat.mod_lt _ (by decide)
  interval_cases t.toNat % 64 <;> rfl

/-- The simulator's native amount denotes the low 62 bits of the drops it was given. -/
theorem drops_of_nativeAmount {tx : Otxn} (h : tx.field sfAmount = some (nativeAmount tx.drops)) :
    xahcOtxnDrops tx = ((tx.drops.toNat % 2 ^ 62 : Nat) : Int) := by
  obtain ⟨bit, top⟩ := native_top_byte (tx.drops >>> 56).toUInt8
  have first : (0x40 : UInt8) ||| ((tx.drops >>> 56) &&& 0x3F).toUInt8 =
      (0x40 : UInt8) ||| ((tx.drops >>> 56).toUInt8 &&& 0x3F) := by rw [UInt64.toUInt8_and]; rfl
  have hi : (tx.drops >>> 56).toUInt8.toNat = tx.drops.toNat / 2 ^ 56 := by
    have := tx.drops.toNat_lt
    rw [UInt64.toNat_toUInt8, UInt64.toNat_shiftRight, Nat.shiftRight_eq_div_pow]
    exact Nat.mod_eq_of_lt (by simp; omega)
  have tail : (nativeAmount tx.drops).tail = natBE 7 tx.drops.toNat := by
    have := wr64_eq tx.drops
    simp only [wr64, natBE, List.cons.injEq] at this
    simp only [nativeAmount, List.tail_cons, natBE, UInt64.shiftRight_zero, List.cons.injEq]
    exact this.2
  have value : beNat (nativeAmount tx.drops) =
      (64 + tx.drops.toNat / 2 ^ 56 % 64) * 256 ^ 7 + tx.drops.toNat % 256 ^ 7 := by
    rw [show nativeAmount tx.drops = _ :: (nativeAmount tx.drops).tail from rfl, beNat_cons, tail, natBE_length,
      beNat_natBE, first, top, hi]
  rw [drops_of_native h (nativeAmount_length _) (by simpa [nativeAmount, first] using bit), value]
  congr 1
  omega

end Xahc.Guardrail

/-
The native amount in every place that writes or reads one: the simulator's transaction, the fixture sent to a remote
simulator, the payment builder, the header a hook decodes with, and the fuzzer's mask.
-/
import Xahc.Cli.ParseHex
import Xahc.Emit.Payment

namespace Xahc.Emit

open Xahc.Data Xahc.Guardrail

/-- The amount as `verify` sends it. -/
def nativeAmountHex (d : UInt64) : List Char :=
  encodeHex
    [(0x40 : UInt8) ||| ((d >>> 56) &&& 0x3F).toUInt8, (d >>> 48).toUInt8, (d >>> 40).toUInt8, (d >>> 32).toUInt8,
     (d >>> 24).toUInt8, (d >>> 16).toUInt8, (d >>> 8).toUInt8, d.toUInt8]

/-- The part of a drop count the fuzzer lets through. -/
def NATIVE_DROPS_MASK : UInt64 := ((1 : UInt64) <<< 62) - 1

theorem mask_drops (d : UInt64) : (d &&& NATIVE_DROPS_MASK).toNat = d.toNat % 2 ^ 62 := by
  rw [UInt64.toNat_and, ← Nat.and_two_pow_sub_one_eq_mod]
  rfl

/-- Digits written two to a byte are read back as the bytes. -/
theorem decodeHex_encodeHex (b : Bytes) : Cli.decodeHex (encodeHex b) = some b := by
  induction b with
  | nil => rfl
  | cons x b ih =>
    obtain ⟨hhi, hlo⟩ := byte_halves x
    have hbyte : UInt8.ofNat (x.toNat / 16 * 16 + x.toNat % 16) = x := by
      rw [Nat.div_add_mod', UInt8.ofNat_toNat]
    rw [encodeHex, Cli.decodeHex, hexVal_hexDigit hhi, hexVal_hexDigit hlo, ih]
    exact congrArg (fun y => some (y :: b)) hbyte

/-- Whether the top byte is put together before it is cut to eight bits or after makes no difference. -/
theorem putNative_eq_nativeAmount (d : UInt64) : putNative d = nativeAmount d := by
  have htop : ((0x40 : UInt64) ||| ((d >>> 56) &&& 0x3F)).toUInt8 = (0x40 : UInt8) ||| ((d >>> 56) &&& 0x3F).toUInt8 := by
    rw [UInt64.toUInt8_or]
    rfl
  rw [putNative, nativeAmount, htop, UInt64.shiftRight_zero]

theorem nativeAmountHex_eq (d : UInt64) : nativeAmountHex d = encodeHex (nativeAmount d) := by
  rw [nativeAmountHex, nativeAmount, UInt64.shiftRight_zero]

theorem otxn_amount {tx : Otxn} (hplain : tx.fields Guardrail.sfAmount = none) :
    tx.field Guardrail.sfAmount = some (nativeAmount tx.drops) := by
  rw [Otxn.field, hplain]
  rfl

/-- A store behind some bytes does not touch them. -/
theorem read_write_behind {mem : Mem} {n pos : Nat} {bs : Bytes} (h : n ≤ pos) : (mem.write pos bs).read n = mem.read n := by
  refine List.map_congr_left fun i hi => ?_
  exact write_below (lt_of_lt_of_le (List.mem_range.1 hi) h)

/-- Whatever a payment's builder returns starts with its head and the amount it was asked for. -/
theorem payment_amount {host : EmitHost} {buf : Mem} {to20 : Bytes} {drops : UInt64} {dtag stag : UInt32} {len : Nat}
    {mem : Mem} (h : xahcBuildPayment host buf to20 drops dtag stag = .ok (len, mem)) :
    44 ≤ len ∧ mem.read 44 =
      paymentHead host.ledgerSeq.toUInt64.toUInt32 dtag stag ++ (0x61 :: putNative drops) := by
  obtain ⟨hp, hbytes, -⟩ := ((laid_start buf).put (paymentHead host.ledgerSeq.toUInt64.toUInt32 dtag stag)).put
    (0x61 :: putNative drops)
  generalize hc : ((⟨buf, 0⟩ : Cursor).put (paymentHead host.ledgerSeq.toUInt64.toUInt32 dtag stag)).put
    (0x61 :: putNative drops) = c at hp hbytes
  have hp : c.p = 44 := hp
  rw [hp, List.nil_append] at hbytes
  unfold xahcBuildPayment at h
  dsimp only at h
  rw [hc] at h
  unfold paymentFinish at h
  split at h
  · cases h
  · next blob hblob =>
    by_cases hfee : host.etxnFeeBase
        (((c.put (paymentTail host.hookAccount to20)).put blob).mem.read
          ((c.put (paymentTail host.hookAccount to20)).put blob).p) < 0
    · rw [if_pos hfee] at h
      cases h
    · rw [if_neg hfee] at h
      cases h
      constructor
      · show 44 ≤ c.p + _ + _
        omega
      · -- the rest of the fields, the details and the fee all lie behind the amount
        rw [← hbytes, read_write_behind (by omega)]
        refine (read_write_behind ?_).trans (read_write_behind (by omega))
        show 44 ≤ c.p + _
        omega

/-- The same bytes everywhere: for every drop count the simulator serves, `verify` sends and the builder lays down one
and the same amount, and a hook reads off it the low 62 bits, which are what the fuzzer's mask leaves. -/
theorem native_amounts_agree (d : UInt64) :
    (∀ tx : Otxn, tx.drops = d → tx.fields Guardrail.sfAmount = none →
      tx.otxnField 8 Guardrail.sfAmount = ⟨8, nativeAmount d⟩ ∧
        xahcOtxnDrops tx = ((d.toNat % 2 ^ 62 : Nat) : Int)) ∧
    Cli.decodeHex (nativeAmountHex d) = some (nativeAmount d) ∧
    (∀ host buf to20 dtag stag len mem, xahcBuildPayment host buf to20 d dtag stag = .ok (len, mem) →
      44 ≤ len ∧ mem.read 44 =
        paymentHead host.ledgerSeq.toUInt64.toUInt32 dtag stag ++ (0x61 :: nativeAmount d)) ∧
    (d &&& NATIVE_DROPS_MASK).toNat = d.toNat % 2 ^ 62 := by
  refine ⟨?_, ?_, ?_, mask_drops d⟩
  · rintro tx rfl hplain
    have hfield := otxn_amount hplain
    refine ⟨?_, drops_of_nativeAmount hfield⟩
    rw [Otxn.otxnField, hfield]
    rfl
  · rw [nativeAmountHex_eq, decodeHex_encodeHex]
  · intro host buf to20 dtag stag len mem h
    rw [← putNative_eq_nativeAmount]
    exact payment_amount h

end Xahc.Emit

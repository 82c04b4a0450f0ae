/-
The payment builders of `xahc/emit/payment.h`: a hand-laid buffer filled front to back, the emit
details the host appends, and the fee patched in once the size is known.
-/
import Xahc.Guardrail.Host
import Xahc.Sim.StoRoundTrip

namespace Xahc.Emit

open Xahc.Data

/-! ## The buffer -/

/-- Memory, by offset from the buffer's start. -/
abbrev Mem := Nat → UInt8

/-- Consecutive stores of `bs` from `pos` on. -/
def Mem.write (mem : Mem) (pos : Nat) (bs : Bytes) : Mem :=
  fun i => if pos ≤ i then (bs[i - pos]?).getD (mem i) else mem i

/-- The first `n` bytes. -/
def Mem.read (mem : Mem) (n : Nat) : Bytes := (List.range n).map mem

/-- A builder at work: memory, and the offset its pointer has reached. -/
structure Cursor where
  mem : Mem
  p : Nat

/-- `*p++ = b` for each byte in turn. -/
def Cursor.put (c : Cursor) (bs : Bytes) : Cursor := ⟨c.mem.write c.p bs, c.p + bs.length⟩

/-! ## The host -/

/-- The host functions a builder calls, by what they answer. A function that fills a buffer is given the
room left in it and answers the bytes it wrote, or a negative code. -/
structure EmitHost where
  hookAccount : Bytes
  ledgerSeq : Int64
  etxnDetails : (writeLen : Nat) → Except Int Bytes
  etxnFeeBase : (tx : Bytes) → Int64
  floatSto : (writeLen : Nat) → (currency issuer : Bytes) → (xfl : Int64) → (fieldCode : Nat) → Except Int Bytes

/-! ## The builders -/

/-- The bytes of a native payment. -/
def XAHC_PAYMENT_SIZE : Nat := 270

/-- The bytes of an issued payment. -/
def XAHC_PAYMENT_IOU_SIZE : Nat := 310

/-- The field code of the amount. -/
def sfAmount : Nat := (6 <<< 16) + 1

/-- A `u32` stored most significant byte first. -/
def putU32 (v : UInt32) : Bytes := [(v >>> 24).toUInt8, (v >>> 16).toUInt8, (v >>> 8).toUInt8, v.toUInt8]

/-- The eight bytes of a native amount: the top two bits are 01. -/
def putNative (v : UInt64) : Bytes :=
  [((0x40 : UInt64) ||| ((v >>> 56) &&& 0x3F)).toUInt8, (v >>> 48).toUInt8, (v >>> 40).toUInt8, (v >>> 32).toUInt8,
   (v >>> 24).toUInt8, (v >>> 16).toUInt8, (v >>> 8).toUInt8, v.toUInt8]

/-- TransactionType, Flags, SourceTag, Sequence, DestinationTag and the two ledger bounds. -/
def paymentHead (cls dtag stag : UInt32) : Bytes :=
  [0x12, 0x00, 0x00] ++ [0x22, 0x80, 0x00, 0x00, 0x00] ++ (0x23 :: putU32 stag) ++ [0x24, 0, 0, 0, 0] ++
    (0x2E :: putU32 dtag) ++ (0x20 :: 0x1A :: putU32 (cls + 1)) ++ (0x20 :: 0x1B :: putU32 (cls + 5))

/-- Fee (still zero), SigningPubKey, Account and Destination. -/
def paymentTail (acc to20 : Bytes) : Bytes :=
  (0x68 :: 0x40 :: List.replicate 7 0) ++ (0x73 :: 0x21 :: List.replicate 33 0) ++ (0x81 :: 0x14 :: acc) ++
    (0x83 :: 0x14 :: to20)

/-- What both builders do after the destination: the emit details go into the room left, and the fee
the host asks for the whole is patched in. A rollback leaves with its line. -/
def paymentFinish (host : EmitHost) (size feePtr detailsLine feeLine : Nat) (c : Cursor) :
    Except Nat (Nat × Mem) :=
  match host.etxnDetails (size - c.p) with
  | .error _ => .error detailsLine
  | .ok blob =>
    let c := c.put blob
    let len := c.p
    let fee := host.etxnFeeBase (c.mem.read len)
    if fee < 0 then .error feeLine
    -- the header byte of the fee stays; its eight bytes are overwritten
    else .ok (len, c.mem.write (feePtr + 1) (putNative fee.toUInt64))

/-- The length built and the memory after it, or the line of a rollback. -/
def xahcBuildPayment (host : EmitHost) (buf : Mem) (to20 : Bytes) (drops : UInt64) (dtag stag : UInt32) :
    Except Nat (Nat × Mem) :=
  let acc := host.hookAccount
  let cls := host.ledgerSeq.toUInt64.toUInt32
  let c : Cursor := ⟨buf, 0⟩
  let c := c.put (paymentHead cls dtag stag)
  let c := c.put (0x61 :: putNative drops)
  let feePtr := c.p
  let c := c.put (paymentTail acc to20)
  paymentFinish host XAHC_PAYMENT_SIZE feePtr 99 104 c

/-- An issued payment written into the buffer, and its length. -/
def xahcBuildPaymentIou (host : EmitHost) (buf : Mem) (to20 : Bytes) (xfl : Int64) (currency20 issuer20 : Bytes)
    (dtag stag : UInt32) : Except Nat (Nat × Mem) :=
  let acc := host.hookAccount
  let cls := host.ledgerSeq.toUInt64.toUInt32
  let c : Cursor := ⟨buf, 0⟩
  let c := c.put (paymentHead cls dtag stag)
  match host.floatSto (XAHC_PAYMENT_IOU_SIZE - c.p) currency20 issuer20 xfl sfAmount with
  | .error _ => .error 178
  | .ok amount =>
    let c := c.put amount
    let feePtr := c.p
    let c := c.put (paymentTail acc to20)
    paymentFinish host XAHC_PAYMENT_IOU_SIZE feePtr 188 193 c

/-! ## Stores -/

theorem write_inside {mem : Mem} {pos i : Nat} {bs : Bytes} (lo : pos ≤ i) (hi : i - pos < bs.length) :
    mem.write pos bs i = bs[i - pos] := by
  simp [Mem.write, lo, hi]

theorem write_above {mem : Mem} {pos i : Nat} {bs : Bytes} (hi : pos + bs.length ≤ i) : mem.write pos bs i = mem i := by
  have : bs[i - pos]? = none := List.getElem?_eq_none (by omega)
  simp [Mem.write, this]

theorem write_below {mem : Mem} {pos i : Nat} {bs : Bytes} (hi : i < pos) : mem.write pos bs i = mem i := by
  simp [Mem.write, Nat.not_le.mpr hi]

theorem read_length (mem : Mem) (n : Nat) : (mem.read n).length = n := by simp [Mem.read]

/-- Bytes stored at the end of what was read so far are read after it. -/
theorem read_write_end {mem : Mem} {n : Nat} {bs : Bytes} :
    (mem.write n bs).read (n + bs.length) = mem.read n ++ bs := by
  apply List.ext_getElem
  · simp [read_length]
  · intro i h1 h2
    rw [read_length] at h1
    simp only [Mem.read, List.getElem_map, List.getElem_range, List.getElem_append, List.length_map, List.length_range]
    split
    · next lo => exact write_below lo
    · next hi => exact write_inside (by omega) (by omega)

/-- Bytes stored over as many others take their place. -/
theorem read_write_over {mem : Mem} {n : Nat} {a old b bs : Bytes} (h : mem.read n = a ++ (old ++ b))
    (hlen : bs.length = old.length) : (mem.write a.length bs).read n = a ++ (bs ++ b) := by
  have total : n = a.length + (old.length + b.length) := by
    simpa [read_length] using congrArg List.length h
  apply List.ext_getElem
  · simp [read_length, total, hlen]
  · intro i h1 h2
    rw [read_length] at h1
    have within : i < (a ++ (old ++ b)).length := by
      simp
      omega
    have before : mem i = (a ++ (old ++ b))[i] := by
      simp only [← h, Mem.read, List.getElem_map, List.getElem_range]
    simp only [Mem.read, List.getElem_map, List.getElem_range]
    rcases Nat.lt_or_ge i a.length with lo | lo
    · rw [write_below lo, before, List.getElem_append_left lo, List.getElem_append_left lo]
    · rw [List.getElem_append_right lo]
      rcases Nat.lt_or_ge (i - a.length) bs.length with hi | hi
      · rw [write_inside lo hi, List.getElem_append_left hi]
      -- past the stored bytes, where both sides are `b`
      · rw [write_above (by omega), before, List.getElem_append_right lo, List.getElem_append_right hi,
          List.getElem_append_right (by omega)]
        simp only [hlen]

/-- A builder that has laid down `done` and touched nothing above it. -/
structure Laid (buf : Mem) (done : Bytes) (c : Cursor) : Prop where
  at_end : c.p = done.length
  bytes : c.mem.read c.p = done
  above : ∀ i, c.p ≤ i → c.mem i = buf i

theorem laid_start (buf : Mem) : Laid buf [] ⟨buf, 0⟩ := ⟨rfl, rfl, fun _ _ => rfl⟩

theorem Laid.put {buf : Mem} {done : Bytes} {c : Cursor} (h : Laid buf done c) (bs : Bytes) :
    Laid buf (done ++ bs) (c.put bs) where
  at_end := by simp [Cursor.put, h.at_end]
  bytes := by
    show (c.mem.write c.p bs).read (c.p + bs.length) = done ++ bs
    rw [read_write_end, h.bytes]
  above i hi := by
    have hi : c.p + bs.length ≤ i := hi
    rw [← h.above i (by omega)]
    exact write_above hi

/-- The end of both builders, over a buffer whose fee is still `old`. -/
theorem paymentFinish_spec {host : EmitHost} {buf : Mem} {size : Nat} (feePtr line line' : Nat) {c : Cursor}
    {a old b blob : Bytes} {fee : Int64} (h : Laid buf (a ++ (old ++ b)) c) (hptr : feePtr + 1 = a.length)
    (hold : old.length = 8) (hdetails : host.etxnDetails (size - c.p) = .ok blob)
    (hfee : host.etxnFeeBase (a ++ (old ++ (b ++ blob))) = fee) (hpos : ¬ fee < 0) :
    ∃ mem, paymentFinish host size feePtr line line' c = .ok ((a ++ (old ++ b)).length + blob.length, mem) ∧
      mem.read ((a ++ (old ++ b)).length + blob.length) = a ++ (putNative fee.toUInt64 ++ (b ++ blob)) ∧
      ∀ i, (a ++ (old ++ b)).length + blob.length ≤ i → mem i = buf i := by
  have whole := h.put blob
  simp only [List.append_assoc] at whole
  have asked : host.etxnFeeBase ((c.put blob).mem.read (c.put blob).p) = fee := by rw [whole.bytes, hfee]
  have size : (c.put blob).p = (a ++ (old ++ b)).length + blob.length := by
    rw [whole.at_end]
    simp only [List.length_append]
    omega
  refine ⟨(c.put blob).mem.write a.length (putNative fee.toUInt64), ?_, ?_, ?_⟩
  · simp only [paymentFinish, hdetails, asked, if_neg hpos, hptr]
    rw [size]
  · rw [← size]
    exact read_write_over whole.bytes (by rw [hold]; rfl)
  · intro i hi
    rw [write_above, whole.above i (by rw [size]; exact hi)]
    simp only [List.length_append, hold] at hi
    simp only [putNative, List.length_cons, List.length_nil]
    omega

/-! ## The fields -/

open Xahc.Sim
open Xahc.Sim.StoField

/-- The eight bytes of an amount of drops. -/
def nativeDrops (n : Nat) : Bytes := natBE 8 (2 ^ 62 + n)

/-- The fields of an emitted payment, in the order they are laid down. -/
def paymentFields (cls dtag stag : Nat) (amount fee acc to20 : Bytes) : List StoField :=
  [leaf STI_UINT16 2 [0, 0], leaf STI_UINT32 2 (natBE 4 0x80000000), leaf STI_UINT32 3 (natBE 4 stag),
   leaf STI_UINT32 4 (natBE 4 0), leaf STI_UINT32 14 (natBE 4 dtag), leaf STI_UINT32 26 (natBE 4 (cls + 1)),
   leaf STI_UINT32 27 (natBE 4 (cls + 5)), leaf STI_AMOUNT 1 amount, leaf STI_AMOUNT 8 fee,
   leaf STI_VL 3 (List.replicate 33 0), leaf STI_ACCOUNT 1 acc, leaf STI_ACCOUNT 3 to20]

/-- Canonical order: by type, then by field number. -/
def FieldBefore (f g : StoField) : Prop := f.ty < g.ty ∨ (f.ty = g.ty ∧ f.code < g.code)

theorem paymentFields_sorted (cls dtag stag : Nat) (amount fee acc to20 : Bytes) :
    (paymentFields cls dtag stag amount fee acc to20).Pairwise FieldBefore := by
  have keys : ((paymentFields cls dtag stag amount fee acc to20).map fun f => (f.ty, f.code)).Pairwise
      fun a b => a.1 < b.1 ∨ (a.1 = b.1 ∧ a.2 < b.2) := by
    show [(1, 2), (2, 2), (2, 3), (2, 4), (2, 14), (2, 26), (2, 27), (6, 1), (6, 8), (7, 3), (8, 1), (8, 3)].Pairwise _
    decide
  exact List.pairwise_map (f := fun f : StoField => (f.ty, f.code)) |>.mp keys

theorem putU32_eq (v : UInt32) : putU32 v = natBE 4 v.toNat := by
  have shifted (s : UInt32) {k : Nat} (hs : s.toNat = 8 * k) (hk : k < 4) :
      (v >>> s).toUInt8 = UInt8.ofNat (v.toNat / 256 ^ k) := by
    apply UInt8.toNat_inj.mp
    have hp : (256 : Nat) ^ k = 2 ^ (8 * k) := by rw [pow_mul]; norm_num
    rw [UInt32.toNat_toUInt8, UInt32.toNat_shiftRight, hs, Nat.mod_eq_of_lt (by omega : 8 * k < 32),
      UInt8.toNat_ofNat', Nat.shiftRight_eq_div_pow, hp]
  have last : v.toUInt8 = UInt8.ofNat (v.toNat / 256 ^ 0) := by simp
  simp only [putU32, natBE, last, shifted 24 (k := 3) rfl (by decide), shifted 16 (k := 2) rfl (by decide),
    shifted 8 (k := 1) rfl (by decide)]

theorem putNative_eq {v : UInt64} (hv : v.toNat < 2 ^ 62) : putNative v = nativeDrops v.toNat := by
  have hi : (v >>> 56).toUInt8.toNat = v.toNat / 2 ^ 56 := by
    rw [UInt64.toNat_toUInt8, UInt64.toNat_shiftRight, Nat.shiftRight_eq_div_pow]
    exact Nat.mod_eq_of_lt (by simp; omega)
  have top : ((0x40 : UInt64) ||| ((v >>> 56) &&& 0x3F)).toUInt8 = UInt8.ofNat ((2 ^ 62 + v.toNat) / 256 ^ 7) := by
    have narrow : ((0x40 : UInt64) ||| ((v >>> 56) &&& 0x3F)).toUInt8 =
        (0x40 : UInt8) ||| ((v >>> 56).toUInt8 &&& 0x3F) := by
      rw [UInt64.toUInt8_or, UInt64.toUInt8_and]; rfl
    apply UInt8.toNat_inj.mp
    rw [narrow, (Guardrail.native_top_byte _).2, hi, UInt8.toNat_ofNat']
    omega
  -- the marker bit 62 lies above the seven low bytes
  have low (k : Nat) (hk : k < 7) : UInt8.ofNat ((2 ^ 62 + v.toNat) / 256 ^ k) = UInt8.ofNat (v.toNat / 256 ^ k) := by
    apply UInt8.toNat_inj.mp
    rw [UInt8.toNat_ofNat', UInt8.toNat_ofNat']
    interval_cases k <;> omega
  have rest := Guardrail.wr64_eq v
  simp only [Guardrail.wr64, natBE, List.cons.injEq] at rest
  simp only [putNative, nativeDrops, natBE, top, low 6 (by decide), low 5 (by decide), low 4 (by decide),
    low 3 (by decide), low 2 (by decide), low 1 (by decide), low 0 (by decide), rest]

theorem nativeDrops_shape {n : Nat} (hn : n < 2 ^ 62) : LeafShape STI_AMOUNT (nativeDrops n) := by
  refine .native ((byte_top _).mpr ?_) (natBE_length 7 _)
  rw [UInt8.toNat_ofNat']
  show 64 ≤ (2 ^ 62 + n) / 2 ^ 56 % 256 ∧ (2 ^ 62 + n) / 2 ^ 56 % 256 < 128
  omega

theorem word_shape (n : Nat) : LeafShape STI_UINT32 (natBE 4 n) := .fixed (by decide) rfl

theorem paymentFields_canonical (cls dtag stag : Nat) {amount fee acc to20 : Bytes} (hamount : LeafShape STI_AMOUNT amount)
    (hfee : LeafShape STI_AMOUNT fee) (hacc : acc.length = 20) (hto : to20.length = 20) :
    ∀ f ∈ paymentFields cls dtag stag amount fee acc to20, Canonical 0 f := by
  simp only [paymentFields, List.mem_cons, List.not_mem_nil, or_false, forall_eq_or_imp, forall_eq]
  have word (code n : Nat) (h : InRange code) : Canonical 0 (leaf STI_UINT32 code (natBE 4 n)) := .leaf h (word_shape n)
  have account (code : Nat) (b : Bytes) (h : InRange code) (hb : b.length = 20) : Canonical 0 (leaf STI_ACCOUNT code b) :=
    .leaf h (.prefixed (Or.inr (Or.inl rfl)) (by rw [hb]; decide))
  have inRange : ∀ k ∈ [1, 2, 3, 4, 8, 14, 26, 27], InRange k := by simp [InRange]
  refine ⟨.leaf (inRange 2 (by decide)) (.fixed (by decide) rfl), word 2 _ (inRange 2 (by decide)),
    word 3 _ (inRange 3 (by decide)), word 4 _ (inRange 4 (by decide)), word 14 _ (inRange 14 (by decide)),
    word 26 _ (inRange 26 (by decide)), word 27 _ (inRange 27 (by decide)), .leaf (inRange 1 (by decide)) hamount,
    .leaf (inRange 8 (by decide)) hfee, .leaf (inRange 3 (by decide)) (.prefixed (Or.inl rfl) (by decide)),
    account 1 acc (inRange 1 (by decide)) hacc, account 3 to20 (inRange 3 (by decide)) hto⟩

/-- The bytes of the fields, cut where the fee starts and ends. -/
theorem encode_paymentFields {cls dtag stag : UInt32} {amount fee acc to20 : Bytes} (hcls : cls.toNat + 5 < 2 ^ 32)
    (hacc : acc.length = 20) (hto : to20.length = 20) :
    encodeAll (paymentFields cls.toNat dtag.toNat stag.toNat amount fee acc to20) =
      (paymentHead cls dtag stag ++ (0x61 :: amount) ++ [0x68]) ++
        (fee ++ ((0x73 :: 0x21 :: List.replicate 33 0) ++ (0x81 :: 0x14 :: acc) ++ (0x83 :: 0x14 :: to20))) := by
  have first : (cls + 1).toNat = cls.toNat + 1 := by
    rw [UInt32.toNat_add]; exact Nat.mod_eq_of_lt (by simp; omega)
  have last : (cls + 5).toNat = cls.toNat + 5 := by
    rw [UInt32.toNat_add]; exact Nat.mod_eq_of_lt (by simp; omega)
  have flags : natBE 4 0x80000000 = [0x80, 0, 0, 0] := by decide
  have sequence : natBE 4 0 = [0, 0, 0, 0] := by decide
  have account : leafPrefix STI_ACCOUNT 20 = [0x14] := by decide
  have blob : leafPrefix STI_VL 33 = [0x21] := by decide
  have plain (ty n : Nat) (h : ¬ Prefixed ty) : leafPrefix ty n = [] := leafPrefix_nil h
  have headers : [header STI_UINT16 2, header STI_UINT32 2, header STI_UINT32 3, header STI_UINT32 4,
      header STI_UINT32 14, header STI_UINT32 26, header STI_UINT32 27, header STI_AMOUNT 1, header STI_AMOUNT 8,
      header STI_VL 3, header STI_ACCOUNT 1, header STI_ACCOUNT 3] =
      [[0x12], [0x22], [0x23], [0x24], [0x2E], [0x20, 0x1A], [0x20, 0x1B], [0x61], [0x68], [0x73], [0x81], [0x83]] := by
    decide
  simp only [List.cons.injEq, and_true] at headers
  simp only [paymentFields, encodeAll, encode, paymentHead, putU32_eq, first, last, flags, sequence, headers, hacc, hto,
    account, blob, List.length_replicate, plain STI_UINT16 _ (by decide), plain STI_UINT32 _ (by decide),
    plain STI_AMOUNT _ (by decide), List.nil_append, List.append_nil, List.append_assoc, List.cons_append]

/-- The fields before the emit details read back as what was meant. -/
theorem payment_reads {cls dtag stag : Nat} {amount fee acc to20 : Bytes} (hamount : LeafShape STI_AMOUNT amount)
    (hfee : LeafShape STI_AMOUNT fee) (hacc : acc.length = 20) (hto : to20.length = 20) :
    let fields := paymentFields cls dtag stag amount fee acc to20
    parseFields (encodeAll fields) 0 (encodeAll fields).length = .ok (refs 0 fields) ∧
      List.Forall₂ (Reads (encodeAll fields)) fields (refs 0 fields) := by
  intro fields
  have canonical := paymentFields_canonical cls dtag stag hamount hfee hacc hto
  have walked := parseFields_at canonical (at_zero _)
  rw [Nat.zero_add] at walked
  exact ⟨walked, reads_refs (fun f hf q hq => reads_at (canonical f hf) hq) (at_zero _)⟩

/-- The fee the host asks for the transaction whose fee is still zero. -/
def askedFee (host : EmitHost) (fields : (fee : Bytes) → List StoField) (blob : Bytes) : Nat :=
  (host.etxnFeeBase (encodeAll (fields (nativeDrops 0)) ++ blob)).toInt.toNat

/-- What a builder that returned `len` leaves behind: nothing stored past `size`; the fields, with the fee
the host asked for the same bytes with a zero fee, and after them the emit details; and those fields read
back, in canonical order. -/
structure Built (host : EmitHost) (buf : Mem) (size : Nat) (fields : (fee : Bytes) → List StoField) (blob : Bytes)
    (len : Nat) (mem : Mem) : Prop where
  inside : ∀ i, size ≤ i → mem i = buf i
  fits : len ≤ size
  length : len = (encodeAll (fields (nativeDrops (askedFee host fields blob)))).length + blob.length
  bytes : mem.read len = encodeAll (fields (nativeDrops (askedFee host fields blob))) ++ blob
  parsed : let n := len - blob.length
    parseFields (mem.read n) 0 n = .ok (refs 0 (fields (nativeDrops (askedFee host fields blob)))) ∧
      List.Forall₂ (Reads (mem.read n)) (fields (nativeDrops (askedFee host fields blob)))
        (refs 0 (fields (nativeDrops (askedFee host fields blob))))
  sorted : (fields (nativeDrops (askedFee host fields blob))).Pairwise FieldBefore

theorem toUInt64_toNat {x : Int64} (h : 0 ≤ x.toInt) : x.toUInt64.toNat = x.toInt.toNat := by
  have low : x.toInt = x.toUInt64.toBitVec.toInt := rfl
  have cond := BitVec.toInt_eq_toNat_cond x.toUInt64.toBitVec
  have bound := x.toUInt64.toBitVec.isLt
  have value : x.toUInt64.toNat = x.toUInt64.toBitVec.toNat := rfl
  rw [low] at h ⊢
  rw [value]
  split at cond <;> omega

theorem read_take {mem : Mem} {n : Nat} {a b : Bytes} (h : mem.read n = a ++ b) : mem.read a.length = a := by
  have total : n = a.length + b.length := by simpa [read_length] using congrArg List.length h
  have front : (mem.read n).take a.length = mem.read a.length := by
    simp only [Mem.read, ← List.map_take, List.take_range, total]
    simp
  rw [← front, h, List.take_left]

/-- Both builders, from the point where the amount is laid down. -/
theorem build_spec {host : EmitHost} {buf : Mem} {cls dtag stag : UInt32} {amount acc to20 blob : Bytes}
    (size line line' : Nat) {c : Cursor}
    (laid : Laid buf (paymentHead cls dtag stag ++ (0x61 :: amount) ++ paymentTail acc to20) c)
    (hcls : cls.toNat + 5 < 2 ^ 32) (hamount : LeafShape STI_AMOUNT amount) (hacc : acc.length = 20)
    (hto : to20.length = 20) (hroom : c.p + 138 = size) (hdetails : host.etxnDetails 138 = .ok blob)
    (hblob : blob.length ≤ 138)
    (hfee : ∀ tx, 0 ≤ (host.etxnFeeBase tx).toInt ∧ (host.etxnFeeBase tx).toInt < 2 ^ 62) :
    ∃ len mem, paymentFinish host size (paymentHead cls dtag stag ++ (0x61 :: amount)).length line line' c =
        .ok (len, mem) ∧
      Built host buf size (fun fee => paymentFields cls.toNat dtag.toNat stag.toNat amount fee acc to20) blob len mem := by
  let fields := fun fee => paymentFields cls.toNat dtag.toNat stag.toNat amount fee acc to20
  let front := paymentHead cls dtag stag ++ (0x61 :: amount) ++ [0x68]
  let rest : Bytes := (0x73 :: 0x21 :: List.replicate 33 0) ++ (0x81 :: 0x14 :: acc) ++ (0x83 :: 0x14 :: to20)
  have cut (fee : Bytes) : encodeAll (fields fee) = front ++ (fee ++ rest) := encode_paymentFields hcls hacc hto
  -- the fee laid down first is the amount of no drops
  have zero : nativeDrops 0 = 0x40 :: List.replicate 7 0 := by decide
  have laid' : Laid buf (front ++ (nativeDrops 0 ++ rest)) c := by
    have same : front ++ (nativeDrops 0 ++ rest) = paymentHead cls dtag stag ++ (0x61 :: amount) ++ paymentTail acc to20 := by
      simp [front, rest, zero, paymentTail]
    rwa [same]
  have room : host.etxnDetails (size - c.p) = .ok blob := by rwa [show size - c.p = 138 by omega]
  obtain ⟨lo, hi⟩ := hfee (front ++ (nativeDrops 0 ++ (rest ++ blob)))
  have unsigned := toUInt64_toNat lo
  have asked : host.etxnFeeBase (front ++ (nativeDrops 0 ++ (rest ++ blob))) =
      host.etxnFeeBase (encodeAll (fields (nativeDrops 0)) ++ blob) := by rw [cut]; simp
  have patched : putNative (host.etxnFeeBase (front ++ (nativeDrops 0 ++ (rest ++ blob)))).toUInt64 =
      nativeDrops (askedFee host fields blob) := by
    rw [putNative_eq (by rw [unsigned]; omega), unsigned, asked]
    rfl
  obtain ⟨mem, ok, bytes, above⟩ := paymentFinish_spec (paymentHead cls dtag stag ++ (0x61 :: amount)).length line line'
    laid' (by simp [front, Nat.add_assoc]) rfl room rfl
    (by rw [Int64.lt_iff_toInt_lt]; simpa using lo)
  have size_eq : (front ++ (nativeDrops 0 ++ rest)).length + 138 = size := by rw [← laid'.at_end]; exact hroom
  have whole : mem.read ((front ++ (nativeDrops 0 ++ rest)).length + blob.length) =
      encodeAll (fields (nativeDrops (askedFee host fields blob))) ++ blob := by
    rw [bytes, patched, cut]
    simp
  -- a fee takes eight bytes whatever its value, so the patch moves nothing
  have long : (front ++ (nativeDrops 0 ++ rest)).length =
      (encodeAll (fields (nativeDrops (askedFee host fields blob)))).length := by
    rw [cut]
    simp [nativeDrops]
  refine ⟨_, mem, ok, ?_⟩
  have feeShape : LeafShape STI_AMOUNT (nativeDrops (askedFee host fields blob)) := by
    refine nativeDrops_shape ?_
    show (host.etxnFeeBase (encodeAll (fields (nativeDrops 0)) ++ blob)).toInt.toNat < 2 ^ 62
    rw [← asked]
    omega
  refine ⟨fun i hi => above i (by omega), by omega, by rw [long], whole, ?_, paymentFields_sorted ..⟩
  dsimp only
  rw [Nat.add_sub_cancel, long, read_take whole]
  exact payment_reads hamount feeShape hacc hto

theorem paymentHead_length (cls dtag stag : UInt32) : (paymentHead cls dtag stag).length = 35 := rfl

theorem paymentTail_length {acc to20 : Bytes} (hacc : acc.length = 20) (hto : to20.length = 20) :
    (paymentTail acc to20).length = 88 := by
  simp [paymentTail, hacc, hto]

/-- Both builders encode what they were asked for: each stays inside its buffer, returns the number of
bytes it built, and what it built before the emit details decodes to the intended fields. -/
theorem payments_decode (host : EmitHost) (buf : Mem) (to20 blob : Bytes) (dtag stag : UInt32)
    (hacc : host.hookAccount.length = 20) (hto : to20.length = 20)
    (hseq : 0 ≤ host.ledgerSeq.toInt ∧ host.ledgerSeq.toInt < 2 ^ 32 - 5)
    (hdetails : host.etxnDetails 138 = .ok blob) (hblob : blob.length ≤ 138)
    (hfee : ∀ tx, 0 ≤ (host.etxnFeeBase tx).toInt ∧ (host.etxnFeeBase tx).toInt < 2 ^ 62) :
    let fields := paymentFields host.ledgerSeq.toInt.toNat dtag.toNat stag.toNat
    (∀ drops : UInt64, drops.toNat < 2 ^ 62 →
      ∃ len mem, xahcBuildPayment host buf to20 drops dtag stag = .ok (len, mem) ∧
        Built host buf XAHC_PAYMENT_SIZE (fun fee => fields (nativeDrops drops.toNat) fee host.hookAccount to20)
          blob len mem) ∧
    (∀ (xfl : Int64) (currency20 issuer20 amount : Bytes) (b : UInt8),
      host.floatSto 275 currency20 issuer20 xfl sfAmount = .ok (0x61 :: b :: amount) → amount.length = 47 →
      b &&& 0x80 ≠ 0 →
      ∃ len mem, xahcBuildPaymentIou host buf to20 xfl currency20 issuer20 dtag stag = .ok (len, mem) ∧
        Built host buf XAHC_PAYMENT_IOU_SIZE (fun fee => fields (b :: amount) fee host.hookAccount to20)
          blob len mem) := by
  obtain ⟨seqLo, seqHi⟩ := hseq
  have wide := toUInt64_toNat seqLo
  have cls : host.ledgerSeq.toUInt64.toUInt32.toNat = host.ledgerSeq.toInt.toNat := by
    rw [UInt64.toNat_toUInt32, wide]
    exact Nat.mod_eq_of_lt (by omega)
  have tail := paymentTail_length hacc hto
  simp only [← cls]
  constructor
  · intro drops hdrops
    -- the three parts are laid one after the other; `build_spec` adds the details and patches the fee
    have laid := (((laid_start buf).put (paymentHead host.ledgerSeq.toUInt64.toUInt32 dtag stag)).put
      (0x61 :: putNative drops)).put (paymentTail host.hookAccount to20)
    rw [List.nil_append, putNative_eq hdrops] at laid
    have room : (paymentHead host.ledgerSeq.toUInt64.toUInt32 dtag stag ++ (0x61 :: nativeDrops drops.toNat) ++
        paymentTail host.hookAccount to20).length + 138 = XAHC_PAYMENT_SIZE := by
      simp [paymentHead_length, tail, nativeDrops, XAHC_PAYMENT_SIZE]
    obtain ⟨len, mem, ok, built⟩ := build_spec XAHC_PAYMENT_SIZE 99 104 laid (by omega)
      (nativeDrops_shape hdrops) hacc hto (by rw [laid.at_end]; exact room) hdetails hblob hfee
    refine ⟨len, mem, ?_, built⟩
    rw [← ok, ← putNative_eq hdrops]
    simp [xahcBuildPayment, Cursor.put]
  · intro xfl currency20 issuer20 amount b hsto hlen hb
    have laid := (((laid_start buf).put (paymentHead host.ledgerSeq.toUInt64.toUInt32 dtag stag)).put
      (0x61 :: b :: amount)).put (paymentTail host.hookAccount to20)
    rw [List.nil_append] at laid
    have room : (paymentHead host.ledgerSeq.toUInt64.toUInt32 dtag stag ++ (0x61 :: b :: amount) ++
        paymentTail host.hookAccount to20).length + 138 = XAHC_PAYMENT_IOU_SIZE := by
      simp [paymentHead_length, tail, hlen, XAHC_PAYMENT_IOU_SIZE]
    obtain ⟨len, mem, ok, built⟩ := build_spec XAHC_PAYMENT_IOU_SIZE 188 193 laid (by omega)
      (.issued hb hlen) hacc hto (by rw [laid.at_end]; exact room) hdetails hblob hfee
    refine ⟨len, mem, ?_, built⟩
    rw [← ok]
    -- float_sto is given the room behind the head
    have sto : host.floatSto (XAHC_PAYMENT_IOU_SIZE -
        (Cursor.put ⟨buf, 0⟩ (paymentHead host.ledgerSeq.toUInt64.toUInt32 dtag stag)).p) currency20 issuer20 xfl
          sfAmount = .ok (0x61 :: b :: amount) := hsto
    simp only [xahcBuildPaymentIou, sto]
    simp [Cursor.put]

/-- A host in ledger 1000 that writes the shortest details it can and asks ten drops. -/
def sampleHost : EmitHost where
  hookAccount := List.replicate 20 0xAA
  ledgerSeq := 1000
  etxnDetails _ := .ok (List.replicate 116 0xED)
  etxnFeeBase _ := 10
  floatSto _ _ _ _ _ := .ok (0x61 :: 0xD4 :: List.replicate 47 0x11)

theorem payments_decode_sample :
    (∃ len mem, xahcBuildPayment sampleHost (fun _ => 0) (List.replicate 20 0xBB) 1000000 7 0 = .ok (len, mem) ∧
      mem.read (len - 116) = encodeAll (paymentFields 1000 7 0 (nativeDrops 1000000) (nativeDrops 10)
        (List.replicate 20 0xAA) (List.replicate 20 0xBB))) ∧
    ∃ len mem, xahcBuildPaymentIou sampleHost (fun _ => 0) (List.replicate 20 0xBB) 0 [] [] 7 0 = .ok (len, mem) ∧
      mem.read (len - 116) = encodeAll (paymentFields 1000 7 0 (0xD4 :: List.replicate 47 0x11) (nativeDrops 10)
        (List.replicate 20 0xAA) (List.replicate 20 0xBB)) := by
  obtain ⟨native, issued⟩ := payments_decode sampleHost (fun _ => 0) (List.replicate 20 0xBB) (List.replicate 116 0xED) 7 0
    rfl rfl ⟨by decide, by decide⟩ rfl (by decide)
    (fun _ => (by decide : 0 ≤ (10 : Int64).toInt ∧ (10 : Int64).toInt < 2 ^ 62))
  obtain ⟨len, mem, ok, built⟩ := native 1000000 (by decide)
  obtain ⟨len', mem', ok', built'⟩ := issued 0 [] [] (List.replicate 47 0x11) 0xD4 rfl rfl (by decide)
  refine ⟨⟨len, mem, ok, ?_⟩, len', mem', ok', ?_⟩
  · have bytes := built.bytes
    rw [built.length, List.length_replicate, Nat.add_sub_cancel]
    rw [built.length] at bytes
    exact read_take bytes
  · have bytes := built'.bytes
    rw [built'.length, List.length_replicate, Nat.add_sub_cancel]
    rw [built'.length] at bytes
    exact read_take bytes

end Xahc.Emit

/-
Which host calls panic: in whatever state a run has reached, with whatever memory and words, a call ends in a code or
a trap, but for a negative length that is taken for the size of a buffer, and a guard's count that is full.
-/
import Xahc.Guardrail.Host
import Xahc.Sim.HostCalls

namespace Xahc.Sim

open Xahc.Data Xahc.Data.Checked Xahc.Data.Trapping

/-! ## What calls keep -/

/-- The slot table of the run is sane. -/
def Kept (m : Machine) : Prop := Sane m.ctx.slots

/-- The call ends in a code or a trap, and what it was handed it keeps. -/
def Keeps (x : Host Int) (m : Machine) : Prop := Ends x m fun _ m' => Kept m'

namespace Host

section
variable {β : Type} {m : Machine} {q : β → Machine → Prop}

/-! ### Lengths -/

theorem usize_of_nonneg {x : Int32} (h : 0 ≤ x.toInt) : usize x = x.toInt.toNat := by
  have hlt : x.toInt < 2 ^ 31 := x.toInt_lt
  rw [usize, Int.emod_eq_of_lt h (by omega)]

theorem usize_of_neg {x : Int32} (h : x.toInt < 0) : 2 ^ 63 ≤ usize x := by
  have hle : -2 ^ 31 ≤ x.toInt := x.le_toInt
  rw [usize]
  omega

/-- A length raised to zero. -/
theorem max_zero_nonneg (x : Int32) : 0 ≤ (max x 0).toInt := by
  show 0 ≤ (if x ≤ 0 then 0 else x).toInt
  by_cases h : x ≤ 0
  · rw [if_pos h]
    decide
  · rw [if_neg h]
    exact (Int32.lt_iff_toInt_lt.1 (Int32.not_le.1 h)).le

theorem min_nonneg {x y : Int32} (hx : 0 ≤ x.toInt) (hy : 0 ≤ y.toInt) : 0 ≤ (min x y).toInt := by
  show 0 ≤ (if x ≤ y then x else y).toInt
  by_cases h : x ≤ y
  · rw [if_pos h]
    exact hx
  · rw [if_neg h]
    exact hy

/-- A buffer of a length that is not negative. -/
theorem buffer_ok {x : Int32} (h : 0 ≤ x.toInt) : vec (usize x) = .ok (List.replicate (usize x) 0) := by
  have hlt : x.toInt < 2 ^ 31 := x.toInt_lt
  have husize := usize_of_nonneg h
  exact vec_ok (by omega)

theorem buffer_panics {x : Int32} (h : x < 0) : vec (usize x) = .error .capacityOverflow :=
  vec_panics (usize_of_neg (Int32.lt_iff_toInt_lt.1 h))

theorem nonneg_of_not_neg {x : Int32} (h : ¬x < 0) : 0 ≤ x.toInt := Int32.le_iff_toInt_le.1 (Int32.not_lt.1 h)

/-! ### Memory -/

theorem ends_memOf {f : LinearMemory → Host β} (h : ∀ mem, m.mem = some mem → Ends (f mem) m q) :
    Ends (memOf >>= f) m q := by
  refine Ends.bind ?_
  rw [memOf]
  apply ends_get
  cases hmem : m.mem with
  | none => exact ends_throw _
  | some mem => exact ends_pure (h mem hmem)

theorem ends_memRead {ptr len : Nat} {f : Bytes → Host β}
    (h : ∀ mem, m.mem = some mem → ptr + len ≤ mem.bytes.length → Ends (f ((mem.bytes.drop ptr).take len)) m q) :
    Ends (memRead ptr len >>= f) m q := by
  refine Ends.bind ?_
  rw [memRead]
  apply ends_memOf
  intro mem hmem
  apply ends_ite
  · intro hin
    exact ends_pure (h mem hmem hin)
  · intro _
    exact ends_throw _

theorem ends_memWrite {ptr : Nat} {bytes : Bytes} {f : Unit → Host β}
    (h : ∀ mem, Ends (f ()) { m with mem := some mem } q) : Ends (memWrite ptr bytes >>= f) m q := by
  refine Ends.bind ?_
  rw [memWrite]
  apply ends_memOf
  intro mem _
  by_cases hin : ptr + bytes.length ≤ mem.bytes.length
  · rw [dif_pos hin]
    exact ⟨.ok (), _, rfl, fun _ _ => h _⟩
  · rw [dif_neg hin]
    exact ends_throw _

theorem ends_oob {ptr len : UInt32} {f : Bool → Host β}
    (h : ∀ mem, m.mem = some mem → Ends (f (Sim.oob mem.bytes ptr len)) m q) : Ends (oob ptr len >>= f) m q := by
  have hptr := ptr.toNat_lt
  have hlen := len.toNat_lt
  refine Ends.bind ?_
  rw [oob]
  apply ends_memOf
  intro mem hmem
  have hf := h mem hmem
  rw [Sim.oob] at hf
  apply ends_ite
  · intro hstart
    rw [decide_eq_true hstart, Bool.true_or] at hf
    exact ends_pure hf
  · intro hstart
    rw [decide_eq_false hstart, Bool.false_or] at hf
    apply ends_step (add_ok (by omega))
    exact ends_pure hf

/-- A refusal where the range sticks out of the memory, or the rest of the call. -/
theorem ends_inside {ptr len : UInt32} {r : β} {y : Host β} (hr : q r m)
    (hy : ∀ mem, m.mem = some mem → Sim.oob mem.bytes ptr len = false → Ends y m q) :
    Ends (oob ptr len >>= fun out => if out then pure r else y) m q := by
  apply ends_oob
  intro mem hmem
  apply ends_ite
  · intro _
    exact ends_pure hr
  · intro hout
    exact hy mem hmem (Bool.eq_false_iff.2 hout)

theorem ends_readMem {ptr len : UInt32} {f : Bytes → Host β}
    (h : ∀ mem, m.mem = some mem → (Sim.readMem mem.bytes ptr len).length = len.toNat →
      Ends (f (Sim.readMem mem.bytes ptr len)) m q) : Ends (readMem ptr len >>= f) m q := by
  have hlen := len.toNat_lt
  refine Ends.bind ?_
  rw [readMem]
  apply ends_memOf
  intro _ _
  apply ends_step (vec_ok (by omega))
  rw [List.length_replicate, ← bind_pure (memRead _ _)]
  apply ends_memRead
  intro mem hmem hin
  refine ends_pure (h mem hmem ?_)
  rw [Sim.readMem, List.length_take, List.length_drop]
  omega

end

/-! ### Endings -/

section
variable {m : Machine} (h : Kept m)
include h

/-- A refusal, or the rest of the call. -/
theorem keeps_unless {c : Prop} [Decidable c] {code : Int} {y : Host Int} (hy : ¬c → Keeps y m) :
    Keeps (if c then pure code else y) m :=
  ends_ite (fun _ => ends_pure h) hy

theorem keeps_inside {ptr len : UInt32} {code : Int} {y : Host Int}
    (hy : ∀ mem, m.mem = some mem → Sim.oob mem.bytes ptr len = false → Keeps y m) :
    Keeps (oob ptr len >>= fun out => if out then pure code else y) m :=
  ends_inside h hy

theorem keeps_writeAndReturn (ptr dstLen : UInt32) (src : Bytes) : Keeps (writeAndReturn ptr dstLen src) m := by
  have hptr := ptr.toNat_lt
  have hlen := dstLen.toNat_lt
  unfold writeAndReturn
  apply ends_memOf
  intro _ _
  apply ends_step (add_ok (by omega))
  apply keeps_unless h
  intro _
  apply ends_step (slice_ok (by omega) (by omega))
  apply ends_memWrite
  intro _
  exact ends_pure h

theorem keeps_copyOut (wptr wlen : Int32) (bytes : Bytes) : Keeps (copyOut wptr wlen bytes) m := by
  unfold copyOut
  apply keeps_unless h
  intro _
  apply ends_memWrite
  intro _
  exact ends_pure h

theorem keeps_writeOrInt64 (wptr wlen : UInt32) (data : Bytes) (isAccount : Bool) :
    Keeps (writeOrInt64 wptr wlen data isAccount) m := by
  unfold writeOrInt64
  apply keeps_unless h
  intro _
  apply keeps_unless h
  intro _
  apply keeps_unless h
  intro _
  apply keeps_unless h
  intro _
  exact keeps_writeAndReturn h _ _ _

omit h in
theorem keeps_notModeled (message : String) (m : Machine) : Keeps (notModeled message) m :=
  ends_modify (ends_throw _)

end

/-! ### Calls without slots -/

section
variable {m : Machine} (h : Kept m) (env : Env)
include h

omit h in
theorem reasonOutOfBounds_ends {p l : Int32} {f : Bool → Host Int} {q : Int → Machine → Prop}
    (hf : ∀ out, Ends (f out) m q) : Ends (reasonOutOfBounds p l >>= f) m q := by
  have hp := p.toUInt32.toNat_lt
  refine Ends.bind ?_
  unfold reasonOutOfBounds
  dsimp only
  apply ends_ite
  · intro _
    exact ends_pure (hf _)
  intro _
  apply ends_memOf
  intro _ _
  apply ends_ite
  · intro _
    exact ends_pure (hf _)
  · intro _
    apply ends_step (add_ok (by omega))
    exact ends_pure (hf _)

omit h in
theorem keeps_exit (p l : Int32) (outcome : Outcome) : Keeps (exit p l outcome) m := by
  unfold exit
  apply reasonOutOfBounds_ends
  intro _
  exact ends_modify (ends_throw _)

omit h in
/-- The amount is written as the chain serves it. -/
theorem amountBytes_ok (d : UInt64) : amountBytes d = .ok (Guardrail.nativeAmount d) := rfl

theorem keeps_otxnField (wptr wlen fid : Int32) : Keeps (otxnField env wptr wlen fid) m := by
  unfold otxnField
  dsimp only
  cases env.tx.fields fid.toUInt32 with
  | some bytes => exact keeps_copyOut h _ _ _
  | none =>
    apply ends_ite
    · intro _
      apply ends_step (amountBytes_ok env.tx.drops)
      exact keeps_copyOut h _ _ _
    intro _
    apply ends_ite
    · intro _
      exact keeps_copyOut h _ _ _
    intro _
    apply ends_ite
    · intro _
      exact keeps_copyOut h _ _ _
    · intro _
      exact ends_pure h

theorem keeps_otxnId (wp wl flags : Int32) : Keeps (otxnId env wp wl flags) m := by
  unfold otxnId
  apply keeps_unless h
  intro _
  apply keeps_inside h
  intro _ _ _
  apply keeps_inside h
  intro _ _ _
  exact keeps_writeAndReturn h _ _ _

theorem keeps_otxnParam (wp wl rp rl : Int32) : Keeps (otxnParam env wp wl rp rl) m := by
  unfold otxnParam
  apply keeps_inside h
  intro _ _ _
  apply keeps_inside h
  intro _ _ _
  apply ends_readMem
  intro mem _ _
  apply keeps_unless h
  intro _
  apply keeps_unless h
  intro _
  cases env.tx.otxnParams.find? (·.1 = Sim.readMem mem.bytes rp.toUInt32 rl.toUInt32) with
  | none => exact ends_pure h
  | some param =>
    apply keeps_unless h
    intro _
    apply keeps_unless h
    intro _
    exact keeps_writeAndReturn h _ _ _

theorem keeps_hookParam (wptr wlen rptr rlen : Int32) : Keeps (hookParam env wptr wlen rptr rlen) m := by
  unfold hookParam
  apply ends_memOf
  intro _ _
  apply ends_step (buffer_ok (max_zero_nonneg rlen))
  apply ends_memRead
  intro mem _ _
  apply ends_modify
  cases env.tx.hookParams _ with
  | some val =>
    refine keeps_copyOut ?_ _ _ _
    exact h
  | none => exact ends_pure h

theorem keeps_etxnDetails (ptr len : Int32) : Keeps (etxnDetails ptr len) m := by
  unfold etxnDetails
  apply ends_memOf
  intro _ _
  apply ends_step (buffer_ok (min_nonneg (by decide) (max_zero_nonneg len)))
  apply ends_memWrite
  intro _
  exact ends_pure h

theorem keeps_utilSha512h (wp wl rp rl : Int32) : Keeps (utilSha512h env wp wl rp rl) m := by
  unfold utilSha512h
  apply keeps_unless h
  intro _
  apply keeps_inside h
  intro _ _ _
  apply keeps_inside h
  intro _ _ _
  apply ends_readMem
  intro _ _ _
  exact keeps_writeAndReturn h _ _ _

theorem keeps_utilKeylet (wp wl kt a b c d e f : Int32) : Keeps (utilKeylet env wp wl kt a b c d e f) m := by
  unfold utilKeylet
  apply ends_memOf
  intro mem _
  obtain ⟨out, log, hrun, -⟩ := runs_utilKeyletCall mem.length_le wp.toUInt32 wl.toUInt32 kt.toUInt32 a.toUInt32
    b.toUInt32 c.toUInt32 d.toUInt32 e.toUInt32 f.toUInt32 env.tx.keyletRules
  apply ends_step hrun
  cases out with
  | Keylet ty key => exact keeps_writeAndReturn h _ _ _
  | Code code => exact ends_pure h
  | NotModeled t => exact keeps_notModeled _ m

/-! ### Serialized objects -/

omit h in
theorem packed_ok (r : Except Int (UInt32 × UInt32)) : ∃ code, packed r = .ok code := by
  rcases r with code | ⟨off, len⟩
  · exact ⟨code, rfl⟩
  · have hoff : (off.toUInt64 <<< 32).toNat = off.toNat * 2 ^ 32 := by
      have hlt := off.toNat_lt
      have hshift : (32 : UInt64).toNat % 64 = 32 := rfl
      rw [UInt64.toNat_shiftLeft, UInt32.toNat_toUInt64, Nat.shiftLeft_eq, hshift]
      exact Nat.mod_eq_of_lt (by omega)
    have hlt := off.toNat_lt
    have hlen := len.toNat_lt
    rw [packed, add_ok (by rw [hoff]; omega)]
    exact ⟨_, rfl⟩

theorem keeps_stoSubfield (rp rl fid : Int32) : Keeps (stoSubfield env rp rl fid) m := by
  have hlt := rl.toUInt32.toNat_lt
  unfold stoSubfield
  apply keeps_inside h
  intro _ _ _
  apply ends_readMem
  intro mem _ hlen
  obtain ⟨code, hcode⟩ := packed_ok (Sim.stoSubfield (Sim.readMem mem.bytes rp.toUInt32 rl.toUInt32) fid.toUInt32 env.tx.rules)
  apply ends_step (Words.stoSubfield_ok (by omega) _)
  exact ends_last hcode h

theorem keeps_stoSubarray (rp rl idx : Int32) : Keeps (stoSubarray env rp rl idx) m := by
  have hlt := rl.toUInt32.toNat_lt
  unfold stoSubarray
  apply keeps_inside h
  intro _ _ _
  apply ends_readMem
  intro mem _ hlen
  obtain ⟨code, hcode⟩ := packed_ok (Sim.stoSubarray (Sim.readMem mem.bytes rp.toUInt32 rl.toUInt32) idx.toUInt32 env.tx.rules)
  apply ends_step (Words.stoSubarray_ok (by omega) _)
  exact ends_last hcode h

/-! ### Signatures -/

omit h in
theorem setBytes_ok (buf bytes : Bytes) (hlen : bytes.length ≤ buf.length) : ∃ out, setBytes buf bytes = .ok out := by
  induction bytes generalizing buf with
  | nil => exact ⟨buf, by cases buf <;> rfl⟩
  | cons b bytes ih =>
    cases buf with
    | nil => simp at hlen
    | cons x buf =>
      obtain ⟨out, hout⟩ := ih buf (Nat.le_of_succ_le_succ hlen)
      exact ⟨b :: out, by rw [setBytes, hout]; rfl⟩

omit h in
theorem octets_ok {n : Nat} {b : Bytes} (hb : b.length = n) : octets n b = .ok ⟨b, hb⟩ := dif_pos hb

omit h in
/-- A key of its length and any signature come to a verdict. -/
theorem verifySig_ok (data sig : Bytes) {key : Bytes} (hkey : key.length = 33) :
    ∃ verdict, verifySig env data sig key = .ok verdict := by
  unfold verifySig
  rw [index_getD (by omega) 0, ok_bind]
  by_cases hkind : key.getD 0 0 = 0xED
  · rw [if_pos hkind]
    by_cases hlen : sig.length ≠ 64
    · rw [if_pos hlen]
      exact ⟨_, rfl⟩
    have hsig : sig.length = 64 := not_not.1 hlen
    obtain ⟨sBe, hs⟩ := setBytes_ok (List.replicate 32 0) (sig.drop 32).reverse (by simp; omega)
    rw [if_neg hlen, sliceFrom_ok (by omega), ok_bind, hs, ok_bind]
    by_cases horder : ¬sBe < ED25519_L
    · rw [if_pos horder]
      exact ⟨_, rfl⟩
    have hslice : ((key.drop 1).take 32).length = 32 := by simp; omega
    rw [if_neg horder, slice_ok (by decide) (by omega), ok_bind, octets_ok hslice, ok_bind, octets_ok hsig, ok_bind]
    exact ⟨_, rfl⟩
  · rw [if_neg hkind]
    obtain ⟨accepted, haccepted, -⟩ := ecdsaCanonical_spec sig
    rw [haccepted, ok_bind]
    cases accepted <;> exact ⟨_, rfl⟩

theorem keeps_utilVerify (dp dl sp sl kp kl : Int32) : Keeps (utilVerify env dp dl sp sl kp kl) m := by
  unfold utilVerify
  apply keeps_inside h
  intro _ _ _
  apply keeps_inside h
  intro _ _ _
  apply keeps_inside h
  intro _ _ _
  apply keeps_unless h
  intro hkl
  apply keeps_unless h
  intro _
  apply keeps_unless h
  intro _
  apply ends_readMem
  intro mem _ hlen
  -- the key has 33 bytes by then, so its first can be looked at
  have hkey : (Sim.readMem mem.bytes kp.toUInt32 kl.toUInt32).length = 33 := by
    rw [hlen, not_not.1 hkl]
    rfl
  apply ends_step (index_getD (by omega) 0)
  apply keeps_unless h
  intro _
  apply ends_readMem
  intro mem' _ _
  apply ends_readMem
  intro mem'' _ _
  obtain ⟨verdict, hverdict⟩ := verifySig_ok env (Sim.readMem mem'.bytes dp.toUInt32 dl.toUInt32)
    (Sim.readMem mem''.bytes sp.toUInt32 sl.toUInt32) hkey
  apply ends_step hverdict
  exact ends_pure h

/-! ### Slots -/

omit env in
/-- A filling call whose entry is computed without a panic, and whose table is sane. -/
theorem keeps_filled {into : UInt32} {c : Checked (Except String (Except Int SlotEntry))}
    {entry : Except String (Except Int SlotEntry)} (hc : c = .ok entry)
    (hsane : ∀ code s', Sim.fill into.toNat m.ctx.slots entry = .ok (code, s') → Sane s') : Keeps (filled into c) m := by
  unfold filled
  apply ends_get
  apply ends_step hc
  apply ends_step (Words.fill_ok h.tracked.counter_le _ _)
  cases hfill : Sim.fill into.toNat m.ctx.slots entry with
  | error message => exact keeps_notModeled message m
  | ok r => exact ends_modify (ends_pure (hsane r.1 r.2 hfill))

theorem keeps_slotSet (rp rl slotInto : Int32) : Keeps (slotSet env rp rl slotInto) m := by
  unfold slotSet
  apply keeps_inside h
  intro mem hmem hin
  apply ends_readMem
  intro mem' hmem' _
  obtain rfl : mem = mem' := Option.some.inj (hmem.symm.trans hmem')
  apply ends_get
  exact keeps_filled h (Words.slotSetEntry_ok env.tx.fits hin _) fun code s' hcall =>
    sane_host (c := .slotSet mem.bytes rp.toUInt32 rl.toUInt32 slotInto.toUInt32) env.tx.fits h hcall

include env in
theorem keeps_slotSubarray (parent idx newSlot : Int32) : Keeps (slotSubarray parent idx newSlot) m := by
  unfold slotSubarray
  apply ends_get
  exact keeps_filled h (Words.slotSubarrayEntry_ok h.within _ _ _) fun code s' hcall =>
    sane_host (c := .slotSubarray parent.toUInt32 idx.toUInt32 newSlot.toUInt32) env.tx.fits h hcall

include env in
theorem keeps_slotSubfield (parent fieldId newSlot : Int32) : Keeps (slotSubfield parent fieldId newSlot) m := by
  unfold slotSubfield
  apply ends_get
  exact keeps_filled h (Words.slotSubfieldEntry_ok h.within _ _ _) fun code s' hcall =>
    sane_host (c := .slotSubfield parent.toUInt32 fieldId.toUInt32 newSlot.toUInt32) env.tx.fits h hcall

theorem keeps_metaSlot (slotInto : Int32) : Keeps (metaSlot env slotInto) m := by
  unfold metaSlot
  apply ends_get
  exact keeps_filled h rfl fun code s' hcall =>
    sane_host (c := .metaSlot slotInto.toUInt32) env.tx.fits h hcall

include env in
theorem keeps_slotClear (slotNo : Int32) : Keeps (slotClear slotNo) m := by
  unfold slotClear
  apply ends_get
  exact ends_modify (ends_pure (sane_host (c := .slotClear slotNo.toUInt32) env.tx.fits h rfl))

theorem keeps_slotBytes (wp wl slotNo : UInt32) : Keeps (slotBytes wp wl slotNo) m := by
  unfold slotBytes
  apply ends_get
  cases hlive : m.ctx.slots.map.lookup slotNo.toNat with
  | none => exact ends_pure h
  | some e =>
    apply ends_step (Words.bytes_ok (h.within _ e hlive))
    exact keeps_writeOrInt64 h _ _ _ _

theorem keeps_slot (wp wl slotNo : Int32) : Keeps (slot wp wl slotNo) m := by
  unfold slot
  apply ends_ite
  · intro _
    apply keeps_unless h
    intro _
    exact keeps_slotBytes h _ _ _
  · intro _
    apply keeps_inside h
    intro _ _ _
    apply keeps_unless h
    intro _
    exact keeps_slotBytes h _ _ _

theorem keeps_slotCount (slotNo : Int32) : Keeps (slotCount slotNo) m := by
  unfold slotCount
  apply ends_get
  apply ends_step (Words.slotCount_ok h.within slotNo)
  cases Sim.slotCount slotNo m.ctx.slots with
  | error message => exact keeps_notModeled message m
  | ok n => exact ends_pure h

theorem keeps_slotSize (slotNo : Int32) : Keeps (slotSize slotNo) m := by
  obtain ⟨size, hsize⟩ := Words.slotSize_ok h.within slotNo.toUInt32
  exact ends_get (ends_last hsize h)

theorem keeps_slotType (slotNo flags : Int32) : Keeps (slotType slotNo flags) m := by
  obtain ⟨code, hcode⟩ := Words.slotType_ok h.within slotNo.toUInt32 flags.toUInt32
  exact ends_get (ends_last hcode h)

end

/-! ### Calls that may panic -/

section
variable {m : Machine} (env : Env)

theorem memOf_run {mem : LinearMemory} (hmem : m.mem = some mem) : memOf.run.run m = .ok (.ok mem, m) := by
  obtain ⟨ctx, memory⟩ := m
  obtain rfl : memory = some mem := hmem
  rfl

/-- A count that is full cannot be raised where sums are checked. -/
theorem _g_panics {id : Int32} (max : Int32) (hchecks : env.overflowChecks) (hfull : m.ctx.crossed id = 0xFFFFFFFF) :
    Panics (_g env id max) m := by
  refine panics_after (a := m) rfl ?_
  refine panics_here (e := .arithmeticOverflow) ?_
  rw [increment, if_pos hchecks, hfull]
  rfl

theorem keeps_g (h : Kept m) {id : Int32} (max : Int32) (hroom : ¬(env.overflowChecks ∧ m.ctx.crossed id = 0xFFFFFFFF)) :
    Keeps (_g env id max) m := by
  have hcount : ∃ count, increment env (m.ctx.crossed id) = .ok count := by
    rw [increment]
    by_cases hchecks : env.overflowChecks
    · have hne : (m.ctx.crossed id).toNat ≠ 2 ^ 32 - 1 := fun heq => hroom ⟨hchecks, UInt32.toNat_inj.1 heq⟩
      have hlt := (m.ctx.crossed id).toNat_lt
      rw [if_pos hchecks, add_ok (by omega)]
      exact ⟨_, rfl⟩
    · rw [if_neg hchecks]
      exact ⟨_, rfl⟩
  obtain ⟨count, hcount⟩ := hcount
  unfold _g
  apply ends_get
  apply ends_step hcount
  obtain ⟨guards, r⟩ := Sim._g m.ctx.toGuardCtx id max
  apply ends_modify
  cases r with
  | ok r => exact ends_pure h
  | error e => exact ends_throw _

section
variable {rlen klen : Int32} {mem : LinearMemory}

theorem stateSet_panics (rptr kptr : Int32) (hmem : m.mem = some mem) (hneg : rlen < 0 ∨ klen < 0) :
    Panics (stateSet rptr rlen kptr klen) m := by
  unfold stateSet
  refine panics_after (memOf_run hmem) ?_
  by_cases hrlen : rlen < 0
  · exact panics_here (buffer_panics hrlen)
  · apply panics_step (buffer_ok (nonneg_of_not_neg hrlen))
    exact panics_here (buffer_panics (hneg.resolve_left hrlen))

theorem state_panics (wptr wlen kptr : Int32) (hmem : m.mem = some mem) (hneg : klen < 0) :
    Panics (state wptr wlen kptr klen) m := by
  unfold state
  refine panics_after (memOf_run hmem) ?_
  exact panics_here (buffer_panics hneg)

theorem emit_panics (wp wl rptr : Int32) (hmem : m.mem = some mem) (hneg : rlen < 0) :
    Panics (emit wp wl rptr rlen) m := by
  unfold emit
  refine panics_after (memOf_run hmem) ?_
  exact panics_here (buffer_panics hneg)

variable (h : Kept m)
include h

theorem keeps_stateSet (rptr kptr : Int32) (hpos : ¬(m.mem.isSome ∧ (rlen < 0 ∨ klen < 0))) :
    Keeps (stateSet rptr rlen kptr klen) m := by
  unfold stateSet
  apply ends_memOf
  intro mem hmem
  obtain ⟨hrlen, hklen⟩ : ¬rlen < 0 ∧ ¬klen < 0 := by simpa [hmem] using hpos
  apply ends_step (buffer_ok (nonneg_of_not_neg hrlen))
  apply ends_step (buffer_ok (nonneg_of_not_neg hklen))
  apply ends_memRead
  intro _ _ _
  apply ends_memRead
  intro _ _ _
  exact ends_modify (ends_pure h)

theorem keeps_state (wptr wlen kptr : Int32) (hpos : ¬(m.mem.isSome ∧ klen < 0)) :
    Keeps (state wptr wlen kptr klen) m := by
  unfold state
  apply ends_memOf
  intro mem hmem
  have hklen : ¬klen < 0 := fun hneg => hpos ⟨by rw [hmem]; rfl, hneg⟩
  apply ends_step (buffer_ok (nonneg_of_not_neg hklen))
  apply ends_memRead
  intro _ _ _
  apply ends_get
  cases m.ctx.state.lookup _ with
  | some val => exact keeps_copyOut h _ _ _
  | none => exact ends_pure h

theorem keeps_emit (wp wl rptr : Int32) (hpos : ¬(m.mem.isSome ∧ rlen < 0)) : Keeps (emit wp wl rptr rlen) m := by
  unfold emit
  apply ends_memOf
  intro mem hmem
  have hrlen : ¬rlen < 0 := fun hneg => hpos ⟨by rw [hmem]; rfl, hneg⟩
  apply ends_step (buffer_ok (nonneg_of_not_neg hrlen))
  apply ends_memRead
  intro _ _ _
  exact ends_modify (ends_pure h)

end

end

end Host

/-! ## Every call -/

/-- The calls that panic, in a state with a memory: those that make a buffer of a length below zero. And the crossing
of a guard whose count is full, in a build that checks sums. -/
def Overflows (env : Env) (m : Machine) : HostCall → Prop
  | .stateSet _ rlen _ klen => m.mem.isSome ∧ (rlen < 0 ∨ klen < 0)
  | .state _ _ _ klen => m.mem.isSome ∧ klen < 0
  | .emit _ _ _ rlen => m.mem.isSome ∧ rlen < 0
  | ._g id _ => env.overflowChecks ∧ m.ctx.crossed id = 0xFFFFFFFF
  | _ => False

section
variable {env : Env} {m m' : Machine} {c : HostCall} {code : Int}

theorem panics_of_overflows (hover : Overflows env m c) : Panics (c.run env) m := by
  cases c with
  | stateSet rptr rlen kptr klen =>
    obtain ⟨mem, hmem⟩ := Option.isSome_iff_exists.1 hover.1
    exact Host.stateSet_panics rptr kptr hmem hover.2
  | state wptr wlen kptr klen =>
    obtain ⟨mem, hmem⟩ := Option.isSome_iff_exists.1 hover.1
    exact Host.state_panics wptr wlen kptr hmem hover.2
  | emit wp wl rptr rlen =>
    obtain ⟨mem, hmem⟩ := Option.isSome_iff_exists.1 hover.1
    exact Host.emit_panics wp wl rptr hmem hover.2
  | _g id max => exact Host._g_panics env max hover.1 hover.2
  | _ => exact hover.elim

theorem keeps_run (h : Kept m) (hfits : ¬Overflows env m c) : Keeps (c.run env) m := by
  cases c with
  | _g id max => exact Host.keeps_g env h max hfits
  | accept p l code => exact Host.keeps_exit p l _
  | rollback p l code => exact Host.keeps_exit p l _
  | otxnField wptr wlen fid => exact Host.keeps_otxnField h env wptr wlen fid
  | hookAccount wptr wlen => exact Host.keeps_copyOut h wptr wlen _
  | hookParam wptr wlen rptr rlen => exact Host.keeps_hookParam h env wptr wlen rptr rlen
  | stateSet rptr rlen kptr klen => exact Host.keeps_stateSet h rptr kptr hfits
  | state wptr wlen kptr klen => exact Host.keeps_state h wptr wlen kptr hfits
  | emit wp wl rptr rlen => exact Host.keeps_emit h wp wl rptr hfits
  | etxnDetails ptr len => exact Host.keeps_etxnDetails h ptr len
  | otxnId wp wl flags => exact Host.keeps_otxnId h env wp wl flags
  | otxnParam wp wl rp rl => exact Host.keeps_otxnParam h env wp wl rp rl
  | slot wp wl slotNo => exact Host.keeps_slot h wp wl slotNo
  | slotClear slotNo => exact Host.keeps_slotClear h env slotNo
  | slotCount slotNo => exact Host.keeps_slotCount h slotNo
  | slotSize slotNo => exact Host.keeps_slotSize h slotNo
  | slotSet rp rl slotInto => exact Host.keeps_slotSet h env rp rl slotInto
  | slotSubarray parent idx newSlot => exact Host.keeps_slotSubarray h env parent idx newSlot
  | slotSubfield parent fieldId newSlot => exact Host.keeps_slotSubfield h env parent fieldId newSlot
  | slotType slotNo flags => exact Host.keeps_slotType h slotNo flags
  | metaSlot slotInto => exact Host.keeps_metaSlot h env slotInto
  | stoSubfield rp rl fid => exact Host.keeps_stoSubfield h env rp rl fid
  | stoSubarray rp rl idx => exact Host.keeps_stoSubarray h env rp rl idx
  | utilKeylet wp wl kt a b c d e f => exact Host.keeps_utilKeylet h env wp wl kt a b c d e f
  | utilSha512h wp wl rp rl => exact Host.keeps_utilSha512h h env wp wl rp rl
  | utilVerify dp dl sp sl kp kl => exact Host.keeps_utilVerify h env dp dl sp sl kp kl
  | _ => exact ends_pure h

/-! ## Runs -/

/-- The states a run reaches: between two calls the hook does with its memory what it likes. -/
inductive Reaches (env : Env) : Machine → Prop
  | start (mem : Option LinearMemory) : Reaches env { mem }
  | hook {m : Machine} (mem : Option LinearMemory) : Reaches env m → Reaches env { m with mem }
  | call {m m' : Machine} {code : Int} (c : HostCall) :
    Reaches env m → (c.run env).run.run m = .ok (.ok code, m') → Reaches env m'

theorem kept_of_reaches (h : Reaches env m) : Kept m := by
  induction h with
  | start mem => exact sane_empty
  | hook mem _ ih => exact ih
  | @call m m' code c _ hrun ih =>
    have hfits : ¬Overflows env m c := fun hover => not_panics hrun (panics_of_overflows hover)
    exact (keeps_run ih hfits).value hrun

end

/-- In every state that a run reaches, with any memory and any words, a call ends in a code or a trap exactly where no
buffer is asked for at a length below zero and, if sums are checked, no full count is raised. -/
theorem host_calls_end_iff (env : Env) {m : Machine} (h : Reaches env m) (c : HostCall) :
    (∃ r m', (c.run env).run.run m = .ok (r, m')) ↔ ¬Overflows env m c := by
  constructor
  · rintro ⟨r, m', hrun⟩ hover
    exact not_panics hrun (panics_of_overflows hover)
  · intro hfits
    obtain ⟨r, m', hrun, -⟩ := keeps_run (kept_of_reaches h) hfits
    exact ⟨r, m', hrun⟩

/-- A hook that is run for nothing in particular. -/
def bareFixture : Fixture where
  ledgerObjects := fun _ => none
  txns := fun _ => none
  callback := false
  provisionalMeta := none
  randomKey := []
  account := ⟨List.replicate 20 0, List.length_replicate⟩
  destination := ⟨List.replicate 20 0, List.length_replicate⟩
  fits := ⟨fun _ _ h => (nomatch h), fun _ _ h => (nomatch h), fun _ h => (nomatch h)⟩

/-- Its surroundings, in which no signature is valid. -/
def bareEnv : Env where
  tx := bareFixture
  crypto :=
    { sha512Half := fun _ => ⟨List.replicate 32 0, List.length_replicate⟩
      ed25519Verify := fun _ _ _ => false
      secp256k1Verify := fun _ _ _ => false }
  overflowChecks := false

/-- A hook with one page of memory. -/
def freshMachine : Machine where
  mem := some ⟨List.replicate 65536 0, by rw [List.length_replicate]; decide⟩

theorem host_calls_end_iff_fresh : ∃ r m', (HostCall.run bareEnv (.stateSet 0 3 0 1)).run.run freshMachine = .ok (r, m') :=
  (host_calls_end_iff bareEnv (.start _) _).2 (by rintro ⟨-, h | h⟩ <;> exact absurd h (by decide))

theorem host_calls_end_negative :
    Reaches bareEnv freshMachine ∧
      (HostCall.run bareEnv (.stateSet 0 (-1) 0 0)).run.run freshMachine = .error .capacityOverflow :=
  ⟨.start _, rfl⟩

end Xahc.Sim

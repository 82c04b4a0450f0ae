/-
The host calls of the guardrail Hooks as they run: each reading call copies its value into the buffer as far as it fits
and answers its length or a negative code, an exit ends the run with its outcome, a guard within its bound goes on.
-/
import Xahc.Sim.Effects

namespace Xahc.Sim

open Xahc.Data Xahc.Data.Checked Xahc.Data.Trapping
open Guardrail (HostRead readInto)

/-! ## Machines -/

theorem LinearMemory.ext {a b : LinearMemory} (h : a.bytes = b.bytes) : a = b := by
  cases a
  cases b
  cases h
  rfl

/-- The machine with bytes over what its memory held. -/
def Machine.filled (m : Machine) (mem : LinearMemory) (ptr : Nat) (bytes : Bytes)
    (hin : ptr + bytes.length ≤ mem.bytes.length) : Machine :=
  { m with mem := some (Host.overwritten mem ptr bytes hin) }

theorem filled_nil {m : Machine} {mem : LinearMemory} (hmem : m.mem = some mem) {ptr : Nat}
    (hin : ptr + ([] : Bytes).length ≤ mem.bytes.length) : m.filled mem ptr [] hin = m := by
  have hsame : Host.overwritten mem ptr [] hin = mem := by
    apply LinearMemory.ext
    show mem.bytes.take ptr ++ [] ++ mem.bytes.drop (ptr + 0) = mem.bytes
    rw [List.append_nil, Nat.add_zero, List.take_append_drop]
  rw [Machine.filled, hsame, ← hmem]

/-- The state of the hook, as a map. -/
def Machine.hookState (m : Machine) : Bytes → Option Bytes := fun key => m.ctx.state.lookup key

/-- The transaction of a fixture, as the hook sees it. -/
def Fixture.otxn (tx : Fixture) : Guardrail.Otxn where
  tt := tx.tt.toInt
  drops := tx.drops
  account := tx.account
  destination := tx.destination
  fields := fun fid => if fid < 2 ^ 32 then tx.fields (.ofNat fid) else none

namespace Host

section
variable {m : Machine} {mem : LinearMemory} (hmem : m.mem = some mem) (env : Env)
include hmem

/-! ## Reads -/

/-- An answer with its bytes in the buffer. -/
def answered (m : Machine) (mem : LinearMemory) (wptr : Int32) (read : HostRead)
    (hin : usize wptr + read.buf.length ≤ mem.bytes.length) : Except Panic (Except Trap Int × Machine) :=
  .ok (.ok read.rc, m.filled mem (usize wptr) read.buf hin)

theorem copyOut_reads {wptr wlen : Int32} (bytes : Bytes)
    (hin : usize wptr + (readInto (usize wlen) (some bytes)).buf.length ≤ mem.bytes.length) :
    (copyOut wptr wlen bytes).run.run m = answered m mem wptr (readInto (usize wlen) (some bytes)) hin := by
  by_cases hfits : usize wlen < bytes.length
  · have hread : readInto (usize wlen) (some bytes) = ⟨rc.TOO_SMALL, []⟩ := if_pos hfits
    simp only [hread, answered] at hin ⊢
    rw [filled_nil hmem hin, copyOut, if_pos hfits]
    rfl
  · have hread : readInto (usize wlen) (some bytes) = ⟨bytes.length, bytes⟩ := if_neg hfits
    simp only [hread, answered] at hin ⊢
    exact copyOut_run hmem (Nat.not_lt.1 hfits) hin

theorem absent_reads {wptr wlen : Int32} (hin : usize wptr + (readInto (usize wlen) none).buf.length ≤ mem.bytes.length) :
    (pure rc.DOESNT_EXIST : Host Int).run.run m = answered m mem wptr (readInto (usize wlen) none) hin := by
  show _ = Except.ok (Except.ok rc.DOESNT_EXIST, m.filled mem (usize wptr) [] hin)
  rw [filled_nil hmem hin]
  rfl

theorem otxnField_reads {wptr wlen fid : Int32} {v : Option Bytes} (hv : env.tx.otxn.field fid.toUInt32.toNat = v)
    (hin : usize wptr + (readInto (usize wlen) v).buf.length ≤ mem.bytes.length) :
    (otxnField env wptr wlen fid).run.run m = answered m mem wptr (readInto (usize wlen) v) hin := by
  have hlt := fid.toUInt32.toNat_lt
  have hfields : env.tx.otxn.fields fid.toUInt32.toNat = env.tx.fields fid.toUInt32 := by
    show (if fid.toUInt32.toNat < 2 ^ 32 then env.tx.fields (.ofNat fid.toUInt32.toNat) else none) = _
    rw [if_pos hlt, UInt32.ofNat_toNat]
  have hcode {code : UInt32} {n : Nat} (hn : code.toNat = n) : fid.toUInt32.toNat = n ↔ fid.toUInt32 = code := by
    rw [← hn, UInt32.toNat_inj]
  rw [Guardrail.Otxn.field, hfields] at hv
  unfold otxnField
  dsimp only
  -- a field given by the fixture wins over the three that the transaction has by itself
  cases hover : env.tx.fields fid.toUInt32 with
  | some bytes =>
    rw [hover] at hv
    subst hv
    exact copyOut_reads hmem bytes hin
  | none =>
    rw [hover] at hv
    simp only [hcode (show SF_AMOUNT.toNat = Guardrail.sfAmount from rfl),
      hcode (show SF_ACCOUNT.toNat = Guardrail.sfAccount from rfl),
      hcode (show SF_DESTINATION.toNat = Guardrail.sfDestination from rfl)] at hv
    dsimp only
    by_cases hamount : fid.toUInt32 = SF_AMOUNT
    · rw [if_pos hamount] at hv ⊢
      subst hv
      exact copyOut_reads hmem _ hin
    rw [if_neg hamount] at hv ⊢
    by_cases haccount : fid.toUInt32 = SF_ACCOUNT
    · rw [if_pos haccount] at hv ⊢
      subst hv
      exact copyOut_reads hmem _ hin
    rw [if_neg haccount] at hv ⊢
    by_cases hdestination : fid.toUInt32 = SF_DESTINATION
    · rw [if_pos hdestination] at hv ⊢
      subst hv
      exact copyOut_reads hmem _ hin
    · rw [if_neg hdestination] at hv ⊢
      subst hv
      exact absent_reads hmem hin

/-- What is read of the memory. -/
theorem memRead_run {ptr len : Nat} (hin : ptr + len ≤ mem.bytes.length) :
    (memRead ptr len).run.run m = .ok (.ok (region mem.bytes ptr len), m) := by
  unfold memRead
  rw [run_bind (memOf_run hmem), if_pos hin]
  rfl

theorem memWrite_run {ptr : Nat} {bytes : Bytes} (hin : ptr + bytes.length ≤ mem.bytes.length) :
    (memWrite ptr bytes).run.run m = .ok (.ok (), m.filled mem ptr bytes hin) := by
  unfold memWrite
  rw [run_bind (memOf_run hmem), dif_pos hin]
  rfl

theorem hookParam_reads {wptr wlen rptr rlen : Int32} {key : Bytes} {v : Option Bytes} (hlen : 0 ≤ rlen.toInt)
    (hkey : usize rptr + usize rlen ≤ mem.bytes.length) (hregion : region mem.bytes (usize rptr) (usize rlen) = key)
    (hv : env.tx.hookParams key = v) (hin : usize wptr + (readInto (usize wlen) v).buf.length ≤ mem.bytes.length) :
    (hookParam env wptr wlen rptr rlen).run.run m = answered (noted m key) mem wptr (readInto (usize wlen) v) hin := by
  have hmax : max rlen 0 = rlen := by
    show (if rlen ≤ 0 then 0 else rlen) = rlen
    by_cases h : rlen ≤ 0
    · have hzero : rlen.toInt = 0 := le_antisymm (Int32.le_iff_toInt_le.1 h) hlen
      rw [if_pos h, ← Int32.toInt_inj, hzero]
      rfl
    · rw [if_neg h]
  have hnoted : (noted m key).mem = some mem := hmem
  unfold hookParam
  rw [run_bind (memOf_run hmem), hmax, run_step (buffer_ok hlen), List.length_replicate,
    run_bind (memRead_run hmem hkey), hregion, run_modify, hv]
  cases v with
  | some val => exact copyOut_reads hnoted val hin
  | none => exact absent_reads hnoted hin

theorem state_reads {wptr wlen kptr klen : Int32} {key : Bytes} {v : Option Bytes} (hlen : 0 ≤ klen.toInt)
    (hkey : usize kptr + usize klen ≤ mem.bytes.length) (hregion : region mem.bytes (usize kptr) (usize klen) = key)
    (hv : m.hookState key = v) (hin : usize wptr + (readInto (usize wlen) v).buf.length ≤ mem.bytes.length) :
    (state wptr wlen kptr klen).run.run m = answered m mem wptr (readInto (usize wlen) v) hin := by
  have hlookup : m.ctx.state.lookup key = v := hv
  unfold state
  rw [run_bind (memOf_run hmem), run_step (buffer_ok hlen), List.length_replicate, run_bind (memRead_run hmem hkey),
    hregion, run_get, hlookup]
  cases v with
  | some val => exact copyOut_reads hmem val hin
  | none => exact absent_reads hmem hin

/-! ## State -/

theorem stateSet_run {rptr rlen kptr klen : Int32} (hrlen : 0 ≤ rlen.toInt) (hklen : 0 ≤ klen.toInt)
    (hval : usize rptr + usize rlen ≤ mem.bytes.length) (hkey : usize kptr + usize klen ≤ mem.bytes.length) :
    (stateSet rptr rlen kptr klen).run.run m = .ok (.ok rlen.toInt,
      m.withState (region mem.bytes (usize kptr) (usize klen)) (region mem.bytes (usize rptr) (usize rlen))) := by
  unfold stateSet
  rw [run_bind (memOf_run hmem), run_step (buffer_ok hrlen), run_step (buffer_ok hklen),
    List.length_replicate, List.length_replicate, run_bind (memRead_run hmem hval), run_bind (memRead_run hmem hkey)]
  rfl

/-! ## Exits -/

/-- The run with its outcome. -/
def ended (m : Machine) (out : Outcome) : Machine := { m with ctx := { m.ctx with outcome := some out } }

/-- An exit whose reason lies in the memory, or that gives none. -/
theorem exit_run {p l : Int32} {out : Outcome} (hreason : p.toUInt32 = 0 ∨
    (p.toUInt32.toNat < mem.bytes.length ∧ p.toUInt32.toNat + min l.toUInt32.toNat 256 ≤ mem.bytes.length)) :
    (exit p l out).run.run m = .ok (.error .halt, ended m out) := by
  have hp := p.toUInt32.toNat_lt
  have hinside : (reasonOutOfBounds p l).run.run m = .ok (.ok false, m) := by
    unfold reasonOutOfBounds
    dsimp only
    rcases hreason with hzero | ⟨hstart, hend⟩
    · rw [if_pos (by rw [hzero]; rfl)]
      rfl
    · by_cases hzero : p.toUInt32.toNat = 0
      · rw [if_pos hzero]
        rfl
      · rw [if_neg hzero, run_bind (memOf_run hmem), if_neg (by omega), run_step (add_ok (by omega)),
          decide_eq_false (by omega)]
        rfl
  unfold exit
  rw [run_bind hinside]
  rfl

end

/-! ## Guards -/

/-- The run with one more crossing of a guard. -/
def crossedOnce (m : Machine) (id : Int32) : Machine :=
  { m with ctx := { m.ctx with guards := m.ctx.guards.insert id (m.ctx.crossed id + 1) } }

theorem g_run (env : Env) {m : Machine} {id max : Int32} (hroom : (m.ctx.crossed id).toNat < max.toUInt32.toNat) :
    (_g env id max).run.run m = .ok (.ok 1, crossedOnce m id) := by
  have hmax := max.toUInt32.toNat_lt
  have hsum : (m.ctx.crossed id + 1).toNat = (m.ctx.crossed id).toNat + 1 := by
    rw [UInt32.toNat_add, UInt32.toNat_one]
    omega
  obtain ⟨count, hcount⟩ : ∃ count, increment env (m.ctx.crossed id) = .ok count := by
    rw [increment]
    by_cases hchecks : env.overflowChecks
    · rw [if_pos hchecks, add_ok (by omega)]
      exact ⟨_, rfl⟩
    · rw [if_neg hchecks]
      exact ⟨_, rfl⟩
  have hguard : Sim._g m.ctx.toGuardCtx id max =
      ({ m.ctx.toGuardCtx with guards := m.ctx.guards.insert id (m.ctx.crossed id + 1) }, .ok 1) := by
    unfold Sim._g
    dsimp only
    rw [if_neg]
    rintro ⟨-, hover⟩
    have := UInt32.lt_iff_toNat_lt.1 hover
    omega
  unfold _g
  rw [run_get]
  dsimp only
  rw [run_step hcount, hguard]
  rfl

@[simp] theorem crossed_crossedOnce (m : Machine) (id id' : Int32) :
    (crossedOnce m id).ctx.crossed id' = if id' = id then m.ctx.crossed id + 1 else m.ctx.crossed id' := by
  unfold crossedOnce GuardCtx.crossed
  by_cases h : id' = id
  · rw [if_pos h, h, AList.lookup_insert]
    rfl
  · rw [if_neg h, AList.lookup_insert_ne h]

end Host

end Xahc.Sim

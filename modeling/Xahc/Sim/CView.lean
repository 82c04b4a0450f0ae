/-
What is known of a C hook's run at a point of its source: the bytes at the start of each array, how often each guard was
crossed, the parameters asked for and the hook state; and what each macro and statement makes of it.
-/
import Xahc.Sim.CHook

namespace Xahc.Sim

open Xahc.Data Xahc.Data.Trapping
open Guardrail (HostRead readInto Exit Install HookState)

/-- What the code of a hook sees of the machine: its arrays, the guards it crossed and the parameters it asked for. -/
structure View (L : Type) where
  held : L → Bytes := fun _ => []
  crossed : Int32 → Nat := fun _ => 0
  asked : List Bytes := []
  state : HookState

namespace View

section
variable {L : Type} (w : View L)

/-- A guard crossed `n` times more. -/
def cross (id : Int32) (n : Nat) : View L := { w with crossed := Function.update w.crossed id (w.crossed id + n) }

/-- A parameter asked for. -/
def ask (key : Bytes) : View L := { w with asked := w.asked.insert key }

@[simp] theorem cross_held (id : Int32) (n : Nat) : (w.cross id n).held = w.held := rfl
@[simp] theorem cross_asked (id : Int32) (n : Nat) : (w.cross id n).asked = w.asked := rfl
@[simp] theorem cross_state (id : Int32) (n : Nat) : (w.cross id n).state = w.state := rfl
@[simp] theorem ask_held (key : Bytes) : (w.ask key).held = w.held := rfl
@[simp] theorem ask_crossed (key : Bytes) : (w.ask key).crossed = w.crossed := rfl
@[simp] theorem ask_state (key : Bytes) : (w.ask key).state = w.state := rfl

@[simp] theorem cross_self (id : Int32) (n : Nat) : (w.cross id n).crossed id = w.crossed id + n := by
  simp [cross]

@[simp] theorem cross_other {id id' : Int32} (h : id' ≠ id) (n : Nat) : (w.cross id n).crossed id' = w.crossed id' := by
  simp [cross, h]

theorem cross_zero (id : Int32) : w.cross id 0 = w := by
  rw [cross, Nat.add_zero, Function.update_eq_self]

theorem cross_cross (id : Int32) (n k : Nat) : (w.cross id n).cross id k = w.cross id (n + k) := by
  rw [cross, cross_self, Nat.add_assoc, cross, Function.update_idem, cross]

end

section
variable {L : Type} [DecidableEq L] (w : View L)

/-- An array with other bytes. -/
def hold (v : L) (bytes : Bytes) : View L := { w with held := Function.update w.held v bytes }

@[simp] theorem hold_self (v : L) (bytes : Bytes) : (w.hold v bytes).held v = bytes := by
  simp [hold]

@[simp] theorem hold_other {u v : L} (h : u ≠ v) (bytes : Bytes) : (w.hold v bytes).held u = w.held u := by
  simp [hold, h]

@[simp] theorem hold_crossed (v : L) (bytes : Bytes) : (w.hold v bytes).crossed = w.crossed := rfl
@[simp] theorem hold_asked (v : L) (bytes : Bytes) : (w.hold v bytes).asked = w.asked := rfl
@[simp] theorem hold_state (v : L) (bytes : Bytes) : (w.hold v bytes).state = w.state := rfl

end

end View

/-- The machine is as the view tells. -/
structure Shows {L : Type} [DecidableEq L] [Arrays L] (fr : Frame L) (msgs : List String) (w : View L) (m : Machine) :
    Prop where
  memory : ∃ mem, m.mem = some mem ∧ fr.Fits msgs mem.bytes.length ∧
    ∀ v, (w.held v).length ≤ Arrays.size v ∧ region mem.bytes (fr.ptr v) (w.held v).length = w.held v
  crossed : ∀ id, (m.ctx.crossed id).toNat = w.crossed id
  asked : m.ctx.paramsRead = w.asked
  state : m.hookState = w.state
  emitted : m.ctx.emitted = []
  simError : m.ctx.simError = none

/-- The fixed part of an install, as the simulator serves it. -/
def Fixture.install (tx : Fixture) : Install := ⟨Guardrail.AccountID.filled 0xAA, tx.hookParams⟩

section
variable {L : Type} [DecidableEq L] [Arrays L] {fr : Frame L} {msgs : List String} {w : View L} {m : Machine}
  {mem : LinearMemory} (env : Env)

theorem readInto_length_le {n : Nat} {v : Option Bytes} : (readInto n v).buf.length ≤ n := by
  cases v with
  | none => exact Nat.zero_le _
  | some b =>
    by_cases h : n < b.length
    · simp [readInto, h]
    · simp only [readInto, if_neg h]
      exact Nat.not_lt.1 h

/-! ## Arrays -/

/-- Bytes written to an array, from within what is known of it. -/
theorem Shows.filled (h : Shows fr msgs w m) (hmem : m.mem = some mem) {v : L} {off : Nat} {bytes : Bytes}
    (hoff : off ≤ (w.held v).length) (hsize : off + bytes.length ≤ Arrays.size v)
    (hin : fr.ptr v + off + bytes.length ≤ mem.bytes.length) :
    Shows fr msgs (w.hold v ((w.held v).take off ++ bytes)) (m.filled mem (fr.ptr v + off) bytes hin) := by
  obtain ⟨mem', hmem', hfits, hheld⟩ := h.memory
  obtain rfl : mem = mem' := Option.some.inj (hmem.symm.trans hmem')
  have hlen : (splice mem.bytes (fr.ptr v + off) bytes).length = mem.bytes.length := splice_length hin
  refine ⟨⟨Host.overwritten mem (fr.ptr v + off) bytes hin, rfl, ?_, fun u => ?_⟩, h.crossed, h.asked, h.state, h.emitted,
    h.simError⟩
  · show fr.Fits msgs (splice mem.bytes (fr.ptr v + off) bytes).length
    rwa [hlen]
  · show _ ∧ region (splice mem.bytes (fr.ptr v + off) bytes) _ _ = _
    obtain ⟨hu, hregion⟩ := hheld u
    by_cases huv : u = v
    · subst huv
      have htake : ((w.held u).take off ++ bytes).length = off + bytes.length := by
        rw [List.length_append, List.length_take, Nat.min_eq_left hoff]
      have hprefix : region mem.bytes (fr.ptr u) off = (w.held u).take off := by
        rw [← hregion, region, region, List.take_take, Nat.min_eq_left hoff]
      rw [View.hold_self, htake, region_splice_end hin, hprefix]
      exact ⟨hsize, rfl⟩
    · rw [View.hold_other w huv]
      have hapart := hfits.apart u v huv
      exact ⟨hu, (region_splice_of_disjoint hin (by omega)).trans hregion⟩

theorem Shows.inside (h : Shows fr msgs w m) (hmem : m.mem = some mem) (v : L) :
    fr.ptr v + Arrays.size v ≤ mem.bytes.length := by
  obtain ⟨mem', hmem', hfits, -⟩ := h.memory
  obtain rfl : mem = mem' := Option.some.inj (hmem.symm.trans hmem')
  exact hfits.inside v

theorem Shows.words (h : Shows fr msgs w m) (v : L) :
    usize (word (fr.ptr v)) = fr.ptr v ∧ usize (word (Arrays.size v)) = Arrays.size v ∧
      0 ≤ (word (Arrays.size v)).toInt := by
  obtain ⟨_, -, hfits, -⟩ := h.memory
  have hsmall := hfits.small v
  have hsize : Arrays.size v < 2 ^ 31 := by omega
  refine ⟨word_usize (by omega), word_usize hsize, ?_⟩
  rw [word_toInt hsize]
  omega

theorem Shows.held (h : Shows fr msgs w m) (hmem : m.mem = some mem) (v : L) :
    region mem.bytes (fr.ptr v) (w.held v).length = w.held v := by
  obtain ⟨mem', hmem', -, hheld⟩ := h.memory
  obtain rfl : mem = mem' := Option.some.inj (hmem.symm.trans hmem')
  exact (hheld v).2

namespace C

theorem load_run (h : Shows fr msgs w m) (v : L) (off n : Nat) (hn : off + n ≤ (w.held v).length) :
    (load fr v off n).run.run m = .ok (.ok (region (w.held v) off n), m) := by
  obtain ⟨mem, hmem, hfits, hheld⟩ := h.memory
  have hle := (hheld v).1
  have hin := hfits.inside v
  have hpart : region (w.held v) off n = region mem.bytes (fr.ptr v + off) n := by
    rw [← (hheld v).2]
    exact region_region hn
  rw [load, Host.memRead_run hmem (by omega), hpart]

/-- All that is known of an array. -/
theorem load_all (h : Shows fr msgs w m) {v : L} {b : Bytes} {n : Nat} (hv : w.held v = b) (hlen : b.length = n) :
    (load fr v 0 n).run.run m = .ok (.ok b, m) := by
  subst hv
  rw [load_run h v 0 n (by omega), region, List.drop_zero, List.take_of_length_le hlen.le]

theorem byte_run (h : Shows fr msgs w m) {v : L} {i : Nat} (hi : i < (w.held v).length) :
    (byte fr v i).run.run m = .ok (.ok ((w.held v).getD i 0), m) := by
  have hone : (region (w.held v) i 1).getD 0 0 = (w.held v).getD i 0 := by
    rw [List.getD_eq_getElem?_getD, List.getD_eq_getElem?_getD, getElem?_region Nat.one_pos, Nat.add_zero]
  rw [byte, run_bind (load_run h v i 1 hi), hone]
  rfl

theorem store_run (h : Shows fr msgs w m) (v : L) (off : Nat) (bytes : Bytes) (hoff : off ≤ (w.held v).length)
    (hsize : off + bytes.length ≤ Arrays.size v) :
    ∃ m', (store fr v off bytes).run.run m = .ok (.ok (), m') ∧
      Shows fr msgs (w.hold v ((w.held v).take off ++ bytes)) m' := by
  obtain ⟨mem, hmem, hfits, -⟩ := h.memory
  have hin := hfits.inside v
  have hroom : fr.ptr v + off + bytes.length ≤ mem.bytes.length := by omega
  exact ⟨_, Host.memWrite_run hmem hroom, h.filled hmem hoff hsize hroom⟩

/-- An array of which nothing need be known is written from its start. -/
theorem init_run (h : Shows fr msgs w m) (v : L) (bytes : Bytes) (hsize : bytes.length ≤ Arrays.size v) :
    ∃ m', (store fr v 0 bytes).run.run m = .ok (.ok (), m') ∧ Shows fr msgs (w.hold v bytes) m' := by
  have hroom : 0 + bytes.length ≤ Arrays.size v := by rwa [Nat.zero_add]
  exact store_run h v 0 bytes (Nat.zero_le _) hroom

/-! ## Calls -/

/-- What a reading call answers, in the array it was handed. -/
theorem answered_shows (h : Shows fr msgs w m) (hmem : m.mem = some mem) {v : L} {ptr : Nat} (hptr : ptr = fr.ptr v)
    {read : HostRead} (hread : read.buf.length ≤ Arrays.size v) (hin : ptr + read.buf.length ≤ mem.bytes.length) :
    Shows fr msgs (w.hold v read.buf) (m.filled mem ptr read.buf hin) := by
  subst hptr
  have hroom : 0 + read.buf.length ≤ Arrays.size v := by rwa [Nat.zero_add]
  exact h.filled hmem (Nat.zero_le _) hroom hin

theorem otxnField_run (h : Shows fr msgs w m) (v : L) (fid : Nat) (hfid : fid < 2 ^ 32) :
    ∃ m', (otxnField env fr v fid).run.run m = .ok (.ok (env.tx.otxn.otxnField (Arrays.size v) fid).rc, m') ∧
      Shows fr msgs (w.hold v (env.tx.otxn.otxnField (Arrays.size v) fid).buf) m' := by
  obtain ⟨mem, hmem, -, -⟩ := h.memory
  obtain ⟨hptr, hsize, -⟩ := h.words v
  have hfield : env.tx.otxn.field (word fid).toUInt32.toNat = env.tx.otxn.field fid := by rw [word_toUInt32 hfid]
  have hroom := h.inside hmem v
  rw [Guardrail.Otxn.otxnField]
  generalize env.tx.otxn.field fid = val at hfield
  have hlen : (readInto (Arrays.size v) val).buf.length ≤ Arrays.size v := readInto_length_le
  have hin : usize (word (fr.ptr v)) + (readInto (usize (word (Arrays.size v))) val).buf.length ≤ mem.bytes.length := by
    rw [hptr, hsize]
    omega
  have hrun := Host.otxnField_reads hmem env hfield hin
  rw [Host.answered] at hrun
  rw [← hsize] at hlen ⊢
  exact ⟨_, hrun, answered_shows h hmem hptr (hlen.trans hsize.le) hin⟩

theorem hookAccount_run (h : Shows fr msgs w m) {v : L} (hsize : 20 ≤ Arrays.size v) :
    ∃ m', (hookAccount fr v).run.run m = .ok (.ok 20, m') ∧ Shows fr msgs (w.hold v env.tx.install.me.1) m' := by
  obtain ⟨mem, hmem, -, -⟩ := h.memory
  obtain ⟨hptr, hlen, -⟩ := h.words v
  have hroom := h.inside hmem v
  have hfill : readInto (usize (word (Arrays.size v))) (some (List.replicate 20 0xAA)) = ⟨20, List.replicate 20 0xAA⟩ := by
    rw [hlen]
    exact Guardrail.readInto_fits hsize
  have hin : usize (word (fr.ptr v)) +
      (readInto (usize (word (Arrays.size v))) (some (List.replicate 20 0xAA))).buf.length ≤ mem.bytes.length := by
    rw [hfill, hptr, List.length_replicate]
    omega
  have hrun := Host.copyOut_reads hmem _ hin
  rw [Host.answered] at hrun
  simp only [hfill] at hin hrun
  have hbuf : (HostRead.mk 20 (List.replicate 20 0xAA)).buf.length ≤ Arrays.size v := hsize
  exact ⟨_, hrun, answered_shows h hmem hptr hbuf hin⟩

theorem hookParam_run (h : Shows fr msgs w m) (v : L) {k : L} {key : Bytes} (hk : w.held k = key)
    (hlen : key.length = Arrays.size k) :
    ∃ m', (hookParam env fr v k).run.run m = .ok (.ok (env.tx.install.hookParam (Arrays.size v) key).rc, m') ∧
      Shows fr msgs ((w.ask key).hold v (env.tx.install.hookParam (Arrays.size v) key).buf) m' := by
  obtain ⟨mem, hmem, -, -⟩ := h.memory
  obtain ⟨hptr, hsize, -⟩ := h.words v
  obtain ⟨hkptr, hksize, hkpos⟩ := h.words k
  have hroom := h.inside hmem v
  have hkroom := h.inside hmem k
  have hregion : region mem.bytes (usize (word (fr.ptr k))) (usize (word (Arrays.size k))) = key := by
    rw [hkptr, hksize, ← hlen, ← hk]
    exact h.held hmem k
  obtain ⟨val, hval⟩ : ∃ val, env.tx.hookParams key = val := ⟨_, rfl⟩
  have hparam : env.tx.install.hookParam (Arrays.size v) key = readInto (usize (word (Arrays.size v))) val := by
    rw [hsize, ← hval]
    rfl
  have hbuf : (readInto (usize (word (Arrays.size v))) val).buf.length ≤ Arrays.size v :=
    readInto_length_le.trans hsize.le
  have hin : usize (word (fr.ptr v)) + (readInto (usize (word (Arrays.size v))) val).buf.length ≤ mem.bytes.length := by
    rw [hptr]
    omega
  have hrun := Host.hookParam_reads hmem env hkpos (by omega) hregion hval hin
  have hnoted : Shows fr msgs (w.ask key) (Host.noted m key) :=
    ⟨h.memory, h.crossed, congrArg (List.insert key) h.asked, h.state, h.emitted, h.simError⟩
  rw [hparam]
  exact ⟨_, hrun, answered_shows hnoted hmem hptr hbuf hin⟩

theorem state_run (h : Shows fr msgs w m) (v : L) {k : L} {key : Bytes} (hk : w.held k = key)
    (hlen : key.length = Arrays.size k) :
    ∃ m', (state fr v k).run.run m = .ok (.ok (readInto (Arrays.size v) (w.state key)).rc, m') ∧
      Shows fr msgs (w.hold v (readInto (Arrays.size v) (w.state key)).buf) m' := by
  obtain ⟨mem, hmem, -, -⟩ := h.memory
  obtain ⟨hptr, hsize, -⟩ := h.words v
  obtain ⟨hkptr, hksize, hkpos⟩ := h.words k
  have hroom := h.inside hmem v
  have hkroom := h.inside hmem k
  have hregion : region mem.bytes (usize (word (fr.ptr k))) (usize (word (Arrays.size k))) = key := by
    rw [hkptr, hksize, ← hlen, ← hk]
    exact h.held hmem k
  obtain ⟨val, hval⟩ : ∃ val, w.state key = val := ⟨_, rfl⟩
  have hlookup : m.hookState key = val := by rw [h.state, hval]
  have hread : readInto (Arrays.size v) (w.state key) = readInto (usize (word (Arrays.size v))) val := by
    rw [hsize, hval]
  have hbuf : (readInto (usize (word (Arrays.size v))) val).buf.length ≤ Arrays.size v :=
    readInto_length_le.trans hsize.le
  have hin : usize (word (fr.ptr v)) + (readInto (usize (word (Arrays.size v))) val).buf.length ≤ mem.bytes.length := by
    rw [hptr]
    omega
  have hrun := Host.state_reads hmem hkpos (by omega) hregion hlookup hin
  rw [hread]
  exact ⟨_, hrun, answered_shows h hmem hptr hbuf hin⟩

theorem stateSet_run (h : Shows fr msgs w m) {v k : L} {key val : Bytes} (hv : w.held v = val) (hk : w.held k = key)
    (hvlen : val.length = Arrays.size v) (hklen : key.length = Arrays.size k) :
    ∃ m', (stateSet fr v k).run.run m = .ok (.ok (Arrays.size v), m') ∧
      Shows fr msgs { w with state := w.state.set key val } m' := by
  obtain ⟨mem, hmem, hfits, -⟩ := h.memory
  obtain ⟨hvptr, hvsize, hvpos⟩ := h.words v
  obtain ⟨hkptr, hksize, hkpos⟩ := h.words k
  have hvroom := h.inside hmem v
  have hkroom := h.inside hmem k
  have hval : region mem.bytes (usize (word (fr.ptr v))) (usize (word (Arrays.size v))) = val := by
    rw [hvptr, hvsize, ← hvlen, ← hv]
    exact h.held hmem v
  have hkey : region mem.bytes (usize (word (fr.ptr k))) (usize (word (Arrays.size k))) = key := by
    rw [hkptr, hksize, ← hklen, ← hk]
    exact h.held hmem k
  have hvin : usize (word (fr.ptr v)) + usize (word (Arrays.size v)) ≤ mem.bytes.length := by omega
  have hkin : usize (word (fr.ptr k)) + usize (word (Arrays.size k)) ≤ mem.bytes.length := by omega
  have hrun := Host.stateSet_run hmem hvpos hkpos hvin hkin
  have hsmall := hfits.small v
  rw [hval, hkey, word_toInt (by omega)] at hrun
  refine ⟨_, hrun, h.memory, h.crossed, h.asked, ?_, h.emitted, h.simError⟩
  funext key'
  show (m.ctx.state.insert key val).lookup key' = w.state.set key val key'
  rw [HookState.set]
  by_cases hsame : key' = key
  · rw [if_pos hsame, hsame, AList.lookup_insert]
  · rw [if_neg hsame, AList.lookup_insert_ne hsame, ← h.state]
    rfl

/-! ## Guards -/

theorem g_run (h : Shows fr msgs w m) {id max : Int32} (hroom : w.crossed id < max.toUInt32.toNat) :
    ∃ m', (Host._g env id max).run.run m = .ok (.ok 1, m') ∧ Shows fr msgs (w.cross id 1) m' := by
  rw [← h.crossed id] at hroom
  have hmax := max.toUInt32.toNat_lt
  refine ⟨_, Host.g_run env hroom, h.memory, fun id' => ?_, h.asked, h.state, h.emitted, h.simError⟩
  by_cases hid : id' = id
  · subst hid
    rw [Host.crossed_crossedOnce, if_pos rfl, View.cross_self, ← h.crossed, UInt32.toNat_add, UInt32.toNat_one]
    omega
  · rw [Host.crossed_crossedOnce, if_neg hid, View.cross_other w hid, h.crossed]

theorem guard_run (h : Shows fr msgs w m) {counter maxiter : Nat} (hmax : maxiter + 1 < 2 ^ 32)
    (hroom : w.crossed (guardId counter) ≤ maxiter) :
    ∃ m', (XAHC_GUARD env counter maxiter).run.run m = .ok (.ok (), m') ∧
      Shows fr msgs (w.cross (guardId counter) 1) m' := by
  have hbound : w.crossed (guardId counter) < (word (maxiter + 1)).toUInt32.toNat := by
    rw [word_toUInt32 hmax]
    omega
  obtain ⟨m', hrun, h'⟩ := g_run env h hbound
  exact ⟨m', run_bind hrun, h'⟩

theorem entry_run (h : Shows fr msgs w m) {counter : Nat} (hfirst : w.crossed (guardId counter) = 0) :
    ∃ m', (XAHC_HOOK_ENTRY env counter).run.run m = .ok (.ok (), m') ∧
      Shows fr msgs (w.cross (guardId counter) 1) m' := by
  have hbound : w.crossed (guardId counter) < (1 : Int32).toUInt32.toNat := by
    rw [hfirst]
    decide
  obtain ⟨m', hrun, h'⟩ := g_run env h hbound
  exact ⟨m', run_bind hrun, h'⟩

/-- The loop compares the arrays index by index, and crosses its guard once for each. -/
theorem sameBytesLoop_run {counter maxiter : Nat} (hmax : maxiter + 1 < 2 ^ 32) {a b : L} :
    ∀ (l : List Nat) (ok : Bool) {w : View L} {m : Machine}, Shows fr msgs w m →
      (∀ i ∈ l, i < (w.held a).length ∧ i < (w.held b).length) →
      w.crossed (guardId counter) + l.length ≤ maxiter + 1 →
      ∃ m', (sameBytesLoop env fr counter maxiter a b ok l).run.run m =
          .ok (.ok (l.foldl (fun ok i => if (w.held a).getD i 0 != (w.held b).getD i 0 then false else ok) ok), m') ∧
        Shows fr msgs (w.cross (guardId counter) l.length) m'
  | [], ok, w, m, h, _, _ => ⟨m, rfl, by rwa [List.length_nil, View.cross_zero]⟩
  | i :: l, ok, w, m, h, hin, hroom => by
    obtain ⟨ha, hb⟩ := hin i (List.mem_cons_self ..)
    rw [List.length_cons] at hroom
    have hfree : w.crossed (guardId counter) ≤ maxiter := by omega
    obtain ⟨m₁, hguard, h₁⟩ := guard_run env h hmax hfree
    have hbyte {v : L} (hv : i < (w.held v).length) : (byte fr v i).run.run m₁ = .ok (.ok ((w.held v).getD i 0), m₁) :=
      byte_run h₁ hv
    obtain ⟨m₂, hrest, h₂⟩ := sameBytesLoop_run hmax l (if (w.held a).getD i 0 != (w.held b).getD i 0 then false else ok) h₁
      (fun j hj => hin j (List.mem_cons_of_mem i hj)) (by
        rw [View.cross_self]
        omega)
    refine ⟨m₂, ?_, ?_⟩
    · rw [sameBytesLoop, run_bind hguard, run_bind (hbyte ha), run_bind (hbyte hb), hrest, List.foldl_cons]
      rfl
    · rw [View.cross_cross, Nat.add_comm] at h₂
      exact h₂

end C

/-! ## Exits -/

/-- The outcome the simulator reports for an exit. -/
def Exit.outcome : Exit → Outcome
  | .accept _ line => .Accept (.ofInt line)
  | .rollback _ line => .Rollback (.ofInt line)

/-- The run was ended by the exit, with these parameters asked and this state. -/
structure Stopped (asked : List Bytes) (st : HookState) (d : Exit) (e : Trap) (m : Machine) : Prop where
  halt : e = .halt
  outcome : m.ctx.outcome = some (Exit.outcome d)
  asked : m.ctx.paramsRead = asked
  state : m.hookState = st
  emitted : m.ctx.emitted = []
  simError : m.ctx.simError = none

namespace C

/-- An exit with a message that lies in the memory. -/
theorem exit_run (h : Shows fr msgs w m) {msg : String} (hmsg : msg ∈ msgs) (out : Outcome) :
    (Host.exit (word (fr.lit msg)) (word (sizeof msg)) out).run.run m = .ok (.error .halt, Host.ended m out) := by
  obtain ⟨mem, hmem, hfits, -⟩ := h.memory
  have hin := hfits.messages msg hmsg
  have hle := mem.length_le
  have hpos : 0 < sizeof msg := Nat.succ_pos _
  apply Host.exit_run hmem
  right
  rw [word_toUInt32 (by omega)]
  by_cases hsmall : sizeof msg < 2 ^ 32
  · rw [word_toUInt32 hsmall]
    omega
  · omega

theorem accept_mirrors (h : Shows fr msgs w m) {msg : String} (hmsg : msg ∈ msgs) {line : Int} {β γ : Type}
    {f : Unit → Host β} {q : γ → β → Machine → Prop} :
    Mirrors (XAHC_ACCEPT fr msg line >>= f) m (.error (.accept msg line)) (Stopped w.asked w.state) q := by
  refine .inl ⟨_, .halt, Host.ended m (.Accept (.ofInt line)), rfl, ?_, rfl, rfl, h.asked, h.state, h.emitted, h.simError⟩
  exact run_bind_trap (run_bind_trap (exit_run h hmsg (.Accept (.ofInt line))))

theorem rollback_mirrors (h : Shows fr msgs w m) {msg : String} (hmsg : msg ∈ msgs) {line : Int} {γ : Type}
    {q : γ → Unit → Machine → Prop} :
    Mirrors (rollback fr msg line) m (.error (.rollback msg line)) (Stopped w.asked w.state) q := by
  refine .inl ⟨_, .halt, Host.ended m (.Rollback (.ofInt line)), rfl, ?_, rfl, rfl, h.asked, h.state, h.emitted, h.simError⟩
  exact run_bind_trap (exit_run h hmsg (.Rollback (.ofInt line)))

theorem rollback_bind_mirrors (h : Shows fr msgs w m) {msg : String} (hmsg : msg ∈ msgs) {line : Int} {β γ : Type}
    {f : Unit → Host β} {q : γ → β → Machine → Prop} :
    Mirrors (rollback fr msg line >>= f) m (.error (.rollback msg line)) (Stopped w.asked w.state) q := by
  refine .inl ⟨_, .halt, Host.ended m (.Rollback (.ofInt line)), rfl, ?_, rfl, rfl, h.asked, h.state, h.emitted, h.simError⟩
  exact run_bind_trap (run_bind_trap (exit_run h hmsg (.Rollback (.ofInt line))))

theorem require_mirrors (h : Shows fr msgs w m) {msg : String} (hmsg : msg ∈ msgs) {cond : Bool} {line : Int} :
    Mirrors (XAHC_REQUIRE fr cond msg line) m (Guardrail.require cond msg line) (Stopped w.asked w.state) fun _ _ m' =>
      Shows fr msgs w m' :=
  mirrors_ite Iff.rfl (fun _ => mirrors_ok h) fun _ => rollback_mirrors h hmsg

/-! ## Composite macros -/

theorem param_require_mirrors (h : Shows fr msgs w m) (hmsg : "missing hook param" ∈ msgs) (out : L) {k : L} {key : Bytes}
    (hk : w.held k = key) (hlen : key.length = Arrays.size k) (line : Int) :
    Mirrors (XAHC_HOOK_PARAM_REQUIRE env fr out k 8 line) m
      (Guardrail.require ((env.tx.install.hookParam (Arrays.size out) key).rc = 8) "missing hook param" line)
      (Stopped (w.ask key).asked w.state) fun _ _ m' =>
        Shows fr msgs ((w.ask key).hold out (env.tx.install.hookParam (Arrays.size out) key).buf) m' := by
  obtain ⟨m₁, hparam, h₁⟩ := hookParam_run env h out hk hlen
  exact mirrors_run hparam (require_mirrors h₁ hmsg)

theorem otxn_account_mirrors (h : Shows fr msgs w m) (hmsg : "otxn account read" ∈ msgs) (v : L) (line : Int) :
    Mirrors (XAHC_OTXN_ACCOUNT env fr v line) m
      (Guardrail.require ((env.tx.otxn.otxnField (Arrays.size v) Guardrail.sfAccount).rc = 20) "otxn account read" line)
      (Stopped w.asked w.state) fun _ _ m' =>
        Shows fr msgs (w.hold v (env.tx.otxn.otxnField (Arrays.size v) Guardrail.sfAccount).buf) m' := by
  obtain ⟨m₁, hfield, h₁⟩ := otxnField_run env h v Guardrail.sfAccount (by decide)
  exact mirrors_run hfield (require_mirrors h₁ hmsg)

theorem otxn_destination_mirrors (h : Shows fr msgs w m) (hmsg : "otxn dest read" ∈ msgs) (v : L) (line : Int) :
    Mirrors (XAHC_OTXN_DESTINATION env fr v line) m
      (Guardrail.require ((env.tx.otxn.otxnField (Arrays.size v) Guardrail.sfDestination).rc = 20) "otxn dest read" line)
      (Stopped w.asked w.state) fun _ _ m' =>
        Shows fr msgs (w.hold v (env.tx.otxn.otxnField (Arrays.size v) Guardrail.sfDestination).buf) m' := by
  obtain ⟨m₁, hfield, h₁⟩ := otxnField_run env h v Guardrail.sfDestination (by decide)
  exact mirrors_run hfield (require_mirrors h₁ hmsg)

theorem drops_run (h : Shows fr msgs w m) (amt : L) (hsize : Arrays.size amt = 8) :
    ∃ m', (xahcOtxnDrops env fr amt).run.run m = .ok (.ok (Guardrail.xahcOtxnDrops env.tx.otxn), m') ∧
      ∃ bytes, Shows fr msgs (w.hold amt bytes) m' := by
  obtain ⟨m₁, hfield, h₁⟩ := otxnField_run env h amt Guardrail.sfAmount (by decide)
  rw [hsize] at hfield h₁
  refine ⟨m₁, ?_, _, h₁⟩
  rw [xahcOtxnDrops, run_bind hfield, Guardrail.xahcOtxnDrops]
  by_cases hrc : (env.tx.otxn.otxnField 8 Guardrail.sfAmount).rc = 8
  · obtain ⟨b, hb, hlen⟩ := (Guardrail.readInto_rc_eq (n := 8) (le_refl 8)).1 hrc
    have hread : env.tx.otxn.otxnField 8 Guardrail.sfAmount = ⟨b.length, b⟩ := by
      rw [Guardrail.Otxn.otxnField, hb]
      exact Guardrail.readInto_fits hlen.le
    rw [hread] at h₁ hrc ⊢
    have hload : (load fr amt 0 8).run.run m₁ = .ok (.ok b, m₁) := load_all h₁ (View.hold_self ..) hlen
    have hrc' : ¬((b.length : Int) ≠ 8) := not_not.2 hrc
    simp only [if_neg hrc', run_bind hload]
    by_cases hbit : b.getD 0 0 &&& 0x80 = 0
    · simp only [if_neg (not_not.2 hbit)]
      rfl
    · simp only [if_pos hbit]
      rfl
  · simp only [if_pos hrc]
    rfl

end C

end

end Xahc.Sim

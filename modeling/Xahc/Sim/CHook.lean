/-
C hooks on the simulator: the arrays of a hook and its string literals lie in linear memory, where its build put them,
and its macros and statements read and write there, most of them through host calls.
-/
import Xahc.Guardrail.Hook
import Xahc.Sim.HostRuns

namespace Xahc.Sim

open Xahc.Data Xahc.Data.Trapping
open Guardrail (HostRead readInto Exit Install HookState)

/-! ## Where a build puts things -/

/-- The arrays a hook declares. -/
class Arrays (L : Type) where
  size : L → Nat

/-- The places of the arrays and of the string literals of a hook. -/
structure Frame (L : Type) where
  ptr : L → Nat
  lit : String → Nat

/-- `sizeof` of a string literal: its bytes and their end. -/
def sizeof (msg : String) : Nat := msg.utf8ByteSize + 1

/-- Every array lies inside a memory of `n` bytes and apart from the others, and the messages lie inside it. -/
structure Frame.Fits {L : Type} [Arrays L] (fr : Frame L) (msgs : List String) (n : Nat) : Prop where
  inside : ∀ v, fr.ptr v + Arrays.size v ≤ n
  /-- The host functions read a pointer with its sign. -/
  small : ∀ v, fr.ptr v + Arrays.size v < 2 ^ 31
  apart : ∀ v w, v ≠ w → fr.ptr v + Arrays.size v ≤ fr.ptr w ∨ fr.ptr w + Arrays.size w ≤ fr.ptr v
  messages : ∀ msg ∈ msgs, fr.lit msg + sizeof msg ≤ n

/-- A pointer or a size, as a word of the call. -/
def word (n : Nat) : Int32 := .ofNat n

theorem word_toInt {n : Nat} (h : n < 2 ^ 31) : (word n).toInt = n := Int32.toInt_ofNat_of_lt h

theorem word_usize {n : Nat} (h : n < 2 ^ 31) : usize (word n) = n := by
  rw [usize, word_toInt h]
  omega

theorem word_toUInt32 {n : Nat} (h : n < 2 ^ 32) : (word n).toUInt32.toNat = n := by
  show (BitVec.ofNat 32 n).toNat = n
  rw [BitVec.toNat_ofNat, Nat.mod_eq_of_lt h]

namespace C

variable {L : Type} [Arrays L] (env : Env) (fr : Frame L)

/-! ## Arrays -/

/-- `n` bytes of an array, from `off` on. -/
def load (v : L) (off n : Nat) : Host Bytes := Host.memRead (fr.ptr v + off) n

/-- `v[i]`. -/
def byte (v : L) (i : Nat) : Host UInt8 := do
  let b ← load fr v i 1
  return b.getD 0 0

/-- Bytes stored to an array, from `off` on. -/
def store (v : L) (off : Nat) (bytes : Bytes) : Host Unit := Host.memWrite (fr.ptr v + off) bytes

/-! ## Macros -/

/-- `XAHC_ACCEPT`: the text and the line. -/
def XAHC_ACCEPT (msg : String) (line : Int) : Host Unit := do
  let _ ← Host.accept (word (fr.lit msg)) (word (sizeof msg)) (.ofInt line)
  return ()

/-- `rollback` with a text and the line. -/
def rollback (msg : String) (line : Int) : Host Unit := do
  let _ ← Host.rollback (word (fr.lit msg)) (word (sizeof msg)) (.ofInt line)
  return ()

/-- `XAHC_REQUIRE`: a rollback where the condition fails. -/
def XAHC_REQUIRE (cond : Bool) (msg : String) (line : Int) : Host Unit := if cond then pure () else rollback fr msg line

/-- `XAHC_TRY`: a rollback on a negative code. -/
def XAHC_TRY (rc : Int) (line : Int) : Host Unit :=
  if rc < 0 then do
    let _ ← Host.rollback 0 0 (.ofInt line)
    return ()
  else pure ()

/-- The id of the guard that is expanded with `__COUNTER__`. -/
def guardId (counter : Nat) : Int32 := word (2 ^ 31 + (counter + 1))

/-- `XAHC_GUARD`, with the id of the file's counter. -/
def XAHC_GUARD (counter maxiter : Nat) : Host Unit := do
  let _ ← Host._g env (guardId counter) (word (maxiter + 1))
  return ()

/-- `XAHC_HOOK_ENTRY`: the guard of the hook's first line. -/
def XAHC_HOOK_ENTRY (counter : Nat) : Host Unit := do
  let _ ← Host._g env (guardId counter) 1
  return ()

/-- `otxn_field` into an array. -/
def otxnField (v : L) (fid : Nat) : Host Int :=
  Host.otxnField env (word (fr.ptr v)) (word (Arrays.size v)) (word fid)

/-- `hook_param` into an array, under the key another one holds. -/
def hookParam (v key : L) : Host Int :=
  Host.hookParam env (word (fr.ptr v)) (word (Arrays.size v)) (word (fr.ptr key)) (word (Arrays.size key))

/-- `hook_account` into an array. -/
def hookAccount (v : L) : Host Int := Host.hookAccount (word (fr.ptr v)) (word (Arrays.size v))

/-- `state` into an array, under the key another one holds. -/
def state (v key : L) : Host Int :=
  Host.state (word (fr.ptr v)) (word (Arrays.size v)) (word (fr.ptr key)) (word (Arrays.size key))

/-- `state_set` of an array, under the key another one holds. -/
def stateSet (v key : L) : Host Int :=
  Host.stateSet (word (fr.ptr v)) (word (Arrays.size v)) (word (fr.ptr key)) (word (Arrays.size key))

/-- `XAHC_OTXN_ACCOUNT`. -/
def XAHC_OTXN_ACCOUNT (v : L) (line : Int) : Host Unit := do
  let rc ← otxnField env fr v Guardrail.sfAccount
  XAHC_REQUIRE fr (rc = 20) "otxn account read" line

/-- `XAHC_OTXN_DESTINATION`. -/
def XAHC_OTXN_DESTINATION (v : L) (line : Int) : Host Unit := do
  let rc ← otxnField env fr v Guardrail.sfDestination
  XAHC_REQUIRE fr (rc = 20) "otxn dest read" line

/-- `XAHC_HOOK_PARAM_REQUIRE`: the parameter has the length expected. -/
def XAHC_HOOK_PARAM_REQUIRE (out key : L) (expectLen : Int) (line : Int) : Host Unit := do
  let rc ← hookParam env fr out key
  XAHC_REQUIRE fr (rc = expectLen) "missing hook param" line

/-- `XAHC_STATE_SET`. -/
def XAHC_STATE_SET (k v : L) (line : Int) : Host Unit := do
  let rc ← stateSet fr v k
  XAHC_TRY rc line

/-- `xahcOtxnDrops`, with its buffer. -/
def xahcOtxnDrops (amt : L) : Host Int := do
  let rc ← otxnField env fr amt Guardrail.sfAmount
  if rc ≠ 8 then return -1
  else do
    let b ← load fr amt 0 8
    if b.getD 0 0 &&& 0x80 ≠ 0 then return -2
    else return (Guardrail.be64 ((b.getD 0 0 &&& 0x3F) :: b.tail)).toInt64.toInt

/-- The loop that compares two arrays, over the indices that are left. -/
def sameBytesLoop (counter maxiter : Nat) (a b : L) : Bool → List Nat → Host Bool
  | ok, [] => pure ok
  | ok, i :: rest => do
    XAHC_GUARD env counter maxiter
    let x ← byte fr a i
    let y ← byte fr b i
    sameBytesLoop counter maxiter a b (if x != y then false else ok) rest

end C

end Xahc.Sim

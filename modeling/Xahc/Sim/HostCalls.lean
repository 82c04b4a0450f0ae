/-
The host functions of the simulator, over everything a hook can hand them: signed words, of which some stand for
lengths and pointers, and a memory that may hold any bytes.
-/
import Xahc.Data.Trapping
import Xahc.Sim.Guard
import Xahc.Sim.KeyletMemory
import Xahc.Sim.Signature
import Xahc.Sim.SlotWords

namespace Xahc.Sim

open Xahc.Data Xahc.Data.Checked

/-! ## A run -/

/-- The transaction a hook is run for, and what it finds on the ledger. -/
structure Fixture extends TxFixture where
  tt : Int64 := 0
  drops : UInt64 := 0
  account : Octets 20
  destination : Octets 20
  /-- Explicit field overrides, which take priority over the fields above. -/
  fields : UInt32 → Option Bytes := fun _ => none
  hookParams : Bytes → Option Bytes := fun _ => none
  otxnParams : List (Bytes × Bytes) := []
  otxnId : Option (Octets 32) := none
  keyletRules : KeyletRules := {}
  fits : Words.Fits toTxFixture

/-- The hash, and the two signature checks: the verdict on a key, a signature and what is signed. -/
structure Crypto where
  sha512Half : Bytes → Octets 32
  ed25519Verify : (key : Octets 32) → (sig : Octets 64) → (data : Bytes) → Bool
  secp256k1Verify : (key sig : Bytes) → (digest : Octets 32) → Bool

/-- What a run is given: its fixture, the cryptography, and whether the build checks sums of machine words. -/
structure Env where
  tx : Fixture
  crypto : Crypto
  overflowChecks : Bool

/-- What a run keeps between calls. -/
structure Ctx extends GuardCtx where
  state : AList fun _ : Bytes => Bytes := ∅
  emitted : List Bytes := []
  paramsRead : List Bytes := []
  slots : Slots := {}
  simError : Option String := none

/-- Why a call stops the hook. -/
inductive Trap where
  | halt
  | noMemory
  | memoryAccess
  | notModeled (message : String)
  deriving DecidableEq, Repr

/-- The run and the memory the hook exports, if it has one. -/
structure Machine where
  ctx : Ctx := {}
  mem : Option LinearMemory

/-- A host function: it works on the machine, and may trap. -/
abbrev Host (α : Type) := Trapping Machine Trap α

/-- A length or an offset: the word with its sign, as 64 bits. -/
def usize (x : Int32) : Nat := (x.toInt % 2 ^ 64).toNat

namespace Host

/-! ## Memory -/

/-- The hook's memory, or a trap. -/
def memOf : Host LinearMemory := do
  match (← get).mem with
  | some mem => pure mem
  | none => throw .noMemory

/-- `mem.read`, into a buffer of `len` bytes. -/
def memRead (ptr len : Nat) : Host Bytes := do
  let mem ← memOf
  if ptr + len ≤ mem.bytes.length then pure ((mem.bytes.drop ptr).take len) else throw .memoryAccess

/-- Bytes at an offset, over what was there. -/
def overwritten (mem : LinearMemory) (ptr : Nat) (bytes : Bytes) (h : ptr + bytes.length ≤ mem.bytes.length) :
    LinearMemory :=
  ⟨mem.bytes.take ptr ++ bytes ++ mem.bytes.drop (ptr + bytes.length), by
    have hle := mem.length_le
    rw [List.length_append, List.length_append, List.length_take, List.length_drop]
    omega⟩

/-- `mem.write`. -/
def memWrite (ptr : Nat) (bytes : Bytes) : Host Unit := do
  let mem ← memOf
  if h : ptr + bytes.length ≤ mem.bytes.length then modify fun m => { m with mem := some (overwritten mem ptr bytes h) }
  else throw .memoryAccess

/-- The range sticks out of the memory. -/
def oob (ptr len : UInt32) : Host Bool := do
  let size := (← memOf).bytes.length
  if size ≤ ptr.toNat then return true
  return size < (← add 64 ptr.toNat len.toNat)

/-- `read_mem`: the bytes of a range, or a trap. -/
def readMem (ptr len : UInt32) : Host Bytes := do
  let _ ← memOf
  let v ← vec len.toNat
  memRead ptr.toNat v.length

/-- `write_and_return`: as many bytes as fit are written, and their number is the answer. -/
def writeAndReturn (ptr dstLen : UInt32) (src : Bytes) : Host Int := do
  let n := min src.length dstLen.toNat
  let size := (← memOf).bytes.length
  if size < (← add 64 ptr.toNat n) then return rc.OUT_OF_BOUNDS
  let part ← slice src 0 n
  memWrite ptr.toNat part
  return n

/-- The end of the older calls that hand out bytes: they look at the length and leave the bounds to the memory. -/
def copyOut (wptr wlen : Int32) (bytes : Bytes) : Host Int := do
  if usize wlen < bytes.length then return rc.TOO_SMALL
  memWrite (usize wptr) bytes
  return bytes.length

/-- Up to 8 bytes as a number, where it is not negative. -/
def dataAsInt64 (d : Bytes) : Int :=
  if 8 < d.length then rc.TOO_BIG
  else
    let out := d.foldl (fun (out : UInt64) b => (out <<< 8) ||| b.toUInt64) 0
    if out &&& ((1 : UInt64) <<< 63) ≠ 0 then rc.TOO_BIG else out.toInt64.toInt

/-- Bytes to the hook's memory, or as the returned number. An account goes without its length prefix. -/
def writeOrInt64 (wptr wlen : UInt32) (data : Bytes) (isAccount : Bool) : Host Int := do
  if isAccount ∧ data.length < 1 then return rc.INTERNAL_ERROR
  let data := if isAccount then data.drop 1 else data
  if data.isEmpty then return 0
  if wptr = 0 then return dataAsInt64 data
  if data.length > wlen.toNat then return rc.TOO_SMALL
  writeAndReturn wptr wlen data

/-- The run ends with a message. -/
def notModeled (message : String) : Host Int := do
  modify fun m => { m with ctx := { m.ctx with simError := some message } }
  throw (.notModeled message)

/-! ## Guards and exits -/

variable (env : Env)

/-- One more, as a `u32`. -/
def increment (n : UInt32) : Checked UInt32 :=
  if env.overflowChecks then do pure (.ofNat (← add 32 n.toNat 1)) else pure (n + 1)

/-- `_g`: the guard's budget. -/
def _g (id max : Int32) : Host Int := do
  let c := (← get).ctx
  let _count ← increment env (c.crossed id)
  let (guards, r) := Sim._g c.toGuardCtx id max
  modify fun m => { m with ctx := { m.ctx with toGuardCtx := guards } }
  match r with
  | .ok r => return r.toInt
  | .error .halt => throw .halt

/-- The reason of an exit lies outside the memory. -/
def reasonOutOfBounds (p l : Int32) : Host Bool := do
  let ptr := p.toUInt32.toNat
  if ptr = 0 then return false
  let len := min l.toUInt32.toNat 256
  let size := (← memOf).bytes.length
  if size ≤ ptr then return true
  return size < (← add 64 ptr len)

/-- The run ends, with a rollback of -1 where the reason cannot be read. -/
def exit (p l : Int32) (outcome : Outcome) : Host Int := do
  let out := if ← reasonOutOfBounds p l then .Rollback (-1) else outcome
  modify fun m => { m with ctx := { m.ctx with outcome := some out } }
  throw .halt

/-- `accept`. -/
def accept (p l : Int32) (code : Int64) : Host Int := exit p l (.Accept code)

/-- `rollback`. -/
def rollback (p l : Int32) (code : Int64) : Host Int := exit p l (.Rollback code)

/-! ## The originating transaction -/

/-- `sfAmount`. -/
def SF_AMOUNT : UInt32 := fieldCode 6 1

/-- `sfAccount`. -/
def SF_ACCOUNT : UInt32 := fieldCode 8 1

/-- `sfDestination`. -/
def SF_DESTINATION : UInt32 := fieldCode 8 3

/-- `otxn_type`. -/
def otxnType : Host Int := return env.tx.tt.toInt

/-- A shift of a `u64`. -/
def shr (d : UInt64) (k : Nat) : Checked UInt64 := if k < 64 then pure (d >>> UInt64.ofNat k) else .error .arithmeticOverflow

/-- The 8 bytes of a native amount: positive, and the bit of issued amounts cleared. -/
def amountBytes (d : UInt64) : Checked Bytes := do
  let first := 0x40 ||| ((← shr d 56) &&& 0x3F).toUInt8
  let rest ← (List.range' 1 7).mapM fun i => do pure (← shr d (← sub 56 (← mul 64 8 i))).toUInt8
  pure (first :: rest)

/-- `otxn_field`. -/
def otxnField (wptr wlen fid : Int32) : Host Int := do
  let fid := fid.toUInt32
  match env.tx.fields fid with
  | some bytes => copyOut wptr wlen bytes
  | none =>
    if fid = SF_AMOUNT then copyOut wptr wlen (← amountBytes env.tx.drops)
    else if fid = SF_ACCOUNT then copyOut wptr wlen env.tx.account.1
    else if fid = SF_DESTINATION then copyOut wptr wlen env.tx.destination.1
    else return rc.DOESNT_EXIST

/-- The stand-in for the id of a transaction that was given none. -/
def defaultOtxnId : Octets 32 :=
  env.crypto.sha512Half ("xahc-sim-otxn-id".toUTF8.toList ++ natBE 8 env.tx.tt.toUInt64.toNat ++
    natBE 8 env.tx.drops.toNat ++ env.tx.account.1 ++ env.tx.destination.1)

/-- `otxn_id`. -/
def otxnId (wp wl _flags : Int32) : Host Int := do
  let wp := wp.toUInt32
  let wl := wl.toUInt32
  let id := env.tx.otxnId.getD (defaultOtxnId env)
  if 32 > wl then return rc.TOO_SMALL
  if ← oob wp 32 then return rc.OUT_OF_BOUNDS
  if ← oob wp wl then return rc.OUT_OF_BOUNDS
  writeAndReturn wp 32 id.1

/-- `otxn_param`. -/
def otxnParam (wp wl rp rl : Int32) : Host Int := do
  let wp := wp.toUInt32
  let wl := wl.toUInt32
  if ← oob rp.toUInt32 rl.toUInt32 then return rc.OUT_OF_BOUNDS
  if ← oob wp wl then return rc.OUT_OF_BOUNDS
  let name ← readMem rp.toUInt32 rl.toUInt32
  if name.isEmpty then return rc.TOO_SMALL
  if name.length > 32 then return rc.TOO_BIG
  -- the first parameter with the name decides, and an empty value is none
  match env.tx.otxnParams.find? (·.1 = name) with
  | none => return rc.DOESNT_EXIST
  | some (_, val) =>
    if val.isEmpty then return rc.DOESNT_EXIST
    if val.length > wl.toNat then return rc.TOO_SMALL
    writeAndReturn wp wl val

/-! ## The hook and its ledger -/

/-- `hook_account`: the account of the simulated hook. -/
def hookAccount (wptr wlen : Int32) : Host Int := copyOut wptr wlen (List.replicate 20 0xAA)

/-- `ledger_seq`: the sequence of the simulated ledger. -/
def ledgerSeq : Host Int := return 1000000

/-- `hook_param`: the key is noted as asked for. -/
def hookParam (wptr wlen rptr rlen : Int32) : Host Int := do
  let _ ← memOf
  let key ← vec (usize (max rlen 0))
  let key ← memRead (usize rptr) key.length
  modify fun m => { m with ctx := { m.ctx with paramsRead := m.ctx.paramsRead.insert key } }
  match env.tx.hookParams key with
  | some val => copyOut wptr wlen val
  | none => return rc.DOESNT_EXIST

/-- `state_set`. -/
def stateSet (rptr rlen kptr klen : Int32) : Host Int := do
  let _ ← memOf
  -- the lengths are not raised to zero, as `hookParam` does
  let val ← vec (usize rlen)
  let key ← vec (usize klen)
  let val ← memRead (usize rptr) val.length
  let key ← memRead (usize kptr) key.length
  modify fun m => { m with ctx := { m.ctx with state := m.ctx.state.insert key val } }
  return rlen.toInt

/-- `state`. -/
def state (wptr wlen kptr klen : Int32) : Host Int := do
  let _ ← memOf
  let key ← vec (usize klen)
  let key ← memRead (usize kptr) key.length
  match (← get).ctx.state.lookup key with
  | some val => copyOut wptr wlen val
  | none => return rc.DOESNT_EXIST

/-! ## Emitted transactions -/

/-- `emit`: the blob is kept. -/
def emit (_wp _wl rptr rlen : Int32) : Host Int := do
  let _ ← memOf
  let blob ← vec (usize rlen)
  let blob ← memRead (usize rptr) blob.length
  modify fun m => { m with ctx := { m.ctx with emitted := m.ctx.emitted ++ [blob] } }
  return rlen.toInt

/-- `etxn_reserve`. -/
def etxnReserve (_n : Int32) : Host Int := return 1

/-- `etxn_details`: zeros. -/
def etxnDetails (ptr len : Int32) : Host Int := do
  let n := usize (min 116 (max len 0))
  let _ ← memOf
  let zeros ← vec n
  memWrite (usize ptr) zeros
  return n

/-- `etxn_fee_base`. -/
def etxnFeeBase (_p _l : Int32) : Host Int := return 10

/-- `trace` does nothing. -/
def trace (_a _b _d _e _f : Int32) : Host Int := return 0

/-- `trace_num` does nothing. -/
def traceNum (_a _b : Int32) (_n : Int64) : Host Int := return 0

/-! ## Slots -/

/-- The end of the calls that fill a slot. -/
def filled (into : UInt32) (entry : Checked (Except String (Except Int SlotEntry))) : Host Int := do
  match ← Words.fill into.toNat (← get).ctx.slots (← entry) with
  | .error message => notModeled message
  | .ok (code, slots) =>
    modify fun m => { m with ctx := { m.ctx with slots } }
    return code

/-- The call once its range to write to has passed. -/
def slotBytes (wp wl slotNo : UInt32) : Host Int := do
  match (← get).ctx.slots.map.lookup slotNo.toNat with
  | none => return rc.DOESNT_EXIST
  | some e => writeOrInt64 wp wl (← Words.bytes e) (decide (e.kind = .Leaf STI_ACCOUNT))

/-- `slot`: the bytes of a slot, or a short one as a number. -/
def slot (wp wl slotNo : Int32) : Host Int := do
  let wp := wp.toUInt32
  let wl := wl.toUInt32
  if wp = 0 then
    if wl ≠ 0 then return rc.INVALID_ARGUMENT else slotBytes wp wl slotNo.toUInt32
  else
    if ← oob wp wl then return rc.OUT_OF_BOUNDS
    else if wl < 1 then return rc.TOO_SMALL
    else slotBytes wp wl slotNo.toUInt32

/-- `slot_clear`. -/
def slotClear (slotNo : Int32) : Host Int := do
  let (code, slots) := Sim.slotClear slotNo.toUInt32.toNat (← get).ctx.slots
  modify fun m => { m with ctx := { m.ctx with slots } }
  return code

/-- `slot_count`. -/
def slotCount (slotNo : Int32) : Host Int := do
  match ← Words.slotCount slotNo (← get).ctx.slots with
  | .ok n => return n
  | .error message => notModeled message

/-- `slot_size`. -/
def slotSize (slotNo : Int32) : Host Int := do
  return ← Words.slotSize slotNo.toUInt32 (← get).ctx.slots

/-- `slot_set`. -/
def slotSet (rp rl slotInto : Int32) : Host Int := do
  if ← oob rp.toUInt32 rl.toUInt32 then return rc.OUT_OF_BOUNDS
  let data ← readMem rp.toUInt32 rl.toUInt32
  filled slotInto.toUInt32 (Words.slotSetEntry env.tx.toTxFixture data slotInto.toUInt32.toNat (← get).ctx.slots)

/-- `slot_subarray`. -/
def slotSubarray (parent idx newSlot : Int32) : Host Int := do
  filled newSlot.toUInt32
    (Words.slotSubarrayEntry parent.toUInt32.toNat idx.toUInt32 newSlot.toUInt32.toNat (← get).ctx.slots)

/-- `slot_subfield`. -/
def slotSubfield (parent fieldId newSlot : Int32) : Host Int := do
  filled newSlot.toUInt32
    (Words.slotSubfieldEntry parent.toUInt32.toNat fieldId.toUInt32 newSlot.toUInt32.toNat (← get).ctx.slots)

/-- `slot_type`. -/
def slotType (slotNo flags : Int32) : Host Int := do
  return ← Words.slotType slotNo.toUInt32 flags.toUInt32 (← get).ctx.slots

/-- `meta_slot`. -/
def metaSlot (slotInto : Int32) : Host Int := do
  filled slotInto.toUInt32
    (pure (metaSlotEntry env.tx.toTxFixture slotInto.toUInt32.toNat (← get).ctx.slots))

/-! ## Serialized objects -/

/-- Where a part lies, as one number: its offset in the high half and its length in the low one. -/
def packed : Except Int (UInt32 × UInt32) → Checked Int
  | .ok (off, len) => do pure (UInt64.ofNat (← add 64 (off.toUInt64 <<< 32).toNat len.toNat)).toInt64.toInt
  | .error code => pure code

/-- `sto_subfield`. -/
def stoSubfield (rp rl fid : Int32) : Host Int := do
  if ← oob rp.toUInt32 rl.toUInt32 then return rc.OUT_OF_BOUNDS
  let data ← readMem rp.toUInt32 rl.toUInt32
  return ← packed (← Words.stoSubfield data fid.toUInt32 env.tx.rules)

/-- `sto_subarray`. -/
def stoSubarray (rp rl idx : Int32) : Host Int := do
  if ← oob rp.toUInt32 rl.toUInt32 then return rc.OUT_OF_BOUNDS
  let data ← readMem rp.toUInt32 rl.toUInt32
  return ← packed (← Words.stoSubarray data idx.toUInt32 env.tx.rules)

/-! ## The util family -/

/-- The name of a keylet type, for the note of one that is not modelled. -/
def keyletName : Nat → String
  | 1 => "HOOK" | 2 => "HOOK_STATE" | 3 => "ACCOUNT" | 4 => "AMENDMENTS" | 5 => "CHILD" | 6 => "SKIP"
  | 7 => "FEES" | 8 => "NEGATIVE_UNL" | 9 => "LINE" | 10 => "OFFER" | 11 => "QUALITY"
  | 12 => "EMITTED_DIR" | 13 => "TICKET" | 14 => "SIGNERS" | 15 => "CHECK" | 16 => "DEPOSIT_PREAUTH"
  | 17 => "UNCHECKED" | 18 => "OWNER_DIR" | 19 => "PAGE" | 20 => "ESCROW" | 21 => "PAYCHAN"
  | 22 => "EMITTED_TXN" | 23 => "NFT_OFFER" | 24 => "HOOK_DEFINITION" | 25 => "HOOK_STATE_DIR"
  | 26 => "CRON" | 27 => "AMM" | 28 => "BRIDGE" | 29 => "XCHAIN_OWNED_CLAIM_ID"
  | 30 => "XCHAIN_OWNED_CREATE_ACCOUNT_CLAIM_ID" | 31 => "DID" | 32 => "ORACLE"
  | 33 => "MPTOKEN_ISSUANCE" | 34 => "MPTOKEN" | 35 => "CREDENTIAL" | 36 => "PERMISSIONED_DOMAIN"
  | 37 => "MANIFEST" | _ => "unknown"

/-- `util_keylet`. -/
def utilKeylet (wp wl kt a b c d e f : Int32) : Host Int := do
  let mem ← memOf
  -- the checks of the range to write to are the call's own
  let (out, _) ← (utilKeyletCall mem.bytes wp.toUInt32 wl.toUInt32 kt.toUInt32 a.toUInt32 b.toUInt32 c.toUInt32
    d.toUInt32 e.toUInt32 f.toUInt32 env.tx.keyletRules).run []
  match out with
  | .Keylet ty key =>
    writeAndReturn wp.toUInt32 34 (natBE 2 ty ++ key.bytes fun b => (env.crypto.sha512Half b).1)
  | .Code code => return code
  | .NotModeled t =>
    notModeled
      s!"xahc sim does not model keylet type {t} ({keyletName t}) yet — run `xahc verify` for the full xahaud VM"

/-- `util_sha512h`. -/
def utilSha512h (wp wl rp rl : Int32) : Host Int := do
  let wp := wp.toUInt32
  let wl := wl.toUInt32
  if wl < 32 then return rc.TOO_SMALL
  if ← oob wp wl then return rc.OUT_OF_BOUNDS
  if ← oob rp.toUInt32 rl.toUInt32 then return rc.OUT_OF_BOUNDS
  let data ← readMem rp.toUInt32 rl.toUInt32
  writeAndReturn wp 32 (env.crypto.sha512Half data).1

/-- The subgroup order of Ed25519, big-endian. -/
def ED25519_L : Bytes :=
  [0x10, 0x00, 0x00, 0x00, 0x00, 0x00, 0x00, 0x00, 0x00, 0x00, 0x00, 0x00, 0x00, 0x00, 0x00, 0x00,
   0x14, 0xDE, 0xF9, 0xDE, 0xA2, 0xF7, 0x9C, 0xD6, 0x58, 0x12, 0x63, 0x1A, 0x5C, 0xF5, 0xD3, 0xED]

/-- `buf[i] = b` for each of the bytes in turn. -/
def setBytes : (buf bytes : Bytes) → Checked Bytes
  | buf, [] => pure buf
  | [], _ :: _ => .error .sliceIndex
  | _ :: buf, b :: bytes => do pure (b :: (← setBytes buf bytes))

/-- `try_into().unwrap()`: exactly `n` bytes. -/
def octets (n : Nat) (b : Bytes) : Checked (Octets n) := if h : b.length = n then pure ⟨b, h⟩ else .error .unwrap

/-- A signature under a key of either curve; one of secp256k1 has to be canonical. -/
def verifySig (data sig key : Bytes) : Checked Bool := do
  if (← index key 0) = 0xED then
    if sig.length ≠ 64 then return false
    let sBe ← setBytes (List.replicate 32 0) (← sliceFrom sig 32).reverse
    if ¬sBe < ED25519_L then return false
    return env.crypto.ed25519Verify (← octets 32 (← slice key 1 33)) (← octets 64 sig) data
  else
    if !(← ecdsaCanonical sig) then return false
    return env.crypto.secp256k1Verify key sig (env.crypto.sha512Half data)

/-- `util_verify`. -/
def utilVerify (dp dl sp sl kp kl : Int32) : Host Int := do
  let dl := dl.toUInt32
  let sl := sl.toUInt32
  let kl := kl.toUInt32
  if ← oob dp.toUInt32 dl then return rc.OUT_OF_BOUNDS
  if ← oob sp.toUInt32 sl then return rc.OUT_OF_BOUNDS
  if ← oob kp.toUInt32 kl then return rc.OUT_OF_BOUNDS
  if kl ≠ 33 then return rc.INVALID_KEY
  if dl = 0 then return rc.TOO_SMALL
  if sl < 30 then return rc.TOO_SMALL
  let key ← readMem kp.toUInt32 kl
  let kind ← index key 0
  if ¬(kind = 0xED ∨ kind = 0x02 ∨ kind = 0x03) then return rc.INVALID_KEY
  let data ← readMem dp.toUInt32 dl
  let sig ← readMem sp.toUInt32 sl
  return if ← verifySig env data sig key then 1 else 0

end Host

/-! ## Calls -/

/-- A registered host function with the words a hook passes. -/
inductive HostCall where
  | _g (id max : Int32)
  | accept (p l : Int32) (code : Int64)
  | rollback (p l : Int32) (code : Int64)
  | otxnType
  | otxnField (wptr wlen fid : Int32)
  | hookAccount (wptr wlen : Int32)
  | ledgerSeq
  | hookParam (wptr wlen rptr rlen : Int32)
  | stateSet (rptr rlen kptr klen : Int32)
  | state (wptr wlen kptr klen : Int32)
  | emit (wp wl rptr rlen : Int32)
  | etxnReserve (n : Int32)
  | etxnDetails (ptr len : Int32)
  | etxnFeeBase (p l : Int32)
  | trace (a b d e f : Int32)
  | traceNum (a b : Int32) (n : Int64)
  | otxnId (wp wl flags : Int32)
  | otxnParam (wp wl rp rl : Int32)
  | slot (wp wl slotNo : Int32)
  | slotClear (slotNo : Int32)
  | slotCount (slotNo : Int32)
  | slotSize (slotNo : Int32)
  | slotSet (rp rl slotInto : Int32)
  | slotSubarray (parent idx newSlot : Int32)
  | slotSubfield (parent fieldId newSlot : Int32)
  | slotType (slotNo flags : Int32)
  | metaSlot (slotInto : Int32)
  | stoSubfield (rp rl fid : Int32)
  | stoSubarray (rp rl idx : Int32)
  | utilKeylet (wp wl kt a b c d e f : Int32)
  | utilSha512h (wp wl rp rl : Int32)
  | utilVerify (dp dl sp sl kp kl : Int32)

/-- What a call runs. -/
def HostCall.run (env : Env) : HostCall → Host Int
  | ._g id max => Host._g env id max
  | .accept p l code => Host.accept p l code
  | .rollback p l code => Host.rollback p l code
  | .otxnType => Host.otxnType env
  | .otxnField wptr wlen fid => Host.otxnField env wptr wlen fid
  | .hookAccount wptr wlen => Host.hookAccount wptr wlen
  | .ledgerSeq => Host.ledgerSeq
  | .hookParam wptr wlen rptr rlen => Host.hookParam env wptr wlen rptr rlen
  | .stateSet rptr rlen kptr klen => Host.stateSet rptr rlen kptr klen
  | .state wptr wlen kptr klen => Host.state wptr wlen kptr klen
  | .emit wp wl rptr rlen => Host.emit wp wl rptr rlen
  | .etxnReserve n => Host.etxnReserve n
  | .etxnDetails ptr len => Host.etxnDetails ptr len
  | .etxnFeeBase p l => Host.etxnFeeBase p l
  | .trace a b d e f => Host.trace a b d e f
  | .traceNum a b n => Host.traceNum a b n
  | .otxnId wp wl flags => Host.otxnId env wp wl flags
  | .otxnParam wp wl rp rl => Host.otxnParam env wp wl rp rl
  | .slot wp wl slotNo => Host.slot wp wl slotNo
  | .slotClear slotNo => Host.slotClear slotNo
  | .slotCount slotNo => Host.slotCount slotNo
  | .slotSize slotNo => Host.slotSize slotNo
  | .slotSet rp rl slotInto => Host.slotSet env rp rl slotInto
  | .slotSubarray parent idx newSlot => Host.slotSubarray parent idx newSlot
  | .slotSubfield parent fieldId newSlot => Host.slotSubfield parent fieldId newSlot
  | .slotType slotNo flags => Host.slotType slotNo flags
  | .metaSlot slotInto => Host.metaSlot env slotInto
  | .stoSubfield rp rl fid => Host.stoSubfield env rp rl fid
  | .stoSubarray rp rl idx => Host.stoSubarray env rp rl idx
  | .utilKeylet wp wl kt a b c d e f => Host.utilKeylet env wp wl kt a b c d e f
  | .utilSha512h wp wl rp rl => Host.utilSha512h env wp wl rp rl
  | .utilVerify dp dl sp sl kp kl => Host.utilVerify env dp dl sp sl kp kl

end Xahc.Sim

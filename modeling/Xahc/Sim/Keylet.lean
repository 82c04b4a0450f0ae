/-
`utilKeylet`: the keylet of a ledger object from six argument words, which are pointers, lengths, sequence numbers or
halves of a long word as the type has it. A key stays the expression it is computed by, so that its preimage can be
told.
-/
import Xahc.Data.Access
import Xahc.Sim.Slots

namespace Xahc.Sim

open Xahc.Data Xahc.Data.Access

/-! ## Namespaces and entry types

A hash is taken of a namespace and the fields of an object; a keylet carries the type of its entry. -/

def NS_ACCOUNT : Nat := 0x61
def NS_DIR_NODE : Nat := 0x64
def NS_TRUST_LINE : Nat := 0x72
def NS_OFFER : Nat := 0x6F
def NS_OWNER_DIR : Nat := 0x4F
def NS_SKIP_LIST : Nat := 0x73
def NS_ESCROW : Nat := 0x75
def NS_AMENDMENTS : Nat := 0x66
def NS_FEE_SETTINGS : Nat := 0x65
def NS_SIGNER_LIST : Nat := 0x53
def NS_PAYMENT_CHANNEL : Nat := 0x78
def NS_CHECK : Nat := 0x43
def NS_DEPOSIT_PREAUTH : Nat := 0x70
def NS_NEGATIVE_UNL : Nat := 0x4E
def NS_HOOK : Nat := 0x48
def NS_HOOK_STATE_DIR : Nat := 0x4A
def NS_HOOK_STATE : Nat := 0x76
def NS_HOOK_DEFINITION : Nat := 0x44
def NS_EMITTED_TXN : Nat := 0x45
def NS_EMITTED_DIR : Nat := 0x46
def NS_NFTOKEN_OFFER : Nat := 0x71
def NS_CRON : Nat := 0x4C

def LT_ACCOUNT_ROOT : Nat := 0x0061
def LT_AMENDMENTS : Nat := 0x0066
def LT_LEDGER_HASHES : Nat := 0x0068
def LT_FEE_SETTINGS : Nat := 0x0073
def LT_NEGATIVE_UNL : Nat := 0x004E
def LT_RIPPLE_STATE : Nat := 0x0072
def LT_OFFER : Nat := 0x006F
def LT_SIGNER_LIST : Nat := 0x0053
def LT_CHECK : Nat := 0x0043
def LT_DEPOSIT_PREAUTH : Nat := 0x0070
def LT_ESCROW : Nat := 0x0075
def LT_PAYCHAN : Nat := 0x0078
def LT_HOOK : Nat := 0x48
def LT_HOOK_STATE : Nat := 0x0076
def LT_HOOK_DEFINITION : Nat := 0x44
def LT_EMITTED_TXN : Nat := 0x45
def LT_NFTOKEN_OFFER : Nat := 0x0037
def LT_CRON : Nat := 0x0041

/-! ## Keys -/

/-- How the 32 bytes of a key are computed: as they are, as a hash of a namespace and parts, or from the start of one
key, bytes between, and the start of another. -/
inductive Key where
  | raw (key : Bytes)
  | indexHash (space : Nat) (parts : List Bytes)
  | splice (head : Key) (between : Bytes) (tail : Key)

/-- The bytes of a key, given the hash. -/
def Key.bytes (sha512Half : Bytes → Bytes) : Key → Bytes
  | .raw key => key
  | .indexHash space parts => sha512Half (natBE 2 space ++ parts.flatten)
  | .splice head between tail =>
    (head.bytes sha512Half).take 8 ++ between ++ (tail.bytes sha512Half).take 20

/-- What is hashed for a key, its namespace apart; for a spliced one, what its arguments are hashed into. -/
def Key.preimage : Key → Option (Nat × Bytes)
  | .raw _ => none
  | .indexHash space parts => some (space, parts.flatten)
  | .splice _ _ tail => tail.preimage

/-- What a call gives: a keylet, a code, or a type the simulator does not model. -/
inductive KeyletOut where
  | Keylet (ty : Nat) (key : Key)
  | Code (code : Int)
  | NotModeled (kt : Nat)

/-- The 34 bytes of a keylet. -/
def KeyletOut.bytes (sha512Half : Bytes → Bytes) : KeyletOut → Option Bytes
  | .Keylet ty key => some (natBE 2 ty ++ key.bytes sha512Half)
  | _ => none

/-- The amendment switches the keylets read. -/
structure KeyletRules where
  cron : Bool := true
  hooks_update1 : Bool := true
  deriving DecidableEq, Repr

/-! ## The arms -/

section
variable (mem : Bytes) (a b c d e f : UInt32)

/-- The answer to arguments that make no keylet. -/
def IA : KeyletOut := .Code rc.INVALID_ARGUMENT

/-- The answer to a range outside the memory. -/
def OOB : KeyletOut := .Code rc.OUT_OF_BOUNDS

/-- A word's big-endian bytes. -/
def be32 (v : UInt32) : Bytes := natBE 4 v.toNat

/-- The account at an address. -/
def acc (p : UInt32) : Access Bytes := read mem p.toNat 20

/-- The 32 bytes at an address. -/
def h256 (p : UInt32) : Access Bytes := read mem p.toNat 32

/-- Two words as one of 64 bits. -/
def long (hi lo : UInt32) : Access Nat := Access.add 64 (hi.toNat * 2 ^ 32) lo.toNat

/-- The serialized keylet of a directory and a quality. -/
def keyletQuality : Access KeyletOut := do
  if a = 0 ∨ b = 0 ∨ e ≠ 0 ∨ f ≠ 0 then return IA
  if ← notInBounds mem a b then return OOB
  if b ≠ 34 then return IA
  if (← readByte mem a.toNat) ≠ 0 then return IA
  if (← readByte mem (← Access.add 64 a.toNat 1)) ≠ 0x64 then return IA
  let key ← read mem (← Access.add 32 a.toNat 2) 32
  let q ← long c d
  return .Keylet LT_DIR_NODE (.raw (key.take 24 ++ natBE 8 q))

/-- The types of a 32-byte id. -/
def keyletId (key : Bytes → KeyletOut) : Access KeyletOut := do
  if a = 0 ∨ b = 0 ∨ c ≠ 0 ∨ d ≠ 0 ∨ e ≠ 0 ∨ f ≠ 0 then return IA
  if ← notInBounds mem a b then return OOB
  if b ≠ 32 then return IA
  return key (← h256 mem a)

/-- The types of an account. -/
def keyletAccount (key : Bytes → KeyletOut) : Access KeyletOut := do
  if a = 0 ∨ b = 0 ∨ c ≠ 0 ∨ d ≠ 0 ∨ e ≠ 0 ∨ f ≠ 0 then return IA
  if ← notInBounds mem a b then return OOB
  if b ≠ 20 then return IA
  return key (← acc mem a)

/-- A sequence number, or the 32 bytes that stand for one; no bytes where the length is wrong. -/
def sequence (p n : UInt32) : Access (Except KeyletOut Bytes) := do
  if n = 0 then return .ok (be32 p)
  if n ≠ 32 then return .error IA
  if ← notInBounds mem p 32 then return .error OOB
  return .ok (← read mem p.toNat 32)

/-- The types of an account and a sequence number. -/
def keyletSequenced (key : Bytes → Bytes → KeyletOut) : Access KeyletOut := do
  if a = 0 ∨ b = 0 ∨ e ≠ 0 ∨ f ≠ 0 then return IA
  if ← notInBounds mem a b then return OOB
  if b ≠ 20 then return IA
  let id ← acc mem a
  match ← sequence mem c d with
  | .error out => return out
  | .ok seq => return key id seq

/-- The keylet of a cron entry, whose key is spliced from two hashes with the start time between them. -/
def keyletCron (rules : KeyletRules) : Access KeyletOut := do
  if !rules.cron then return IA
  if a = 0 ∨ b = 0 ∨ e ≠ 0 ∨ f ≠ 0 ∨ d ≠ 0 then return IA
  if ← notInBounds mem a b then return OOB
  if b ≠ 20 then return IA
  let id ← acc mem a
  return .Keylet LT_CRON (.splice (.indexHash NS_CRON []) (be32 c) (.indexHash NS_CRON [be32 c, id]))

/-- The keylet of a page of a directory. -/
def keyletPage : Access KeyletOut := do
  if a = 0 ∨ b = 0 ∨ e ≠ 0 ∨ f ≠ 0 then return IA
  if ← notInBounds mem a b then return OOB
  if b ≠ 32 then return IA
  let key ← h256 mem a
  let index ← long c d
  -- the first page is the directory itself
  if index = 0 then return .Keylet LT_DIR_NODE (.raw key)
  return .Keylet LT_DIR_NODE (.indexHash NS_DIR_NODE [key, natBE 8 index])

/-- The keylet of a state entry: an account, a key and a namespace. -/
def keyletHookState : Access KeyletOut := do
  if a = 0 ∨ b = 0 ∨ c = 0 ∨ d = 0 ∨ e = 0 ∨ f = 0 then return IA
  if ← notInBounds mem a b then return OOB
  if ← notInBounds mem c d then return OOB
  if ← notInBounds mem e f then return OOB
  if b ≠ 20 ∨ d ≠ 32 ∨ f ≠ 32 then return IA
  return .Keylet LT_HOOK_STATE (.indexHash NS_HOOK_STATE [← acc mem a, ← h256 mem c, ← h256 mem e])

/-- The keylet of the directory of a namespace. -/
def keyletHookStateDir (rules : KeyletRules) : Access KeyletOut := do
  if !rules.hooks_update1 then return IA
  if a = 0 ∨ b = 0 ∨ c = 0 ∨ d = 0 ∨ e ≠ 0 ∨ f ≠ 0 then return IA
  if ← notInBounds mem a b then return OOB
  if ← notInBounds mem c d then return OOB
  if b ≠ 20 ∨ d ≠ 32 then return IA
  return .Keylet LT_DIR_NODE (.indexHash NS_HOOK_STATE_DIR [← acc mem a, ← h256 mem c])

/-- The ledger hashes: the recent ones, or those of a ledger's group of 65536. -/
def keyletSkip : Access KeyletOut := do
  if c ≠ 0 ∨ d ≠ 0 ∨ e ≠ 0 ∨ f ≠ 0 ∨ 1 < b then return IA
  if b = 0 then return .Keylet LT_LEDGER_HASHES (.indexHash NS_SKIP_LIST [])
  return .Keylet LT_LEDGER_HASHES (.indexHash NS_SKIP_LIST [be32 (a >>> 16)])

/-- The types without arguments. -/
def keyletSingleton (ty space : Nat) : Access KeyletOut := do
  if a ≠ 0 ∨ b ≠ 0 ∨ c ≠ 0 ∨ d ≠ 0 ∨ e ≠ 0 ∨ f ≠ 0 then return IA
  return .Keylet ty (.indexHash space [])

/-- The characters of a three-letter currency. -/
def currencyChar (x : UInt8) : Bool :=
  let c := Char.ofNat x.toNat
  c.isAlphanum || "?!@#$%^&*<>()\x7b\x7d[]|".toList.contains c

/-- A currency as its 20 bytes, from these or from three letters. -/
def parseCurrency (b : Bytes) : Option Bytes :=
  if b.length = 20 then some b
  else if b.length = 3 then
    if b.all currencyChar then some (List.replicate 12 0 ++ b ++ List.replicate 5 0) else none
  else none

/-- The keylet of a trust line. -/
def keyletLine : Access KeyletOut := do
  if a = 0 ∨ b = 0 ∨ c = 0 ∨ d = 0 ∨ e = 0 ∨ f = 0 then return IA
  if ← notInBounds mem a b then return OOB
  if ← notInBounds mem c d then return OOB
  if ← notInBounds mem e f then return OOB
  if b ≠ 20 ∨ d ≠ 20 then return IA
  match parseCurrency (← read mem e.toNat f.toNat) with
  | none => return IA
  | some cur =>
    let x ← acc mem a
    let y ← acc mem c
    let (lo, hi) := if y < x then (y, x) else (x, y)
    return .Keylet LT_RIPPLE_STATE (.indexHash NS_TRUST_LINE [lo, hi, cur])

/-- The keylet of a deposit authorization: its owner and the account it is for. -/
def keyletDepositPreauth : Access KeyletOut := do
  if a = 0 ∨ b = 0 ∨ c = 0 ∨ d = 0 ∨ e ≠ 0 ∨ f ≠ 0 then return IA
  if ← notInBounds mem a b then return OOB
  if ← notInBounds mem c d then return OOB
  if b ≠ 20 ∨ d ≠ 20 then return IA
  return .Keylet LT_DEPOSIT_PREAUTH (.indexHash NS_DEPOSIT_PREAUTH [← acc mem a, ← acc mem c])

/-- The keylet of a payment channel: both accounts, and a sequence or a key. -/
def keyletPaychan : Access KeyletOut := do
  if a = 0 ∨ b = 0 ∨ c = 0 ∨ d = 0 ∨ e = 0 then return IA
  if ← notInBounds mem a b then return OOB
  if ← notInBounds mem c d then return OOB
  if b ≠ 20 ∨ d ≠ 20 then return IA
  match ← sequence mem e f with
  | .error out => return out
  | .ok seq => return .Keylet LT_PAYCHAN (.indexHash NS_PAYMENT_CHANNEL [← acc mem a, ← acc mem c, seq])

end

/-! ## The call -/

/-- The types without a case of their own, tickets among them, are refused like the unimplemented ones. -/
def utilKeylet (mem : Bytes) (kt a b c d e f : UInt32) (rules : KeyletRules) : Access KeyletOut :=
  match kt.toNat with
  | 11 => keyletQuality mem a b c d e f
  | 5 => keyletId mem a b c d e f fun id => .Keylet LT_CHILD (.raw id)
  | 22 => keyletId mem a b c d e f fun id => .Keylet LT_EMITTED_TXN (.indexHash NS_EMITTED_TXN [id])
  | 24 => keyletId mem a b c d e f fun id => .Keylet LT_HOOK_DEFINITION (.indexHash NS_HOOK_DEFINITION [id])
  | 17 => keyletId mem a b c d e f fun id => .Keylet LT_ANY (.raw id)
  | 31 => return .NotModeled 31
  | 1 => keyletAccount mem a b c d e f fun id => .Keylet LT_HOOK (.indexHash NS_HOOK [id])
  | 14 => keyletAccount mem a b c d e f fun id => .Keylet LT_SIGNER_LIST (.indexHash NS_SIGNER_LIST [id, be32 0])
  | 18 => keyletAccount mem a b c d e f fun id => .Keylet LT_DIR_NODE (.indexHash NS_OWNER_DIR [id])
  | 3 => keyletAccount mem a b c d e f fun id => .Keylet LT_ACCOUNT_ROOT (.indexHash NS_ACCOUNT [id])
  | 37 => return .NotModeled 37
  | 32 => return .NotModeled 32
  | 27 => return .NotModeled 27
  | 15 => keyletSequenced mem a b c d e f fun id seq => .Keylet LT_CHECK (.indexHash NS_CHECK [id, seq])
  | 20 => keyletSequenced mem a b c d e f fun id seq => .Keylet LT_ESCROW (.indexHash NS_ESCROW [id, seq])
  | 23 => keyletSequenced mem a b c d e f fun id seq => .Keylet LT_NFTOKEN_OFFER (.indexHash NS_NFTOKEN_OFFER [id, seq])
  | 10 => keyletSequenced mem a b c d e f fun id seq => .Keylet LT_OFFER (.indexHash NS_OFFER [id, seq])
  | 26 => keyletCron mem a b c d e f rules
  | 19 => keyletPage mem a b c d e f
  | 2 => keyletHookState mem a b c d e f
  | 25 => keyletHookStateDir mem a b c d e f rules
  | 6 => keyletSkip a b c d e f
  | 4 => keyletSingleton a b c d e f LT_AMENDMENTS NS_AMENDMENTS
  | 7 => keyletSingleton a b c d e f LT_FEE_SETTINGS NS_FEE_SETTINGS
  | 8 => keyletSingleton a b c d e f LT_NEGATIVE_UNL NS_NEGATIVE_UNL
  | 12 => keyletSingleton a b c d e f LT_DIR_NODE NS_EMITTED_DIR
  | 9 => keyletLine mem a b c d e f
  | 16 => keyletDepositPreauth mem a b c d e f
  | 21 => keyletPaychan mem a b c d e f
  | _ => return IA

end Xahc.Sim

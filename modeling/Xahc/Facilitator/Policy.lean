/-
The `/policy` readout of `server.mjs` for the stateful guardrail: decoding the Hook's parameters and
its state entry from the hexadecimal text a node serves, and the budget fields computed from them.
-/
import Xahc.Facilitator.Amount

namespace Xahc.Facilitator

open Xahc.Data

/-! ## Hexadecimal fields -/

/-- `/^[0-9a-fA-F]{n}$/.test(hex)`. -/
def isHexOfLength (n : Nat) (hex : String) : Bool :=
  hex.toList.length == n && hex.toList.all fun c => (hexVal c).isSome

/-- Eight bytes in hex as drops, where they are at most the supply. -/
def decode8ByteDropsHex (hex : String) : Option String :=
  if !isHexOfLength 16 hex then none
  else
    let n := hexNat hex.toList
    if n > MAX_DROPS then none else some (toString n)

/-- The same as a number. -/
def decode8ByteDropsBig (hex : String) : Option Nat :=
  match decode8ByteDropsHex hex with
  | none => none
  | some s => bigIntOf s

/-- The period of a PER of four or eight bytes, where it is positive. -/
def decodePerLedgers (hex : String) : Option Nat :=
  if !(hex.toList.all (fun c => (hexVal c).isSome) && hex.toList.length > 0) then none
  else if hex.toList.length ≠ 8 ∧ hex.toList.length ≠ 16 then none
  else
    let n := hexNat hex.toList
    if n ≤ 0 then none
    else if n > 0xFFFFFFFFFFFFFFFF then none
    else some n

/-- The decoded 16-byte state value. -/
structure StateValue where
  periodStart : Nat
  spent : Nat
  deriving DecidableEq, Repr

/-- The two halves of a state value of 16 bytes. -/
def decodeStatefulStateValue (hex : String) : Option StateValue :=
  if !isHexOfLength 32 hex then none
  else some ⟨hexNat (hex.toList.take 16), hexNat ((hex.toList.drop 16).take 16)⟩

/-! ## Reading the state entry -/

/-- An element of `namespace_entries`; a field that is not a string is absent. -/
structure NamespaceEntry where
  HookStateKey : Option String
  HookStateData : Option String
  deriving DecidableEq, Repr

/-- The two node requests the state read makes, each waited for in `m`; a thrown error is its message text. -/
structure StateReads (m : Type → Type) where
  /-- `ledger_entry { hook_state: { account, key, namespace_id } }`: the `HookStateData` served. -/
  ledgerEntry : String → String → String → m (Except String (Option String))
  /-- `account_namespace { account, namespace_id }`: the entries, where an array was served. -/
  accountNamespace : String → String → m (Except String (Option (List NamespaceEntry)))

/-- A node whose answers are there at once. -/
abbrev StateNode := StateReads Id

/-- The left-padded 32-byte key of the budget slot. -/
def STATEFUL_STATE_KEY_HEX : String := String.ofList (List.replicate 62 '0' ++ ['0', '1'])

/-- Whether `pat` occurs in `s`, letter case aside. -/
def mentions (pat s : String) : Bool := (s.toLower.toList.tails).any fun t => pat.toList.isPrefixOf t

/-- `/entryNotFound|entry_not_found/i`. -/
def entryNotFound (msg : String) : Bool := mentions "entrynotfound" msg || mentions "entry_not_found" msg

/-- `/^0*01$/`. -/
def isPaddedOne (k : String) : Bool :=
  match k.toList.reverse with
  | '1' :: '0' :: zeros => zeros.all (· == '0')
  | _ => false

/-- The key test of the namespace scan. -/
def keyMatches (k : String) : Bool :=
  k == STATEFUL_STATE_KEY_HEX.toUpper || k == "01" || (isPaddedOne k && hexNat k.toList == 1)

/-- What a read of the state entry gives. -/
inductive StateRead
  | value (hex : String)
  | absent
  | unreadable
  deriving DecidableEq, Repr

/-- The scan of `namespace_entries`. -/
def scanEntries : List NamespaceEntry → StateRead
  | [] => .absent
  | e :: entries =>
    match e.HookStateKey.map String.toUpper, e.HookStateData.map String.toUpper with
    | some k, some v => if keyMatches k then .value v else scanEntries entries
    | _, _ => scanEntries entries

section
variable {m : Type → Type} [Monad m]

/-- The scan of the namespace, "before giving up". -/
def readFallback (node : StateReads m) (account ns : String) : m StateRead := do
  match ← node.accountNamespace account ns with
  | .ok (some entries) => return scanEntries entries
  | .ok none => return .unreadable
  | .error _ => return .unreadable

/-- The state entry of the budget: a direct read, and where it fails a search through the namespace. -/
def readStatefulHookState (node : StateReads m) (account namespaceHex : String) : m StateRead := do
  if !isHexOfLength 64 namespaceHex then return .unreadable
  else
    let ns := namespaceHex.toUpper
    match ← node.ledgerEntry account STATEFUL_STATE_KEY_HEX.toUpper ns with
    | .ok (some data) => if data.toList.length > 0 then return .value data.toUpper else readFallback node account ns
    | .ok none => readFallback node account ns
    | .error msg => if entryNotFound msg then return .absent else readFallback node account ns

end

/-! ## The budget -/

/-- The budget fields of a policy. -/
structure Budget where
  periodLive : Bool
  spentThisPeriod : String
  remaining : String
  resetInLedgers : String
  maxNextPayment : String
  deriving DecidableEq, Repr

/-- The reader formula for what is left of the period. -/
def remainingAt (now periodStart spent plm per : Nat) : Nat :=
  if now ≥ periodStart ∧ now - periodStart < per then (if spent ≤ plm then plm - spent else 0) else plm

/-- The budget fields from the stored period. -/
def computeBudget (now periodStart spent lim plm per : Nat) : Budget :=
  let periodLive : Bool := now ≥ periodStart ∧ now - periodStart < per
  let remaining := remainingAt now periodStart spent plm per
  let resetInLedgers := if periodLive then periodStart + per - now else 0
  let maxNextPayment := if lim < remaining then lim else remaining
  ⟨periodLive, toString spent, toString remaining, toString resetInLedgers, toString maxNextPayment⟩

/-! ## The readout -/

/-- The `policy` object of a stateful readout. -/
structure StatefulPolicy where
  perTxLimitDrops : String
  periodLimitDrops : Option String
  periodLedgers : Option String
  remaining : Option String := none
  allowlist : Option (List String) := none
  note : Option String := none
  spentThisPeriod : Option String := none
  periodStartLedger : Option String := none
  resetInLedgers : Option String := none
  maxNextPayment : Option String := none
  source : Option String := none
  deriving DecidableEq, Repr

/-- The `/policy` response as `getPolicy` hands it on. -/
structure PolicyOut where
  account : String
  guardrailHookPresent : Option Bool
  policy : Option StatefulPolicy
  source : String
  asOfLedger : Option Nat
  note : Option String
  deriving DecidableEq, Repr

/-- The parameters of the stateful guardrail as they were read. -/
structure StatefulParams where
  lim : Nat
  limStr : String
  plmHex : Option String
  perHex : Option String
  namespaceHex : Option String
  allowlist : Option (List String)
  dstNote : String
  deriving DecidableEq, Repr

/-- The response for the state entry that was read: the period evaluated against it. -/
def budgetOf (out : PolicyOut) (params : StatefulParams) (policy : StatefulPolicy) (plm per now : Nat) :
    StateRead → PolicyOut
  | .unreadable =>
    { out with policy := some { policy with
        note := some ("stateful guardrail: could not read hook state — remaining budget unknown" ++
          params.dstNote) } }
  | .absent =>
    { out with policy := some { policy with
        spentThisPeriod := some "0"
        remaining := some (toString plm)
        periodStartLedger := none
        resetInLedgers := some "0"
        maxNextPayment := some (toString (if params.lim < plm then params.lim else plm))
        source := some "on-ledger"
        note := some ("no period opened yet — full period budget available" ++ params.dstNote) } }
  | .value hex =>
    match decodeStatefulStateValue hex with
    | none =>
      { out with policy := some { policy with
          note := some ("stateful guardrail: hook state value is malformed (not 16 bytes) — remaining budget unknown"
            ++ params.dstNote) } }
    | some st =>
      let b := computeBudget now st.periodStart st.spent params.lim plm per
      { out with policy := some { policy with
          spentThisPeriod := some b.spentThisPeriod
          remaining := some b.remaining
          periodStartLedger := some (toString st.periodStart)
          resetInLedgers := some b.resetInLedgers
          maxNextPayment := some b.maxNextPayment
          source := some "on-ledger"
          note := some ((if b.periodLive then "period budget read live from HookState"
            else "stored period has elapsed — the next payment opens a fresh period, so the full period budget is available")
            ++ params.dstNote) } }

/-- "The base policy shell (params we CAN decode)." -/
def policyShell (params : StatefulParams) (plm per : Option Nat) : StatefulPolicy where
  perTxLimitDrops := params.limStr
  periodLimitDrops := plm.map toString
  periodLedgers := per.map toString
  allowlist := params.allowlist

section
variable {m : Type → Type} [Monad m]

/-- Past the parameter checks: evaluate the period against the state entry. -/
def readBudget (node : StateReads m) (account : String) (out : PolicyOut) (params : StatefulParams)
    (policy : StatefulPolicy) (plm per now : Nat) (namespaceHex : String) : m PolicyOut :=
  return budgetOf out params policy plm per now (← readStatefulHookState node account namespaceHex)

/-- The policy of the stateful guardrail: none where a parameter or the state cannot be read. -/
def getStatefulPolicy (node : StateReads m) (account : String) (out : PolicyOut) (params : StatefulParams) :
    m PolicyOut :=
  match params.plmHex, params.perHex with
  | some plmHex, some perHex =>
    let plm := decode8ByteDropsBig plmHex
    let per := decodePerLedgers perHex
    let policy := policyShell params plm per
    match plm, per with
    | some plm, some per =>
      -- `typeof out.asOfLedger === "number" && out.asOfLedger > 0`
      match out.asOfLedger.filter (· > 0), params.namespaceHex with
      | none, _ =>
        return { out with policy := some { policy with
          note := some ("stateful guardrail: could not read the current validated ledger — remaining budget unknown"
            ++ params.dstNote) } }
      | some _, none =>
        return { out with policy := some { policy with
          note := some ("stateful guardrail: Hook namespace unavailable — could not read period-budget state, remaining unknown"
            ++ params.dstNote) } }
      | some now, some namespaceHex => readBudget node account out params policy plm per now namespaceHex
    | _, _ =>
      let note := "stateful guardrail: " ++ (if plm.isNone then "PLM" else "PER") ++
        " parameter present but could not be decoded — remaining budget unknown" ++ params.dstNote
      return { out with policy := some { policy with note := some note }, note := some note }
  | plmHex, _ =>
    let note := "stateful guardrail detected but " ++ (if plmHex.isNone then "PLM" else "PER") ++
      " parameter is missing — period budget unknown"
    return { out with note := some note, policy := some { policyShell params none none with note := some note } }

end

/-- The parameters `getPolicy` calls `getStatefulPolicy` with, from the matched Hook's parameter texts;
none where it stops at an undecodable `LIM`. -/
def statefulParamsOf (limHex : String) (plmHex perHex namespaceHex : Option String)
    (allowlist : Option (List String)) (dstNote : String) : Option StatefulParams :=
  match decode8ByteDropsHex limHex with
  | none => none
  | some limStr => (bigIntOf limStr).map fun lim => ⟨lim, limStr, plmHex, perHex, namespaceHex, allowlist, dstNote⟩

end Xahc.Facilitator

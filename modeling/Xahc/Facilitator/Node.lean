/-
What a settlement asks of the replay store and the node: the operations, the reads that fail soft, the
on-ledger authorization, and the errors of a submit that prove nothing was applied.
-/
import Xahc.Effect.Prog
import Xahc.Facilitator.Receipt

namespace Xahc.Facilitator

open Xahc.Data Xahc.Effect

/-! ## Operations -/

/-- The requests a settlement and a policy readout make. -/
inductive Request
  | ledgerValidated
  | accountInfo (account : Option String)
  | accountInfoSignerLists (account : Option String)
  | accountObjects (account : Option String) (type : String)
  /-- `ledger_entry { hook_state: { account, key, namespace_id } }` -/
  | ledgerEntry (account key namespaceId : String)
  | accountNamespace (account namespaceId : String)
  deriving DecidableEq, Repr

/-- The answer to a reservation. -/
inductive Reservation
  | reserved | «exists» | full
  deriving DecidableEq, Repr

/-- What a simulation predicts. -/
inductive Prediction
  | accept | reject | unknown
  deriving DecidableEq, Repr

/-- The answer of `simulatePayment`; `none` where no simulation is available. -/
structure Simulation where
  prediction : Option Prediction
  note : String
  deriving DecidableEq, Repr

/-- The calls a settlement waits for: the methods of the replay store, the client's, and the simulation. -/
inductive Op
  | isConsumed (key : String)
  | getReceipt (key : String)
  | reserve (key : String) (expiryMs : ℚ) (now : Option Nat)
  | release (key : String)
  | set (key : String) (expiryMs : ℚ) (now : Nat)
  | setReceipt (key : String) (receipt : Receipt) (expiryMs : ℚ)
  | getClient
  | request (r : Request)
  | submitAndWait (txBlob : String)
  | simulatePayment (payload req : Json)

/-- What a call answers; `error` is what it throws. -/
@[reducible] def Res : Op → Type
  | .isConsumed _ => Except Json Bool
  | .getReceipt _ => Except Json (Option Receipt)
  | .reserve .. => Except Json Reservation
  | .release _ => Except Json Unit
  | .set .. => Except Json Bool
  | .setReceipt .. => Except Json Unit
  | .getClient => Except String Unit
  | .request _ => Except Json Json
  | .submitAndWait _ => Except Json (Option Json)
  | .simulatePayment .. => Simulation

/-- A program of the operations of a settlement. -/
abbrev Settling (α : Type) := Prog Op Res α

/-! ## Reads that fail soft -/

/-- A request to the node. -/
def request (r : Request) : Settling (Except Json Json) := Prog.perform (Op.request r)

/-- Whether the account has hooks, where the node says. -/
def guardrailHookPresent (account : Option String) : Settling (Option Bool) := do
  match ← request (.accountObjects account "hook") with
  | .error _ => return none
  | .ok r => return some ((Json.get? (r.get "result") "account_objects").any fun objs => objs.truthy && objs.hasLength)

/-- The index a `ledger` answer carries, where it is a positive number. -/
def ledgerIndexOf (r : Json) : Option ℚ :=
  let result := r.get "result"
  let idx := Json.orElse (Json.get? result "ledger_index") (Json.get? (Json.get? result "ledger") "ledger_index")
  (idx.bind Json.toNumber).filter fun n => 0 < n

/-- The index of the last validated ledger, where the node says. -/
def currentValidatedLedger : Settling (Option ℚ) := do
  match ← request .ledgerValidated with
  | .error _ => return none
  | .ok r => return ledgerIndexOf r

/-- The account's root entry, where the node says. -/
def fetchAccountRoot (account : Option String) : Settling (Option Json) := do
  match ← request (.accountInfo account) with
  | .error _ => return none
  | .ok r => return (Json.get? (r.get "result") "account_data").filter Json.isObject

/-- A signer list: its quorum and its signers with their weights. On the ledger a weight is a `UInt16` and the quorum a
`UInt32`, and a list names few signers, so the doubles of the source that sum the weights up hold these naturals exactly. -/
structure SignerList where
  quorum : Nat
  signers : List (String × Nat)
  deriving Repr

/-- `Number(x)` where it is a positive integer. -/
def positiveInteger (x : Option Json) : Option Nat :=
  (x.bind Json.toNumber).bind fun q => if q.den = 1 ∧ 0 < q.num then some q.num.toNat else none

/-- The account and the weight of an entry of a signer list. -/
def readSignerEntry (e : Json) : Option (String × Nat) := do
  let se ← e.get "SignerEntry"
  let account ← se.getString "Account"
  let weight ← positiveInteger (se.get "SignerWeight")
  return (account, weight)

/-- The one signer list of an account; a malformed one is an error. -/
def readSignerList : List Json → Except String SignerList
  | [] => .error "no_signer_list"
  | [list] =>
    match positiveInteger (list.get "SignerQuorum"), (list.get "SignerEntries").bind Json.asArray with
    | some quorum, some entries =>
      match entries.mapM readSignerEntry with
      | none | some [] => .error "malformed_signer_list"
      | some signers => .ok ⟨quorum, signers⟩
    | _, _ => .error "malformed_signer_list"
  | _ :: _ :: _ => .error "multiple_signer_lists"

/-- The signer list of an account, from either of the two requests that can have it. -/
def fetchSignerList (account : Option String) : Settling (Option (Except String SignerList)) := do
  match ← request (.accountInfoSignerLists account) with
  | .ok r =>
    match (Json.get? (Json.get? (r.get "result") "account_data") "signer_lists").bind Json.asArray with
    | some lists => return some (readSignerList lists)
    | none => fallback
  | .error _ => fallback
where
  /-- `account_objects` of type `signer_list`. -/
  fallback : Settling (Option (Except String SignerList)) := do
    match ← request (.accountObjects account "signer_list") with
    | .error _ => return none
    | .ok r => return ((Json.get? (r.get "result") "account_objects").bind Json.asArray).map readSignerList

/-! ## On-ledger authorization -/

/-- Whether the signature is that of the account by what the ledger says of it. -/
inductive Decision
  | authorized (source : String)
  | rejected (reason : String)
  | fallback
  deriving DecidableEq, Repr

section
variable (env : Env)

/-- The weight one entry of `Signers` adds for its account; `fallback` where the signing data cannot be
computed. -/
def signerWeight (tx : Tx) (list : SignerList) (entry : Option Signer) : Except Unit (Option (String × Nat)) :=
  match entry with
  | none => .ok none
  | some s =>
    match s.signingPubKey, s.txnSignature, s.account with
    | some key, some sig, some account =>
      if deriveAddressFromPubKey env (some key) ≠ some account then .ok none
      else match list.signers.reverse.lookup account with
        | none => .ok none
        | some weight =>
          match env.encodeForMultisigning.bind fun f => f tx account with
          | none => .error ()
          | some signingData =>
            if (env.verify.map fun f => f signingData sig key == some true) = some true then .ok (some (account, weight))
            else .ok none
    | _, _, _ => .ok none

/-- The summed weight of the valid listed signers, each account once. -/
def sumWeights (tx : Tx) (list : SignerList) : List (Option Signer) → List String → Nat → Except Unit Nat
  | [], _, sum => .ok sum
  | entry :: rest, counted, sum =>
    match signerWeight env tx list entry with
    | .error () => .error ()
    | .ok none => sumWeights tx list rest counted sum
    | .ok (some (account, weight)) =>
      if counted.contains account then sumWeights tx list rest counted sum
      else sumWeights tx list rest (account :: counted) (sum + weight)

/-- A multisig payment: the signers that count have to reach the quorum. -/
def authorizeMultisig (tx : Tx) : Option (Except String SignerList) → Decision
  | none => .fallback
  | some (.error "no_signer_list") =>
    .rejected "unauthorized: account has no on-ledger SignerList for this multisig"
  | some (.error _) => .fallback
  | some (.ok list) =>
    match sumWeights env tx list (tx.signers.getD []) [] 0 with
    | .error () => .fallback
    | .ok sum =>
      if sum ≥ list.quorum then .authorized "multisig"
      else .rejected "unauthorized: multisig quorum not met by valid on-ledger signers"

/-- A payment whose key is not the master key: it has to be the account's current regular key. -/
def authorizeRegularKey (tx : Tx) (accountRoot : Option Json) : Decision :=
  match accountRoot with
  | none => .fallback
  | some root =>
    match deriveAddressFromPubKey env tx.signingPubKey with
    | none => .fallback
    | some derived =>
      if derived ≠ "" ∧ root.getString "RegularKey" = some derived then .authorized "regularkey"
      else .rejected "unauthorized: signing key is neither master nor current RegularKey"

/-- The decision, from what was read. -/
def authorizeOnLedgerDecide (tx : Tx) (signerList : Option (Except String SignerList)) (accountRoot : Option Json)
    (isMultisig : Bool) : Decision :=
  if isMultisig then authorizeMultisig env tx signerList else authorizeRegularKey env tx accountRoot

/-- The decision, with the request it needs. -/
def authorizeOnLedger (tx : Tx) (isMultisig : Bool) : Settling Decision :=
  if isMultisig then do
    let signerList ← fetchSignerList tx.account
    return authorizeOnLedgerDecide env tx signerList none true
  else do
    let accountRoot ← fetchAccountRoot tx.account
    return authorizeOnLedgerDecide env tx none accountRoot false

end

/-! ## Errors of a submit -/

/-- `\w`. -/
def isWordChar (c : Char) : Bool := c.isAlphanum || c == '_'

/-- `/\btem[A-Z][A-Z_]{2,}\b/.test(msg)`: both ends of a match are word boundaries and the match has
only word characters, so it is a whole word. -/
def hasTemToken (msg : String) : Bool :=
  (msg.toList.splitOnP (fun c => !isWordChar c)).any fun w =>
    match w with
    | 't' :: 'e' :: 'm' :: c :: cs => c.isUpper && 2 ≤ cs.length && cs.all fun c => c.isUpper || c == '_'
    | _ => false

/-- `/^tem[A-Z]/.test(er)`. -/
def startsTem (er : String) : Bool :=
  match er.toList with
  | 't' :: 'e' :: 'm' :: c :: _ => c.isUpper
  | _ => false

/-- The engine result attached to an error; `error` is a falsy error itself. -/
def engineResult (e : Json) : Option Json :=
  let attached : Option Json :=
    if e.truthy then
      Json.orElse (Json.get? (e.get "data") "engine_result")
        (Json.get? (Json.get? (e.get "data") "result") "engine_result")
    else some e
  Json.orElse attached ((e.getString "engine_result").map .str)

/-- The error of a submit says that the transaction was not applied and never will be. -/
def submitDefinitelyNotApplied (e : Json) : Bool :=
  match engineResult e with
  | some (.str er) => startsTem er
  | _ => hasTemToken ((e.getString "message").getD "")

namespace Sample

/-- A submit that fails before the transaction is applied. -/
def malformed : Json := .obj [("message", .str "Transaction failed, temMALFORMED: Malformed transaction.")]

/-- What a submit resolves to when the transaction was validated and delivered `drops`. -/
def validated (hash drops : String) : Json :=
  .obj [("result", .obj [("hash", .str hash),
    ("meta", .obj [("TransactionResult", .str "tesSUCCESS"), ("delivered_amount", .str drops)])])]

/-- The validated ledgers 100 and 190. -/
def ledger100 : JsNum := ⟨false, 1, 2, by decide⟩

/-- The index 190. -/
def ledger190 : JsNum := ⟨false, 19, 1, by decide⟩

/-- What a node answers, and a store that is empty and never fails. -/
def answer (ledger : JsNum) (submit : Except Json (Option Json)) : (op : Op) → Res op
  | .isConsumed _ => .ok false
  | .getReceipt _ => .ok none
  | .reserve .. => .ok .reserved
  | .release _ => .ok ()
  | .set .. => .ok true
  | .setReceipt .. => .ok ()
  | .getClient => .ok ()
  | .request .ledgerValidated => .ok (.obj [("result", .obj [("ledger_index", .num ledger)])])
  | .request _ => .ok (.obj [("result", .obj [("account_objects", .arr [])])])
  | .submitAndWait _ => submit
  | .simulatePayment .. => ⟨none, "simulation unavailable"⟩

end Sample

end Xahc.Facilitator

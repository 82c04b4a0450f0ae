/-
`settle`: verification, replay protection, the validity window, on-ledger authorization, the atomic
reservation, the submit and the terminal receipt, as one program over the store and the node.
-/
import Xahc.Facilitator.Node

namespace Xahc.Facilitator

open Xahc.Data Xahc.Effect

/-! ## Replies -/

/-- A reply with `success: false`, the network and an empty transaction. -/
structure Rejection where
  payer : Option String
  errorReason : String
  retryable : Bool := false
  inFlight : Bool := false
  dryRun : Bool := false
  advisory : Bool := false
  simulation : Option Simulation := none
  guardrailHookPresent : Option (Option Bool) := none
  signatureVerified : Option Bool := none
  deriving DecidableEq, Repr

/-- What a settlement replies. -/
inductive Reply
  | rejected (r : Rejection)
  | settled (receipt : Receipt)
  /-- A stored receipt, `payer ?? v.payer`, with `replayed: true`. -/
  | replayed (receipt : Receipt) (payer : Option String)
  deriving Repr

/-- `success` of the reply. -/
def Reply.success : Reply → Bool
  | .rejected _ => false
  | .settled receipt | .replayed receipt _ => receipt.success

/-- `retryable` of the reply. -/
def Reply.retryable : Reply → Bool
  | .rejected r => r.retryable
  | _ => false

/-- The receipt a reply carries. -/
def Reply.receipt? : Reply → Option Receipt
  | .rejected _ => none
  | .settled receipt | .replayed receipt _ => some receipt

/-- A settlement replies, or throws. -/
abbrev Settlement := Settling (Except Json Reply)

/-- The settlement ends with a rejection. -/
def reject (r : Rejection) : Settlement := pure (.ok (.rejected r))

/-- The rejection where the store throws. -/
def settleStoreUnavailable (payer : Option String) : Settlement :=
  reject { payer := some (payer.getD ""), errorReason := "replay store unavailable", retryable := true }

/-- The stored receipt is the reply. -/
def replay (v : Verified) (receipt : Receipt) : Settlement :=
  pure (.ok (.replayed receipt (receipt.payer.or v.payer)))

/-- The rejection of a payment that is bound and has no receipt yet. -/
def alreadyConsumed (v : Verified) : Settlement :=
  reject { payer := v.payer, errorReason := "replay: payment already consumed", inFlight := true }

/-- The options a caller may pass. -/
structure Deps where
  dryRun : Bool := false
  preSimReject : Bool := false
  deriving DecidableEq, Repr

/-! ## The validity window -/

section
variable (env : Env)

/-- How far ahead a validity window may end, so that its binding outlives it. -/
def MAX_VALIDITY_LEDGERS : Int :=
  max 1 (((env.REPLAY_TTL_MS : Int) - env.REPLAY_EXPIRY_MARGIN_MS) / env.LEDGER_CLOSE_MS)

/-- Until when a binding lasts: to the end of the validity window with a margin. -/
def consumedExpiryFor (lastLedgerSequence : Nat) (currentLedger : ℚ) (now : Nat) : ℚ :=
  if (lastLedgerSequence : ℚ) > currentLedger then
    now + (lastLedgerSequence - currentLedger) * env.LEDGER_CLOSE_MS + env.REPLAY_EXPIRY_MARGIN_MS
  else now + env.REPLAY_TTL_MS

/-! ## After the submit -/

/-- What a settlement carries from its verification to its receipt. -/
structure Attempt where
  req : Json
  v : Verified
  txBlob : String
  tx : Tx
  now : Nat
  expiryMs : ℚ
  auth : Authorized
  hookPresent : Option Bool

/-- The outcome a resolved submit can be read as: result code, metadata and hash. -/
def readSubmit (r : Option Json) : Option (String × Json × Option Json) := do
  let r ← r.filter Json.isObject
  let result ← (r.get "result").filter Json.isObject
  let txMeta ← result.get "meta"
  let code ← txMeta.getString "TransactionResult"
  if code = "" then none else some (code, txMeta, result.get "hash")

/-- The receipt is stored, whatever comes of that, and is the reply. -/
def persistReceipt (a : Attempt) (receipt : Receipt) : Settlement :=
  .call (.setReceipt a.v.replayId receipt a.expiryMs) fun _ _ => pure (.ok (.settled receipt))

/-- The hash binding where there is a hash, then the receipt. -/
def settleReceipt (a : Attempt) (code : String) (txMeta : Json) (hash : Option Json) : Settlement :=
  let receipt := terminalReceipt env a.req a.v a.auth a.hookPresent a.now code txMeta hash
  match hash.filter Json.truthy with
  | some h => .call (.set ("hash:" ++ h.toStr) a.expiryMs a.now) fun _ _ => persistReceipt a receipt
  | none => persistReceipt a receipt

/-- The rejection where a submit may have been applied: the binding stays. -/
def submitUnknown (a : Attempt) : Settlement :=
  reject
    { payer := a.v.payer
      errorReason := "submit result unknown — reservation retained until validity window expires"
      guardrailHookPresent := some a.hookPresent }

/-- The binding is released, since the transaction cannot be applied. -/
def releaseTem (a : Attempt) : Settlement :=
  .call (.release a.v.replayId) fun r _ =>
    match r with
    | .error e => pure (.error e)
    | .ok () =>
      reject
        { payer := a.v.payer
          errorReason := "submit rejected (tem, not applied)"
          guardrailHookPresent := some a.hookPresent }

/-- The transaction is submitted. -/
def settleSubmit (a : Attempt) : Settlement :=
  .call (.submitAndWait a.txBlob) fun r _ =>
    match r with
    | .error e => if submitDefinitelyNotApplied e then releaseTem a else submitUnknown a
    | .ok r =>
      match readSubmit r with
      | none => submitUnknown a
      | some (code, txMeta, hash) => settleReceipt env a code txMeta hash

/-! ## Up to the submit -/

/-- The key is bound already: its receipt is the reply, if there is one. -/
def settleExists (v : Verified) : Settlement :=
  .call (.getReceipt v.replayId) fun r _ =>
    match r with
    | .error e => pure (.error e)
    | .ok (some receipt) => replay v receipt
    | .ok none => alreadyConsumed v

/-- The key is reserved before the submit. -/
def settleReserve (a : Attempt) : Settlement :=
  .call (.reserve a.v.replayId a.expiryMs (some a.now)) fun r _ =>
    match r with
    | .error _ => settleStoreUnavailable a.v.payer
    | .ok .full =>
      reject { payer := a.v.payer, errorReason := "replay store full, retry later", retryable := true }
    | .ok .exists => settleExists a.v
    | .ok .reserved => settleSubmit env a

/-- What is known before the payer's authorization is settled. -/
structure Window where
  req : Json
  v : Verified
  txBlob : String
  tx : Tx
  now : Nat
  lastLedger : Nat
  curLedger : ℚ

/-- The payment is that of its account. -/
def settleAuthorized (w : Window) (auth : Authorized) : Settlement := do
  let hookPresent ← guardrailHookPresent w.tx.account
  settleReserve env
    { req := w.req
      v := w.v
      txBlob := w.txBlob
      tx := w.tx
      now := w.now
      expiryMs := consumedExpiryFor env w.lastLedger w.curLedger w.now
      auth := auth
      hookPresent := hookPresent }

/-- What the ledger said of the signature decides. -/
def settleDecided (w : Window) : Decision → Settlement
  | .rejected reason => reject { payer := w.v.payer, errorReason := reason, signatureVerified := some false }
  | .authorized source => settleAuthorized env w ⟨true, some source⟩
  | .fallback => settleAuthorized env w ⟨false, none⟩

/-- A signature that was not verified offline is checked on the ledger. -/
def settleAuthorize (w : Window) : Settlement :=
  if w.v.signatureVerified then settleAuthorized env w ⟨true, some "master"⟩
  else do
    let auth ← authorizeOnLedger env w.tx w.tx.isMultisig
    settleDecided env w auth

/-- The validity window has to be open, and not too long. -/
def settleWindow (req : Json) (v : Verified) (txBlob : String) (tx : Tx) (now : Nat) (curLedger : Option ℚ) :
    Settlement :=
  match curLedger, tx.lastLedgerSequence with
  | none, _ =>
    reject { payer := v.payer, errorReason := "could not read current ledger (cannot bound validity window)" }
  | some _, none => reject { payer := v.payer, errorReason := "LastLedgerSequence not in the future" }
  | some curLedger, some lastLedger =>
    if (lastLedger : ℚ) ≤ curLedger then
      reject { payer := v.payer, errorReason := "LastLedgerSequence not in the future" }
    else if (lastLedger : ℚ) - curLedger > MAX_VALIDITY_LEDGERS env then
      reject
        { payer := v.payer
          errorReason := "validity window too large (LastLedgerSequence > " ++
            toString (MAX_VALIDITY_LEDGERS env) ++ " ledgers ahead)" }
    else settleAuthorize env ⟨req, v, txBlob, tx, now, lastLedger, curLedger⟩

/-- The client and the validated ledger. -/
def settleLedger (req : Json) (v : Verified) (txBlob : String) (tx : Tx) (now : Nat) : Settlement :=
  .call .getClient fun r _ =>
    match r with
    | .error msg => reject { payer := v.payer, errorReason := msg }
    | .ok () => do
      let curLedger ← currentValidatedLedger
      settleWindow env req v txBlob tx now curLedger

/-- The payment is not bound. -/
def settleFresh (payload req : Json) (v : Verified) (now : Nat) : Settlement :=
  let txBlob := (payload.getString "txBlob").getD ""
  match env.decode txBlob with
  | none => reject { payer := some (v.payer.getD ""), errorReason := "undecodable txBlob" }
  | some tx => settleLedger env req v txBlob tx now

/-- The payment is bound: its receipt is the reply, if there is one. -/
def settleConsumed (v : Verified) : Settlement :=
  .call (.getReceipt v.replayId) fun r _ =>
    match r with
    | .error _ => settleStoreUnavailable v.payer
    | .ok (some receipt) => replay v receipt
    | .ok none => alreadyConsumed v

/-- `now` is captured in the turn in which the answer of `isConsumed` arrives. -/
def settleReplay (payload req : Json) (v : Verified) : Settlement :=
  .call (.isConsumed v.replayId) fun r now =>
    match r with
    | .error _ => settleStoreUnavailable v.payer
    | .ok true => settleConsumed v
    | .ok false => settleFresh env payload req v now

/-- The simulation predicts a rejection, or the settlement goes on. -/
def settleSimulated (payload req : Json) (v : Verified) (sim : Simulation) : Settlement :=
  if sim.prediction = some .reject then
    reject
      { payer := v.payer
        errorReason := "predicted-reject (simulated, not submitted)"
        advisory := true
        simulation := some sim }
  else settleReplay env payload req v

/-- The payment verified: a dry run ends with its simulation, and else the store is asked. -/
def settleVerified (payload req : Json) (deps : Deps) (v : Verified) : Settlement :=
  if deps.dryRun then
    .call (.simulatePayment payload req) fun sim _ =>
      reject
        { payer := v.payer
          errorReason := "dryRun: not submitted (advisory simulation only)"
          dryRun := true
          advisory := true
          simulation := some sim }
  else if deps.preSimReject then
    .call (.simulatePayment payload req) fun sim _ => settleSimulated env payload req v sim
  else settleReplay env payload req v

/-- `settle`. -/
def settle (payload req : Json) (deps : Deps) : Settlement :=
  if !env.XAHAU_WSS then reject { payer := some "", errorReason := "set XAHAU_WSS to settle" }
  else match verifyExact env payload req with
    | .error reason => reject { payer := some "", errorReason := "verify failed: " ++ reason }
    | .ok v => settleVerified env payload req deps v

end

end Xahc.Facilitator

/-
The receipt of an on-ledger outcome: what the validated metadata says was delivered, the comparison
with what the verified payment committed to, and the fields of the receipt.
-/
import Xahc.Facilitator.Verify

namespace Xahc.Facilitator

open Xahc.Data

/-- A terminal settlement receipt. -/
structure Receipt where
  success : Bool
  transaction : Option Json
  network : String
  errorReason : Option String
  delivered : Option Delivered
  guardrailHookPresent : Option Bool
  payer : Option String
  signatureVerified : Bool
  signatureSource : Option String
  txHash : Option Json
  payTo : Option String
  required : Option Delivered
  asset : Option Asset
  ts : Nat
  proof : Option Proof
  deriving Repr

/-! ## Delivered amounts -/

/-- `meta.delivered_amount ?? meta.DeliveredAmount`. -/
def deliveredAmount (txMeta : Json) : Option Json :=
  Json.orElse (txMeta.get "delivered_amount") (txMeta.get "DeliveredAmount")

/-- The drops delivered, where the metadata says. -/
def deliveredDrops (txMeta : Json) : Option Nat :=
  match deliveredAmount txMeta with
  | some (.str d) => if isStrictDrops d then some (digitsNat d.toList) else none
  | _ => none

/-- The token delivered, where the metadata says. -/
def deliveredIssued (txMeta : Json) : Option IssuedAmount :=
  match deliveredAmount txMeta with
  | some d =>
    match d.getString "currency", d.getString "issuer", d.getString "value" with
    | some currency, some issuer, some value => some ⟨currency, issuer, value⟩
    | _, _, _ => none
  | none => none

/-- What a payment of `required` units of `asset` delivered, or the receipt's `errorReason`. -/
def issuedOutcome (asset : Asset) (required : Option TokenValue) (txMeta : Json) : Except String Delivered :=
  match deliveredIssued txMeta with
  | none => .error "could not read delivered_amount"
  | some d =>
    if canonicalizeCurrency d.currency = none ∨
        canonicalizeCurrency d.currency ≠ canonicalizeCurrency asset.currency ∨ d.issuer ≠ asset.issuer then
      .error "delivered_amount asset mismatch"
    else match parseTokenValue d.value, required with
      | none, _ => .error "could not read delivered_amount"
      | some _, none => .error "delivered_amount < required"
      | some dv, some required =>
        if cmpTokenValue dv required < 0 then .error "delivered_amount < required"
        else .ok (.token ⟨d.currency, d.issuer, tokenValueToString dv⟩)

/-- What a payment of `required` drops delivered, or the receipt's `errorReason`. -/
def nativeOutcome (required : Nat) (txMeta : Json) : Except String Delivered :=
  match deliveredDrops txMeta with
  | none => .error "could not read delivered_amount"
  | some d => if d < required then .error "delivered_amount < required" else .ok (.drops (toString d))

/-- The outcome of a transaction that is on the ledger with the result `code`. -/
def onLedgerOutcome (v : Verified) (code : String) (txMeta : Json) : Except String Delivered :=
  if code ≠ "tesSUCCESS" then .error code
  else match v.asset with
    | some asset => issuedOutcome asset (parseTokenValue v.amount) txMeta
    | none => nativeOutcome ((bigIntOf v.amount).getD 0) txMeta

/-! ## The receipt -/

/-- The verified amount in the receipt's shape. -/
def requiredField (v : Verified) : Option Delivered :=
  match v.asset with
  | some asset => (parseTokenValue v.amount).map fun value => .token ⟨asset.currency, asset.issuer, tokenValueToString value⟩
  | none => (bigIntOf v.amount).map fun drops => .drops (toString drops)

/-- How far the payer's authorization was confirmed, and by what. -/
structure Authorized where
  signatureVerified : Bool
  signatureSource : Option String
  deriving DecidableEq, Repr

/-- The terminal receipt of a submit that resolved with the result `code`, the metadata and a hash. -/
def terminalReceipt (env : Env) (req : Json) (v : Verified) (auth : Authorized) (hookPresent : Option Bool)
    (now : Nat) (code : String) (txMeta : Json) (hash : Option Json) : Receipt :=
  let outcome := onLedgerOutcome v code txMeta
  let delivered := outcome.toOption
  let txHash := hash.filter Json.truthy
  let payTo := req.getString "payTo"
  let proof := delivered.bind fun d => env.signReceipt
    { network := NETWORK
      txHash := txHash
      payer := v.payer
      payTo := payTo
      asset := v.asset
      delivered := some d
      required := requiredField v
      ts := now }
  { success := delivered.isSome
    transaction := hash
    network := NETWORK
    errorReason := match outcome with
      | .error e => some e
      | .ok _ => none
    delivered := delivered
    guardrailHookPresent := hookPresent
    payer := v.payer
    signatureVerified := auth.signatureVerified
    signatureSource := auth.signatureSource
    txHash := txHash
    payTo := payTo
    required := requiredField v
    asset := v.asset
    ts := now
    proof := proof }

/-! ## What a successful receipt says -/

/-- The metadata delivers at least what the transaction's `Amount` commits to, in the asset asked for:
native XAH, or the named token. -/
def Delivers (amount : Option Json) (asset : Option Asset) (txMeta : Json) : Prop :=
  match asset with
  | none => ∃ committed delivered, Commits amount (.native committed) ∧ deliveredDrops txMeta = some delivered ∧
      committed ≤ delivered
  | some asset => ∃ committed d delivered, Commits amount (.token asset committed) ∧
      deliveredIssued txMeta = some d ∧ canonicalizeCurrency d.currency = canonicalizeCurrency asset.currency ∧
      d.issuer = asset.issuer ∧ parseTokenValue d.value = some delivered ∧ committed.toRat ≤ delivered.toRat

theorem issuedOutcome_ok {asset : Asset} {required : Option TokenValue} {txMeta : Json} {out : Delivered}
    (h : issuedOutcome asset required txMeta = .ok out) :
    ∃ d dv r, deliveredIssued txMeta = some d ∧ canonicalizeCurrency d.currency = canonicalizeCurrency asset.currency ∧
      d.issuer = asset.issuer ∧ parseTokenValue d.value = some dv ∧ required = some r ∧ r.toRat ≤ dv.toRat := by
  unfold issuedOutcome at h
  split at h
  · cases h
  rename_i d hd
  split_ifs at h with hasset
  push Not at hasset
  split at h
  · cases h
  · cases h
  · rename_i dv r hdv
    split_ifs at h with hcmp
    rw [cmpTokenValue_lt, not_lt] at hcmp
    exact ⟨d, dv, r, hd, hasset.2.1, hasset.2.2, hdv, rfl, hcmp⟩

theorem nativeOutcome_ok {required : Nat} {txMeta : Json} {out : Delivered} (h : nativeOutcome required txMeta = .ok out) :
    ∃ d, deliveredDrops txMeta = some d ∧ required ≤ d := by
  unfold nativeOutcome at h
  split at h
  · cases h
  · rename_i d hd
    split_ifs at h with hlt
    exact ⟨d, hd, not_lt.1 hlt⟩

/-- A successful outcome is a `tesSUCCESS` that delivered what the verified payment committed to. -/
theorem onLedgerOutcome_ok {env : Env} {payload req : Json} {v : Verified} {blob : String} {tx : Tx} {paid : Paid}
    {code : String} {txMeta : Json} {out : Delivered} (hv : IsVerified env payload req v blob tx paid)
    (h : onLedgerOutcome v code txMeta = .ok out) : code = "tesSUCCESS" ∧ Delivers tx.amount (assetOf req) txMeta := by
  unfold onLedgerOutcome at h
  split_ifs at h with hcode
  refine ⟨not_not.1 hcode, ?_⟩
  rw [← hv.asked]
  have hcommits := hv.commits
  rw [hv.asset, hv.amount] at h
  cases paid with
  | native drops =>
    obtain ⟨d, hd, hle⟩ := nativeOutcome_ok h
    rw [show Paid.amount (.native drops) = toString drops from rfl, bigIntOf_toString] at hle
    exact ⟨drops, d, hcommits, hd, hle⟩
  | token asset value =>
    obtain ⟨d, dv, r, hd, hcur, hiss, hdv, hr, hle⟩ := issuedOutcome_ok h
    rw [parseTokenValue_tokenValueToString hr] at hle
    exact ⟨value, d, dv, hcommits, hd, hcur, hiss, hdv, hle⟩

end Xahc.Facilitator

/-
Offline verification of a signed Payment against payment requirements: `verifyExact`, the libraries it
calls as parameters, and what a verified payment has been checked to be.
-/
import Xahc.Data.Except
import Xahc.Facilitator.Amount

namespace Xahc.Facilitator

open Xahc.Data

/-! ## Transactions -/

/-- An entry of `Signers`. -/
structure Signer where
  signingPubKey : Option String
  txnSignature : Option String
  account : Option String
  deriving Repr

/-- A decoded transaction; a field the blob does not carry is absent. -/
structure Tx where
  transactionType : Option String := none
  networkID : Option Nat := none
  account : Option String := none
  destination : Option String := none
  amount : Option Json := none
  flags : Option Nat := none
  sequence : Option Nat := none
  lastLedgerSequence : Option Nat := none
  invoiceID : Option String := none
  signingPubKey : Option String := none
  txnSignature : Option String := none
  /-- The `Signer` object of each element of `Signers`. -/
  signers : Option (List (Option Signer)) := none
  deriving Repr

/-- `Array.isArray(tx.Signers) && tx.Signers.length > 0`. -/
def Tx.isMultisig (tx : Tx) : Bool := tx.signers.any (!·.isEmpty)

/-! ## What the facilitator runs on -/

/-- A delivered amount, as text. -/
inductive Delivered
  | drops (s : String)
  | token (a : IssuedAmount)
  deriving DecidableEq, Repr

/-- The fields a receipt's proof signs. -/
structure ReceiptFields where
  network : String
  txHash : Option Json
  payer : Option String
  payTo : Option String
  asset : Option Asset
  delivered : Option Delivered
  required : Option Delivered
  ts : Nat
  deriving Repr

/-- The proof of a receipt. -/
structure Proof where
  alg : String
  pubkey : String
  sig : String
  deriving DecidableEq, Repr

/-- The configuration, and the functions of the libraries. A library that may be missing is an option;
a library function that may throw answers with an option. -/
structure Env where
  XAHAU_WSS : Bool
  EXPECTED_NETWORK_ID : Nat
  REPLAY_TTL_MS : Nat
  LEDGER_CLOSE_MS : Nat
  REPLAY_EXPIRY_MARGIN_MS : Nat
  close_pos : 0 < LEDGER_CLOSE_MS
  decode : String → Option Tx
  isValidClassicAddress : Option (String → Bool)
  verifySignature : Option (String → Option Bool)
  deriveAddress : Option (String → Option String)
  verify : Option (String → String → String → Option Bool)
  encodeForMultisigning : Option (Tx → String → Option String)
  signReceipt : ReceiptFields → Option Proof

/-- The network's name. -/
def NETWORK : String := "xahau"

/-- The flag of a partial payment. -/
def TF_PARTIAL_PAYMENT : Nat := 0x00020000

section
variable (env : Env)

/-- `/^r[1-9A-HJ-NP-Za-km-z]{24,34}$/`. -/
def looksLikeAddress (addr : String) : Bool :=
  match addr.toList with
  | 'r' :: cs =>
    24 ≤ cs.length && cs.length ≤ 34 &&
      cs.all fun c => c.isAlphanum && !(['0', 'I', 'O', 'l'] : List Char).contains c
  | _ => false

/-- The address is valid, by the codec where it is there and else by its form. -/
def isValidRAddress (addr : String) : Bool :=
  if addr = "" then false
  else match env.isValidClassicAddress with
    | some f => f addr
    | none => looksLikeAddress addr

/-- Whether the signature is valid; unknown without the library. -/
def verifyTxSignature (txBlob : String) : Option Bool :=
  env.verifySignature.map fun f => f txBlob == some true

/-- The address of a public key; none without the library. -/
def deriveAddressFromPubKey (pubKey : Option String) : Option String :=
  match pubKey with
  | none => none
  | some k => if k = "" then none else env.deriveAddress.bind fun f => f k

/-! ## Requirements -/

/-- The payment schemes. -/
inductive Scheme
  | exact | upto
  deriving DecidableEq, Repr

/-- The most that may be paid: drops, or units of a token. -/
inductive Ceiling
  | native (maxDrops : Nat)
  | token (asset : Asset) (maxTokenValue : TokenValue)
  deriving Repr

/-- The payment requirements as they are read. -/
structure Requirements where
  payTo : String
  scheme : Scheme
  ceiling : Ceiling
  deriving Repr

/-- The scheme asked for, `upto` where none is. -/
def readScheme (req : Json) : Except String Scheme :=
  match Json.orElse (req.get "scheme") none with
  | none => .ok .upto
  | some (.str "exact") => .ok .exact
  | some (.str "upto") => .ok .upto
  | some _ => .error "incomplete payment requirements (unknown scheme; expected 'exact' or 'upto')"

/-- The asset asked for. -/
def readAsset (a : Json) : Except String Asset :=
  match a.getString "currency", a.getString "issuer" with
  | some currency, some issuer =>
    if canonicalizeCurrency currency = none then
      .error "incomplete payment requirements (asset.currency invalid)"
    else if !isValidRAddress env issuer then
      .error "incomplete payment requirements (asset.issuer invalid)"
    else .ok ⟨currency, issuer⟩
  | _, _ => .error "incomplete payment requirements (asset malformed)"

/-- The most that may be paid. -/
def readCeiling (req : Json) : Except String Ceiling :=
  match Json.orElse (req.get "asset") none with
  | some a => do
    let asset ← readAsset env a
    match (req.getString "maxAmountRequired").bind parseTokenValue with
    | none => .error "incomplete payment requirements (maxAmountRequired missing/invalid token value)"
    | some max => .ok (.token asset max)
  | none =>
    match (req.getString "maxAmountRequired").bind parseStrictDrops with
    | none => .error "incomplete payment requirements (maxAmountRequired missing/invalid)"
    | some max => .ok (.native max)

/-- The payee asked for. -/
def readPayTo (req : Json) : Except String String :=
  match req.getString "payTo" with
  | some payTo =>
    if isValidRAddress env payTo then .ok payTo
    else .error "incomplete payment requirements (payTo missing/invalid)"
  | none => .error "incomplete payment requirements (payTo missing/invalid)"

/-- The requirements, in the order they are checked. -/
def readRequirements (req : Json) : Except String Requirements := do
  if !req.isObject then .error "incomplete payment requirements"
  let payTo ← readPayTo env req
  let scheme ← readScheme req
  let ceiling ← readCeiling env req
  return ⟨payTo, scheme, ceiling⟩

/-! ## The amount -/

/-- What a verified payment commits to. -/
inductive Paid
  | native (drops : Nat)
  | token (asset : Asset) (value : TokenValue)
  deriving Repr

/-- The amount is of the asset asked for and at most the ceiling. -/
def checkIssuedAmount (amount : Option Json) (asset : Asset) (maxTokenValue : TokenValue) :
    Except String TokenValue :=
  match amount with
  | some (.obj fields) =>
    let a := Json.obj fields
    match a.getString "currency", a.getString "issuer", a.getString "value" with
    | some currency, some issuer, some value =>
      match canonicalizeCurrency asset.currency with
      | none => .error "asset.currency malformed"
      | some wantCur =>
        if canonicalizeCurrency currency ≠ some wantCur then .error "Amount.currency != asset.currency"
        else if !isValidRAddress env issuer then .error "Amount.issuer malformed"
        else if issuer ≠ asset.issuer then .error "Amount.issuer != asset.issuer"
        else match parseTokenValue value with
          | none => .error "Amount.value malformed or out of token range"
          | some v => if cmpTokenValue v maxTokenValue > 0 then .error "Amount.value > maxAmountRequired" else .ok v
    | _, _, _ => .error "Amount issued-amount object malformed (currency/issuer/value)"
  | _ => .error "Amount must be an issued-amount object for this asset"

/-- The amount is native and at most the ceiling, or equal to it under `exact`. -/
def checkNative (amount : Option Json) (scheme : Scheme) (maxDrops : Nat) : Except String Paid :=
  match amount with
  | some (.str s) =>
    match parseStrictDrops s with
    | none => .error "Amount malformed (must be positive drops string)"
    | some paid =>
      if paid > maxDrops then .error "Amount > maxAmountRequired"
      else if scheme = .exact ∧ paid ≠ maxDrops then .error "Amount != maxAmountRequired (scheme: exact)"
      else .ok (.native paid)
  | _ => .error "asset mismatch: native XAH required but Amount is an issued amount"

/-- The amount is issued and at most the ceiling, or equal to it under `exact`. -/
def checkIssued (amount : Option Json) (scheme : Scheme) (asset : Asset) (maxTokenValue : TokenValue) :
    Except String Paid :=
  match amount with
  | some (.str _) => .error "asset mismatch: issued amount required but Amount is native XAH"
  | _ =>
    match checkIssuedAmount env amount asset maxTokenValue with
    | .error e => .error e
    | .ok v =>
      if scheme = .exact ∧ cmpTokenValue v maxTokenValue ≠ 0 then
        .error "Amount != maxAmountRequired (scheme: exact)"
      else .ok (.token asset v)

/-- The amount against the ceiling. -/
def checkAmount (amount : Option Json) (scheme : Scheme) : Ceiling → Except String Paid
  | .native maxDrops => checkNative amount scheme maxDrops
  | .token asset maxTokenValue => checkIssued env amount scheme asset maxTokenValue

/-! ## The transaction -/

/-- The transaction is a payment to the payee on this network, and not a partial one. -/
def checkPayment (tx : Tx) (payTo : String) : Except String Unit :=
  if tx.transactionType ≠ some "Payment" then .error "not a Payment"
  else if tx.networkID ≠ some env.EXPECTED_NETWORK_ID then
    .error ("NetworkID != " ++ toString env.EXPECTED_NETWORK_ID)
  else if tx.destination ≠ some payTo then .error "Destination != payTo"
  else if tx.flags.getD 0 &&& TF_PARTIAL_PAYMENT ≠ 0 then .error "tfPartialPayment not allowed"
  else .ok ()

/-- The transaction has an end of its validity. -/
def checkExpiry (tx : Tx) : Except String Unit :=
  if tx.lastLedgerSequence = none then .error "missing LastLedgerSequence (no expiry window)" else .ok ()

/-- Whether the signature is bound to the account offline. -/
def checkSignature (txBlob : String) (tx : Tx) : Except String Bool :=
  if tx.txnSignature.getD "" = "" ∧ !tx.isMultisig then .error "unsigned (no TxnSignature/Signers)"
  else if tx.isMultisig then .ok false
  else match verifyTxSignature env txBlob with
    | some false => .error "invalid signature"
    | some true =>
      match deriveAddressFromPubKey env tx.signingPubKey with
      | none => .ok false
      | some derived =>
        if some derived ≠ tx.account then .error "signature does not match Account" else .ok true
    | none => .ok false

/-- Stable replay key for a decoded tx: InvoiceID if present, else acct:seq. -/
def replayKeyFor (tx : Tx) : String :=
  match tx.invoiceID with
  | some id =>
    if id ≠ "" then "inv:" ++ id
    else "acct:" ++ tx.account.getD "undefined" ++ ":" ++ (tx.sequence.map toString).getD "undefined"
  | none => "acct:" ++ tx.account.getD "undefined" ++ ":" ++ (tx.sequence.map toString).getD "undefined"

/-- The result of a verification that succeeds. -/
structure Verified where
  payer : Option String
  amount : String
  asset : Option Asset
  scheme : Scheme
  signatureVerified : Bool
  replayId : String
  deriving Repr

/-- The amount as the verification result echoes it. -/
def Paid.amount : Paid → String
  | .native drops => toString drops
  | .token _ value => tokenValueToString value

/-- The asset, where it is not native. -/
def Paid.asset : Paid → Option Asset
  | .native _ => none
  | .token asset _ => some asset

/-- The blob of a payload. -/
def readBlob (payload : Json) : Except String String :=
  match payload.getString "txBlob" with
  | some blob => if blob = "" then .error "missing txBlob" else .ok blob
  | none => .error "missing txBlob"

/-- The transaction of a blob. -/
def decodeBlob (txBlob : String) : Except String Tx :=
  match env.decode txBlob with
  | none => .error "undecodable txBlob"
  | some tx => .ok tx

/-- The result of a valid payment, or the `invalidReason`. -/
def verifyExact (payload req : Json) : Except String Verified := do
  let txBlob ← readBlob payload
  let r ← readRequirements env req
  let tx ← decodeBlob env txBlob
  checkPayment env tx r.payTo
  let paid ← checkAmount env tx.amount r.scheme r.ceiling
  checkExpiry tx
  let signatureVerified ← checkSignature env txBlob tx
  return ⟨tx.account, paid.amount, paid.asset, r.scheme, signatureVerified, replayKeyFor tx⟩

/-! ## What a verified payment is -/

/-- The token the requirements ask for; none where they ask for native XAH. -/
def assetOf (req : Json) : Option Asset :=
  match Json.orElse (req.get "asset") none with
  | none => none
  | some a => (a.getString "currency").bind fun currency => (a.getString "issuer").map fun issuer => ⟨currency, issuer⟩

/-- The transaction's `Amount` is what `paid` says. -/
def Commits (amount : Option Json) : Paid → Prop
  | .native drops => ∃ s, amount = some (.str s) ∧ parseStrictDrops s = some drops
  | .token asset value => ∃ a currency text, amount = some a ∧ a.getString "currency" = some currency ∧
      a.getString "issuer" = some asset.issuer ∧ a.getString "value" = some text ∧
      canonicalizeCurrency currency = canonicalizeCurrency asset.currency ∧ parseTokenValue text = some value

variable {env}

theorem readAsset_ok {a : Json} {asset : Asset} (h : readAsset env a = .ok asset) :
    a.getString "currency" = some asset.currency ∧ a.getString "issuer" = some asset.issuer := by
  unfold readAsset at h
  split at h
  · rename_i currency issuer hc hi
    split_ifs at h
    cases h
    exact ⟨hc, hi⟩
  · cases h

theorem readCeiling_ok {req : Json} {c : Ceiling} (h : readCeiling env req = .ok c) :
    assetOf req = (match c with | .native _ => none | .token asset _ => some asset) := by
  unfold readCeiling at h
  unfold assetOf
  split at h
  · rename_i a ha
    obtain ⟨asset, hasset, h⟩ := bind_ok.1 h
    split at h
    · cases h
    · cases h
      obtain ⟨hc, hi⟩ := readAsset_ok hasset
      simp [ha, hc, hi]
  · rename_i ha
    split at h
    · cases h
    · cases h
      simp [ha]

/-- A string of drops at most the ceiling, and equal to it under the scheme `exact`. -/
theorem checkNative_parts {amount : Option Json} {scheme : Scheme} {max : Nat} {paid : Paid}
    (h : checkNative amount scheme max = .ok paid) :
    ∃ text drops, amount = some (.str text) ∧ parseStrictDrops text = some drops ∧ paid = .native drops ∧
      drops ≤ max ∧ (scheme = .exact → drops = max) := by
  unfold checkNative at h
  split at h
  · rename_i text
    split at h
    · cases h
    · rename_i drops hdrops
      split_ifs at h with hover hexact
      cases h
      exact ⟨text, drops, rfl, hdrops, rfl, not_lt.1 hover, fun hs => not_not.1 fun hne => hexact ⟨hs, hne⟩⟩
  · cases h

theorem checkNative_ok {amount : Option Json} {scheme : Scheme} {max : Nat} {paid : Paid}
    (h : checkNative amount scheme max = .ok paid) : Commits amount paid ∧ paid.asset = none := by
  obtain ⟨text, drops, hamount, hdrops, rfl, -, -⟩ := checkNative_parts h
  exact ⟨⟨text, hamount, hdrops⟩, rfl⟩

/-- An issued amount is of the asked currency and issuer, and its value is at most the ceiling. -/
theorem checkIssuedAmount_parts {amount : Option Json} {asset : Asset} {max v : TokenValue}
    (h : checkIssuedAmount env amount asset max = .ok v) :
    ∃ fields currency code text, amount = some (.obj fields) ∧
      (Json.obj fields).getString "currency" = some currency ∧ canonicalizeCurrency currency = some code ∧
      canonicalizeCurrency asset.currency = some code ∧
      (Json.obj fields).getString "issuer" = some asset.issuer ∧
      (Json.obj fields).getString "value" = some text ∧ parseTokenValue text = some v ∧ v.toRat ≤ max.toRat := by
  unfold checkIssuedAmount at h
  split at h
  · rename_i fields
    dsimp only at h
    split at h
    · rename_i currency issuer value hc hi hv
      split at h
      · cases h
      · rename_i wantCur hwant
        split_ifs at h with hcur _ hiss
        split at h
        · cases h
        · rename_i v' hv'
          split_ifs at h with hover
          cases h
          have hle : v.toRat ≤ max.toRat := not_lt.1 fun hlt => hover ((cmpTokenValue_gt v max).2 hlt)
          exact ⟨fields, currency, wantCur, value, rfl, hc, not_not.1 hcur, hwant, (not_not.1 hiss) ▸ hi, hv, hv', hle⟩
    · cases h
  · cases h

theorem checkIssuedAmount_ok {amount : Option Json} {asset : Asset} {max v : TokenValue}
    (h : checkIssuedAmount env amount asset max = .ok v) : Commits amount (.token asset v) := by
  obtain ⟨fields, currency, code, text, hamount, hc, hcode, hwant, hi, ht, hv, -⟩ := checkIssuedAmount_parts h
  exact ⟨_, currency, text, hamount, hc, hi, ht, hcode.trans hwant.symm, hv⟩

/-- The issued amount that was checked, equal to the ceiling under the scheme `exact`. -/
theorem checkIssued_parts {amount : Option Json} {scheme : Scheme} {asset : Asset} {max : TokenValue} {paid : Paid}
    (h : checkIssued env amount scheme asset max = .ok paid) :
    ∃ v, checkIssuedAmount env amount asset max = .ok v ∧ paid = .token asset v ∧
      (scheme = .exact → v.toRat = max.toRat) := by
  unfold checkIssued at h
  split at h
  · cases h
  · split at h
    · cases h
    · rename_i v hv
      split_ifs at h with hexact
      cases h
      exact ⟨v, hv, rfl, fun hs => (cmpTokenValue_eq v max).1 (not_not.1 fun hne => hexact ⟨hs, hne⟩)⟩

theorem checkIssued_ok {amount : Option Json} {scheme : Scheme} {asset : Asset} {max : TokenValue} {paid : Paid}
    (h : checkIssued env amount scheme asset max = .ok paid) : Commits amount paid ∧ paid.asset = some asset := by
  obtain ⟨v, hv, rfl, -⟩ := checkIssued_parts h
  exact ⟨checkIssuedAmount_ok hv, rfl⟩

/-- The amount is read in the asset the requirements ask for. -/
theorem checkAmount_ok {req : Json} {amount : Option Json} {scheme : Scheme} {c : Ceiling} {paid : Paid}
    (hc : readCeiling env req = .ok c) (h : checkAmount env amount scheme c = .ok paid) :
    Commits amount paid ∧ paid.asset = assetOf req := by
  rw [readCeiling_ok hc]
  cases c with
  | native max => exact checkNative_ok h
  | token asset max => exact checkIssued_ok h

theorem readPayTo_ok {req : Json} {payTo : String} (h : readPayTo env req = .ok payTo) :
    req.getString "payTo" = some payTo := by
  unfold readPayTo at h
  split at h
  · rename_i p hp
    split_ifs at h
    cases h
    exact hp
  · cases h

theorem readRequirements_ok {req : Json} {r : Requirements} (h : readRequirements env req = .ok r) :
    req.getString "payTo" = some r.payTo ∧ readScheme req = .ok r.scheme ∧ readCeiling env req = .ok r.ceiling := by
  unfold readRequirements at h
  split_ifs at h
  · cases h
  · obtain ⟨payTo, hpay, h⟩ := bind_ok.1 h
    obtain ⟨scheme, hscheme, h⟩ := bind_ok.1 h
    obtain ⟨ceiling, hceil, h⟩ := bind_ok.1 h
    cases h
    exact ⟨readPayTo_ok hpay, hscheme, hceil⟩

theorem readBlob_ok {payload : Json} {blob : String} (h : readBlob payload = .ok blob) :
    payload.getString "txBlob" = some blob := by
  unfold readBlob at h
  split at h
  · rename_i b hb
    split_ifs at h
    cases h
    exact hb
  · cases h

theorem decodeBlob_ok {blob : String} {tx : Tx} (h : decodeBlob env blob = .ok tx) : env.decode blob = some tx := by
  unfold decodeBlob at h
  split at h
  · cases h
  · rename_i tx' htx
    cases h
    exact htx

theorem checkPayment_ok {tx : Tx} {payTo : String} (h : checkPayment env tx payTo = .ok ()) :
    tx.transactionType = some "Payment" ∧ tx.networkID = some env.EXPECTED_NETWORK_ID ∧
      tx.destination = some payTo ∧ tx.flags.getD 0 &&& TF_PARTIAL_PAYMENT = 0 := by
  unfold checkPayment at h
  split_ifs at h with htype hnet hdest hflags
  exact ⟨not_not.1 htype, not_not.1 hnet, not_not.1 hdest, not_not.1 hflags⟩

theorem checkExpiry_ok {tx : Tx} (h : checkExpiry tx = .ok ()) : ∃ n, tx.lastLedgerSequence = some n := by
  unfold checkExpiry at h
  split_ifs at h with hlls
  exact Option.ne_none_iff_exists'.1 hlls

/-- What `verifyExact` has checked of a payment it accepts. -/
structure IsVerified (env : Env) (payload req : Json) (v : Verified) (blob : String) (tx : Tx) (paid : Paid) : Prop where
  txBlob : payload.getString "txBlob" = some blob
  decode : env.decode blob = some tx
  payTo : ∃ payTo, req.getString "payTo" = some payTo ∧ tx.destination = some payTo
  commits : Commits tx.amount paid
  asked : paid.asset = assetOf req
  window : ∃ n, tx.lastLedgerSequence = some n
  payer : v.payer = tx.account
  amount : v.amount = paid.amount
  asset : v.asset = paid.asset
  replayId : v.replayId = replayKeyFor tx

/-- The checks of a verification that succeeds have all succeeded. -/
theorem verifyExact_parts {payload req : Json} {v : Verified} (h : verifyExact env payload req = .ok v) :
    ∃ blob r tx paid, readBlob payload = .ok blob ∧ readRequirements env req = .ok r ∧ decodeBlob env blob = .ok tx ∧
      checkPayment env tx r.payTo = .ok () ∧ checkAmount env tx.amount r.scheme r.ceiling = .ok paid ∧
      checkExpiry tx = .ok () ∧ checkSignature env blob tx = .ok v.signatureVerified ∧ v.payer = tx.account ∧
      v.amount = paid.amount ∧ v.asset = paid.asset ∧ v.replayId = replayKeyFor tx := by
  unfold verifyExact at h
  obtain ⟨blob, hblob, h⟩ := bind_ok.1 h
  obtain ⟨r, hr, h⟩ := bind_ok.1 h
  obtain ⟨tx, htx, h⟩ := bind_ok.1 h
  obtain ⟨_, hpay, h⟩ := bind_ok.1 h
  obtain ⟨paid, hpaid, h⟩ := bind_ok.1 h
  obtain ⟨_, hexp, h⟩ := bind_ok.1 h
  obtain ⟨verified, hsig, h⟩ := bind_ok.1 h
  cases h
  exact ⟨blob, r, tx, paid, hblob, hr, htx, hpay, hpaid, hexp, hsig, rfl, rfl, rfl, rfl⟩

theorem verifyExact_ok {payload req : Json} {v : Verified} (h : verifyExact env payload req = .ok v) :
    ∃ blob tx paid, IsVerified env payload req v blob tx paid := by
  obtain ⟨blob, r, tx, paid, hblob, hr, htx, hpay, hpaid, hexp, -, hpayer, hamount, hasset, hreplay⟩ := verifyExact_parts h
  obtain ⟨hpayTo, -, hceil⟩ := readRequirements_ok hr
  obtain ⟨hcommits, hasked⟩ := checkAmount_ok hceil hpaid
  refine ⟨blob, tx, paid, ?_⟩
  exact
    { txBlob := readBlob_ok hblob
      decode := decodeBlob_ok htx
      payTo := ⟨r.payTo, hpayTo, (checkPayment_ok hpay).2.2.1⟩
      commits := hcommits
      asked := hasked
      window := checkExpiry_ok hexp
      payer := hpayer
      amount := hamount
      asset := hasset
      replayId := hreplay }

/-- The blob decides the transaction. -/
theorem IsVerified.unique {payload req : Json} {v : Verified} {blob blob' : String} {tx tx' : Tx} {paid : Paid}
    (h : IsVerified env payload req v blob tx paid) (hb : payload.getString "txBlob" = some blob')
    (hd : env.decode blob' = some tx') : blob = blob' ∧ tx = tx' := by
  obtain rfl : blob = blob' := Option.some.inj (h.txBlob.symm.trans hb)
  exact ⟨rfl, Option.some.inj (h.decode.symm.trans hd)⟩

end

/-! ## Signed payments -/

namespace Sample

/-- An account that pays, and one that is paid. -/
def payer : String := "rL63icxg5xufV2E1DwFQPJnJT6qUG9dXx1"

/-- The account that is paid. -/
def payee : String := "rH8squyhR6xKgXYzeyUnRYCe8HP51MLkCa"

/-- The payer's master key. -/
def pubKey : String := "EDC42035B7CD669852B51A4990CCE096A0FC435230B7DFF110D4DA8F3ABAD63BF7"

/-- The invoice id of the payments. -/
def invoice : String := "0FC89F8AE19394B48DEBD6353BB9AD3393F3BC791931519F19D176A7E5513EBC"

/-- A payment of the payer for the invoice, signed with its master key. -/
def payment (sequence lastLedger : Nat) (drops signature : String) : Tx :=
  { transactionType := some "Payment"
    networkID := some 21337
    account := some payer
    destination := some payee
    amount := some (.str drops)
    sequence := some sequence
    lastLedgerSequence := some lastLedger
    invoiceID := some invoice
    signingPubKey := some pubKey
    txnSignature := some signature }

/-- One XAH. -/
def tx1 : Tx := payment 7 110 "1000000"
  ("7A93E95412F569D7F40186A7EABFFAC0A85E482C408DEAF6EBAAAC86C0971A9E3DE81DED1B7561B671907EBD21D13592" ++
    "0E4A3FB4DD6D30133C245736EE3F1001")

/-- Its bytes. -/
def blob1 : String :=
    "12000021000053592400000007201B0000006E50110FC89F8AE19394B48DEBD6353BB9AD3393F3BC791931519F19D176" ++
    "A7E5513EBC6140000000000F424068400000000000000C7321EDC42035B7CD669852B51A4990CCE096A0FC435230B7DF" ++
    "F110D4DA8F3ABAD63BF774407A93E95412F569D7F40186A7EABFFAC0A85E482C408DEAF6EBAAAC86C0971A9E3DE81DED" ++
    "1B7561B671907EBD21D135920E4A3FB4DD6D30133C245736EE3F10018114D80195F83AB2DE2E5769A1D0DAE00D9F55B2" ++
    "13FD8314B8071AB45965A0C105EAB022F1EB7BA745C7EE8D"

/-- Its hash. -/
def hash1 : String := "1C68B90A6205CB6F8022D720516BA9DA3160D73EA6BF740A5C4E0AE350C3FF81"

/-- Five XAH. -/
def tx2 : Tx := payment 8 110 "5000000"
  ("8B0DD16C8B208F0AA4DFA4A2BFA3AE7CC9522D15DA16AD259BBE643B26255ECF2193C8584F2E29922C3FA257AFAA357C" ++
    "3D027327690CE25FBFC814CB79794709")

/-- Its bytes. -/
def blob2 : String :=
    "12000021000053592400000008201B0000006E50110FC89F8AE19394B48DEBD6353BB9AD3393F3BC791931519F19D176" ++
    "A7E5513EBC6140000000004C4B4068400000000000000C7321EDC42035B7CD669852B51A4990CCE096A0FC435230B7DF" ++
    "F110D4DA8F3ABAD63BF774408B0DD16C8B208F0AA4DFA4A2BFA3AE7CC9522D15DA16AD259BBE643B26255ECF2193C858" ++
    "4F2E29922C3FA257AFAA357C3D027327690CE25FBFC814CB797947098114D80195F83AB2DE2E5769A1D0DAE00D9F55B2" ++
    "13FD8314B8071AB45965A0C105EAB022F1EB7BA745C7EE8D"

/-- Its hash. -/
def hash2 : String := "F8569287B74F80AFB2BABA6B2740366566E3DA4C430A981D0F31468C73301551"

/-- One XAH, signed anew for a later ledger. -/
def tx3 : Tx := payment 7 200 "1000000"
  ("B25624D0BCB26BEAD6FC6C7DF62EF15477890E3EB206BDE1C3C1272DE7E4967168DD2F00BE2E8EA552A56C5EBF832920" ++
    "87C8C6056F23D89E00768C32190D4801")

/-- Its bytes. -/
def blob3 : String :=
    "12000021000053592400000007201B000000C850110FC89F8AE19394B48DEBD6353BB9AD3393F3BC791931519F19D176" ++
    "A7E5513EBC6140000000000F424068400000000000000C7321EDC42035B7CD669852B51A4990CCE096A0FC435230B7DF" ++
    "F110D4DA8F3ABAD63BF77440B25624D0BCB26BEAD6FC6C7DF62EF15477890E3EB206BDE1C3C1272DE7E4967168DD2F00" ++
    "BE2E8EA552A56C5EBF83292087C8C6056F23D89E00768C32190D48018114D80195F83AB2DE2E5769A1D0DAE00D9F55B2" ++
    "13FD8314B8071AB45965A0C105EAB022F1EB7BA745C7EE8D"

/-- The default configuration, with libraries that know these payments. -/
def env : Env :=
  { XAHAU_WSS := true
    EXPECTED_NETWORK_ID := 21337
    REPLAY_TTL_MS := 3600000
    LEDGER_CLOSE_MS := 4000
    REPLAY_EXPIRY_MARGIN_MS := 300000
    close_pos := by decide
    decode := fun s =>
      if s = blob1 then some tx1 else if s = blob2 then some tx2 else if s = blob3 then some tx3 else none
    isValidClassicAddress := some fun s => s = payer || s = payee
    verifySignature := some fun s => if s = blob1 ∨ s = blob2 ∨ s = blob3 then some true else none
    deriveAddress := some fun k => if k = pubKey then some payer else none
    verify := none
    encodeForMultisigning := none
    signReceipt := fun _ => none }

/-- A payment payload. -/
def payload (blob : String) : Json := .obj [("txBlob", .str blob)]

/-- Up to five XAH to the payee. -/
def req : Json := .obj [("payTo", .str payee), ("maxAmountRequired", .str "5000000")]

end Sample

end Xahc.Facilitator

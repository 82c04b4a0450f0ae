/-
The signed proof of a receipt: the canonical text of what it binds, the signer and the offline verifier.
A receipt that a settlement builds verifies, also after it was stored as text and replayed, and its
proof verifies for no receipt that says anything else.
-/
import Xahc.Data.JsonText
import Xahc.Facilitator.Authority

namespace Xahc.Facilitator

open Xahc.Data Xahc.Data.JsonValue Xahc.Effect

/-! ## What is signed -/

/-- Deterministic, canonical JSON: the keys of every object sorted, no white space. -/
def canonicalJSONStringify (value : JsonValue) : List Char := stringify sortKeys value

/-- The fields that a proof binds. -/
structure Signable where
  network : Option JsonValue
  txHash : Option JsonValue
  payer : Option JsonValue
  payTo : Option JsonValue
  asset : Option JsonValue
  delivered : Option JsonValue
  required : Option JsonValue
  ts : Option JsonValue

/-- The object that is signed. -/
def receiptSignablePayload (f : Signable) : JsonValue :=
  ofEntries
    [("v", some (ofNat 1)),
      ("network", some (orNull f.network)),
      ("txHash", some (orNull f.txHash)),
      ("payer", some (orNull f.payer)),
      ("payTo", some (orNull f.payTo)),
      ("asset", some (orNull f.asset)),
      ("delivered", some (orNull f.delivered)),
      ("required", some (orNull f.required)),
      ("ts", some (orNull f.ts))]

/-- The bytes that are signed. -/
def signedBytes (f : Signable) : Bytes := utf8 (canonicalJSONStringify (receiptSignablePayload f))

/-! ## Receipts as values -/

/-- An asset as a value. -/
def Asset.toValue (a : Asset) : JsonValue :=
  ofEntries [("currency", some (ofString a.currency)), ("issuer", some (ofString a.issuer))]

/-- An issued amount as a value. -/
def IssuedAmount.toValue (a : IssuedAmount) : JsonValue :=
  ofEntries
    [("currency", some (ofString a.currency)), ("issuer", some (ofString a.issuer)), ("value", some (ofString a.value))]

/-- A delivered amount as a value. -/
def Delivered.toValue : Delivered → JsonValue
  | .drops s => ofString s
  | .token a => a.toValue

/-- A proof as a value. -/
def Proof.toValue (p : Proof) : JsonValue :=
  ofEntries [("alg", some (ofString p.alg)), ("pubkey", some (ofString p.pubkey)), ("sig", some (ofString p.sig))]

/-- The fields of a receipt as they are signed. -/
def ReceiptFields.signable (f : ReceiptFields) : Signable where
  network := some (ofString f.network)
  txHash := f.txHash.map ofJson
  payer := f.payer.map ofString
  payTo := f.payTo.map ofString
  asset := f.asset.map Asset.toValue
  delivered := f.delivered.map Delivered.toValue
  required := f.required.map Delivered.toValue
  ts := some (ofNat f.ts)

/-- The fields of the receipt that `settle` returns and stores, with the hook executions that ride on it. -/
def Receipt.entries (r : Receipt) (hookExecutions : JsonValue) : List (String × Option JsonValue) :=
  [("success", some (.bool r.success)),
    ("transaction", r.transaction.map ofJson),
    ("network", some (ofString r.network)),
    ("errorReason", some (orNull (r.errorReason.map ofString))),
    ("delivered", r.delivered.map Delivered.toValue),
    ("guardrailHookPresent", some (orNull (r.guardrailHookPresent.map .bool))),
    ("payer", r.payer.map ofString),
    ("signatureVerified", some (.bool r.signatureVerified)),
    ("signatureSource", some (orNull (r.signatureSource.map ofString))),
    ("txHash", some (orNull (r.txHash.map ofJson))),
    ("payTo", some (orNull (r.payTo.map ofString))),
    ("required", some (orNull (r.required.map Delivered.toValue))),
    ("asset", some (orNull (r.asset.map Asset.toValue))),
    ("ts", some (ofNat r.ts)),
    ("proof", some (orNull (r.proof.map Proof.toValue))),
    ("hookExecutions", some hookExecutions)]

/-- A receipt as a value. -/
def Receipt.toValue (r : Receipt) (hookExecutions : JsonValue) : JsonValue := ofEntries (r.entries hookExecutions)

/-- `v[k] = x`; nothing is left under the key where `x` is undefined. -/
def setField (v : JsonValue) (k : String) (x : Option JsonValue) : JsonValue :=
  match v with
  | .obj fields =>
    match x with
    | some x => .obj (insertField fields (utf16 k, x))
    -- an undefined value is left out of the text, as if the key were not there
    | none => .obj (fields.filter fun f => f.1 ≠ utf16 k)
  | v => v

/-- `a ?? b`. -/
def coalesce (a b : Option JsonValue) : Option JsonValue :=
  match a with
  | none | some .null => b
  | some a => some a

/-- `{ ...receipt, payer: receipt.payer ?? payer, replayed: true }`. -/
def replayedForm (receipt : JsonValue) (payer : Option JsonValue) : JsonValue :=
  setField (setField receipt "payer" (coalesce (receipt.get "payer") payer)) "replayed" (some (.bool true))

/-! ## Signing and verifying -/

/-- The facilitator's key, and the signature library: a signature is accepted for the bytes that were
signed and for no others. -/
structure ReceiptKey where
  pubkey : Bytes
  sign : Bytes → Bytes
  /-- `verify bytes pubkey sig`. -/
  verify : Bytes → Bytes → Bytes → Bool
  pubkey_length : pubkey.length = 32
  sign_ne_nil : ∀ m, sign m ≠ []
  ideal : ∀ m m', verify m' pubkey (sign m) = true ↔ m' = m

/-- `Buffer.toString("hex")`. -/
def toHex (b : Bytes) : String := String.ofList (encodeLowerHex b)

/-- The proof of a receipt under a key. -/
def signReceipt (key : ReceiptKey) (fields : ReceiptFields) : Option Proof :=
  some ⟨"ed25519", toHex key.pubkey, toHex (key.sign (signedBytes fields.signable))⟩

/-- The configuration with receipts signed by the key. -/
def Env.signing (env : Env) (key : ReceiptKey) : Env :=
  { env with signReceipt := Facilitator.signReceipt key }

/-- The value of a code unit that is a hex digit. -/
def unitHexVal (u : UInt16) : Option Nat := hexVal (Char.ofNat u.toNat)

/-- The bytes of a text of hexadecimal digits, two to a byte. -/
def hexBytes : JsStr → Option Bytes
  | [] => some []
  | [_] => none
  | a :: b :: s => do
    let a ← unitHexVal a
    let b ← unitHexVal b
    let s ← hexBytes s
    return UInt8.ofNat (a * 16 + b) :: s

/-- `u.toLowerCase()` of an ASCII letter. -/
def lowerUnit (u : UInt16) : UInt16 := if 0x41 ≤ u.toNat ∧ u.toNat ≤ 0x5A then UInt16.ofNat (u.toNat + 0x20) else u

/-- What `verifyReceipt` reads of a receipt to reconstruct the signed bytes. -/
def signableOf (receipt : JsonValue) : Signable where
  network := receipt.get "network"
  txHash := receipt.get "txHash"
  payer := receipt.get "payer"
  payTo := receipt.get "payTo"
  asset := receipt.get "asset"
  delivered := receipt.get "delivered"
  required := receipt.get "required"
  ts := receipt.get "ts"

/-- `verifyReceipt`: the proof is one of ed25519, under the key asked for, over the canonical form of the receipt. -/
def verifyReceipt (verify : Bytes → Bytes → Bytes → Bool) (receipt : JsonValue) (expectedPubkey : Option JsStr) : Bool :=
  match receipt.get "proof" with
  | none => false
  | some proof =>
    match proof.getString "alg", proof.getString "pubkey", proof.getString "sig" with
    | some alg, some pubkey, some sig =>
      -- the three checks of the proof's form come before any signature is looked at
      if alg ≠ utf16 "ed25519" ∨ pubkey.length ≠ 64 ∨ sig = [] then false
      else if expectedPubkey.any fun e => e.map lowerUnit ≠ pubkey.map lowerUnit then false
      else match hexBytes pubkey, hexBytes sig with
        | some pubkey, some sig => verify (signedBytes (signableOf receipt)) pubkey sig
        | _, _ => false
    | _, _, _ => false

/-! ## Fields -/

/-- A field of an object literal is what the literal gives it, where it gives each key once. -/
theorem lookup_filterMap {entries : List (String × Option JsonValue)} {k : String} {v : Option JsonValue}
    (hnodup : (entries.map fun e => utf16 e.1).Nodup) (hmem : (k, v) ∈ entries) :
    (entries.filterMap fun e => e.2.map fun v => (utf16 e.1, v)).lookup (utf16 k) = v := by
  induction entries with
  | nil => cases hmem
  | cons e entries ih =>
    rw [List.map_cons, List.nodup_cons] at hnodup
    have hnone : utf16 e.1 ∉ (entries.filterMap fun e => e.2.map fun v => (utf16 e.1, v)).map Prod.fst := by
      intro h
      obtain ⟨f, hf, hk⟩ := List.mem_map.1 h
      obtain ⟨e', he', hf'⟩ := List.mem_filterMap.1 hf
      obtain ⟨w, -, rfl⟩ := Option.map_eq_some_iff.1 hf'
      exact hnodup.1 (List.mem_map.2 ⟨e', he', hk⟩)
    rcases List.mem_cons.1 hmem with rfl | hmem
    · cases v with
      | none =>
        rw [List.filterMap_cons_none (by rfl)]
        exact lookup_eq_none_iff_keys.2 hnone
      | some v => rw [List.filterMap_cons_some (by rfl), List.lookup_cons_self]
    · have hne : utf16 k ≠ utf16 e.1 := fun h => hnodup.1 (h ▸ List.mem_map.2 ⟨(k, v), hmem, rfl⟩)
      cases he : e.2 with
      | none => rw [List.filterMap_cons_none (by rw [he]; rfl), ih hnodup.2 hmem]
      | some w => rw [List.filterMap_cons_some (by rw [he]; rfl), List.lookup_cons, beq_false_of_ne hne, ih hnodup.2 hmem]

theorem get_ofEntries {entries : List (String × Option JsonValue)} {k : String} {v : Option JsonValue}
    (hnodup : (entries.map fun e => utf16 e.1).Nodup) (hmem : (k, v) ∈ entries) : (ofEntries entries).get k = v :=
  lookup_filterMap hnodup hmem

theorem get_setField {fields : List (JsStr × JsonValue)} {j k : String} (x : Option JsonValue) (h : utf16 j ≠ utf16 k) :
    (setField (.obj fields) k x).get j = (JsonValue.obj fields).get j := by
  cases x with
  | none => exact lookup_filter_ne fields h
  | some x => exact (lookup_insertField _ _ _).trans (if_neg h)

theorem get_setField_some (fields : List (JsStr × JsonValue)) (k : String) (x : JsonValue) :
    (setField (.obj fields) k (some x)).get k = some x :=
  (lookup_insertField _ _ _).trans (if_pos rfl)

/-! ## Agreement -/

/-- The fields of a receipt that its proof binds. -/
def boundFields : List String := ["network", "txHash", "payer", "payTo", "asset", "delivered", "required", "ts"]

/-- The two receipts say the same, where an absent field is `null`. -/
def Agree (r r' : JsonValue) : Prop := ∀ k ∈ boundFields, (orNull (r.get k)).Same (orNull (r'.get k))

theorem payload_signableOf (r : JsonValue) : receiptSignablePayload (signableOf r) =
    .obj ((utf16 "v", ofNat 1) :: boundFields.map fun k => (utf16 k, orNull (r.get k))) := rfl

theorem canonicalJSONStringify_eq_iff {v w : JsonValue} :
    canonicalJSONStringify v = canonicalJSONStringify w ↔ v.Same w :=
  ⟨same_of_stringify permutes_sortKeys, stringify_of_same canonical_sortKeys⟩

/-- The text that is signed says exactly what the bound fields say. -/
theorem canonical_payload_eq_iff {r r' : JsonValue} :
    canonicalJSONStringify (receiptSignablePayload (signableOf r)) =
      canonicalJSONStringify (receiptSignablePayload (signableOf r')) ↔ Agree r r' := by
  rw [canonicalJSONStringify_eq_iff, payload_signableOf, payload_signableOf]
  constructor
  · intro h k hk
    have hnodup : ((utf16 "v" :: boundFields.map utf16) : List JsStr).Nodup := by decide +kernel
    have hget : ∀ r : JsonValue, (JsonValue.obj ((utf16 "v", ofNat 1) ::
        boundFields.map fun k => (utf16 k, orNull (r.get k)))).get k = some (orNull (r.get k)) := by
      intro r
      refine (mem_iff_lookup ?_).1 (List.mem_cons_of_mem _ (List.mem_map.2 ⟨k, hk, rfl⟩))
      rw [List.map_cons, List.map_map]
      exact hnodup
    have hsame := h.get k
    rwa [hget, hget] at hsame
  · intro h
    -- the version is the same constant on both sides
    refine .obj_of_forall₂ (.cons ⟨rfl, .refl _⟩ ?_)
    rw [List.forall₂_map_left_iff, List.forall₂_map_right_iff, List.forall₂_same]
    exact fun k hk => ⟨rfl, h k hk⟩

theorem signedBytes_eq_iff {r r' : JsonValue} : signedBytes (signableOf r) = signedBytes (signableOf r') ↔ Agree r r' :=
  utf8_injective.eq_iff.trans canonical_payload_eq_iff

/-! ## The verifier -/

theorem lowerHexDigit_unit {n : Nat} (h : n < 16) : ∃ u, charUnits (lowerHexDigit n) = [u] ∧ unitHexVal u = some n := by
  refine ⟨UInt16.ofNat (lowerHexDigit n).toNat, ?_⟩
  interval_cases n <;> decide

/-- The hexadecimal text of bytes is read back. -/
theorem hexBytes_toHex (b : Bytes) : hexBytes (utf16 (toHex b)) = some b ∧ (utf16 (toHex b)).length = 2 * b.length := by
  rw [utf16, toHex, String.toList_ofList]
  induction b with
  | nil => exact ⟨rfl, rfl⟩
  | cons x b ih =>
    obtain ⟨hhi, hlo⟩ := byte_halves x
    obtain ⟨u, hu, huval⟩ := lowerHexDigit_unit hhi
    obtain ⟨v, hv, hvval⟩ := lowerHexDigit_unit hlo
    have htext : (encodeLowerHex (x :: b)).flatMap charUnits = u :: v :: (encodeLowerHex b).flatMap charUnits := by
      rw [encodeLowerHex, List.flatMap_cons, List.flatMap_cons, hu, hv]
      rfl
    have hbyte : UInt8.ofNat (x.toNat / 16 * 16 + x.toNat % 16) = x := by
      rw [Nat.div_add_mod', UInt8.ofNat_toNat]
    rw [htext]
    constructor
    · simp only [hexBytes, huval, hvval, ih.1, Option.bind_eq_bind, Option.bind_some, hbyte, Option.pure_def]
    · rw [List.length_cons, List.length_cons, ih.2, List.length_cons]
      omega

theorem getString_toValue (p : Proof) : p.toValue.getString "alg" = some (utf16 p.alg) ∧
    p.toValue.getString "pubkey" = some (utf16 p.pubkey) ∧ p.toValue.getString "sig" = some (utf16 p.sig) := by
  have hget : ∀ k s, (k, some (ofString s)) ∈ [("alg", some (ofString p.alg)), ("pubkey", some (ofString p.pubkey)),
      ("sig", some (ofString p.sig))] → p.toValue.getString k = some (utf16 s) := by
    intro k s hmem
    have hfield : p.toValue.get k = some (ofString s) := by
      refine get_ofEntries ?_ hmem
      show (["alg", "pubkey", "sig"].map utf16).Nodup
      decide +kernel
    rw [JsonValue.getString, hfield]
    rfl
  exact ⟨hget _ _ (by simp), hget _ _ (by simp), hget _ _ (by simp)⟩

/-- With the proof of a signature over `m`, a receipt verifies exactly where its own bytes are `m`. -/
theorem verifyReceipt_iff {key : ReceiptKey} {r : JsonValue} {m : Bytes}
    (hproof : (orNull (r.get "proof")).Same (Proof.toValue ⟨"ed25519", toHex key.pubkey, toHex (key.sign m)⟩)) :
    verifyReceipt key.verify r none = true ↔ signedBytes (signableOf r) = m := by
  cases hget : r.get "proof" with
  | none =>
    rw [hget] at hproof
    cases hproof
  | some proof =>
    rw [hget] at hproof
    have hstrings := getString_toValue ⟨"ed25519", toHex key.pubkey, toHex (key.sign m)⟩
    have halg : proof.getString "alg" = some (utf16 "ed25519") := (hproof.getString "alg").trans hstrings.1
    have hpubkey : proof.getString "pubkey" = some (utf16 (toHex key.pubkey)) := (hproof.getString "pubkey").trans hstrings.2.1
    have hsig : proof.getString "sig" = some (utf16 (toHex (key.sign m))) := (hproof.getString "sig").trans hstrings.2.2
    obtain ⟨hpub, hpublen⟩ := hexBytes_toHex key.pubkey
    obtain ⟨hsigbytes, hsiglen⟩ := hexBytes_toHex (key.sign m)
    have hpos := List.length_pos_iff.2 (key.sign_ne_nil m)
    have hlen := key.pubkey_length
    have hform : ¬(utf16 "ed25519" ≠ utf16 "ed25519" ∨ (utf16 (toHex key.pubkey)).length ≠ 64 ∨ utf16 (toHex (key.sign m)) = []) := by
      rintro (h | h | h)
      · exact h rfl
      · omega
      · rw [h, List.length_nil] at hsiglen
        omega
    rw [verifyReceipt, hget]
    simp only [halg, hpubkey, hsig, if_neg hform, Option.any_none, Bool.false_eq_true, if_false, hpub, hsigbytes]
    exact key.ideal m _

/-! ## The receipt of a settlement -/

/-- The fields that `settle` signs, as the receipt surfaces them. -/
def receiptFields (r : Receipt) : ReceiptFields where
  network := r.network
  txHash := r.txHash
  payer := r.payer
  payTo := r.payTo
  asset := r.asset
  delivered := r.delivered
  required := r.required
  ts := r.ts

/-- A successful receipt carries the signature over the fields that it surfaces. -/
theorem terminalReceipt_proof {env : Env} {req : Json} {v : Verified} {auth : Authorized} {hookPresent : Option Bool}
    {now : Nat} {code : String} {txMeta : Json} {hash : Option Json}
    (h : (terminalReceipt env req v auth hookPresent now code txMeta hash).success = true) :
    (terminalReceipt env req v auth hookPresent now code txMeta hash).proof =
      env.signReceipt (receiptFields (terminalReceipt env req v auth hookPresent now code txMeta hash)) := by
  unfold terminalReceipt receiptFields at *
  dsimp only at *
  obtain ⟨d, hd⟩ := Option.isSome_iff_exists.1 h
  rw [hd]
  rfl

section
variable {r : Receipt} {hookExecutions : JsonValue}

theorem get_toValue {k : String} {v : Option JsonValue} (hmem : (k, v) ∈ r.entries hookExecutions) :
    (r.toValue hookExecutions).get k = v := by
  refine get_ofEntries ?_ hmem
  show (["success", "transaction", "network", "errorReason", "delivered", "guardrailHookPresent", "payer",
    "signatureVerified", "signatureSource", "txHash", "payTo", "required", "asset", "ts", "proof",
    "hookExecutions"].map utf16).Nodup
  decide +kernel

/-- Signer and verifier project a receipt alike. -/
theorem payload_toValue (r : Receipt) (hookExecutions : JsonValue) : receiptSignablePayload (receiptFields r).signable =
    receiptSignablePayload (signableOf (r.toValue hookExecutions)) := by
  have hnetwork : (r.toValue hookExecutions).get "network" = some (ofString r.network) :=
    get_toValue (by simp [Receipt.entries])
  have hhash : (r.toValue hookExecutions).get "txHash" = some (orNull (r.txHash.map ofJson)) :=
    get_toValue (by simp [Receipt.entries])
  have hpayer : (r.toValue hookExecutions).get "payer" = r.payer.map ofString :=
    get_toValue (by simp [Receipt.entries])
  have hpayTo : (r.toValue hookExecutions).get "payTo" = some (orNull (r.payTo.map ofString)) :=
    get_toValue (by simp [Receipt.entries])
  have hasset : (r.toValue hookExecutions).get "asset" = some (orNull (r.asset.map Asset.toValue)) :=
    get_toValue (by simp [Receipt.entries])
  have hdelivered : (r.toValue hookExecutions).get "delivered" = r.delivered.map Delivered.toValue :=
    get_toValue (by simp [Receipt.entries])
  have hrequired : (r.toValue hookExecutions).get "required" = some (orNull (r.required.map Delivered.toValue)) :=
    get_toValue (by simp [Receipt.entries])
  have hts : (r.toValue hookExecutions).get "ts" = some (ofNat r.ts) := get_toValue (by simp [Receipt.entries])
  rw [payload_signableOf]
  simp only [boundFields, List.map_cons, List.map_nil, hnetwork, hhash, hpayer, hpayTo, hasset, hdelivered, hrequired, hts]
  rfl

/-! ## What a proof binds -/

/-- `r'` is `r`, or what is read back of its text. -/
def Stored (r r' : JsonValue) : Prop := r' = r ∨ jsonParse (jsonStringify r) = some r'

theorem permutes_id : Permutes id := fun l => List.Perm.refl l

theorem Stored.same {r r' : JsonValue} (h : Stored r r') : r.Same r' := by
  rcases h with rfl | h
  · rfl
  · obtain ⟨w, hparse, hsame⟩ := jsonParse_stringify permutes_id r
    obtain rfl := Option.some.inj (h.symm.trans hparse)
    exact hsame

/-- A receipt with a payer keeps its payer, its other fields and its proof when it is replayed. -/
theorem get_replayedForm {fields : List (JsStr × JsonValue)} {account : JsStr} (payer : Option JsonValue)
    (hpayer : (JsonValue.obj fields).get "payer" = some (.str account)) {k : String} (hk : k ∈ "proof" :: boundFields) :
    (replayedForm (.obj fields) payer).get k = (JsonValue.obj fields).get k := by
  have hnames : ∀ k ∈ "proof" :: boundFields, utf16 k ≠ utf16 "replayed" ∧ (utf16 k = utf16 "payer" → k = "payer") := by
    decide +kernel
  obtain ⟨hreplayed, hname⟩ := hnames k hk
  have hform : replayedForm (.obj fields) payer =
      setField (setField (.obj fields) "payer" (some (.str account))) "replayed" (some (.bool true)) := by
    rw [replayedForm, hpayer]
    rfl
  rw [hform]
  refine (get_setField _ hreplayed).trans ?_
  -- the payer is written back unchanged, every other bound field is not written at all
  by_cases hkey : utf16 k = utf16 "payer"
  · obtain rfl := hname hkey
    exact (get_setField_some fields "payer" (.str account)).trans hpayer.symm
  · exact @get_setField fields k "payer" (some (.str account)) hkey

/-- A verification that expects a key is one that does not, and more. -/
theorem verifyReceipt_none {verify : Bytes → Bytes → Bytes → Bool} {expectedPubkey : Option JsStr} {r : JsonValue}
    (h : verifyReceipt verify r expectedPubkey = true) : verifyReceipt verify r none = true := by
  unfold verifyReceipt at h ⊢
  split at h
  · cases h
  · rename_i proof hproof
    split at h
    · split_ifs at h with hform hexpected
      rw [if_neg hform, if_neg (by simp)]
      exact h
    · cases h

/-- With the proof of a signed receipt, a value verifies exactly where it says what the receipt says. -/
theorem verifyReceipt_iff_agree {key : ReceiptKey} {value : JsonValue}
    (hsigned : r.proof = signReceipt key (receiptFields r))
    (hproof : (orNull (value.get "proof")).Same (orNull ((r.toValue hookExecutions).get "proof"))) :
    verifyReceipt key.verify value none = true ↔ Agree value (r.toValue hookExecutions) := by
  have hget : (r.toValue hookExecutions).get "proof" = some (orNull (r.proof.map Proof.toValue)) :=
    get_toValue (by simp [Receipt.entries])
  rw [hget, hsigned] at hproof
  rw [verifyReceipt_iff hproof, ← signedBytes_eq_iff, signedBytes, signedBytes, signedBytes, payload_toValue r hookExecutions]

/-- The receipt of a settlement is the one that was signed, and its payer is the transaction's account. -/
theorem settlement_signed {env : Env} {key : ReceiptKey} {payload req : Json} {deps : Deps} {O : Prog.Env Op Res}
    {blob : String} {tx : Tx} (hout : (settlement (env.signing key) O payload req deps).2 = .ok (.settled r))
    (hsuccess : r.success = true) (hblob : payload.getString "txBlob" = some blob) (htx : env.decode blob = some tx) :
    r.proof = signReceipt key (receiptFields r) ∧ r.payer = tx.account := by
  have hend := (meets_settle (env.signing key) payload req deps).run_fin O
  rw [settlement] at hout
  rw [hout] at hend
  generalize (Prog.run O [] (settle (env.signing key) payload req deps)).1 = h at hend
  cases hend with
  | settled hres hreceipt =>
    obtain ⟨later, r', t, h₀, -, -, -, t', h₁, -, hready⟩ := hres
    obtain ⟨blob', tx', paid, hver⟩ := verifyExact_ok hready.verified
    obtain ⟨-, rfl⟩ := hver.unique hblob htx
    subst hreceipt
    exact ⟨terminalReceipt_proof hsuccess, hver.payer⟩

/-- A stored receipt is an object that still has the receipt's payer. -/
theorem Stored.payer {value : JsonValue} {account : String} (hstored : Stored (r.toValue hookExecutions) value)
    (hpayer : r.payer = some account) :
    ∃ fields, value = .obj fields ∧ (JsonValue.obj fields).get "payer" = some (.str (utf16 account)) := by
  have hsame := hstored.same
  have hget : (r.toValue hookExecutions).get "payer" = some (ofString account) := by
    rw [get_toValue (v := r.payer.map ofString) (by simp [Receipt.entries]), hpayer]
    rfl
  obtain ⟨fields, rfl⟩ : ∃ fields, value = .obj fields := by
    cases hsame with
    | obj => exact ⟨_, rfl⟩
  refine ⟨fields, rfl, ?_⟩
  have hpayers := hsame.get "payer"
  rw [hget] at hpayers
  cases hfield : (JsonValue.obj fields).get "payer" with
  | none =>
    rw [hfield] at hpayers
    cases hpayers
  | some v =>
    rw [hfield] at hpayers
    cases hpayers
    rfl

/-- The proof of a successful receipt is complete: the receipt verifies as it is, read back of its text,
and replayed. It is binding: what verifies with that proof says what the receipt says, since the signed
text says exactly what the bound fields say. -/
theorem receipt_proof_binds (key : ReceiptKey) {env : Env} {payload req : Json} {deps : Deps} {O : Prog.Env Op Res}
    {receipt : Receipt} {blob account : String} {tx : Tx}
    (hout : (settlement (env.signing key) O payload req deps).2 = .ok (.settled receipt))
    (hsuccess : receipt.success = true) (hblob : payload.getString "txBlob" = some blob)
    (htx : env.decode blob = some tx) (haccount : tx.account = some account) (hookExecutions : JsonValue) :
    (∃ r, jsonParse (jsonStringify (receipt.toValue hookExecutions)) = some r) ∧
      (∀ r, Stored (receipt.toValue hookExecutions) r → verifyReceipt key.verify r none = true ∧
        ∀ payer, verifyReceipt key.verify (replayedForm r payer) none = true) ∧
      (∀ r expectedPubkey, (orNull (r.get "proof")).Same (orNull ((receipt.toValue hookExecutions).get "proof")) →
        verifyReceipt key.verify r expectedPubkey = true → Agree r (receipt.toValue hookExecutions)) ∧
      ∀ r r', canonicalJSONStringify (receiptSignablePayload (signableOf r)) =
        canonicalJSONStringify (receiptSignablePayload (signableOf r')) → Agree r r' := by
  obtain ⟨hsigned, hpayer⟩ := settlement_signed hout hsuccess hblob htx
  refine ⟨?_, fun r hstored => ?_, fun r expectedPubkey hproof hverify => ?_, fun r r' => canonical_payload_eq_iff.1⟩
  · obtain ⟨w, hparse, -⟩ := jsonParse_stringify permutes_id (receipt.toValue hookExecutions)
    exact ⟨w, hparse⟩
  · have hsame := hstored.same
    refine ⟨(verifyReceipt_iff_agree hsigned (hsame.symm.get _)).2 fun k _ => hsame.symm.get k, fun payer => ?_⟩
    -- the payer that is kept is the one that was signed
    obtain ⟨fields, rfl, hkept⟩ := hstored.payer (hpayer.trans haccount)
    have hfields : ∀ k ∈ "proof" :: boundFields,
        (orNull ((replayedForm (.obj fields) payer).get k)).Same (orNull ((receipt.toValue hookExecutions).get k)) := by
      intro k hk
      rw [get_replayedForm payer hkept hk]
      exact hsame.symm.get k
    exact (verifyReceipt_iff_agree hsigned (hfields _ List.mem_cons_self)).2 fun k hk =>
      hfields k (List.mem_cons_of_mem _ hk)
  · exact (verifyReceipt_iff_agree hsigned hproof).1 (verifyReceipt_none hverify)

end

/-! ## A signed receipt -/

open Sample

namespace Sample

/-- The key receipts are signed with. -/
def receiptPubkey : Bytes :=
  [0xd7, 0x5a, 0x98, 0x01, 0x82, 0xb1, 0x0a, 0xb7, 0xd5, 0x4b, 0xfe, 0xd3, 0xc9, 0x64, 0x07, 0x3a,
    0x0e, 0xe1, 0x72, 0xf3, 0xda, 0xa6, 0x23, 0x25, 0xaf, 0x02, 0x1a, 0x68, 0xf7, 0x07, 0x51, 0x1a]

/-- The canonical text of the receipt for the payment of one XAH, and its signature. -/
def receiptText : Bytes :=
  utf8 ("\x7b\"asset\":null,\"delivered\":\"1000000\",\"network\":\"xahau\",\"payTo\":\"" ++ payee ++
    "\",\"payer\":\"" ++ payer ++ "\",\"required\":\"1000000\",\"ts\":0,\"txHash\":\"" ++ hash1 ++
    "\",\"v\":1\x7d").toList

/-- The signature of one receipt. -/
def receiptSig : Bytes :=
  [0x0a, 0x05, 0xaf, 0xcd, 0x3a, 0xab, 0x48, 0x7a, 0xd8, 0x5a, 0x76, 0xaa, 0xc0, 0xaa, 0xfa, 0x41,
    0x3a, 0x09, 0xf0, 0x42, 0xdf, 0xd8, 0xea, 0x12, 0x9c, 0x69, 0x4c, 0x27, 0x15, 0x4f, 0x67, 0x8e,
    0xb5, 0x2a, 0x68, 0xd3, 0x79, 0x1a, 0x4f, 0x28, 0xed, 0xd0, 0x55, 0xe1, 0xf5, 0x17, 0x11, 0x73,
    0xf2, 0x8f, 0x83, 0xb8, 0x5b, 0xb1, 0x24, 0x82, 0xcf, 0xe8, 0x37, 0x97, 0xaf, 0x1a, 0x56, 0x0d]

/-- The signature of that text is the key's; other texts are signed so that no two signatures are alike. -/
def receiptSign (m : Bytes) : Bytes := if m = receiptText then receiptSig else 0 :: m

theorem receiptSign_injective : Function.Injective receiptSign := by
  intro m m' h
  unfold receiptSign at h
  split_ifs at h with hm hm' hm'
  · rw [hm, hm']
  · cases h
  · cases h
  · exact (List.cons.inj h).2

/-- A key that signs that receipt. -/
def receiptKey : ReceiptKey where
  pubkey := receiptPubkey
  sign := receiptSign
  verify m pubkey sig := pubkey = receiptPubkey && sig = receiptSign m
  pubkey_length := rfl
  sign_ne_nil := by
    intro m
    unfold receiptSign
    split_ifs <;> exact List.cons_ne_nil _ _
  ideal := by
    intro m m'
    simp only [decide_true, Bool.true_and, decide_eq_true_eq, receiptSign_injective.eq_iff]
    exact eq_comm

end Sample

/-- The receipt for the payment of one XAH, signed with the key. -/
theorem receipt_proof_binds_paid : ∃ receipt,
    (settlement (Sample.env.signing receiptKey) (answers (validated hash1 "1000000")) (Sample.payload blob1) Sample.req {}).2 =
      .ok (.settled receipt) ∧ receipt.success = true ∧
    (∃ r, jsonParse (jsonStringify (receipt.toValue (.arr []))) = some r) ∧
    (∀ r, Stored (receipt.toValue (.arr [])) r → verifyReceipt receiptKey.verify r none = true ∧
      ∀ payer, verifyReceipt receiptKey.verify (replayedForm r payer) none = true) ∧
    (∀ r expectedPubkey, (orNull (r.get "proof")).Same (orNull ((receipt.toValue (.arr [])).get "proof")) →
      verifyReceipt receiptKey.verify r expectedPubkey = true → Agree r (receipt.toValue (.arr []))) ∧
    ∀ r r', canonicalJSONStringify (receiptSignablePayload (signableOf r)) =
      canonicalJSONStringify (receiptSignablePayload (signableOf r')) → Agree r r' := by
  have hfresh : (freshReceipt (settlement (Sample.env.signing receiptKey) (answers (validated hash1 "1000000"))
      (Sample.payload blob1) Sample.req {}).2).map Receipt.success = some true := by decide +kernel
  obtain ⟨receipt, hreceipt, hsuccess⟩ := Option.map_eq_some_iff.1 hfresh
  have hget : (Sample.payload blob1).getString "txBlob" = some blob1 := rfl
  have hdecode : Sample.env.decode blob1 = some tx1 := by simp only [Sample.env, if_true]
  exact ⟨receipt, of_freshReceipt hreceipt, hsuccess,
    receipt_proof_binds receiptKey (of_freshReceipt hreceipt) hsuccess hget hdecode rfl (.arr [])⟩

end Xahc.Facilitator

/-
What `verifyExact` accepts: every check has been made, on the asset path and under the scheme that the
requirements ask for, and the signature counts as verified exactly where the two libraries say so.
-/
import Xahc.Facilitator.Verify

namespace Xahc.Facilitator

open Xahc.Data

/-! ## Amounts as numbers -/

/-- The number of units that the text of a token value writes. -/
def unitsOf (text : String) : Option ℚ :=
  (tokenGroups text.toList).map fun g => digitsNat (g.1 ++ g.2.1) * 10 ^ (g.2.2 - (g.2.1.length : Int))

/-- The number of drops that a string of digits writes. -/
def dropsOf (text : String) : Option ℚ := if isStrictDrops text then some (digitsNat text.toList) else none

theorem unitsOf_parse {text : String} {v : TokenValue} (h : parseTokenValue text = some v) : unitsOf text = some v.toRat := by
  obtain ⟨i, f, e, hg, hv⟩ := parseTokenValue_toRat h
  simp [unitsOf, hg, hv]

theorem parseStrictDrops_some {text : String} {n : Nat} (h : parseStrictDrops text = some n) :
    dropsOf text = some n ∧ 0 < n ∧ n ≤ MAX_DROPS := by
  unfold parseStrictDrops at h
  split at h
  · cases h
  rename_i hstrict
  dsimp only at h
  split at h
  · cases h
  rename_i hrange
  obtain rfl := Option.some.inj h
  have hstrict' : isStrictDrops text = true := by simpa using hstrict
  exact ⟨by simp [dropsOf, hstrict'], by omega, by omega⟩

/-- The paid number is at most the largest allowed, and equal to it under the scheme `exact`. -/
def Within (req : Json) (paid max : ℚ) : Prop :=
  paid ≤ max ∧ (req.getString "scheme" = some "exact" → paid = max)

/-- `Amount` is what the requirements ask for: drops where they name no asset, else the named token. -/
def AmountAccepted (req : Json) (amount : Option Json) : Prop :=
  match Json.orElse (req.get "asset") none with
  | none => ∃ text maxText drops max, amount = some (.str text) ∧ dropsOf text = some drops ∧ 0 < drops ∧
      drops ≤ MAX_DROPS ∧ req.getString "maxAmountRequired" = some maxText ∧ dropsOf maxText = some max ∧
      Within req drops max
  | some asset => ∃ fields text maxText currency code issuer want units max, amount = some (.obj fields) ∧
      (Json.obj fields).getString "currency" = some currency ∧ canonicalizeCurrency currency = some code ∧
      asset.getString "currency" = some want ∧ canonicalizeCurrency want = some code ∧
      (Json.obj fields).getString "issuer" = some issuer ∧ asset.getString "issuer" = some issuer ∧
      (Json.obj fields).getString "value" = some text ∧ unitsOf text = some units ∧
      req.getString "maxAmountRequired" = some maxText ∧ unitsOf maxText = some max ∧ Within req units max

/-- What has been checked of a transaction that is accepted. -/
structure Accepted (env : Env) (req : Json) (blob : String) (tx : Tx) (v : Verified) : Prop where
  payment : tx.transactionType = some "Payment"
  network : tx.networkID = some env.EXPECTED_NETWORK_ID
  destination : ∃ payTo, req.getString "payTo" = some payTo ∧ tx.destination = some payTo
  notPartial : tx.flags.getD 0 &&& TF_PARTIAL_PAYMENT = 0
  amount : AmountAccepted req tx.amount
  expiry : tx.lastLedgerSequence ≠ none
  signed : (∃ sig, tx.txnSignature = some sig ∧ sig ≠ "") ∨ tx.isMultisig = true
  signatureVerified : v.signatureVerified = true ↔ tx.isMultisig = false ∧ verifyTxSignature env blob = some true ∧
    ∃ account, deriveAddressFromPubKey env tx.signingPubKey = some account ∧ tx.account = some account

section
variable {env : Env} {req : Json}

/-! ## Each check -/

theorem checkSignature_signed {blob : String} {tx : Tx} {verified : Bool} (h : checkSignature env blob tx = .ok verified) :
    (∃ sig, tx.txnSignature = some sig ∧ sig ≠ "") ∨ tx.isMultisig = true := by
  unfold checkSignature at h
  split_ifs at h with hunsigned hmulti
  · exact .inr hmulti
  -- a single signature is there and is not the empty string
  · simp only [hmulti, Bool.not_false, and_true] at hunsigned
    cases hsig : tx.txnSignature with
    | none => simp [hsig] at hunsigned
    | some sig => exact .inl ⟨sig, rfl, by simpa [hsig] using hunsigned⟩

/-- The signature counts as verified exactly where it was accepted, by the account's own key. -/
theorem checkSignature_verified {blob : String} {tx : Tx} {verified : Bool}
    (h : checkSignature env blob tx = .ok verified) :
    verified = true ↔ tx.isMultisig = false ∧ verifyTxSignature env blob = some true ∧
      ∃ account, deriveAddressFromPubKey env tx.signingPubKey = some account ∧ tx.account = some account := by
  unfold checkSignature at h
  split_ifs at h with hunsigned hmulti
  · cases h
    simp [hmulti]
  -- the three answers of the library: it cannot check, it refuses, it accepts
  · rw [Bool.not_eq_true] at hmulti
    cases hsig : verifyTxSignature env blob with
    | none =>
      rw [hsig] at h
      cases h
      simp
    | some ok =>
      rw [hsig] at h
      cases ok with
      | false => cases h
      | true =>
        cases hkey : deriveAddressFromPubKey env tx.signingPubKey with
        | none =>
          rw [hkey] at h
          cases h
          simp
        | some derived =>
          rw [hkey] at h
          dsimp only at h
          split_ifs at h with hne
          cases h
          have heq : tx.account = some derived := (not_not.1 hne).symm
          exact iff_of_true rfl ⟨hmulti, rfl, derived, rfl, heq⟩

/-- Requirements that name the scheme `exact` are read so. -/
theorem readScheme_exact {scheme : Scheme} (h : readScheme req = .ok scheme)
    (hexact : req.getString "scheme" = some "exact") : scheme = .exact := by
  have hget : req.get "scheme" = some (.str "exact") := by
    cases hj : req.get "scheme" with
    | none => simp [Json.getString, hj] at hexact
    | some j => cases j <;> simp [Json.getString, Json.asString, hj] at hexact ⊢; exact hexact
  rw [readScheme, hget] at h
  cases h
  rfl

/-- A paid number that passes the ceiling check, and the equality check of the scheme that was read. -/
theorem within_of_checks {scheme : Scheme} {paid max : ℚ} (hscheme : readScheme req = .ok scheme)
    (hle : paid ≤ max) (heq : scheme = .exact → paid = max) : Within req paid max :=
  ⟨hle, fun hexact => heq (readScheme_exact hscheme hexact)⟩

theorem checkNative_within {amount : Option Json} {scheme : Scheme} {maxDrops : Nat} {paid : Paid}
    (hscheme : readScheme req = .ok scheme) (h : checkNative amount scheme maxDrops = .ok paid) :
    ∃ text drops, amount = some (.str text) ∧ parseStrictDrops text = some drops ∧ Within req drops maxDrops := by
  obtain ⟨text, drops, hamount, hdrops, -, hle, heq⟩ := checkNative_parts h
  refine ⟨text, drops, hamount, hdrops, within_of_checks hscheme (Nat.cast_le.2 hle) ?_⟩
  intro hs
  rw [heq hs]

theorem checkIssued_within {amount : Option Json} {scheme : Scheme} {asset : Asset} {max : TokenValue} {paid : Paid}
    (hscheme : readScheme req = .ok scheme) (h : checkIssued env amount scheme asset max = .ok paid) :
    ∃ v, checkIssuedAmount env amount asset max = .ok v ∧ Within req v.toRat max.toRat := by
  obtain ⟨v, hv, -, heq⟩ := checkIssued_parts h
  obtain ⟨_, _, _, _, _, _, _, _, _, _, _, hle⟩ := checkIssuedAmount_parts hv
  exact ⟨v, hv, within_of_checks hscheme hle heq⟩

/-- The amount is checked on the path that the requirements choose, against the maximum they name. -/
theorem checkAmount_accepted {amount : Option Json} {scheme : Scheme} {c : Ceiling} {paid : Paid}
    (hscheme : readScheme req = .ok scheme) (hceil : readCeiling env req = .ok c)
    (h : checkAmount env amount scheme c = .ok paid) : AmountAccepted req amount := by
  unfold readCeiling at hceil
  split at hceil
  · -- an asset is asked for
    rename_i a ha
    obtain ⟨asset, hasset, hceil⟩ := bind_ok.1 hceil
    split at hceil
    · cases hceil
    · rename_i max hmax
      cases hceil
      obtain ⟨hwantCur, hwantIss⟩ := readAsset_ok hasset
      obtain ⟨maxText, hmaxText, hmaxVal⟩ := Option.bind_eq_some_iff.1 hmax
      obtain ⟨v, hv, hwithin⟩ := checkIssued_within hscheme h
      obtain ⟨fields, currency, code, text, hamount, hc, hcode, hwant, hi, ht, hval, -⟩ := checkIssuedAmount_parts hv
      unfold AmountAccepted
      rw [ha]
      exact ⟨fields, text, maxText, currency, code, asset.issuer, asset.currency, v.toRat, max.toRat, hamount, hc, hcode,
        hwantCur, hwant, hi, hwantIss, ht, unitsOf_parse hval, hmaxText, unitsOf_parse hmaxVal, hwithin⟩
  · -- native XAH is asked for
    rename_i ha
    split at hceil
    · cases hceil
    · rename_i max hmax
      cases hceil
      obtain ⟨maxText, hmaxText, hmaxVal⟩ := Option.bind_eq_some_iff.1 hmax
      obtain ⟨text, drops, hamount, hdrops, hwithin⟩ := checkNative_within hscheme h
      obtain ⟨hdropsOf, hpos, hle⟩ := parseStrictDrops_some hdrops
      unfold AmountAccepted
      rw [ha]
      exact ⟨text, maxText, drops, max, hamount, hdropsOf, Nat.cast_pos.2 hpos, Nat.cast_le.2 hle, hmaxText,
        (parseStrictDrops_some hmaxVal).1, hwithin⟩

/-! ## The whole verification -/

/-- A valid payment has passed every check. -/
theorem verifyExact_sound {payload : Json} {v : Verified} (h : verifyExact env payload req = .ok v) :
    ∃ blob tx, payload.getString "txBlob" = some blob ∧ env.decode blob = some tx ∧ Accepted env req blob tx v := by
  obtain ⟨blob, r, tx, paid, hblob, hr, htx, hpay, hpaid, hexp, hsig, -⟩ := verifyExact_parts h
  obtain ⟨hpayTo, hscheme, hceil⟩ := readRequirements_ok hr
  obtain ⟨hpayment, hnetwork, hdest, hflags⟩ := checkPayment_ok hpay
  have hexpiry : tx.lastLedgerSequence ≠ none := by
    obtain ⟨n, hn⟩ := checkExpiry_ok hexp
    simp [hn]
  exact ⟨blob, tx, readBlob_ok hblob, decodeBlob_ok htx, {
    payment := hpayment
    network := hnetwork
    destination := ⟨r.payTo, hpayTo, hdest⟩
    notPartial := hflags
    amount := checkAmount_accepted hscheme hceil hpaid
    expiry := hexpiry
    signed := checkSignature_signed hsig
    signatureVerified := checkSignature_verified hsig }⟩

end

/-- The payment of one XAH that its payer signed is accepted as such. -/
theorem verifyExact_sound_signed : ∃ v, verifyExact Sample.env (Sample.payload Sample.blob1) Sample.req = .ok v ∧
    ∃ blob tx, (Sample.payload Sample.blob1).getString "txBlob" = some blob ∧ Sample.env.decode blob = some tx ∧
      Accepted Sample.env Sample.req blob tx v := by
  have hok : (verifyExact Sample.env (Sample.payload Sample.blob1) Sample.req).toOption.isSome = true := by decide +kernel
  cases hv : verifyExact Sample.env (Sample.payload Sample.blob1) Sample.req with
  | error e =>
    rw [hv] at hok
    cases hok
  | ok v => exact ⟨v, rfl, verifyExact_sound hv⟩

end Xahc.Facilitator

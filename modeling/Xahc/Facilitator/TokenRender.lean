/-
Token values rendered and parsed again. What settlement reads back from the verified amount is the value that was
verified, and the values on a receipt read back as those that were compared.
-/
import Xahc.Data.JsonNumber
import Xahc.Facilitator.Receipt
import Xahc.Facilitator.TokenText

namespace Xahc.Facilitator

open Xahc.Data

/-! ## Rendering -/

/-- A canonical value is read back as it is. -/
theorem parseTokenValue_render {v : TokenValue} (hv : Canonical v) : parseTokenValue (tokenValueToString v) = some v := by
  obtain ⟨i, f, hg, hvalue⟩ := tokenGroups_tokenValueToString v
  obtain ⟨l, hl, rfl, rfl, hexp⟩ := tokenGroups_sound hg
  refine (parseTokenValue_eq_some hl).2 ⟨?_, hv⟩
  rw [hvalue, l.value_eq, hexp]

/-- No exponent is rendered. -/
theorem isDigit_or_point (v : TokenValue) : ∀ c ∈ (tokenValueToString v).toList, c.isDigit = true ∨ c = '.' := by
  have hdigits : ∀ c ∈ (toString v.mant).toList, c.isDigit = true := fun c => isDigit_of_mem_toString
  have hzeros (k : Nat) : ∀ c ∈ List.replicate k '0', c.isDigit = true := fun c => isDigit_of_mem_zeros
  unfold tokenValueToString
  dsimp only
  rw [String.toList_ofList]
  split_ifs
  · intro c hc
    rcases List.mem_append.1 hc with hc | hc
    · exact .inl (hdigits c hc)
    · exact .inl (hzeros _ c hc)
  · intro c hc
    rcases List.mem_append.1 hc with hc | hc
    · exact .inl (hdigits c (List.mem_of_mem_take hc))
    · rcases List.mem_cons.1 hc with rfl | hc
      · exact .inr rfl
      · exact .inl (hdigits c (List.mem_of_mem_drop hc))
  · intro c hc
    rcases List.mem_cons.1 hc with rfl | hc
    · exact .inl (by decide)
    rcases List.mem_cons.1 hc with rfl | hc
    · exact .inr rfl
    rcases List.mem_append.1 hc with hc | hc
    · exact .inl (hzeros _ c hc)
    · exact .inl (hdigits c hc)

/-- A canonical value has at most sixteen digits and an exponent that is not far out. -/
theorem Canonical.bounds {v : TokenValue} (hv : Canonical v) : v.mant < 10 ^ 16 ∧ -96 ≤ v.exp ∧ v.exp < 96 := by
  obtain ⟨m, x, -, hm, hx, hrange, heq⟩ := hv.fits
  obtain ⟨hle, rfl⟩ := mantissa_shift hv.mant heq
  have hpos : 0 < v.mant := Nat.pos_of_ne_zero fun h => hv.mant (by rw [h])
  have hmant := (Nat.le_mul_of_pos_right v.mant (Nat.pow_pos (n := (v.exp - x).toNat) (by decide : 0 < 10))).trans_lt hm
  have hshift := (Nat.le_mul_of_pos_left (10 ^ (v.exp - x).toNat) hpos).trans_lt hm
  have hdigits := (Nat.pow_lt_pow_iff_right (by decide : 1 < 10)).1 hshift
  have hmax : TOKEN_EXP_MAX = 80 := rfl
  have hmin : TOKEN_EXP_MIN = -96 := rfl
  have hprec : TOKEN_MAX_MANT_DIGITS = 16 := rfl
  rw [hprec] at hmant hdigits
  omega

theorem length_toString_le {m k : Nat} (hm : m ≠ 0) (hlt : m < 10 ^ k) : (toString m).length ≤ k := by
  have hdigits := digits_toString hm
  rw [← String.length_toList]
  generalize (toString m).toList = ds at hdigits ⊢
  cases ds with
  | nil => exact Nat.zero_le _
  | cons c ds =>
    have hhead : c ≠ '0' := fun h => hdigits.head (by rw [h]; rfl)
    have hle : 10 ^ ds.length ≤ digitsNat (c :: ds) := le_digitsNat (hdigits.digits c List.mem_cons_self) hhead
    rw [hdigits.value] at hle
    exact (Nat.pow_lt_pow_iff_right (by decide : 1 < 10)).1 (hle.trans_lt hlt)

theorem length_tokenValueToString_le (v : TokenValue) :
    (tokenValueToString v).length ≤ (toString v.mant).length + v.exp.natAbs + 2 := by
  unfold tokenValueToString
  dsimp only
  rw [String.length_ofList, ← String.length_toList]
  split_ifs <;> simp only [List.length_append, List.length_replicate, List.length_cons, List.length_take, List.length_drop]
    <;> omega

/-- What is parsed is canonical, however the exponent was written. -/
theorem canonical_of_parse {s : String} {v : TokenValue} (h : parseTokenValueNumber s = some v) : Canonical v := by
  unfold parseTokenValueNumber at h
  split at h
  · cases h
  rename_i i f e hg
  obtain ⟨l, -, rfl, rfl, rfl⟩ := tokenGroups_sound hg
  have hstrip := strip_zeros l.isDigit_of_mem
  dsimp only at h
  split at h
  · cases h
  split at h
  · cases h
  rename_i hempty
  split at h
  · cases h
  rename_i hprec
  split at h
  · cases h
  -- a normalized exponent in the range has not been rounded
  obtain ⟨normExp, hnorm, h⟩ := Option.bind_eq_some_iff.1 h
  split at h
  · cases h
  rename_i hrange
  obtain ⟨exp, hexp, rfl⟩ := Option.map_eq_some_iff.1 h
  rw [hexp] at hnorm
  obtain ⟨hmant, hlo, hhi⟩ := hstrip (by simpa using hempty)
  generalize ((l.int.chars ++ l.fracDigits).dropWhile (· == '0')).rdropWhile (· == '0') = kept at *
  have htracks := Number.tracks_round (exp + (kept.length - TOKEN_MAX_MANT_DIGITS : Int))
  have hround : Number.round (exp + (kept.length - TOKEN_MAX_MANT_DIGITS : Int)) = some normExp := hnorm
  rw [hround] at htracks
  have hmin : TOKEN_EXP_MIN = -96 := rfl
  have hmax : TOKEN_EXP_MAX = 80 := rfl
  have hexact := htracks.eq_of_small' (by omega) (by omega)
  exact ⟨hmant, (fitsDecimal_iff (e := exp) hmant hlo hhi).2 ⟨by omega, by omega, by omega⟩⟩

theorem canonical_of_parseTokenValue {s : String} {v : TokenValue} (h : parseTokenValue s = some v) : Canonical v := by
  obtain ⟨i, f, e, hg, -⟩ := parseTokenValue_toRat h
  obtain ⟨l, hl, -⟩ := tokenGroups_sound hg
  exact ((parseTokenValue_eq_some hl).1 h).2

/-- A parsed value is rendered without an exponent, and read back as it is. -/
theorem parseTokenValueNumber_render {v : TokenValue} (hv : Canonical v) :
    parseTokenValueNumber (tokenValueToString v) = some v := by
  obtain ⟨hmant, hlo, hhi⟩ := hv.bounds
  have hne : v.mant ≠ 0 := fun h => hv.mant (by rw [h])
  have hlen := length_tokenValueToString_le v
  have hdigits := length_toString_le hne hmant
  rw [parseTokenValueNumber_eq (by omega), parseTokenValue_render hv]

/-! ## What is settled -/

/-- What was delivered is rendered from the value that was compared. -/
theorem issuedOutcome_rendered {asset : Asset} {required : TokenValue} {txMeta : Json} {out : Delivered}
    (h : issuedOutcome asset (some required) txMeta = .ok out) :
    ∃ d delivered, deliveredIssued txMeta = some d ∧ parseTokenValue d.value = some delivered ∧
      0 ≤ cmpTokenValue delivered required ∧ out = .token ⟨d.currency, d.issuer, tokenValueToString delivered⟩ := by
  unfold issuedOutcome at h
  split at h
  · cases h
  rename_i d hd
  split_ifs at h
  split at h
  · cases h
  · cases h
  · rename_i delivered r hdelivered hr
    split_ifs at h with hcmp
    cases hr
    cases h
    exact ⟨d, delivered, hd, hdelivered, not_lt.1 hcmp, rfl⟩

/-- No exponent is written. -/
theorem not_exponent_of_render (v : TokenValue) : ∀ c ∈ (tokenValueToString v).toList, c ≠ 'e' ∧ c ≠ 'E' := by
  intro c hc
  constructor <;> rintro rfl <;> rcases isDigit_or_point v _ hc with h | h <;> revert h <;> decide

/-- The amount of a verified issued payment is its value, checked against the ceiling and written out. -/
theorem verifyExact_rendered {env : Env} {payload req : Json} {v : Verified} {asset : Asset}
    (h : verifyExact env payload req = .ok v) (hasset : v.asset = some asset) :
    ∃ blob tx max value, payload.getString "txBlob" = some blob ∧ env.decode blob = some tx ∧
      readCeiling env req = .ok (.token asset max) ∧ checkIssuedAmount env tx.amount asset max = .ok value ∧
      Canonical value ∧ v.amount = tokenValueToString value := by
  obtain ⟨blob, r, tx, paid, hblob, hr, htx, -, hpaid, -, -, -, hamount, hpaidAsset, -⟩ := verifyExact_parts h
  obtain ⟨-, -, hceiling⟩ := readRequirements_ok hr
  rw [hasset] at hpaidAsset
  cases hc : r.ceiling with
  | native max =>
    rw [hc] at hpaid
    rw [(checkNative_ok hpaid).2] at hpaidAsset
    cases hpaidAsset
  | token asset' max =>
    rw [hc] at hpaid hceiling
    obtain ⟨value, hvalue, rfl, -⟩ := checkIssued_parts hpaid
    cases hpaidAsset
    obtain ⟨-, -, -, text, -, -, -, -, -, -, hparse, -⟩ := checkIssuedAmount_parts hvalue
    exact ⟨blob, tx, max, value, readBlob_ok hblob, decodeBlob_ok htx, hceiling, hvalue,
      canonical_of_parseTokenValue hparse, hamount⟩

/-- The required and delivered values of the receipt read back as those that were compared. -/
theorem terminalReceipt_rendered {env : Env} {req : Json} {v : Verified} {asset : Asset} {value : TokenValue}
    (hasset : v.asset = some asset) (hvalue : Canonical value) (hread : parseTokenValue v.amount = some value)
    (auth : Authorized) (hookPresent : Option Bool) (now : Nat) (code : String) (txMeta : Json) (hash : Option Json) :
    let receipt := terminalReceipt env req v auth hookPresent now code txMeta hash
    (∃ a, receipt.required = some (.token a) ∧ parseTokenValue a.value = some value) ∧
    ∀ out, receipt.delivered = some out → ∃ d delivered a, deliveredIssued txMeta = some d ∧
      parseTokenValue d.value = some delivered ∧ 0 ≤ cmpTokenValue delivered value ∧
      out = .token a ∧ parseTokenValue a.value = some delivered := by
  dsimp only [terminalReceipt]
  constructor
  · refine ⟨⟨asset.currency, asset.issuer, tokenValueToString value⟩, ?_, parseTokenValue_render hvalue⟩
    rw [requiredField, hasset, hread]
    rfl
  · intro out hout
    cases houtcome : onLedgerOutcome v code txMeta with
    | error e =>
      rw [houtcome] at hout
      cases hout
    | ok out' =>
      rw [houtcome] at hout
      cases hout
      rw [onLedgerOutcome, hasset, hread] at houtcome
      split_ifs at houtcome
      obtain ⟨d, delivered, hd, hdelivered, hcmp, rfl⟩ := issuedOutcome_rendered houtcome
      exact ⟨d, delivered, _, hd, hdelivered, hcmp, rfl,
        parseTokenValue_render (canonical_of_parseTokenValue hdelivered)⟩

/-- Rendering and parsing give a parsed value back, without an exponent in between. So settlement reads back from the
verified amount the value that was verified against the ceiling, and the receipt's required and delivered values
read back as those that were compared. -/
theorem token_values_round_trip :
    (∀ s v, parseTokenValueNumber s = some v → parseTokenValueNumber (tokenValueToString v) = some v ∧
        ∀ c ∈ (tokenValueToString v).toList, c ≠ 'e' ∧ c ≠ 'E') ∧
      ∀ (env : Env) (payload req : Json) (v : Verified) (asset : Asset), verifyExact env payload req = .ok v →
        v.asset = some asset → ∃ blob tx max value, payload.getString "txBlob" = some blob ∧ env.decode blob = some tx ∧
          readCeiling env req = .ok (.token asset max) ∧ checkIssuedAmount env tx.amount asset max = .ok value ∧
          parseTokenValue v.amount = some value ∧
          ∀ auth hookPresent now code txMeta hash,
            let receipt := terminalReceipt env req v auth hookPresent now code txMeta hash
            (∃ a, receipt.required = some (.token a) ∧ parseTokenValue a.value = some value) ∧
            ∀ out, receipt.delivered = some out → ∃ d delivered a, deliveredIssued txMeta = some d ∧
              parseTokenValue d.value = some delivered ∧ 0 ≤ cmpTokenValue delivered value ∧
              out = .token a ∧ parseTokenValue a.value = some delivered := by
  constructor
  · intro s v h
    exact ⟨parseTokenValueNumber_render (canonical_of_parse h), not_exponent_of_render v⟩
  · intro env payload req v asset h hasset
    obtain ⟨blob, tx, max, value, hblob, htx, hceiling, hvalue, hcanonical, hamount⟩ := verifyExact_rendered h hasset
    have hread : parseTokenValue v.amount = some value := by
      rw [hamount]
      exact parseTokenValue_render hcanonical
    exact ⟨blob, tx, max, value, hblob, htx, hceiling, hvalue, hread, terminalReceipt_rendered hasset hcanonical hread⟩

namespace Sample

/-- Two and a half of a token that the payee issues. -/
def issuedTx : Tx :=
  { tx1 with amount := some (.obj [("currency", .str "USD"), ("issuer", .str payee), ("value", .str "2.5")]) }

/-- Its bytes. -/
def issuedBlob : String :=
    "12000021000053592400000007201B0000006E50110FC89F8AE19394B48DEBD6353BB9AD3393F3BC791931519F19D176" ++
    "A7E5513EBC61D488E1BC9BF040000000000000000000000000005553440000000000B8071AB45965A0C105EAB022F1EB" ++
    "7BA745C7EE8D68400000000000000C7321EDC42035B7CD669852B51A4990CCE096A0FC435230B7DFF110D4DA8F3ABAD6" ++
    "3BF774407A93E95412F569D7F40186A7EABFFAC0A85E482C408DEAF6EBAAAC86C0971A9E3DE81DED1B7561B671907EBD" ++
    "21D135920E4A3FB4DD6D30133C245736EE3F10018114D80195F83AB2DE2E5769A1D0DAE00D9F55B213FD8314B8071AB4" ++
    "5965A0C105EAB022F1EB7BA745C7EE8D"

/-- A configuration without the library that checks signatures. -/
def issuedEnv : Env :=
  { env with
    decode := fun s => if s = issuedBlob then some issuedTx else none
    verifySignature := none }

/-- Up to ten of the token. -/
def issuedReq : Json :=
  .obj [("payTo", .str payee), ("asset", .obj [("currency", .str "USD"), ("issuer", .str payee)]),
    ("maxAmountRequired", .str "10")]

end Sample

/-- A value with a trailing zero is written out and read back, and what settlement reads back from the verified payment is
what its receipt requires. -/
theorem token_values_round_trip_issued :
    parseTokenValueNumber (tokenValueToString ⟨25, -1⟩) = some ⟨25, -1⟩ ∧
    ∃ v asset value, verifyExact Sample.issuedEnv (Sample.payload Sample.issuedBlob) Sample.issuedReq = .ok v ∧
      v.asset = some asset ∧ parseTokenValue v.amount = some value ∧
      ∀ auth hookPresent now code txMeta hash, ∃ a,
        (terminalReceipt Sample.issuedEnv Sample.issuedReq v auth hookPresent now code txMeta hash).required =
          some (.token a) ∧ parseTokenValue a.value = some value := by
  obtain ⟨hrender, hsettle⟩ := token_values_round_trip
  have hparse : parseTokenValueNumber "2.50" = some ⟨25, -1⟩ := by decide +kernel
  have hissued : (verifyExact Sample.issuedEnv (Sample.payload Sample.issuedBlob) Sample.issuedReq).toOption.any
      (fun v => v.asset.isSome) = true := by decide +kernel
  refine ⟨(hrender _ _ hparse).1, ?_⟩
  cases hv : verifyExact Sample.issuedEnv (Sample.payload Sample.issuedBlob) Sample.issuedReq with
  | error e =>
    rw [hv] at hissued
    cases hissued
  | ok v =>
    rw [hv] at hissued
    obtain ⟨asset, hasset⟩ := Option.isSome_iff_exists.1 hissued
    obtain ⟨-, -, -, value, -, -, -, -, hread, hreceipt⟩ := hsettle _ _ _ v asset hv hasset
    exact ⟨v, asset, value, rfl, hasset, hread, fun auth hookPresent now code txMeta hash =>
      (hreceipt auth hookPresent now code txMeta hash).1⟩

end Xahc.Facilitator

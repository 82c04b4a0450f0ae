/-
The `/policy` readout against the Hook: on a node that reports the Hook's own parameters and state,
the readout's largest next payment is exactly the largest the Hook lets through at that ledger, and
a payment lowers the readout's remaining budget by its own amount.
-/
import Xahc.Facilitator.Policy
import Xahc.Guardrail.Hook

namespace Xahc.Guardrail

open Xahc.Data Xahc.Facilitator

/-! ## Decoding what the Hook stores -/

/-- A byte string as the upper-case hexadecimal text `hookParamsMap` keeps. -/
def hexText (b : Bytes) : String := String.ofList (encodeHex b)

/-- A text is a byte string's hexadecimal, letter case aside. -/
def HexOf (t : String) (b : Bytes) : Prop := t.toUpper = hexText b

theorem hexText_toList (b : Bytes) : (hexText b).toList = encodeHex b := String.toList_ofList

theorem hexOf_hexText (b : Bytes) : HexOf (hexText b) b := by
  apply String.ext
  rw [String.toUpper, String.toList_map, hexText_toList, encodeHex_toUpper]

theorem hexText_allHex (b : Bytes) : ((hexText b).toList.all fun c => (hexVal c).isSome) = true := by
  rw [hexText_toList, List.all_eq_true]
  exact encodeHex_isHex b

theorem hexText_nat (b : Bytes) : hexNat (hexText b).toList = beNat b := by
  rw [hexText_toList, hexNat_encodeHex]

theorem isHexOfLength_hexText (n : Nat) (b : Bytes) : isHexOfLength (2 * n) (hexText b) = true ↔ b.length = n := by
  rw [isHexOfLength, hexText_allHex, hexText_toList, encodeHex_length]
  simp

theorem decode8ByteDropsHex_some {b : Bytes} {s : String} :
    decode8ByteDropsHex (hexText b) = some s ↔ b.length = 8 ∧ beNat b ≤ MAX_DROPS ∧ s = toString (beNat b) := by
  unfold decode8ByteDropsHex
  have hlen := isHexOfLength_hexText 8 b
  rw [hexText_nat]
  by_cases h : b.length = 8
  · have := hlen.mpr h
    rw [if_neg (by simp [this])]
    by_cases hmax : beNat b > MAX_DROPS
    · simp only [if_pos hmax]
      constructor
      · intro h'; cases h'
      · rintro ⟨-, hle, -⟩; omega
    · simp only [if_neg hmax, Option.some.injEq]
      exact ⟨fun h' => ⟨h, not_lt.mp hmax, h'.symm⟩, fun h' => h'.2.2.symm⟩
  · have : isHexOfLength 16 (hexText b) = false := by
      cases hb : isHexOfLength 16 (hexText b)
      · rfl
      · exact absurd (hlen.mp hb) h
    simp [this, h]

theorem decode8ByteDropsBig_some {b : Bytes} {n : Nat} :
    decode8ByteDropsBig (hexText b) = some n ↔ b.length = 8 ∧ beNat b ≤ MAX_DROPS ∧ n = beNat b := by
  unfold decode8ByteDropsBig
  cases h : decode8ByteDropsHex (hexText b) with
  | none =>
    constructor
    · intro h'; cases h'
    · rintro ⟨hlen, hmax, -⟩
      rw [decode8ByteDropsHex_some.mpr ⟨hlen, hmax, rfl⟩] at h
      cases h
  | some s =>
    obtain ⟨hlen, hmax, rfl⟩ := decode8ByteDropsHex_some.mp h
    simp only [bigIntOf_toString, Option.some.injEq]
    exact ⟨fun h' => ⟨hlen, hmax, h'.symm⟩, fun h' => h'.2.2.symm⟩

theorem decodePerLedgers_hexText {b : Bytes} (hlen : b.length = 4 ∨ b.length = 8) (hpos : 0 < beNat b) :
    decodePerLedgers (hexText b) = some (beNat b) := by
  have hmax : beNat b ≤ 0xFFFFFFFFFFFFFFFF := by
    have := beNat_lt b
    rcases hlen with h | h <;> rw [h] at this <;> omega
  unfold decodePerLedgers
  rw [hexText_allHex, hexText_nat, hexText_toList, encodeHex_length]
  rcases hlen with h | h <;> simp [h, hpos.ne', hmax]

theorem decodePerLedgers_some {b : Bytes} {n : Nat} (h : decodePerLedgers (hexText b) = some n) :
    (b.length = 4 ∨ b.length = 8) ∧ 0 < beNat b ∧ n = beNat b := by
  unfold decodePerLedgers at h
  rw [hexText_allHex, hexText_nat, hexText_toList, encodeHex_length] at h
  simp only at h
  split at h
  · cases h
  split at h
  · cases h
  · rename_i hlen
    split at h
    · cases h
    split at h
    · cases h
    · rename_i hpos _
      have hl : b.length = 4 ∨ b.length = 8 := by omega
      exact ⟨hl, not_le.mp hpos, (Option.some.inj h).symm⟩

theorem decodeState_hexText {b : Bytes} (hlen : b.length = 16) :
    decodeStatefulStateValue (hexText b) =
      some ⟨(Period.decode b).periodStart.toNat, (Period.decode b).spent.toNat⟩ := by
  have hsplit : b = b.take 8 ++ b.drop 8 := (List.take_append_drop 8 b).symm
  have h8 : (b.take 8).length = 8 := by simp [hlen]
  have h8' : (b.drop 8).length = 8 := by simp [hlen]
  have hchars : encodeHex b = encodeHex (b.take 8) ++ encodeHex (b.drop 8) := by
    rw [← encodeHex_append, ← hsplit]
  have htake : (encodeHex b).take 16 = encodeHex (b.take 8) := by
    rw [hchars, List.take_left' (by simp [h8])]
  have hdrop : ((encodeHex b).drop 16).take 16 = encodeHex (b.drop 8) := by
    rw [hchars, List.drop_left' (by simp [h8])]
    exact List.take_of_length_le (by simp [h8'])
  have hstart : be64 b = be64 (b.take 8) := by
    conv_lhs => rw [hsplit]
    exact be64_append h8 _
  unfold decodeStatefulStateValue
  rw [(isHexOfLength_hexText 16 b).mpr hlen, hexText_toList, htake, hdrop, hexNat_encodeHex, hexNat_encodeHex,
    Period.decode, hstart, be64_toNat h8, be64_toNat h8']
  rfl

/-! ## A node that reports the state -/

/-- The entries of a namespace that holds `v` under the budget key. -/
structure Lists (entries : List NamespaceEntry) (v : Option Bytes) : Prop where
  sound : ∀ e ∈ entries, ∀ k, e.HookStateKey = some k → keyMatches k.toUpper = true →
    ∃ t b, e.HookStateData = some t ∧ v = some b ∧ HexOf t b
  complete : ∀ b, v = some b → ∃ e ∈ entries, ∃ k, e.HookStateKey = some k ∧ keyMatches k.toUpper = true

/-- An answer to `ledgerEntry` that settles nothing. -/
def Silent (r : Except String (Option String)) : Prop :=
  r = .ok none ∨ r = .ok (some "") ∨ ∃ msg, r = .error msg ∧ entryNotFound msg = false

/-- The node answers the state reads from a budget slot that holds `v`. -/
inductive Reports (node : StateNode) (account ns : String) : Option Bytes → Prop
  | direct {t : String} {b : Bytes} :
    node.ledgerEntry account STATEFUL_STATE_KEY_HEX.toUpper ns.toUpper = .ok (some t) → HexOf t b →
      Reports node account ns (some b)
  | missing {msg : String} :
    node.ledgerEntry account STATEFUL_STATE_KEY_HEX.toUpper ns.toUpper = .error msg → entryNotFound msg = true →
      Reports node account ns none
  | listed {entries : List NamespaceEntry} {v : Option Bytes} :
    Silent (node.ledgerEntry account STATEFUL_STATE_KEY_HEX.toUpper ns.toUpper) →
      node.accountNamespace account ns.toUpper = .ok (some entries) → Lists entries v → Reports node account ns v

/-- What the facilitator should read from a budget slot. -/
def readOf : Option Bytes → StateRead
  | none => .absent
  | some b => .value (hexText b)

theorem scanEntries_lists {entries : List NamespaceEntry} {v : Option Bytes} (h : Lists entries v) :
    scanEntries entries = readOf v := by
  induction entries with
  | nil =>
    cases v with
    | none => rfl
    | some b =>
      obtain ⟨e, he, -⟩ := h.complete b rfl
      cases he
  | cons e entries ih =>
    obtain ⟨key, data⟩ := e
    have rest (hno : ∀ k, key = some k → keyMatches k.toUpper = false) : Lists entries v := by
      refine ⟨fun e' he' => h.sound e' (List.mem_cons_of_mem _ he'), fun b hb => ?_⟩
      obtain ⟨e', he', k, hk, hmatch⟩ := h.complete b hb
      rcases List.mem_cons.mp he' with rfl | he'
      · rw [hno k hk] at hmatch; cases hmatch
      · exact ⟨e', he', k, hk, hmatch⟩
    cases key with
    | none => simpa [scanEntries] using ih (rest (by simp))
    | some k =>
      by_cases hmatch : keyMatches k.toUpper = true
      · obtain ⟨t, b, rfl, rfl, hhex⟩ := h.sound _ List.mem_cons_self k rfl hmatch
        simp [scanEntries, hmatch, readOf, show t.toUpper = hexText b from hhex]
      · have hno := rest (by rintro _ ⟨⟩; simpa using hmatch)
        cases data with
        | none => simpa [scanEntries] using ih hno
        | some t => simpa [scanEntries, hmatch] using ih hno

theorem readState_reports {node : StateNode} {account ns : String} {v : Option Bytes}
    (h : Reports node account ns v) (hns : isHexOfLength 64 ns = true) (hv : ∀ b, v = some b → b.length = 16) :
    readStatefulHookState node account ns = readOf v := by
  unfold readStatefulHookState
  rw [hns]
  simp only [Bool.not_true, Bool.false_eq_true, if_false]
  -- the entry is read directly, reported as missing, or found in the listing of the namespace
  cases h with
  | @direct t b hle hhex =>
    have hlen : t.toList.length = 32 := by
      have := congrArg (fun s => s.toList.length) hhex
      simpa [String.toUpper, String.toList_map, hexText_toList, hv b rfl] using this
    rw [hle]
    show (if t.toList.length > 0 then StateRead.value t.toUpper else readFallback node account ns.toUpper) = _
    rw [if_pos (by omega)]
    exact congrArg StateRead.value hhex
  | @missing msg hle hmsg =>
    rw [hle]
    show (if entryNotFound msg then StateRead.absent else readFallback node account ns.toUpper) = _
    rw [if_pos hmsg]
    rfl
  | listed hsil hent hlist =>
    have fallback : readFallback node account ns.toUpper = readOf v := by
      rw [readFallback, hent]
      exact scanEntries_lists hlist
    rcases hsil with h | h | ⟨msg, h, hmsg⟩ <;> rw [h]
    · exact fallback
    · exact fallback
    · show (if entryNotFound msg then StateRead.absent else readFallback node account ns.toUpper) = _
      rw [if_neg (by simp [hmsg])]
      exact fallback

/-! ## The two budgets agree -/

/-- The headroom the Hook computes at `now` from a budget slot that holds `v`. -/
def headroomAt (now plm per : Nat) : Option Bytes → Nat
  | none => plm
  | some b => remainingAt now (Period.decode b).periodStart.toNat (Period.decode b).spent.toNat plm per

theorem remaining_toNat (plm : UInt64) (p : Period) :
    (remaining plm p).toNat = if p.spent.toNat ≤ plm.toNat then plm.toNat - p.spent.toNat else 0 := by
  unfold remaining
  by_cases h : p.spent ≤ plm
  · rw [if_pos h, if_pos (UInt64.le_iff_toNat_le.mp h), UInt64.toNat_sub_of_le _ _ h]
  · rw [if_neg h, if_neg (fun h' => h (UInt64.le_iff_toNat_le.mpr h'))]
    rfl

theorem remaining_roll (plm per now : UInt64) (p : Period) :
    (remaining plm (p.roll now per)).toNat =
      remainingAt now.toNat p.periodStart.toNat p.spent.toNat plm.toNat per.toNat := by
  have fresh : (remaining plm ⟨now, 0⟩).toNat = plm.toNat := by simp [remaining_toNat]
  unfold remainingAt
  by_cases hfut : now < p.periodStart
  · have := UInt64.lt_iff_toNat_lt.mp hfut
    rw [Period.roll, if_pos (Or.inl hfut), fresh, if_neg (by omega)]
  · have hle : p.periodStart ≤ now := UInt64.not_lt.mp hfut
    have hle' := UInt64.le_iff_toNat_le.mp hle
    have hsub : (now - p.periodStart).toNat = now.toNat - p.periodStart.toNat := UInt64.toNat_sub_of_le _ _ hle
    by_cases helapsed : now - p.periodStart ≥ per
    · have := UInt64.le_iff_toNat_le.mp helapsed
      rw [Period.roll, if_pos (Or.inr helapsed), fresh, if_neg (by omega)]
    · have := UInt64.lt_iff_toNat_lt.mp (UInt64.not_le.mp helapsed)
      have live : now.toNat ≥ p.periodStart.toNat ∧ now.toNat - p.periodStart.toNat < per.toNat := by omega
      rw [Period.roll, if_neg (by simp [hfut, helapsed]), remaining_toNat, if_pos live]

/-- On an absent or 16-byte slot the Hook reads a period, and its headroom is the readout's. -/
theorem exists_period {st : HookState} (hst : ∀ b, st skey = some b → b.length = 16) (plm per now : UInt64) :
    ∃ p, readPeriod st now per = .ok p ∧
      (remaining plm p).toNat = headroomAt now.toNat plm.toNat per.toNat (st skey) := by
  cases hs : st skey with
  | none => exact ⟨⟨now, 0⟩, readPeriod_ok.mpr (Or.inr ⟨Or.inl hs, rfl⟩), by simp [remaining_toNat, headroomAt]⟩
  | some b =>
    exact ⟨_, readPeriod_ok.mpr (Or.inl ⟨b, hs, hst b hs, rfl⟩), remaining_roll plm per now _⟩

/-- The Hook accepts a native payment to an allowed destination exactly within both caps. -/
theorem accepts_iff_within {i : Install} {tx : Otxn} {now : UInt64} {st : HookState} {pol : Policy} {p : Period}
    {amount : Nat} (hout : Outgoing i tx) (hpol : Installed i pol) (hper : readPeriod st now pol.per = .ok p)
    (hnat : xahcOtxnDrops tx = (amount : Int)) (hdest : DestinationOk i tx) :
    (hook i tx now st).1.accepts = true ↔ amount ≤ pol.lim.toNat ∧ amount ≤ (remaining pol.plm p).toNat := by
  rw [hook_accepts_iff hout]
  constructor
  · rintro ⟨pol', amount', p', hs⟩
    obtain rfl := Except.ok.inj ((readPolicy_ok.mpr hpol).symm.trans (readPolicy_ok.mpr hs.installed))
    obtain rfl := Except.ok.inj (hper.symm.trans hs.period)
    have hamount : amount = amount'.toNat := by
      have := hs.native
      omega
    rw [hamount]
    exact ⟨UInt64.le_iff_toNat_le.mp hs.cap, UInt64.le_iff_toNat_le.mp hs.room⟩
  · rintro ⟨hcap, hroom⟩
    have hval : (UInt64.ofNat amount).toNat = amount :=
      UInt64.toNat_ofNat_of_lt' (hcap.trans_lt pol.lim.toNat_lt)
    refine ⟨pol, UInt64.ofNat amount, p, hout, hpol, ?_, ?_, hper, ?_, hdest⟩
    · rw [hnat, hval]
    · rw [UInt64.le_iff_toNat_le, hval]; exact hcap
    · rw [UInt64.le_iff_toNat_le, hval]; exact hroom

/-- What an accepted payment stores has the headroom it found, less its amount. -/
theorem headroom_after {plm per now amount : UInt64} {p : Period} (hper : 0 < per)
    (hp : p = ⟨now, 0⟩ ∨ ∃ q : Period, p = q.roll now per) (hroom : amount ≤ remaining plm p) :
    headroomAt now.toNat plm.toNat per.toNat (some (Period.encode ⟨p.periodStart, p.spent + amount⟩)) =
      (remaining plm p).toNat - amount.toNat := by
  have hpos := UInt64.lt_iff_toNat_lt.mp hper
  have hroom' := UInt64.le_iff_toNat_le.mp hroom
  have live : p.periodStart.toNat ≤ now.toNat ∧ now.toNat - p.periodStart.toNat < per.toNat := by
    rcases hp with rfl | ⟨q, rfl⟩
    · exact ⟨le_refl _, by simpa using hpos⟩
    · unfold Period.roll
      split
      · exact ⟨le_refl _, by simpa using hpos⟩
      · rename_i hlive
        obtain ⟨hle, hlt⟩ := not_or.mp hlive
        have hle := UInt64.not_lt.mp hle
        have hlt := UInt64.lt_iff_toNat_lt.mp (UInt64.not_le.mp hlt)
        rw [UInt64.toNat_sub_of_le _ _ hle] at hlt
        exact ⟨UInt64.le_iff_toNat_le.mp hle, hlt⟩
  rw [headroomAt, Period.decode_encode, remainingAt, if_pos live]
  rw [remaining_toNat] at hroom' ⊢
  have := plm.toNat_lt
  by_cases h : p.spent.toNat ≤ plm.toNat
  · rw [if_pos h] at hroom' ⊢
    rw [UInt64.toNat_add, Nat.mod_eq_of_lt (by omega), if_pos (by omega)]
    omega
  · rw [if_neg h] at hroom' ⊢
    rw [UInt64.toNat_add, Nat.mod_eq_of_lt (by have := p.spent.toNat_lt; omega)]
    rw [if_neg (by omega)]
    omega

/-! ## The readout refines the Hook -/

/-- `params.get(…) || null`: an absent parameter and an empty one both read as none. -/
def paramHex : Option Bytes → Option String
  | none => none
  | some [] => none
  | some b => some (hexText b)

/-- A native amount: an 8-byte field with the "not native" bit clear, its value the low 62 bits. -/
def NativeAmount (tx : Otxn) (amount : Nat) : Prop :=
  ∃ b, tx.field sfAmount = some b ∧ b.length = 8 ∧ b.getD 0 0 &&& 0x80 = 0 ∧ amount = beNat b % 2 ^ 62

theorem drops_of_nativeAmount' {tx : Otxn} {amount : Nat} (h : NativeAmount tx amount) :
    xahcOtxnDrops tx = (amount : Int) := by
  obtain ⟨b, hb, hlen, hbit, rfl⟩ := h
  exact drops_of_native hb hlen hbit

theorem paramHex_some {v : Option Bytes} {t : String} (h : paramHex v = some t) : ∃ b, v = some b ∧ t = hexText b := by
  unfold paramHex at h
  split at h
  · cases h
  · cases h
  · exact ⟨_, rfl, (Option.some.inj h).symm⟩

/-- A readout that names a largest next payment decoded every parameter and read the state. -/
theorem readout_cases {node : StateNode} {account ns : String} {out : PolicyOut} {params : StatefulParams}
    {policy : StatefulPolicy} {m : String} (hns : params.namespaceHex = some ns)
    (hpol : (getStatefulPolicy node account out params).policy = some policy) (hm : policy.maxNextPayment = some m) :
    ∃ plmHex perHex plm per now, params.plmHex = some plmHex ∧ params.perHex = some perHex ∧
      decode8ByteDropsBig plmHex = some plm ∧ decodePerLedgers perHex = some per ∧ out.asOfLedger = some now ∧
      isHexOfLength 64 ns = true ∧
      ∀ node' : StateNode, getStatefulPolicy node' account out params =
        readBudget node' account out params (policyShell params (some plm) (some per)) plm per now ns := by
  -- each check that fails leaves `maxNextPayment` null, so a policy that names one has passed them all
  cases hplmHex : params.plmHex with
  | none =>
    simp only [getStatefulPolicy, hplmHex] at hpol
    cases Option.some.inj hpol
    cases hm
  | some plmHex =>
  cases hperHex : params.perHex with
  | none =>
    simp only [getStatefulPolicy, hplmHex, hperHex] at hpol
    cases Option.some.inj hpol
    cases hm
  | some perHex =>
  cases hplm : decode8ByteDropsBig plmHex with
  | none =>
    simp only [getStatefulPolicy, hplmHex, hperHex, hplm] at hpol
    cases Option.some.inj hpol
    cases hm
  | some plm =>
  cases hper : decodePerLedgers perHex with
  | none =>
    simp only [getStatefulPolicy, hplmHex, hperHex, hplm, hper] at hpol
    cases Option.some.inj hpol
    cases hm
  | some per =>
  cases hnow : out.asOfLedger.filter (· > 0) with
  | none =>
    simp only [getStatefulPolicy, hplmHex, hperHex, hplm, hper, hnow] at hpol
    cases Option.some.inj hpol
    cases hm
  | some now =>
    have hread : ∀ node' : StateNode, getStatefulPolicy node' account out params =
        readBudget node' account out params (policyShell params (some plm) (some per)) plm per now ns := by
      intro node'
      simp only [getStatefulPolicy, hplmHex, hperHex, hplm, hper, hnow, hns]
    refine ⟨plmHex, perHex, plm, per, now, rfl, rfl, hplm, hper, (Option.filter_eq_some_iff.mp hnow).1, ?_, hread⟩
    by_contra hbad
    rw [hread, readBudget, readStatefulHookState, if_pos (by simpa using hbad)] at hpol
    cases Option.some.inj hpol
    cases hm

/-- With a readable state the readout reports the headroom, capped by `LIM`. -/
theorem readBudget_reports {node : StateNode} {account ns : String} {v : Option Bytes} (out : PolicyOut)
    (params : StatefulParams) (base : StatefulPolicy) (plm per now : Nat) (hns : isHexOfLength 64 ns = true)
    (hnode : Reports node account ns v) (hv : ∀ b, v = some b → b.length = 16) :
    ∃ policy, (readBudget node account out params base plm per now ns).policy = some policy ∧
      policy.remaining = some (toString (headroomAt now plm per v)) ∧
      policy.maxNextPayment = some (toString (min params.lim (headroomAt now plm per v))) := by
  have hmin : ∀ n, (if params.lim < n then params.lim else n) = min params.lim n := by
    intro n; split <;> omega
  have hread : readBudget node account out params base plm per now ns = budgetOf out params base plm per now (readOf v) :=
    congrArg (budgetOf out params base plm per now) (readState_reports hnode hns hv)
  rw [hread]
  cases v with
  | none => exact ⟨_, rfl, rfl, by simp [headroomAt, hmin]⟩
  | some b =>
    simp only [readOf, budgetOf, decodeState_hexText (hv b rfl)]
    exact ⟨_, rfl, rfl, by simp [computeBudget, headroomAt, hmin]⟩

/-- The parameters handed on carry the decoded `LIM`. -/
theorem statefulParamsOf_some {limBytes : Bytes} {plmHex perHex namespaceHex : Option String}
    {allowlist : Option (List String)} {dstNote : String} {params : StatefulParams}
    (h : statefulParamsOf (hexText limBytes) plmHex perHex namespaceHex allowlist dstNote = some params) :
    limBytes.length = 8 ∧ beNat limBytes ≤ MAX_DROPS ∧
      params = ⟨beNat limBytes, toString (beNat limBytes), plmHex, perHex, namespaceHex, allowlist, dstNote⟩ := by
  unfold statefulParamsOf at h
  split at h
  · cases h
  · rename_i limStr hlim
    obtain ⟨hlen, hmax, rfl⟩ := decode8ByteDropsHex_some.mp hlim
    rw [bigIntOf_toString] at h
    exact ⟨hlen, hmax, (Option.some.inj h).symm⟩

/-- Parameters of the decoded lengths install the policy they denote. -/
theorem installed_of_bytes {i : Install} {lim plm per : Bytes} (hlim : i.params limKey = some lim)
    (hlim8 : lim.length = 8) (hplm : i.params plmKey = some plm) (hplm8 : plm.length = 8)
    (hper : i.params perKey = some per) (hper48 : per.length = 4 ∨ per.length = 8) (hpos : 0 < beNat per) :
    ∃ pol, Installed i pol ∧ pol.lim.toNat = beNat lim ∧ pol.plm.toNat = beNat plm ∧ pol.per.toNat = beNat per := by
  obtain ⟨v, hv, hval⟩ : ∃ v, PerBytes per v ∧ v.toNat = beNat per := by
    rcases hper48 with h | h
    · exact ⟨be32 per, Or.inr ⟨h, rfl⟩, be32_toNat h⟩
    · exact ⟨be64 per, Or.inl ⟨h, rfl⟩, be64_toNat h⟩
  have hvpos : 0 < v := UInt64.lt_iff_toNat_lt.mpr (by rw [hval]; exact hpos)
  exact ⟨⟨be64 lim, be64 plm, v⟩, ⟨⟨lim, hlim, hlim8, rfl⟩, ⟨plm, hplm, hplm8, rfl⟩, ⟨per, hper, hv, hvpos⟩⟩,
    be64_toNat hlim8, be64_toNat hplm8, hval⟩

/-- A readout that names a largest next payment decoded the policy that is installed, and it is the budget of that policy
on every node. -/
theorem readout_decodes {i : Install} {now : UInt64} {node : StateNode} {account ns dstNote : String} {out : PolicyOut}
    {params : StatefulParams} {limBytes : Bytes} {allowlist : Option (List String)} (hlim : i.params limKey = some limBytes)
    (hparams : statefulParamsOf (hexText limBytes) (paramHex (i.params plmKey)) (paramHex (i.params perKey))
      (some ns) allowlist dstNote = some params)
    (hnow : out.asOfLedger = some now.toNat) {policy : StatefulPolicy} {m : String}
    (hpol : (getStatefulPolicy node account out params).policy = some policy)
    (hm : policy.maxNextPayment = some m) :
    ∃ pol, Installed i pol ∧ params.lim = pol.lim.toNat ∧ isHexOfLength 64 ns = true ∧
      ∀ node' : StateNode, getStatefulPolicy node' account out params =
        readBudget node' account out params (policyShell params (some pol.plm.toNat) (some pol.per.toNat))
          pol.plm.toNat pol.per.toNat now.toNat ns := by
  obtain ⟨hlim8, -, hparamsEq⟩ := statefulParamsOf_some hparams
  obtain ⟨plmHex, perHex, plm, per, now', hplmHex, hperHex, hplm, hper, hasOf, hns, hread⟩ :=
    readout_cases (show params.namespaceHex = some ns by rw [hparamsEq]) hpol hm
  obtain rfl : now' = now.toNat := Option.some.inj (hasOf.symm.trans hnow)
  rw [hparamsEq] at hplmHex hperHex
  obtain ⟨plmBytes, hplmParam, rfl⟩ := paramHex_some hplmHex
  obtain ⟨perBytes, hperParam, rfl⟩ := paramHex_some hperHex
  obtain ⟨hplm8, -, rfl⟩ := decode8ByteDropsBig_some.mp hplm
  obtain ⟨hper48, hperPos, rfl⟩ := decodePerLedgers_some hper
  obtain ⟨pol, hinst, hpolLim, hpolPlm, hpolPer⟩ := installed_of_bytes hlim hlim8 hplmParam hplm8 hperParam hper48 hperPos
  refine ⟨pol, hinst, by rw [hparamsEq, hpolLim], hns, fun node' => ?_⟩
  rw [hread node', hpolPlm, hpolPer]

/-- Nothing is withheld either: sound parameters, a known ledger and a readable state give a readout. -/
theorem readout_complete {node : StateNode} {account ns : String} {out : PolicyOut} {params : StatefulParams}
    {plm per : Bytes} {now : Nat} {v : Option Bytes} (hplmHex : params.plmHex = some (hexText plm))
    (hperHex : params.perHex = some (hexText per)) (hnsHex : params.namespaceHex = some ns) (hplm8 : plm.length = 8)
    (hmax : beNat plm ≤ MAX_DROPS) (hper48 : per.length = 4 ∨ per.length = 8) (hpos : 0 < beNat per)
    (hnow : out.asOfLedger = some now) (hnow0 : 0 < now) (hns : isHexOfLength 64 ns = true)
    (hnode : Reports node account ns v) (hv : ∀ b, v = some b → b.length = 16) :
    ∃ policy, (getStatefulPolicy node account out params).policy = some policy ∧
      policy.remaining = some (toString (headroomAt now (beNat plm) (beNat per) v)) ∧
      policy.maxNextPayment = some (toString (min params.lim (headroomAt now (beNat plm) (beNat per) v))) := by
  have hfilter : out.asOfLedger.filter (· > 0) = some now := by simp [hnow, hnow0]
  have hread : getStatefulPolicy node account out params =
      readBudget node account out params (policyShell params (some (beNat plm)) (some (beNat per)))
        (beNat plm) (beNat per) now ns := by
    simp only [getStatefulPolicy, hplmHex, hperHex, decode8ByteDropsBig_some.mpr ⟨hplm8, hmax, rfl⟩,
      decodePerLedgers_hexText hper48 hpos, hfilter, hnsHex]
  rw [hread]
  exact readBudget_reports out params _ _ _ now hns hnode hv

/-- On a node that reports the Hook's own parameters and state, a readout that names a largest next
payment names exactly the largest native payment the Hook accepts at that ledger, and after an
accepted one the readout's remaining budget is lower by the amount. -/
theorem readout_refines_hook {i : Install} {st : HookState} {now : UInt64} {node : StateNode}
    {account ns dstNote : String} {out : PolicyOut} {params : StatefulParams} {limBytes : Bytes}
    {allowlist : Option (List String)} (hlim : i.params limKey = some limBytes)
    (hparams : statefulParamsOf (hexText limBytes) (paramHex (i.params plmKey)) (paramHex (i.params perKey))
      (some ns) allowlist dstNote = some params)
    (hst : ∀ b, st skey = some b → b.length = 16) (hnode : Reports node account ns (st skey))
    (hnow : out.asOfLedger = some now.toNat) {policy : StatefulPolicy} {m : String}
    (hpol : (getStatefulPolicy node account out params).policy = some policy)
    (hm : policy.maxNextPayment = some m) :
    ∃ maxNext rem : Nat, m = toString maxNext ∧ policy.remaining = some (toString rem) ∧
      ∀ tx amount, Outgoing i tx → NativeAmount tx amount → DestinationOk i tx →
        ((hook i tx now st).1.accepts = true ↔ amount ≤ maxNext) ∧
        ((hook i tx now st).1.accepts = true → amount ≤ rem ∧
          ∀ node', Reports node' account ns ((hook i tx now st).2 skey) →
            ∃ policy', (getStatefulPolicy node' account out params).policy = some policy' ∧
              policy'.remaining = some (toString (rem - amount))) := by
  -- what the readout decoded is what the Hook is installed with
  obtain ⟨pol, hinst, hlimEq, hns, hread⟩ := readout_decodes hlim hparams hnow hpol hm
  -- and the budget it reports is the room of the period the Hook computes
  obtain ⟨policy', hpolicy', hrem, hmax⟩ := readBudget_reports out params
    (policyShell params (some pol.plm.toNat) (some pol.per.toNat)) pol.plm.toNat pol.per.toNat now.toNat hns hnode hst
  rw [hread, hpolicy'] at hpol
  obtain rfl := Option.some.inj hpol
  refine ⟨_, _, Option.some.inj (hm.symm.trans hmax), hrem, fun tx amount hout hnative hdest => ?_⟩
  obtain ⟨p, hp, hroom⟩ := exists_period hst pol.plm pol.per now
  have haccepts := accepts_iff_within hout hinst hp (drops_of_nativeAmount' hnative) hdest
  rw [← hlimEq, hroom] at haccepts
  refine ⟨haccepts.trans le_min_iff.symm, fun hacc => ⟨(haccepts.mp hacc).2, fun node' hnode' => ?_⟩⟩
  -- an accepted payment leaves a state that reads back as the rest of that room
  obtain ⟨pol', amount', p', hs⟩ := (hook_accepts_iff hout).mp hacc
  obtain rfl := Except.ok.inj ((readPolicy_ok.mpr hinst).symm.trans (readPolicy_ok.mpr hs.installed))
  obtain rfl := Except.ok.inj (hp.symm.trans hs.period)
  have hamount : amount'.toNat = amount := by
    have := hs.native.symm.trans (drops_of_nativeAmount' hnative)
    omega
  have hpcases : p = ⟨now, 0⟩ ∨ ∃ q : Period, p = q.roll now pol.per := by
    rcases readPeriod_ok.mp hp with ⟨b, -, -, rfl⟩ | ⟨-, rfl⟩
    · exact Or.inr ⟨_, rfl⟩
    · exact Or.inl rfl
  obtain ⟨-, -, -, hpos⟩ := hinst.per
  have hafter := headroom_after hpos hpcases hs.room
  rw [hroom, hamount] at hafter
  simp only [hook_spends hs, HookState.set_self] at hnode'
  obtain ⟨policy'', hpolicy'', hrem'', -⟩ := readBudget_reports out params
    (policyShell params (some pol.plm.toNat) (some pol.per.toNat)) pol.plm.toNat pol.per.toNat now.toNat hns hnode'
    (by rintro _ ⟨⟩; rfl)
  exact ⟨policy'', by rw [hread, hpolicy''], by rw [hrem'', hafter]⟩

/-- A node that serves LIM 5, PLM 8, PER 10 and a slot with 6 drops spent since ledger 95. -/
def servedInstall : Install where
  me := AccountID.filled 0xAA
  params key :=
    if key = limKey then some (wr64 5)
    else if key = plmKey then some (wr64 8)
    else if key = perKey then some [0, 0, 0, 10]
    else none

/-- A period that began at ledger 95, with 6 drops spent. -/
def servedState : HookState := fun key => if key = skey then some (Period.encode ⟨95, 6⟩) else none

/-- A node that serves it. -/
def servedNode : StateNode where
  ledgerEntry _ _ _ := .ok (some (hexText (Period.encode ⟨95, 6⟩)))
  accountNamespace _ _ := .ok none

/-- The answer before the budget is read. -/
def servedOut : PolicyOut := ⟨"rAgent", some true, none, "on-ledger", some 100, none⟩

/-- The namespace asked for. -/
def servedNs : String := String.ofList (List.replicate 64 'A')

/-- LIM 5, PLM 8 and PER 10. -/
def servedParams : StatefulParams :=
  ⟨5, "5", some (hexText (wr64 8)), some (hexText [0, 0, 0, 10]), some servedNs, none, ""⟩

/-- A payment of `d` drops. -/
def servedPayment (d : UInt64) : Otxn where
  tt := ttPAYMENT
  drops := d
  account := AccountID.filled 0xAA
  destination := AccountID.filled 0xCC

theorem servedNode_reports : Reports servedNode "rAgent" servedNs (servedState skey) :=
  Reports.direct rfl (hexOf_hexText _)

/-- The readout names two drops, and the Hook accepts two and refuses three. -/
theorem readout_refines_hook_served :
    (hook servedInstall (servedPayment 3) 100 servedState).1.accepts = false ∧
      ∃ maxNext : Nat, toString 2 = toString maxNext ∧
        ((hook servedInstall (servedPayment 2) 100 servedState).1.accepts = true ↔ 2 ≤ maxNext) := by
  refine ⟨by decide, ?_⟩
  have hstate : ∀ b, servedState skey = some b → b.length = 16 := by rintro _ ⟨⟩; rfl
  have hparams : statefulParamsOf (hexText (wr64 5)) (paramHex (servedInstall.params plmKey))
      (paramHex (servedInstall.params perKey)) (some servedNs) none "" = some servedParams := by
    rw [statefulParamsOf, decode8ByteDropsHex_some.mpr ⟨rfl, by decide, rfl⟩]
    simp only [bigIntOf_toString, Option.map_some]
    rfl
  have hplmHex : servedParams.plmHex = some (hexText (wr64 8)) := rfl
  have hperHex : servedParams.perHex = some (hexText [0, 0, 0, 10]) := rfl
  have hnow : servedOut.asOfLedger = some (100 : UInt64).toNat := rfl
  have hlim : servedInstall.params limKey = some (wr64 5) := rfl
  obtain ⟨policy, hpolicy, -, hmax⟩ := readout_complete hplmHex hperHex rfl rfl (by decide) (Or.inl rfl) (by decide)
    hnow (by decide) (by decide) servedNode_reports hstate
  obtain ⟨maxNext, rem, hm, -, hall⟩ :=
    readout_refines_hook hlim hparams hstate servedNode_reports hnow hpolicy hmax
  have hpay := hall (servedPayment 2) 2 ⟨rfl, rfl⟩ ⟨nativeAmount 2, rfl, rfl, by decide, by decide⟩
    (by intro d hd; cases hd)
  exact ⟨maxNext, hm, hpay.1⟩

end Xahc.Guardrail

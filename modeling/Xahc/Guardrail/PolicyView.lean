/-
`GET /policy/:account` against both guardrail Hooks: on a node that serves the parameters of the Hook, the cap that is read is
the one the Hook keeps, and the address that is read is the one destination it lets payments go to.
-/
import Xahc.Facilitator.GetPolicy
import Xahc.Guardrail.Readout
import Xahc.Guardrail.Twins

namespace Xahc.Guardrail

open Xahc.Data Xahc.Facilitator

/-! ## Hexadecimal of byte strings -/

theorem hexText_inj {a b : Bytes} (h : hexText a = hexText b) : a = b := by
  have hchars := congrArg String.toList h
  rw [hexText_toList, hexText_toList] at hchars
  have hlen : a.length = b.length := by
    have := congrArg List.length hchars
    rw [encodeHex_length, encodeHex_length] at this
    omega
  have hnum := congrArg hexNat hchars
  rw [hexNat_encodeHex, hexNat_encodeHex] at hnum
  exact beNat_inj hlen hnum

theorem hexText_toUpper (b : Bytes) : (hexText b).toUpper = hexText b := hexOf_hexText b

/-! ## Hook objects -/

/-- The hook object lists the parameters of the Hook. -/
def ListsParams (c : Json) (i : Install) : Prop := ∀ key, (hookParamsMap c).lookup (hexText key) = (i.params key).map hexText

/-- The parameters with one more. -/
def setParam (params : Bytes → Option Bytes) (p : Bytes × Bytes) : Bytes → Option Bytes :=
  Function.update params p.1 (some p.2)

/-- The parameters an install sets, each over those before it. -/
def paramsSet (ps : List (Bytes × Bytes)) : Bytes → Option Bytes := ps.foldl setParam fun _ => none

/-- A parameter as the node lists it. -/
def hookParameter (p : Bytes × Bytes) : Json :=
  .obj [("HookParameter", .obj [("HookParameterName", .str (hexText p.1)), ("HookParameterValue", .str (hexText p.2))])]

/-- The hook object of an install, as a node serves it. -/
def hookObject (namespaceHex : String) (ps : List (Bytes × Bytes)) : Json :=
  .obj [("HookNamespace", .str namespaceHex), ("HookParameters", .arr (ps.map hookParameter))]

theorem noteParam_hookParameter (out : JsMap String) (p : Bytes × Bytes) :
    noteParam out (hookParameter p) = out.insert (hexText p.1) (hexText p.2) := by
  have hfields : noteParam out (hookParameter p) = out.insert (hexText p.1).toUpper (hexText p.2).toUpper := rfl
  rw [hfields, hexText_toUpper, hexText_toUpper]

/-- Reading a listed parameter is setting it. -/
theorem lookup_noteParams {ps : List (Bytes × Bytes)} {out : JsMap String} {params : Bytes → Option Bytes}
    (h : ∀ key, out.lookup (hexText key) = (params key).map hexText) (key : Bytes) :
    ((ps.map hookParameter).foldl noteParam out).lookup (hexText key) = (ps.foldl setParam params key).map hexText := by
  induction ps generalizing out params with
  | nil => exact h key
  | cons p ps ih =>
    rw [List.map_cons, List.foldl_cons, List.foldl_cons, noteParam_hookParameter]
    apply ih
    intro key
    by_cases hkey : key = p.1
    · rw [hkey, AList.lookup_insert, setParam, Function.update_self, Option.map_some]
    · rw [AList.lookup_insert_ne fun heq => hkey (hexText_inj heq), setParam, Function.update_of_ne hkey, h]

/-- A hook object of the node lists what the install set. -/
theorem hookObject_lists {i : Install} {namespaceHex : String} {ps : List (Bytes × Bytes)} (hi : i.params = paramsSet ps) :
    ListsParams (hookObject namespaceHex ps) i := by
  intro key
  rw [hi]
  exact lookup_noteParams (fun _ => rfl) key

/-- The first place among the hooks of the account that has a `LIM`. -/
def FirstWithLim (hooks : List Json) (c : Json) : Prop :=
  ∃ pre post, hooks.flatMap candidates = pre ++ c :: post ∧ ∀ x ∈ pre, (hookParamsMap x).lookup HOOK_PARAM_LIM = none

/-- What is read off a hook object that lists the parameters. -/
def matchedParams (i : Install) (lim : Bytes) (namespaceHex : Option String) : Matched where
  limHex := hexText lim
  dstHex := paramHex (i.params dstKey)
  plmHex := paramHex (i.params plmKey)
  perHex := paramHex (i.params perKey)
  namespaceHex := namespaceHex

/-- The namespace of a hook object. -/
def namespaceOf (c : Json) : Option String := ((c.getString "HookNamespace").filter (isHexOfLength 64)).map String.toUpper

theorem paramOrNull_listed {c : Json} {i : Install} (h : ListsParams c i) (key : Bytes) :
    paramOrNull (hookParamsMap c) (hexText key) = paramHex (i.params key) := by
  rw [paramOrNull, h]
  cases hkey : i.params key with
  | none => rfl
  | some b =>
    cases b with
    | nil => rfl
    | cons x b =>
      have hne : hexText (x :: b) ≠ "" := fun h => List.cons_ne_nil x b (hexText_inj h)
      simp [paramHex, Option.filter, hne]

theorem matchedOf_listed {c : Json} {i : Install} (h : ListsParams c i) :
    matchedOf c = (i.params limKey).map fun lim => matchedParams i lim (namespaceOf c) := by
  have hlim := h limKey
  unfold matchedOf
  dsimp only
  rw [show HOOK_PARAM_LIM = hexText limKey from rfl, hlim, Option.map_map]
  refine congrArg (fun f => (i.params limKey).map f) (funext fun lim => ?_)
  simp only [Function.comp, matchedParams, namespaceOf, ← paramOrNull_listed h]
  rfl

theorem findMatched_first {hooks : List Json} {c : Json} {i : Install} {lim : Bytes} (hfirst : FirstWithLim hooks c)
    (h : ListsParams c i) (hlim : i.params limKey = some lim) :
    findMatched hooks = some (matchedParams i lim (namespaceOf c)) := by
  obtain ⟨pre, post, hplaces, hpre⟩ := hfirst
  have hskip : pre.findSome? matchedOf = none := by
    rw [List.findSome?_eq_none_iff]
    intro x hx
    rw [matchedOf, hpre x hx, Option.map_none]
  rw [findMatched, hplaces, List.findSome?_append, hskip, Option.none_or, List.findSome?_cons, matchedOf_listed h, hlim,
    Option.map_some]

/-! ## The stateless guardrail -/

/-- Of the native payments of the account, the Hook lets out those within its limit to the destination it is locked to. -/
theorem agentGuardrail_accepts {i : Install} {tx : Otxn} {lim : Bytes} {amount : Nat} (hlim : i.params limKey = some lim)
    (hlen : lim.length = 8) (hout : Outgoing i tx) (hnative : NativeAmount tx amount) :
    (agentGuardrail i tx).accepts = true ↔ amount ≤ beNat lim ∧ DestinationOk i tx := by
  have hdrops := drops_of_nativeAmount' hnative
  have hpassed : ¬PassedThrough i tx := by
    rintro (htt | ⟨b, hb, -, hne⟩)
    · exact htt hout.1
    · exact hne (Option.some.inj (hb.symm.trans hout.2))
  rw [agentGuardrail, agentHook_accepts (le_refl 20), or_iff_right hpassed]
  constructor
  · rintro ⟨limit, word, -, ⟨b, hb, -, rfl⟩, hword, hcap, hdest⟩
    obtain rfl : lim = b := Option.some.inj (hlim.symm.trans hb)
    have hamount : word.toNat = amount := by
      have := hword.symm.trans hdrops
      omega
    have hle := UInt64.le_iff_toNat_le.1 (by simpa using hcap)
    rw [hamount, be64_toNat hlen] at hle
    exact ⟨hle, destinationUpTo_all.1 hdest⟩
  · rintro ⟨hle, hdest⟩
    have hlt : amount < 2 ^ 64 := by
      have := beNat_lt lim
      rw [hlen] at this
      omega
    have hword : (UInt64.ofNat amount).toNat = amount := UInt64.toNat_ofNat_of_lt' hlt
    refine ⟨be64 lim, .ofNat amount, hout, ⟨lim, hlim, hlen, rfl⟩, by rw [hdrops, hword], ?_, destinationUpTo_all.2 hdest⟩
    simpa [UInt64.le_iff_toNat_le, hword, be64_toNat hlen] using hle

/-! ## The stateful guardrail -/

/-- The stateful Hook lets out exactly the native payments up to the largest one that is read. -/
theorem readout_accepts {i : Install} {st : HookState} {now : UInt64} {node : StateNode} {account ns dstNote : String}
    {out : PolicyOut} {params : StatefulParams} {limBytes : Bytes} {allowlist : Option (List String)}
    (hlim : i.params limKey = some limBytes)
    (hparams : statefulParamsOf (hexText limBytes) (paramHex (i.params plmKey)) (paramHex (i.params perKey))
      (some ns) allowlist dstNote = some params)
    (hst : ∀ b, st skey = some b → b.length = 16) (hnode : Reports node account ns (st skey))
    (hnow : out.asOfLedger = some now.toNat) {policy : StatefulPolicy} {m : String}
    (hpol : (getStatefulPolicy node account out params).policy = some policy) (hm : policy.maxNextPayment = some m) :
    ∃ maxNext : Nat, m = toString maxNext ∧ ∀ tx amount, Outgoing i tx → NativeAmount tx amount → DestinationOk i tx →
      ((hook i tx now st).1.accepts = true ↔ amount ≤ maxNext) := by
  obtain ⟨pol, hinst, hlimEq, hns, hread⟩ := readout_decodes hlim hparams hnow hpol hm
  obtain ⟨policy', hpolicy', -, hmax⟩ := readBudget_reports out params
    (policyShell params (some pol.plm.toNat) (some pol.per.toNat)) pol.plm.toNat pol.per.toNat now.toNat hns hnode hst
  rw [hread, hpolicy'] at hpol
  obtain rfl := Option.some.inj hpol
  refine ⟨_, Option.some.inj (hm.symm.trans hmax), fun tx amount hout hnative hdest => ?_⟩
  obtain ⟨p, hp, hroom⟩ := exists_period hst pol.plm pol.per now
  have haccepts := accepts_iff_within hout hinst hp (drops_of_nativeAmount' hnative) hdest
  rw [hroom, ← hlimEq] at haccepts
  exact haccepts.trans le_min_iff.symm

/-! ## The destination lock -/

section
variable {encodeAccountID : Option (Bytes → Option String)} {i : Install}

/-- An allowlist tells the destination a Hook is locked to: there is none, or it is the account of the address. -/
inductive TellsLock (encodeAccountID : Option (Bytes → Option String)) : Option (List String) → Option Bytes → Prop
  | free : TellsLock encodeAccountID none none
  | locked {encode : Bytes → Option String} {dst : Bytes} {addr : String} :
    encodeAccountID = some encode → encode dst = some addr → TellsLock encodeAccountID (some [addr]) (some dst)

/-- A payment to the destination of the lock, where there is one. -/
def Unlocked (lock : Option Bytes) (tx : Otxn) : Prop := ∀ dst, lock = some dst → tx.field sfDestination = some dst

theorem accountIdHexToRAddress_some {b : Bytes} {addr : String}
    (h : accountIdHexToRAddress encodeAccountID (hexText b) = some addr) :
    b.length = 20 ∧ ∃ encode, encodeAccountID = some encode ∧ encode b = some addr := by
  unfold accountIdHexToRAddress at h
  split at h
  · cases h
  rename_i hhex
  have hlen : b.length = 20 := (isHexOfLength_hexText 20 b).1 (by simpa using hhex)
  obtain ⟨encode, hencode, haddr⟩ := Option.bind_eq_some_iff.1 h
  rw [hexText_nat, ← hlen, natBE_beNat] at haddr
  exact ⟨hlen, encode, hencode, haddr⟩

/-- An allowlist that could be decoded tells the lock. A `DST` that is not 20 bytes is none to the Hook, and is not decoded. -/
theorem destinationLock_tells
    (hread : (destinationLock encodeAccountID (paramHex (i.params dstKey))).1 ≠ some []) :
    ∃ lock, TellsLock encodeAccountID (destinationLock encodeAccountID (paramHex (i.params dstKey))).1 lock ∧
      ∀ tx, DestinationOk i tx ↔ Unlocked lock tx := by
  cases hdst : paramHex (i.params dstKey) with
  | none =>
    refine ⟨none, .free, fun tx => ⟨fun _ dst hlock => absurd hlock (by simp), fun _ d hd hlen => ?_⟩⟩
    rw [hd] at hdst
    cases d with
    | nil => cases hlen
    | cons x d => cases hdst
  | some hex =>
    obtain ⟨d, hd, rfl⟩ := paramHex_some hdst
    rw [hdst] at hread
    cases haddr : (accountIdHexToRAddress encodeAccountID (hexText d)).filter (· ≠ "") with
    | none => exact absurd (by simp only [destinationLock, haddr]) hread
    | some addr =>
      obtain ⟨hlen, encode, hencode, henc⟩ := accountIdHexToRAddress_some (Option.filter_eq_some_iff.1 haddr).1
      refine ⟨some d, ?_, fun tx => ⟨fun hok dst hlock => ?_, fun hlock d' hd' _ => ?_⟩⟩
      · simpa only [destinationLock, haddr] using TellsLock.locked hencode henc
      · cases hlock
        exact hok d hd hlen
      · cases hd.symm.trans hd'
        exact hlock d rfl

end

/-! ## The readout -/

theorem readBudget_policy (node : StateNode) (account : String) (out : PolicyOut) (params : StatefulParams)
    (base : StatefulPolicy) (plm per now : Nat) (ns : String) :
    ∃ policy, (readBudget node account out params base plm per now ns).policy = some policy ∧
      policy.allowlist = base.allowlist := by
  show ∃ policy, (budgetOf out params base plm per now (readStatefulHookState node account ns)).policy = some policy ∧ _
  unfold budgetOf
  split
  · exact ⟨_, rfl, rfl⟩
  · exact ⟨_, rfl, rfl⟩
  · split <;> exact ⟨_, rfl, rfl⟩

/-- A stateful readout has a policy, with the allowlist it was given. -/
theorem getStatefulPolicy_policy (node : StateNode) (account : String) (out : PolicyOut) (params : StatefulParams) :
    ∃ policy, (getStatefulPolicy node account out params).policy = some policy ∧
      policy.allowlist = params.allowlist := by
  -- whichever check ends the reading, the policy shown is the shell, which names the allowlist
  cases hplmHex : params.plmHex with
  | none =>
    simp only [getStatefulPolicy, hplmHex]
    exact ⟨_, rfl, rfl⟩
  | some plmHex =>
  cases hperHex : params.perHex with
  | none =>
    simp only [getStatefulPolicy, hplmHex, hperHex]
    exact ⟨_, rfl, rfl⟩
  | some perHex =>
  cases hplm : decode8ByteDropsBig plmHex with
  | none =>
    simp only [getStatefulPolicy, hplmHex, hperHex, hplm]
    exact ⟨_, rfl, rfl⟩
  | some plm =>
  cases hper : decodePerLedgers perHex with
  | none =>
    simp only [getStatefulPolicy, hplmHex, hperHex, hplm, hper]
    exact ⟨_, rfl, rfl⟩
  | some per =>
  cases hnow : out.asOfLedger.filter (· > 0) with
  | none =>
    simp only [getStatefulPolicy, hplmHex, hperHex, hplm, hper, hnow]
    exact ⟨_, rfl, rfl⟩
  | some now =>
  cases hns : params.namespaceHex with
  | none =>
    simp only [getStatefulPolicy, hplmHex, hperHex, hplm, hper, hnow, hns]
    exact ⟨_, rfl, rfl⟩
  | some ns =>
    simp only [getStatefulPolicy, hplmHex, hperHex, hplm, hper, hnow, hns]
    exact readBudget_policy node account out params _ plm per now ns

section
variable {encodeAccountID : Option (Bytes → Option String)} {node : PolicyNode} {account : String} {hooks : List Json}
  {c : Json} {i : Install} {lim : Bytes}

/-- The response before the policy of the found hook is read. -/
def foundOut (node : PolicyNode) (account : String) : PolicyOut :=
  ⟨account, some true, none, "on-ledger", node.asOfLedger, none⟩

theorem getPolicy_found (hobjects : node.accountObjects account = .ok (some (.arr hooks))) (hfirst : FirstWithLim hooks c)
    (hlists : ListsParams c i) (hlim : i.params limKey = some lim) :
    getPolicy encodeAccountID node account =
      matchedPolicy encodeAccountID node account (foundOut node account) (matchedParams i lim (namespaceOf c)) := by
  have hmatched := findMatched_first hfirst hlists hlim
  have hne : hooks.isEmpty = false := by
    cases hooks with
    | nil => cases hmatched
    | cons h hooks => rfl
  simp only [getPolicy, hobjects, Bind.bind, Option.bind_some, Json.asArray, hne, hmatched, Bool.false_eq_true, if_false,
    Bool.not_false, foundOut]

/-- The parameters of the guardrail that is read, where `LIM` can be decoded. -/
def paramsOf (encodeAccountID : Option (Bytes → Option String)) (g : Matched) : Option StatefulParams :=
  let lock := destinationLock encodeAccountID g.dstHex
  statefulParamsOf g.limHex g.plmHex g.perHex g.namespaceHex lock.1 lock.2

theorem paramsOf_fields {g : Matched} {params : StatefulParams} (h : paramsOf encodeAccountID g = some params) :
    params.plmHex = g.plmHex ∧ params.perHex = g.perHex ∧
      params.allowlist = (destinationLock encodeAccountID g.dstHex).1 ∧
      params.dstNote = (destinationLock encodeAccountID g.dstHex).2 := by
  unfold paramsOf statefulParamsOf at h
  dsimp only at h
  split at h
  · cases h
  · obtain ⟨_, -, rfl⟩ := Option.map_eq_some_iff.1 h
    exact ⟨rfl, rfl, rfl, rfl⟩

/-- With a `PLM` or a `PER` the policy is the stateful readout. -/
theorem matchedPolicy_policy {out : PolicyOut} {g : Matched} (hout : out.policy = none) :
    (matchedPolicy encodeAccountID node account out g).policy =
      (paramsOf encodeAccountID g).bind fun params =>
        if g.plmHex ≠ none ∨ g.perHex ≠ none then
          (getStatefulPolicy node.toStateReads account out params).policy.map .stateful
        else some (.stateless params.limStr params.allowlist (statelessNote ++ params.dstNote)) := by
  unfold matchedPolicy
  dsimp only
  cases hparams : paramsOf encodeAccountID g with
  | none =>
    rw [paramsOf] at hparams
    rw [hparams, Option.bind_none]
    simp only [PolicyOut.noted, PolicyOut.readout, hout, Option.map_none]
    rfl
  | some params =>
    obtain ⟨-, -, hallow, hnote⟩ := paramsOf_fields hparams
    rw [paramsOf] at hparams
    rw [hparams, Option.bind_some, hallow, hnote]
    dsimp only
    split <;> rfl

theorem paramsOf_isSome {namespaceHex : Option String} :
    (paramsOf encodeAccountID (matchedParams i lim namespaceHex)).isSome = true ↔
      lim.length = 8 ∧ beNat lim ≤ MAX_DROPS := by
  constructor
  · intro h
    obtain ⟨params, hparams⟩ := Option.isSome_iff_exists.1 h
    obtain ⟨hlen, hmax, -⟩ := statefulParamsOf_some hparams
    exact ⟨hlen, hmax⟩
  · rintro ⟨hlen, hmax⟩
    simp only [paramsOf, matchedParams, statefulParamsOf, decode8ByteDropsHex_some.2 ⟨hlen, hmax, rfl⟩, bigIntOf_toString,
      Option.map_some, Option.isSome_some]

/-- No policy is read exactly where `LIM` is not an amount of drops. -/
theorem matchedPolicy_none {out : PolicyOut} {namespaceHex : Option String} (hout : out.policy = none) :
    (matchedPolicy encodeAccountID node account out (matchedParams i lim namespaceHex)).policy = none ↔
      ¬(lim.length = 8 ∧ beNat lim ≤ MAX_DROPS) := by
  rw [matchedPolicy_policy hout, ← paramsOf_isSome]
  cases hparams : paramsOf encodeAccountID (matchedParams i lim namespaceHex) with
  | none => simp
  | some params =>
    obtain ⟨policy, hpolicy, -⟩ := getStatefulPolicy_policy node.toStateReads account out params
    rw [Option.bind_some, hpolicy]
    split <;> simp

/-- The stateless readout names the cap of the Hook. -/
theorem stateless_view {out : PolicyOut} {namespaceHex : Option String} (hout : out.policy = none)
    (hlim : i.params limKey = some lim) {capText note : String} {allowlist : Option (List String)}
    (hview : (matchedPolicy encodeAccountID node account out (matchedParams i lim namespaceHex)).policy =
      some (.stateless capText allowlist note)) :
    (∃ cap, capText = toString cap ∧ ∀ tx amount, Outgoing i tx → NativeAmount tx amount →
      ((agentGuardrail i tx).accepts = true ↔ amount ≤ cap ∧ DestinationOk i tx)) ∧
      allowlist = (destinationLock encodeAccountID (paramHex (i.params dstKey))).1 := by
  rw [matchedPolicy_policy hout] at hview
  obtain ⟨params, hparams, hview⟩ := Option.bind_eq_some_iff.1 hview
  obtain ⟨hlen, -, hparamsEq⟩ := statefulParamsOf_some hparams
  obtain ⟨-, -, hallow, -⟩ := paramsOf_fields hparams
  split at hview
  · obtain ⟨_, -, hview⟩ := Option.map_eq_some_iff.1 hview
    cases hview
  · cases hview
    exact ⟨⟨beNat lim, by rw [hparamsEq], fun tx amount houtg hnative => agentGuardrail_accepts hlim hlen houtg hnative⟩,
      hallow⟩

/-- The stateful readout names the largest payment the Hook lets out next. -/
theorem stateful_view {out : PolicyOut} {ns : String} {now : UInt64} {st : HookState} (hout : out.policy = none)
    (hlim : i.params limKey = some lim) {policy : StatefulPolicy} {m : String}
    (hview : (matchedPolicy encodeAccountID node account out (matchedParams i lim (some ns))).policy =
      some (.stateful policy)) (hm : policy.maxNextPayment = some m)
    (hnow : out.asOfLedger = some now.toNat) (hst : ∀ b, st skey = some b → b.length = 16)
    (hnode : Reports node.toStateReads account ns (st skey)) :
    (∃ maxNext, m = toString maxNext ∧ ∀ tx amount, Outgoing i tx → NativeAmount tx amount →
      ((hook i tx now st).1.accepts = true ↔ amount ≤ maxNext ∧ DestinationOk i tx)) ∧
      policy.allowlist = (destinationLock encodeAccountID (paramHex (i.params dstKey))).1 := by
  rw [matchedPolicy_policy hout] at hview
  obtain ⟨params, hparams, hview⟩ := Option.bind_eq_some_iff.1 hview
  obtain ⟨-, -, hallow, -⟩ := paramsOf_fields hparams
  split at hview
  · obtain ⟨policy', hpolicy, hview⟩ := Option.map_eq_some_iff.1 hview
    cases hview
    obtain ⟨policy', hpolicy', hlist⟩ := getStatefulPolicy_policy node.toStateReads account out params
    obtain rfl := Option.some.inj (hpolicy'.symm.trans hpolicy)
    obtain ⟨maxNext, hmax, hall⟩ := readout_accepts hlim hparams hst hnode hnow hpolicy hm
    refine ⟨⟨maxNext, hmax, fun tx amount houtg hnative => ⟨fun hacc => ?_, fun h => ?_⟩⟩, hlist.trans hallow⟩
    · obtain ⟨_, _, _, hs⟩ := (hook_accepts_iff houtg).1 hacc
      exact ⟨(hall tx amount houtg hnative hs.destination).1 hacc, hs.destination⟩
    · exact (hall tx amount houtg hnative h.2).2 h.1
  · cases hview

/-- On a node that serves the parameters of the Hook, `GET /policy/:account` reads a policy exactly where `LIM` is an amount of
drops. The stateless one names the cap `agentGuardrail.c` keeps, and the stateful one the largest payment that
`agent_guardrail_stateful.c` lets out next, to the destinations it allows; an allowlist that could be decoded is the one
destination either allows. -/
theorem policy_view_refines (hobjects : node.accountObjects account = .ok (some (.arr hooks)))
    (hfirst : FirstWithLim hooks c) (hlists : ListsParams c i) (hlim : i.params limKey = some lim) :
    ((getPolicy encodeAccountID node account).policy = none ↔ ¬(lim.length = 8 ∧ beNat lim ≤ MAX_DROPS)) ∧
      (∀ capText allowlist note, (getPolicy encodeAccountID node account).policy = some (.stateless capText allowlist note) →
        (∃ cap, capText = toString cap ∧ ∀ tx amount, Outgoing i tx → NativeAmount tx amount →
          ((agentGuardrail i tx).accepts = true ↔ amount ≤ cap ∧ DestinationOk i tx)) ∧
        (allowlist ≠ some [] → ∃ lock, TellsLock encodeAccountID allowlist lock ∧ ∀ tx, DestinationOk i tx ↔ Unlocked lock tx)) ∧
      ∀ policy m ns (now : UInt64) (st : HookState),
        (getPolicy encodeAccountID node account).policy = some (.stateful policy) →
        policy.maxNextPayment = some m → namespaceOf c = some ns → node.asOfLedger = some now.toNat →
        (∀ b, st skey = some b → b.length = 16) → Reports node.toStateReads account ns (st skey) →
        (∃ maxNext, m = toString maxNext ∧ ∀ tx amount, Outgoing i tx → NativeAmount tx amount →
          ((hook i tx now st).1.accepts = true ↔ amount ≤ maxNext ∧ DestinationOk i tx)) ∧
        (policy.allowlist ≠ some [] → ∃ lock, TellsLock encodeAccountID policy.allowlist lock ∧
          ∀ tx, DestinationOk i tx ↔ Unlocked lock tx) := by
  rw [getPolicy_found hobjects hfirst hlists hlim]
  refine ⟨matchedPolicy_none rfl, fun capText allowlist note hview => ?_, ?_⟩
  · obtain ⟨hcap, rfl⟩ := stateless_view rfl hlim hview
    exact ⟨hcap, destinationLock_tells⟩
  · intro policy m ns now st hview hm hns hnow hst hnode
    rw [hns] at hview
    obtain ⟨hmax, hallow⟩ := stateful_view rfl hlim hview hm hnow hst hnode
    rw [hallow]
    exact ⟨hmax, destinationLock_tells⟩

end

/-- A node that serves LIM 5 and the destination lock of a shop. -/
def lockedParams : List (Bytes × Bytes) := [(limKey, wr64 5), (dstKey, List.replicate 20 0xCC)]

/-- The guardrail locked to one destination. -/
def lockedInstall : Install := ⟨AccountID.filled 0xAA, paramsSet lockedParams⟩

/-- A node that serves it. -/
def lockedNode : PolicyNode :=
  { servedNode with
    asOfLedger := some 100
    accountObjects := fun _ => .ok (some (.arr [hookObject servedNs lockedParams])) }

/-- A codec that knows one account. -/
def encodeShop (b : Bytes) : Option String := if b = List.replicate 20 0xCC then some "rShop" else none

/-- The readout names five drops and the shop, and the Hook lets five drops out to the shop and not six. -/
theorem policy_view_refines_locked :
    (agentGuardrail lockedInstall (servedPayment 6)).accepts = false ∧
      (∃ cap, toString 5 = toString cap ∧
        ((agentGuardrail lockedInstall (servedPayment 5)).accepts = true ↔
          5 ≤ cap ∧ DestinationOk lockedInstall (servedPayment 5))) ∧
      ∃ lock, TellsLock (some encodeShop) (some ["rShop"]) lock ∧
        ∀ tx, DestinationOk lockedInstall tx ↔ Unlocked lock tx := by
  refine ⟨by decide +kernel, ?_⟩
  have hlists : ListsParams (hookObject servedNs lockedParams) lockedInstall := hookObject_lists rfl
  have hfirst : FirstWithLim [hookObject servedNs lockedParams] (hookObject servedNs lockedParams) :=
    ⟨[], [], rfl, fun x hx => absurd hx List.not_mem_nil⟩
  have hlim : lockedInstall.params limKey = some (wr64 5) := by decide +kernel
  have hdst : destinationLock (some encodeShop) (paramHex (lockedInstall.params dstKey)) = (some ["rShop"], "") := by
    decide +kernel
  have hview : (getPolicy (some encodeShop) lockedNode "rAgent").policy =
      some (.stateless (toString 5) (some ["rShop"]) (statelessNote ++ "")) := by
    have hplm : paramHex (lockedInstall.params plmKey) = none := by decide +kernel
    have hper : paramHex (lockedInstall.params perKey) = none := by decide +kernel
    have hdecoded : decode8ByteDropsHex (hexText (wr64 5)) = some (toString 5) :=
      decode8ByteDropsHex_some.2 ⟨rfl, by decide, rfl⟩
    rw [getPolicy_found rfl hfirst hlists hlim, matchedPolicy_policy rfl]
    simp only [paramsOf, matchedParams, statefulParamsOf, hdst, hplm, hper, hdecoded, bigIntOf_toString, Option.map_some,
      Option.bind_some, ne_eq, not_true_eq_false, or_self, if_false]
  obtain ⟨-, hstateless, -⟩ := @policy_view_refines (some encodeShop) lockedNode "rAgent" _ _ _ _ rfl hfirst hlists hlim
  obtain ⟨⟨cap, hcap, hall⟩, hlock⟩ := hstateless _ _ _ hview
  exact ⟨⟨cap, hcap, hall (servedPayment 5) 5 ⟨rfl, rfl⟩ ⟨nativeAmount 5, rfl, rfl, by decide, by decide⟩⟩,
    hlock (by decide)⟩

end Xahc.Guardrail

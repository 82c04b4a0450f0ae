/-
`getPolicy`: which of the hooks of an account is the guardrail, and what is read off its parameters. Where they are those of
the stateful guardrail, the rest is `getStatefulPolicy`. On a client it is a program of requests, which comes to the readout
of their answers.
-/
import Xahc.Data.JsMap
import Xahc.Data.Utf8
import Xahc.Facilitator.Node
import Xahc.Facilitator.Policy

namespace Xahc.Facilitator

open Xahc.Data Xahc.Effect

/-! ## The parameters of a hook -/

/-- `Buffer.from(name, "ascii").toString("hex").toUpperCase()`. -/
def paramName (name : String) : String := String.ofList (encodeHex (utf8 name.toList))

/-- The name of LIM in hex. -/
def HOOK_PARAM_LIM : String := paramName "LIM"

/-- The name of DST in hex. -/
def HOOK_PARAM_DST : String := paramName "DST"

/-- The name of PLM in hex. -/
def HOOK_PARAM_PLM : String := paramName "PLM"

/-- The name of PER in hex. -/
def HOOK_PARAM_PER : String := paramName "PER"

/-- `j?.[k] || j` -/
def unwrap (k : String) (j : Json) : Json := ((j.get k).filter Json.truthy).getD j

/-- One parameter more, where it has a name and a value. -/
def noteParam (out : JsMap String) (el : Json) : JsMap String :=
  let p := unwrap "HookParameter" el
  match p.getString "HookParameterName", p.getString "HookParameterValue" with
  | some name, some value => out.insert name.toUpper value.toUpper
  | _, _ => out

/-- The parameters of a hook object in upper-case hex; the last of a name counts. -/
def hookParamsMap (hookObj : Json) : JsMap String :=
  match (hookObj.get "HookParameters").bind Json.asArray with
  | none => ∅
  | some els => els.foldl noteParam ∅

/-- The places where an entry of `account_objects` may have its parameters. -/
def candidates (h : Json) : List Json :=
  h :: match (h.get "Hooks").bind Json.asArray with
    | none => []
    | some hs => hs.map (unwrap "Hook")

/-- What is kept of the hook that matches. -/
structure Matched where
  limHex : String
  dstHex : Option String
  plmHex : Option String
  perHex : Option String
  namespaceHex : Option String
  deriving DecidableEq, Repr

/-- `params.get(k) || null` -/
def paramOrNull (params : JsMap String) (k : String) : Option String := (params.lookup k).filter (· ≠ "")

/-- The hook object, where it has a LIM. -/
def matchedOf (c : Json) : Option Matched :=
  let params := hookParamsMap c
  (params.lookup HOOK_PARAM_LIM).map fun limHex =>
    { limHex := limHex
      dstHex := paramOrNull params HOOK_PARAM_DST
      plmHex := paramOrNull params HOOK_PARAM_PLM
      perHex := paramOrNull params HOOK_PARAM_PER
      namespaceHex := ((c.getString "HookNamespace").filter (isHexOfLength 64)).map String.toUpper }

/-- The first place with a `LIM`. -/
def findMatched (hooks : List Json) : Option Matched := (hooks.flatMap candidates).findSome? matchedOf

/-! ## The readout -/

/-- The `policy` object: of the per-transaction guardrail, or of the stateful one. -/
inductive PolicyView
  | stateless (perTxLimitDrops : String) (allowlist : Option (List String)) (note : String)
  | stateful (policy : StatefulPolicy)
  deriving DecidableEq, Repr

/-- The answer to a policy request. -/
structure PolicyReadout where
  account : String
  guardrailHookPresent : Option Bool
  policy : Option PolicyView
  source : String
  asOfLedger : Option Nat
  note : Option String
  deriving DecidableEq, Repr

/-- The answer of the stateful part as the answer to the request. -/
def PolicyOut.readout (out : PolicyOut) : PolicyReadout :=
  ⟨out.account, out.guardrailHookPresent, out.policy.map .stateful, out.source, out.asOfLedger, out.note⟩

/-- No policy, and why. -/
def PolicyOut.noted (out : PolicyOut) (note : String) : PolicyReadout := { out with note := some note }.readout

/-- The node, for a readout: the index of the validated ledger, and the `account_objects` served where there are any. -/
structure PolicyReads (m : Type → Type) extends StateReads m where
  asOfLedger : m (Option Nat)
  accountObjects : String → m (Except String (Option Json))

/-- A node whose answers are there at once. -/
abbrev PolicyNode := PolicyReads Id

section
variable (encodeAccountID : Option (Bytes → Option String)) {m : Type → Type} [Monad m]

/-- The address of an account id in hex; none without the codec. -/
def accountIdHexToRAddress (hex : String) : Option String :=
  if !isHexOfLength 40 hex then none else encodeAccountID.bind fun encode => encode (natBE 20 (hexNat hex.toList))

/-- The allowlist, and what a note says of one that cannot be decoded. -/
def destinationLock (dstHex : Option String) : Option (List String) × String :=
  match dstHex with
  | none => (none, "")
  | some hex =>
    match (accountIdHexToRAddress encodeAccountID hex).filter (· ≠ "") with
    | some dstAddr => (some [dstAddr], "")
    | none => (some [], " (DST destination-lock present but its account-id could not be decoded)")

/-- The note of a policy without a budget. -/
def statelessNote : String :=
  "per-tx spend cap (stateless guardrail). This is the maximum per transaction, NOT a cumulative remaining budget."

/-- Past the match: the policy of the hook that was found. -/
def matchedPolicy (node : PolicyReads m) (account : String) (out : PolicyOut) (g : Matched) : m PolicyReadout := do
  let lock := destinationLock encodeAccountID g.dstHex
  match statefulParamsOf g.limHex g.plmHex g.perHex g.namespaceHex lock.1 lock.2 with
  | none =>
    return out.noted "guardrail LIM parameter present but its value could not be decoded as an 8-byte drops cap — policy unknown"
  | some params =>
    if g.plmHex ≠ none ∨ g.perHex ≠ none then return (← getStatefulPolicy node.toStateReads account out params).readout
    else return { out.readout with policy := some (.stateless params.limStr lock.1 (statelessNote ++ lock.2)) }

/-- The policy of an account, read from the node. -/
def getPolicy (node : PolicyReads m) (account : String) : m PolicyReadout := do
  let out : PolicyOut := ⟨account, none, none, "on-ledger", ← node.asOfLedger, none⟩
  match ← node.accountObjects account with
  | .error _ => return out.noted "node read failed — could not read account_objects (policy unknown)"
  | .ok objects =>
    match objects.bind Json.asArray with
    | none => return out.noted "node returned no account_objects (policy unknown)"
    | some hooks =>
      let out := { out with guardrailHookPresent := some (!hooks.isEmpty) }
      if hooks.isEmpty then return out.noted "no Hook installed — there is no L1 spending policy on this account"
      else match findMatched hooks with
      | none =>
        return out.noted "a Hook is installed but no recognizable guardrail policy (LIM parameter) was found — policy unknown"
      | some g => matchedPolicy encodeAccountID node account out g

end

/-! ## On a client -/

/-- What a request answers; `error` is what it throws. -/
@[reducible] def Served : Request → Type := fun _ => Except Json Json

/-- Programs that ask the node and touch nothing else. -/
abbrev Reading := Prog Request Served

/-- `String(e?.message || e?.data?.error || e?.error || "")` -/
def errorText (e : Json) : String :=
  (([e.get "message", Json.get? (e.get "data") "error", e.get "error"].reduceOption).find? Json.truthy).elim "" Json.toStr

/-- The index of the validated ledger, which is a whole number. -/
def wholeLedgerIndex (r : Json) : Option Nat := (ledgerIndexOf r).bind fun q => if q.den = 1 then some q.num.toNat else none

/-- The value of a `ledger_entry` answer. -/
def hookStateData (r : Json) : Option String :=
  (Json.get? (Json.get? (r.get "result") "node") "HookStateData").bind Json.asString

/-- The entries of an `account_namespace` answer. -/
def namespaceEntries (r : Json) : Option (List NamespaceEntry) :=
  ((Json.get? (r.get "result") "namespace_entries").bind Json.asArray).map fun entries =>
    entries.map fun e => ⟨e.getString "HookStateKey", e.getString "HookStateData"⟩

/-- What is read off an answer, and what is thrown as a text. -/
def readAnswer {α : Type} (read : Json → α) : Except Json Json → Except String α
  | .error e => .error (errorText e)
  | .ok r => .ok (read r)

/-- A request, and what is read off its answer. -/
def ask {α : Type} (r : Request) (read : Json → α) : Reading (Except String α) := do
  return readAnswer read (← Prog.perform r)

/-- The node of a function of requests: `ask` is how an answer is waited for. -/
def nodeBy {m : Type → Type} [Monad m] (ask : {α : Type} → Request → (Json → α) → m (Except String α)) : PolicyReads m where
  ledgerEntry account key ns := ask (.ledgerEntry account key ns) hookStateData
  accountNamespace account ns := ask (.accountNamespace account ns) namespaceEntries
  asOfLedger := do return (← ask .ledgerValidated wholeLedgerIndex).toOption.join
  accountObjects account := ask (.accountObjects (some account) "hook") fun r => Json.get? (r.get "result") "account_objects"

/-- The node behind `client.request`. -/
def client : PolicyReads Reading := nodeBy ask

/-- The node that gives these answers. -/
def nodeOf (served : Request → Except Json Json) : PolicyNode := nodeBy fun r read => readAnswer read (served r)

/-- The requests a readout makes. -/
inductive PolicyRead (account : String) : Request → Prop
  | ledger : PolicyRead account .ledgerValidated
  | hooks : PolicyRead account (.accountObjects (some account) "hook")
  | entry {key ns : String} : PolicyRead account (.ledgerEntry account key ns)
  | entries {ns : String} : PolicyRead account (.accountNamespace account ns)

/-- The program makes no other requests than a readout of the account does, and comes to what is read off the answers. -/
structure Reads (account : String) {α : Type} (p : Reading α) (x : (Request → Except Json Json) → α) : Prop where
  asks : ∀ h, Prog.Obeys (fun _ r => PolicyRead account r) (fun _ _ => True) h p
  answered : ∀ served, p.Answered served (x served)

section
variable {encodeAccountID : Option (Bytes → Option String)} {account : String} {α β : Type}

/-! ## The readout of the answers -/

theorem reads_pure {a : α} : Reads account (pure a) fun _ => a := ⟨fun _ => trivial, fun _ => rfl⟩

theorem reads_ask {r : Request} {read : Json → α} (hr : PolicyRead account r) :
    Reads account (ask r read) fun served => readAnswer read (served r) :=
  ⟨fun _ => ⟨hr, fun _ _ => trivial⟩, fun _ _ => rfl⟩

/-- Step by step with what the answers come to at once. -/
theorem Reads.bind {p : Reading α} {f : α → Reading β} {x : (Request → Except Json Json) → α}
    {y : α → (Request → Except Json Json) → β} (hp : Reads account p x) (hf : ∀ a, Reads account (f a) (y a)) :
    Reads account (p >>= f) fun served => ((x served : Id α) >>= fun a => (y a served : Id β) : Id β) :=
  ⟨fun h => Prog.Along.bind (fun _ _ _ hmay => hmay) (fun h a _ => (hf a).asks h) (hp.asks h),
    fun served => (hp.answered served).bind ((hf _).answered served)⟩

theorem reads_readFallback {ns : String} :
    Reads account (readFallback client.toStateReads account ns) fun served =>
      readFallback (nodeOf served).toStateReads account ns := by
  unfold readFallback
  refine .bind (reads_ask .entries) fun entries => ?_
  split <;> exact reads_pure

theorem reads_readStatefulHookState {namespaceHex : String} :
    Reads account (readStatefulHookState client.toStateReads account namespaceHex) fun served =>
      readStatefulHookState (nodeOf served).toStateReads account namespaceHex := by
  unfold readStatefulHookState
  split
  · exact reads_pure
  · refine .bind (reads_ask .entry) fun data => ?_
    split
    · split
      · exact reads_pure
      · exact reads_readFallback
    · exact reads_readFallback
    · split
      · exact reads_pure
      · exact reads_readFallback

theorem reads_getStatefulPolicy {out : PolicyOut} {params : StatefulParams} :
    Reads account (getStatefulPolicy client.toStateReads account out params) fun served =>
      getStatefulPolicy (nodeOf served).toStateReads account out params := by
  unfold getStatefulPolicy
  split
  · dsimp only
    split
    · split
      · exact reads_pure
      · exact reads_pure
      · exact .bind reads_readStatefulHookState fun _ => reads_pure
    · exact reads_pure
  · exact reads_pure

theorem reads_matchedPolicy {out : PolicyOut} {g : Matched} :
    Reads account (matchedPolicy encodeAccountID client account out g) fun served =>
      matchedPolicy encodeAccountID (nodeOf served) account out g := by
  unfold matchedPolicy
  dsimp only
  split
  · exact reads_pure
  · split
    · exact .bind reads_getStatefulPolicy fun _ => reads_pure
    · exact reads_pure

/-- On a client the readout makes these requests, and comes to the readout of their answers. -/
theorem reads_getPolicy :
    Reads account (getPolicy encodeAccountID client account) fun served =>
      getPolicy encodeAccountID (nodeOf served) account := by
  unfold getPolicy
  refine .bind (.bind (reads_ask .ledger) fun _ => reads_pure) fun index => ?_
  refine .bind (reads_ask .hooks) fun objects => ?_
  split
  · exact reads_pure
  · split
    · exact reads_pure
    · dsimp only
      split
      · exact reads_pure
      · split
        · exact reads_pure
        · exact reads_matchedPolicy

end

end Xahc.Facilitator

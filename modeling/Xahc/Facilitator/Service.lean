/-
The service: requests of any number, in any order of their steps, on one limiter and one in-memory store. Every run of it comes
with a run of settlements alone, and what the settlements promise of submits and receipts is promised of requests.
-/
import Xahc.Facilitator.Http
import Xahc.Facilitator.RateLimit

namespace Xahc.Facilitator

open Xahc.Data Xahc.Effect

/-! ## Stores that no call tells apart -/

/-- The receipt under a key, while it is not expired. -/
def InMemoryStore.live (s : InMemoryStore) (t : Nat) (key : String) : Option (Receipt × ℚ) :=
  (s.receipts.lookup key).filter fun v => !decide (v.2 ≤ t)

/-- The same store, but for receipts that have expired. -/
structure InMemoryStore.Same (t : Nat) (s s' : InMemoryStore) : Prop where
  map : s.map = s'.map
  maxEntries : s.maxEntries = s'.maxEntries
  receipts : ∀ key, s.live t key = s'.live t key

namespace InMemoryStore

variable {s s' : InMemoryStore} {t : Nat} {key : String}

theorem Same.later (h : s.Same t s') (d : Nat) : s.Same (t + d) s' := by
  refine ⟨h.map, h.maxEntries, fun key => ?_⟩
  have hlater : ∀ s : InMemoryStore, s.live (t + d) key = (s.live t key).filter fun v => !decide (v.2 ≤ ((t + d : Nat) : ℚ)) := by
    intro s
    have hle : ∀ v : Receipt × ℚ, v.2 ≤ t → v.2 ≤ ((t + d : Nat) : ℚ) := fun v hv =>
      hv.trans (by exact_mod_cast Nat.le_add_right t d)
    unfold live
    cases s.receipts.lookup key with
    | none => rfl
    | some v =>
      by_cases hv : v.2 ≤ t
      · have := hle v hv
        simp_all [Option.filter]
      · simp [Option.filter, hv]
  rw [hlater, hlater, h.receipts]

theorem Same.sweep (h : s.Same t s') (now : Nat) :
    (s.sweep now).1.Same t (s'.sweep now).1 ∧ (s.sweep now).2 = (s'.sweep now).2 := by
  have hswept : ∀ (s : InMemoryStore) key,
      (s.sweep now).1.live t key = (s.live t key).filter fun v => !decide (v.2 ≤ (now : ℚ)) := by
    intro s key
    simp only [live, InMemoryStore.sweep, JsMap.lookup_keep]
    cases s.receipts.lookup key with
    | none => rfl
    | some v => by_cases hv : v.2 ≤ t <;> by_cases hv' : v.2 ≤ (now : ℚ) <;> simp [Option.filter, hv, hv']
  refine ⟨⟨?_, h.maxEntries, fun key => by rw [hswept, hswept, h.receipts]⟩, ?_⟩
  · simp only [InMemoryStore.sweep, h.map]
  · simp only [InMemoryStore.sweep, h.map, h.maxEntries]

theorem Same.get (h : s.Same t s') (key : String) (now : Nat) :
    (s.get key now).1.Same t (s'.get key now).1 ∧ (s.get key now).2 = (s'.get key now).2 := by
  unfold InMemoryStore.get
  rw [← h.map]
  split
  · exact ⟨h, rfl⟩
  · split_ifs
    · exact ⟨⟨rfl, h.maxEntries, h.receipts⟩, rfl⟩
    · exact ⟨h, rfl⟩

theorem Same.withMap (h : s.Same t s') (map : JsMap ℚ) : ({ s with map } : InMemoryStore).Same t { s' with map } :=
  ⟨rfl, h.maxEntries, h.receipts⟩

theorem Same.reserve (h : s.Same t s') (key : String) (expiryMs : ℚ) (now : Nat) :
    (s.reserve key expiryMs now).1.Same t (s'.reserve key expiryMs now).1 ∧
      (s.reserve key expiryMs now).2 = (s'.reserve key expiryMs now).2 := by
  obtain ⟨hswept, hroom⟩ := h.sweep now
  unfold InMemoryStore.reserve
  rw [← h.map]
  split_ifs
  · exact ⟨h, rfl⟩
  · dsimp only
    rw [← hroom, ← hswept.map]
    split_ifs
    · exact ⟨hswept, rfl⟩
    · exact ⟨hswept.withMap _, rfl⟩

theorem Same.set (h : s.Same t s') (key : String) (expiryMs : ℚ) (now : Nat) :
    (s.set key expiryMs now).1.Same t (s'.set key expiryMs now).1 ∧
      (s.set key expiryMs now).2 = (s'.set key expiryMs now).2 := by
  obtain ⟨hswept, hroom⟩ := h.sweep now
  unfold InMemoryStore.set
  dsimp only
  rw [← hroom, ← hswept.map]
  split_ifs
  · exact ⟨hswept, rfl⟩
  · exact ⟨hswept.withMap _, rfl⟩

theorem live_erase (s : InMemoryStore) (key k : String) (t : Nat) :
    ({ s with receipts := s.receipts.erase key } : InMemoryStore).live t k = if k = key then none else s.live t k := by
  unfold live
  split_ifs with hk
  · rw [hk, AList.lookup_erase]
    rfl
  · rw [AList.lookup_erase_ne hk]

theorem Same.release (h : s.Same t s') (key : String) : (s.release key).Same t (s'.release key) := by
  refine ⟨by simp only [InMemoryStore.release, h.map], h.maxEntries, fun k => ?_⟩
  have hreleased : ∀ s : InMemoryStore, (s.release key).live t k = if k = key then none else s.live t k :=
    fun s => s.live_erase key k t
  rw [hreleased, hreleased, h.receipts]

theorem Same.setReceipt (h : s.Same t s') (key : String) (receipt : Receipt) (expiryMs : ℚ) :
    (s.setReceipt key receipt expiryMs).Same t (s'.setReceipt key receipt expiryMs) := by
  refine ⟨h.map, h.maxEntries, fun k => ?_⟩
  have hk := h.receipts k
  unfold live InMemoryStore.setReceipt at *
  by_cases heq : k = key
  · rw [heq, AList.lookup_insert, AList.lookup_insert]
  · rwa [AList.lookup_insert_ne heq, AList.lookup_insert_ne heq]

/-- What is read is the live receipt, and nothing live is forgotten. -/
theorem getReceipt_live (s : InMemoryStore) (key : String) (t : Nat) :
    (s.getReceipt key t).2 = (s.live t key).map Prod.fst ∧ s.Same t (s.getReceipt key t).1 := by
  unfold InMemoryStore.getReceipt
  split
  · rename_i hnone
    exact ⟨by rw [live, hnone]; rfl, rfl, rfl, fun _ => rfl⟩
  · rename_i receipt expiry hlook
    split_ifs with hle
    · refine ⟨by simp [live, hlook, Option.filter, hle], rfl, rfl, fun k => ?_⟩
      rw [live_erase]
      split_ifs with hk
      · rw [hk]
        simp [live, hlook, Option.filter, hle]
      · rfl
    · exact ⟨by simp [live, hlook, Option.filter, hle], rfl, rfl, fun _ => rfl⟩

theorem Same.trans {s'' : InMemoryStore} (h : s.Same t s') (h' : s'.Same t s'') : s.Same t s'' :=
  ⟨h.map.trans h'.map, h.maxEntries.trans h'.maxEntries, fun key => (h.receipts key).trans (h'.receipts key)⟩

theorem Same.symm (h : s.Same t s') : s'.Same t s := ⟨h.map.symm, h.maxEntries.symm, fun key => (h.receipts key).symm⟩

end InMemoryStore

/-- Reading a receipt, and a simulation, change nothing that a call could tell. -/
def memorySilence (env : Env) : Silence (inMemory env) where
  rel := InMemoryStore.Same
  refl t s := ⟨rfl, rfl, fun _ => rfl⟩
  later d h := h.later d
  perform {t s s'} op c h := by
    show (performInMemory t op c s).2 = (performInMemory t op c s').2 ∧
      (performInMemory t op c s).1.Same t (performInMemory t op c s').1
    cases op with
    | isConsumed key =>
      obtain ⟨hsame, hread⟩ := h.get key t
      exact ⟨congrArg (fun exp : Option ℚ => Except.ok exp.isSome) hread, hsame⟩
    | getReceipt key =>
      obtain ⟨hread, hsame⟩ := s.getReceipt_live key t
      obtain ⟨hread', hsame'⟩ := s'.getReceipt_live key t
      have hlive : (s.live t key).map Prod.fst = (s'.live t key).map Prod.fst := by rw [h.receipts]
      exact ⟨congrArg Except.ok (hread.trans (hlive.trans hread'.symm)), hsame.symm.trans (h.trans hsame')⟩
    | reserve key expiryMs now =>
      obtain ⟨hsame, hread⟩ := h.reserve key expiryMs (now.getD t)
      exact ⟨congrArg Except.ok hread, hsame⟩
    | release key => exact ⟨rfl, h.release key⟩
    | set key expiryMs now =>
      obtain ⟨hsame, hread⟩ := h.set key expiryMs now
      exact ⟨congrArg Except.ok hread, hsame⟩
    | setReceipt key receipt expiryMs => exact ⟨rfl, h.setReceipt key receipt expiryMs⟩
    | getClient | request | submitAndWait | simulatePayment => exact ⟨rfl, h⟩
  silent
    | .getReceipt _ | .simulatePayment .. => true
    | _ => false
  kept {t s s'} op c hsilent h := by
    show s.Same t (performInMemory t op c s').1
    cases op with
    | getReceipt key => exact h.trans (s'.getReceipt_live key t).2
    | simulatePayment => exact h
    | _ => cases hsilent

/-! ## Requests on a limiter and a store -/

/-- Any number of requests on one process. The limiter decides at the call; bodies and the node's answers come in their own
time, whatever they are. -/
def service (cfg : HttpConfig) (env : Env) : Front (inMemory env) Wire WireRes InMemoryRateLimiter HttpRequest Response where
  Choice
    | .ok _ => Unit
    | .body => Arrival
    | .getClient => Except String Unit
    | .request r => Served r
  eager
    | .ok _ => some ()
    | .body | .getClient | .request _ => none
  perform t
    | .ok ip, _, l => l.ok ip t
    | .body, a, l => (l, a)
    | .getClient, c, l => (l, c)
    | .request _, a, l => (l, a)
  code := handle cfg env

/-- What a request did, the latest first. -/
abbrev ServedHist := History (Wire ⊕ Op) (Answers WireRes Res)

section
variable (cfg : HttpConfig) (env : Env) (req : HttpRequest)

/-- The limiter has let the request through. -/
def Passed (h : ServedHist) : Prop := ∃ t, ⟨.inl (.ok (req.key cfg)), true, t⟩ ∈ h

/-- A request to settle, which presented the secret, was let through and carried the body `b`. -/
structure Submitted (b : Json) (h : ServedHist) : Prop where
  route : req.method = "POST" ∧ req.url = "/settle"
  auth : authOk cfg req = true
  passed : Passed cfg req h
  received : ∃ a t, ⟨.inl .body, a, t⟩ ∈ h ∧ readBody cfg a = .body b

/-- The operations of the store and the node that a request comes to, and on what ground. -/
inductive Permitted (h : ServedHist) : Op → Prop
  | status {id} : req.method = "GET" ∧ startsWith req.url "/status/" = true → authOk cfg req = true →
      lastSegment req.url "/status/" = some id → Permitted h (.getReceipt id)
  | simulate {payload reqs} : req.method = "POST" ∧ req.url = "/simulate" → cfg.X402_MCP_URL = true →
      Permitted h (.simulatePayment payload reqs)
  | settle {b op} : Submitted cfg req b h → Permitted h op

/-- A request for the policy of a valid address, with a node configured. -/
structure AsksPolicy (account : String) : Prop where
  route : req.method = "GET" ∧ startsWith req.url "/policy/" = true
  segment : lastSegment req.url "/policy/" = some account
  address : isValidRAddress env account = true
  node : env.XAHAU_WSS = true

/-- The operations of the front end itself that a request comes to once it was let through: the body on a `POST`, and the node
where a policy is asked for, with the requests of a readout alone. -/
inductive PermittedWire : Wire → Prop
  | body : req.method = "POST" → PermittedWire .body
  | getClient {account} : AsksPolicy env req account → PermittedWire .getClient
  | request {account r} : AsksPolicy env req account → PolicyRead account r → PermittedWire (.request r)

/-- The limiter comes first, and nothing is done for a request that it has not let through. -/
def MayServe (h : ServedHist) : Wire ⊕ Op → Prop
  | .inl (.ok ip) => h = [] ∧ ip = req.key cfg
  | .inl g => Passed cfg req h ∧ PermittedWire env req g
  | .inr op => Passed cfg req h ∧ Permitted cfg req h op

/-- The answers to the requests of the front end itself. -/
def ServedBy (h : ServedHist) (served : Request → Except Json Json) : Prop :=
  ∀ r a t, ⟨.inl (.request r), a, t⟩ ∈ h → a = served r

/-- A receipt in a response was read from the store, for a caller with the secret; a policy is the readout of what the node
answered for it. -/
structure Exposes (h : ServedHist) (resp : Response) : Prop where
  receipt : ∀ receipt, resp.body = .status (some receipt) → authOk cfg req = true ∧
    ∃ id t, lastSegment req.url "/status/" = some id ∧ ⟨.inr (.getReceipt id), .ok (some receipt), t⟩ ∈ h
  policy : ∀ out, resp.body = .policy out → ∃ account, lastSegment req.url "/policy/" = some account ∧
    ∀ served, ServedBy h served → out = getPolicy cfg.encodeAccountID (nodeOf served) account

/-- A settlement runs for what the body of a request asks. -/
def Settling.Enters (h : ServedHist) (l : Call) (f : Outcome → Response) : Prop :=
  ∃ b, Submitted cfg req b h ∧ l = settleCall b ∧ f = sendOutcome

/-- A response of the front end itself is no reply of a settlement. -/
def Answered (h : ServedHist) (resp : Response) : Prop := (∀ r, resp.body ≠ .reply r) ∧ Exposes cfg req h resp

end

section
variable {cfg : HttpConfig} {env : Env} {req : HttpRequest}

theorem Passed.suffix {h h' : ServedHist} (hp : Passed cfg req h) (hs : h <:+ h') : Passed cfg req h' :=
  hp.imp fun _ hmem => hs.subset hmem

theorem Submitted.suffix {b : Json} {h h' : ServedHist} (hb : Submitted cfg req b h) (hs : h <:+ h') :
    Submitted cfg req b h' :=
  ⟨hb.route, hb.auth, hb.passed.suffix hs, hb.received.imp fun _ hr => hr.imp fun _ hr => ⟨hs.subset hr.1, hr.2⟩⟩

theorem Permitted.suffix {h h' : ServedHist} {op : Op} (hp : Permitted cfg req h op) (hs : h <:+ h') :
    Permitted cfg req h' op := by
  cases hp with
  | status hget hauth hid => exact .status hget hauth hid
  | simulate hroute hmcp => exact .simulate hroute hmcp
  | settle hb => exact .settle (hb.suffix hs)

variable (cfg env req) in
/-- What a program that serves the request comes to from a history on. -/
structure Serves (h : ServedHist) (p : Serving Response) : Prop where
  fronts : Fronts (code env) (memorySilence env).silent (Settling.Enters cfg req) (Answered cfg req) h p
  obeys : Prog.Obeys (MayServe cfg env req) (Exposes cfg req) h p

/-! ## What each route comes to -/

section
variable {h : ServedHist}

theorem exposes_of_ne {resp : Response} (hstatus : ∀ receipt, resp.body ≠ .status (some receipt))
    (hpolicy : ∀ out, resp.body ≠ .policy out) : Exposes cfg req h resp :=
  ⟨fun receipt hr => absurd hr (hstatus receipt), fun out hr => absurd hr (hpolicy out)⟩

theorem serves_send {status : Nat} {body : ResponseBody} (hreply : ∀ r, body ≠ .reply r)
    (hstatus : ∀ receipt, body ≠ .status (some receipt)) (hpolicy : ∀ out, body ≠ .policy out) :
    Serves cfg env req h (send status body) :=
  ⟨.done ⟨hreply, exposes_of_ne hstatus hpolicy⟩, exposes_of_ne hstatus hpolicy⟩

theorem serves_sendError {status : Nat} {message : String} : Serves cfg env req h (sendError status message) :=
  serves_send (by simp) (by simp) (by simp)

theorem serves_own {g : Wire} {k : WireRes g → Nat → Serving Response} (hmay : MayServe cfg env req h (.inl g))
    (hk : ∀ r t, Serves cfg env req (⟨.inl g, r, t⟩ :: h) (k r t)) : Serves cfg env req h (.call (.inl g) k) :=
  ⟨.own fun r t => (hk r t).fronts, hmay, fun r t => (hk r t).obeys⟩

theorem serves_silent {op : Op} {k : Res op → Nat → Serving Response} (hsilent : (memorySilence env).silent op = true)
    (hmay : MayServe cfg env req h (.inr op)) (hk : ∀ r t, Serves cfg env req (⟨.inr op, r, t⟩ :: h) (k r t)) :
    Serves cfg env req h (.call (.inr op) k) :=
  ⟨.silent hsilent fun r t => (hk r t).fronts, hmay, fun r t => (hk r t).obeys⟩

theorem serves_rateLimited {next : Serving Response}
    (hnext : ∀ t, Serves cfg env req [⟨.inl (.ok (req.key cfg)), true, t⟩] next) :
    Serves cfg env req [] (rateLimited cfg req next) := by
  refine serves_own ⟨rfl, rfl⟩ ?_
  rintro (_ | _) t
  · exact serves_sendError
  · exact hnext t

theorem serves_withBody {next : Json → Serving Response} (hpost : req.method = "POST") (hpassed : Passed cfg req h)
    (hnext : ∀ a b t, readBody cfg a = .body b → Serves cfg env req (⟨.inl .body, a, t⟩ :: h) (next b)) :
    Serves cfg env req h (withBody cfg next) := by
  refine serves_own ⟨hpassed, .body hpost⟩ fun a t => ?_
  split
  · exact serves_sendError
  · exact serves_sendError
  · exact serves_sendError
  · exact serves_sendError
  · exact hnext a _ t ‹_›

/-- From a request that was let through on, every operation is allowed that is always allowed later. -/
theorem obeys_innerMap {β : Type} {p : Prog Op Res β} {f : β → Response}
    (hmay : ∀ h', h <:+ h' → ∀ op, MayServe cfg env req h' (.inr op)) (hfin : ∀ h' b, Exposes cfg req h' (f b)) :
    Prog.Obeys (MayServe cfg env req) (Exposes cfg req) h (p.innerMap f : Serving Response) := by
  induction p generalizing h with
  | ret b => exact hfin _ b
  | call op k ih =>
    exact ⟨hmay h List.suffix_rfl op, fun r t => ih r t fun h' hs => hmay h' ((List.suffix_cons _ _).trans hs)⟩

end

theorem passed_head (t : Nat) (h : ServedHist) : Passed cfg req (⟨.inl (.ok (req.key cfg)), true, t⟩ :: h) :=
  ⟨t, List.mem_cons_self⟩

/-- Reading a policy: one request after the other, each allowed, and in the end the readout of the answers. -/
theorem serves_respond {account : String} (hasks : AsksPolicy env req account) {p : Reading PolicyReadout} {h : ServedHist}
    {g : History Request Served} (hpassed : Passed cfg req h)
    (hreads : Prog.Obeys (fun _ r => PolicyRead account r) (fun _ _ => True) g p)
    (hanswered : ∀ served, ServedBy h served → p.Answered served (getPolicy cfg.encodeAccountID (nodeOf served) account)) :
    Serves cfg env req h (Reading.respond (fun out => ⟨200, .policy out⟩) p) := by
  induction p generalizing h g with
  | ret out =>
    have hexposes : Exposes cfg req h ⟨200, .policy out⟩ := by
      refine ⟨by simp, ?_⟩
      rintro out' hr
      cases hr
      exact ⟨account, hasks.segment, hanswered⟩
    exact ⟨.done ⟨by simp, hexposes⟩, hexposes⟩
  | call r k ih =>
    refine serves_own ⟨hpassed, .request hasks hreads.1⟩ fun a t => ?_
    refine ih a t (hpassed.suffix (List.suffix_cons _ h)) (hreads.2 a t) fun served hserved => ?_
    obtain rfl : a = served r := hserved r a t List.mem_cons_self
    exact hanswered served (fun r' a' t' hmem => hserved r' a' t' (List.mem_cons_of_mem _ hmem)) t

theorem serves_policyRoute (hroute : req.method = "GET" ∧ startsWith req.url "/policy/" = true) :
    Serves cfg env req [] (policyRoute cfg env req) := by
  refine serves_rateLimited fun t => ?_
  split
  · exact serves_sendError
  · rename_i account hsegment
    split_ifs with haddress hnode
    · exact serves_sendError
    · exact serves_sendError
    · have hasks : AsksPolicy env req account := ⟨hroute, hsegment, by simpa using haddress, by simpa using hnode⟩
      have hpassed : Passed cfg req [⟨.inl (.ok (req.key cfg)), true, t⟩] := passed_head t []
      refine serves_own ⟨hpassed, .getClient hasks⟩ fun c t' => ?_
      cases c with
      | error e => exact serves_send (by simp) (by simp) (by simp)
      | ok =>
        exact serves_respond hasks (hpassed.suffix (List.suffix_cons _ _)) (reads_getPolicy.asks []) fun served _ =>
          reads_getPolicy.answered served

theorem serves_statusRoute (hget : req.method = "GET" ∧ startsWith req.url "/status/" = true) : Serves cfg env req [] (statusRoute cfg req) := by
  unfold statusRoute
  split_ifs with hauth
  · exact serves_sendError
  replace hauth : authOk cfg req = true := by simpa using hauth
  refine serves_rateLimited fun t => ?_
  split
  · exact serves_sendError
  · rename_i id hid
    split_ifs
    · exact serves_sendError
    · refine serves_silent rfl ⟨passed_head t [], .status hget hauth hid⟩ ?_
      rintro (e | receipt) t'
      · exact serves_send (by simp) (by simp) (by simp)
      · have hexposes : Exposes cfg req [⟨.inr (.getReceipt id), .ok receipt, t'⟩, ⟨.inl (.ok (req.key cfg)), true, t⟩]
            ⟨200, .status receipt⟩ := by
          refine ⟨?_, by simp⟩
          rintro receipt' hr
          cases hr
          exact ⟨hauth, id, t', hid, List.mem_cons_self⟩
        exact ⟨.done ⟨by simp, hexposes⟩, hexposes⟩

theorem serves_simulateRoute (hroute : req.method = "POST" ∧ req.url = "/simulate") :
    Serves cfg env req [] (simulateRoute cfg req) := by
  unfold simulateRoute
  split_ifs with hmcp
  · exact serves_sendError
  replace hmcp : cfg.X402_MCP_URL = true := by simpa using hmcp
  refine serves_rateLimited fun t => serves_withBody hroute.1 (passed_head t []) fun a b t' hb => ?_
  refine serves_silent rfl ⟨(passed_head t []).suffix (List.suffix_cons _ _), .simulate hroute hmcp⟩ fun sim t'' => ?_
  exact serves_send (by simp) (by simp) (by simp)

theorem serves_verifyRoute (hpost : req.method = "POST") : Serves cfg env req [] (verifyRoute cfg env req) :=
  serves_rateLimited fun t => serves_withBody hpost (passed_head t []) fun _ _ _ _ =>
    serves_send (by simp) (by simp) (by simp)

theorem serves_settleRoute (hroute : req.method = "POST" ∧ req.url = "/settle") :
    Serves cfg env req [] (settleRoute cfg env req) := by
  unfold settleRoute
  split_ifs with hauth
  · exact serves_sendError
  replace hauth : authOk cfg req = true := by simpa using hauth
  refine serves_rateLimited fun t => serves_withBody hroute.1 (passed_head t []) fun a b t' hb => ?_
  have hsubmitted : Submitted cfg req b [⟨.inl .body, a, t'⟩, ⟨.inl (.ok (req.key cfg)), true, t⟩] :=
    ⟨hroute, hauth, (passed_head t []).suffix (List.suffix_cons _ _), a, t', List.mem_cons_self, hb⟩
  refine ⟨.enter ⟨b, hsubmitted, rfl, rfl⟩, obeys_innerMap (fun h' hs op => ?_) fun h' out => ?_⟩
  · exact ⟨hsubmitted.passed.suffix hs, .settle (hsubmitted.suffix hs)⟩
  · cases out with
    | reply r => cases r <;> exact exposes_of_ne (by simp [sendOutcome]) (by simp [sendOutcome])
    | reserved r => exact exposes_of_ne (by simp [sendOutcome]) (by simp [sendOutcome])

theorem serves_handle (cfg : HttpConfig) (env : Env) (req : HttpRequest) : Serves cfg env req [] (handle cfg env req) := by
  unfold handle
  split_ifs with hhealth hmetrics hauth hsupported hpubkey hpolicy hstatus hsimulate hverify hsettle
  · exact serves_send (by simp) (by simp) (by simp)
  · exact serves_sendError
  · exact serves_send (by simp) (by simp) (by simp)
  · exact serves_send (by simp) (by simp) (by simp)
  · exact serves_rateLimited fun _ => serves_send (by simp) (by simp) (by simp)
  · exact serves_policyRoute hpolicy
  · exact serves_statusRoute hstatus
  · exact serves_simulateRoute hsimulate
  · exact serves_verifyRoute hverify.1
  · exact serves_settleRoute hsettle
  · exact serves_sendError

end

end Xahc.Facilitator

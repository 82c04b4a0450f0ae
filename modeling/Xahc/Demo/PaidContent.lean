/-
From the page to the ledger: the resource server over the runs of the facilitator. Content is served only where a payment under
the replay key of the one presented was settled; and any amount up to the price will do.
-/
import Xahc.Demo.ResourceServer

namespace Xahc.Demo

open Xahc.Data Xahc.Effect Xahc.Facilitator

/-! ## A settlement that succeeds -/

section
variable {env : Env} {σ : Type} {S : System Op Res σ Call Outcome} {s₀ s : σ} {t : Nat} {tr : Trace Op Res Call Outcome}
  {N : Node}

/-- A call of the run that settled a payment under the key. -/
structure SettledUnder (env : Env) (N : Node) (tr : Trace Op Res Call Outcome) (key : String) (receipt : Receipt) (j : Nat)
    (payload req : Json) (deps : Deps) (blob : String) (tx : Tx) (txMeta : Json) : Prop where
  call : label j tr = some (.settle payload req deps)
  key : ∃ v, verifyExact env payload req = .ok v ∧ v.replayId = key
  about : About env N payload req receipt blob tx txMeta

/-- A stored receipt of success is about a payment under its key. -/
theorem settled_of_stored (hb : Behaves S (MayCall env) (Ends env) s₀ t s tr) (hnode : Honest N tr) {j t₀ : Nat}
    {key : String} {receipt : Receipt} {expiryMs : ℚ} {r : Except Json Unit}
    (hp : Event.performed j t₀ (.setReceipt key receipt expiryMs) r ∈ tr) (hsuccess : receipt.success = true) :
    ∃ payload req deps blob tx txMeta, SettledUnder env N tr key receipt j payload req deps blob tx txMeta := by
  obtain ⟨post, pre, s', rfl, hbp, l, hl, hmay⟩ := hb.performed_at hp
  cases l with
  | reserve key' expiryMs' => cases hmay.2
  | settle payload req deps =>
    obtain ⟨a, code, txMeta, hash, hres, rfl, rfl, rfl⟩ := hmay
    have habout := about_of_resolved hres
      (fun blob r t hmem => shows_of_hist hbp (fun e he => List.mem_append_right _ (List.mem_cons_of_mem _ he)) hnode hmem)
      hsuccess
    obtain ⟨h₀, -, hreserved⟩ := hres.reserved
    obtain ⟨h₁, -, hready⟩ := hreserved.ready
    exact ⟨payload, req, deps, a.txBlob, a.tx, txMeta, hl, ⟨a.v, hready.verified, rfl⟩, habout⟩

/-- A settlement that replies with success was of a verified payment, under whose key a payment was settled. -/
theorem settled_of_reply (K : Keeps S) (hcode : S.code = code env) (hs₀ : ∀ key receipt, ¬K.holds s₀ key receipt)
    {v : World Op Res σ Call Outcome} (hv : S.Reach s₀ v) (hnode : Honest N v.trace) {i : Nat} {reply : Reply}
    (hdone : v.tasks i = some (.done (.reply (.ok reply)))) (hsuccess : reply.success = true) {payload req : Json} {deps : Deps}
    (hl : label i v.trace = some (.settle payload req deps)) :
    ∃ ver, verifyExact env payload req = .ok ver ∧ ∃ receipt j payload' req' deps' blob tx txMeta,
      SettledUnder env N v.trace ver.replayId receipt j payload' req' deps' blob tx txMeta := by
  have hlinked := hv.linked fun l => hcode ▸ obeys_code env l
  have hb := hlinked.behaves
  obtain ⟨-, l, hl', hend⟩ : phase i v.trace = .done ∧ ∃ l, label i v.trace = some l ∧
      Ends env l (hist i v.trace) (.reply (.ok reply)) := by
    have htask := hlinked.tasks i
    rwa [hdone] at htask
  obtain rfl : l = .settle payload req deps := Option.some.inj (hl'.symm.trans hl)
  replace hend : Ending env payload req (hist i v.trace) (.ok reply) := hend
  have hshows : ∀ blob r t', (⟨.submitAndWait blob, .ok r, t'⟩ : Entry Op Res) ∈ hist i v.trace → N.Shows blob r :=
    fun blob r t' hmem => shows_of_hist hb (fun _ he => he) hnode hmem
  have hfound : ∀ key receipt t', (⟨.getReceipt key, .ok (some receipt), t'⟩ : Entry Op Res) ∈ hist i v.trace →
      ∃ t₀, Event.performed i t₀ (.getReceipt key) (.ok (some receipt)) ∈ v.trace := by
    intro key receipt t' hmem
    obtain ⟨t₀, -, hp⟩ := hb.performed_of_hist hmem
    exact ⟨t₀, hp⟩
  generalize hist i v.trace = h at hend hshows hfound
  -- only two endings are a success: this settlement's own, or one that an earlier settlement stored
  cases hend with
  | refused _ | unavailable _ _ _ _ | released _ | unknown _ => cases hsuccess
  | @settled _ a _ txMeta _ _ receipt _ _ _ hres hreceipt =>
    subst hreceipt
    obtain ⟨h₀, -, hreserved⟩ := hres.reserved
    obtain ⟨h₁, -, hready⟩ := hreserved.ready
    have habout := about_of_resolved hres (fun blob r t' hmem => hshows _ _ _ (List.mem_cons_of_mem _ hmem)) hsuccess
    exact ⟨a.v, hready.verified, _, i, payload, req, deps, a.txBlob, a.tx, txMeta, hl, ⟨a.v, hready.verified, rfl⟩, habout⟩
  | @replayed _ ver receipt payer t' _ hver =>
    obtain ⟨t₀, hp⟩ := hfound _ _ _ List.mem_cons_self
    obtain ⟨j, t₁, expiryMs, r, hstored⟩ := K.answered hs₀ hb hp
    obtain ⟨payload', req', deps', blob, tx, txMeta, hsettled⟩ := settled_of_stored hb hnode hstored hsuccess
    exact ⟨ver, hver, receipt, j, payload', req', deps', blob, tx, txMeta, hsettled⟩

end

/-! ## The answers of the facilitator -/

/-- A delivered amount as it is sent. -/
def deliveredJson : Delivered → Json
  | .drops s => .str s
  | .token a => .obj [("currency", .str a.currency), ("issuer", .str a.issuer), ("value", .str a.value)]

/-- A flag as it is sent, `null` where it is not known. -/
def boolOrNull : Option Bool → Json
  | some b => .bool b
  | none => .null

/-- A reply as its caller reads it: whether it succeeds, and what the pages say of it. -/
def replyJson : Reply → Json
  | .rejected r =>
    .obj <| [("success", .bool false), ("transaction", .str ""), ("errorReason", .str r.errorReason)] ++
      (r.guardrailHookPresent.map fun b => ("guardrailHookPresent", boolOrNull b)).toList
  | .settled receipt | .replayed receipt _ =>
    .obj <| [("success", .bool receipt.success)] ++ (receipt.transaction.map fun j => ("transaction", j)).toList ++
      [("errorReason", (receipt.errorReason.map Json.str).getD .null)] ++
      (receipt.delivered.map fun d => ("delivered", deliveredJson d)).toList ++
      [("guardrailHookPresent", boolOrNull receipt.guardrailHookPresent)]

/-- The body of an answer to a post, as far as the resource server reads it. -/
def bodyJson : ResponseBody → Json
  | .reply r => replyJson r
  | .verified (.ok _) => .obj [("isValid", .bool true), ("invalidReason", .null)]
  | .verified (.error reason) => .obj [("isValid", .bool false), ("invalidReason", .str reason)]
  | .error message => .obj [("error", .str message)]
  | _ => .obj []

theorem success_bodyJson {body : ResponseBody} (h : ((bodyJson body).get "success").any Json.truthy = true) :
    ∃ r, body = .reply r ∧ r.success = true := by
  cases body with
  | reply r =>
    refine ⟨r, rfl, ?_⟩
    cases r with
    | rejected r => simp [bodyJson, replyJson, Json.get, Json.truthy] at h
    | settled receipt | replayed receipt payer =>
      simp [bodyJson, replyJson, Json.get, Json.truthy] at h
      exact h
  | verified v => cases v <;> simp [bodyJson, Json.get, List.lookup_cons] at h
  | _ => simp [bodyJson, Json.get, List.lookup_cons] at h

/-- The facilitator has answered the post: it is a request of the run, with the path, the secret and the body that was posted,
and the answer is its response. -/
structure AnsweredBy (cfg : HttpConfig) (w : ServiceWorld) (p : FacilitatorPost) (status : Nat) (json : Json) (i : Nat)
    (req : HttpRequest) (resp : Response) : Prop where
  done : w.tasks i = some (.done resp)
  request : label i w.trace = some req
  route : req.method = "POST" ∧ req.url = p.path
  secret : req.secret = p.secret
  body : ∀ a t, ⟨.inl .body, a, t⟩ ∈ hist i w.trace → readBody cfg a = .body p.body
  answer : status = resp.status ∧ json = bodyJson resp.body

/-- All answers in the history came from the facilitator. -/
def FromFacilitator (cfg : HttpConfig) (w : ServiceWorld) (h : ShopHist) : Prop :=
  ∀ e ∈ h, ∀ status json, e.res = .ok (status, json) → ∃ i req resp, AnsweredBy cfg w e.op status json i req resp

/-! ## What was paid -/

section
variable {env : Env} {N : Node} {cfg : HttpConfig} {limiter : InMemoryRateLimiter} {maxEntries : Nat} {w : ServiceWorld}

/-- The payment presented is one of drops to the merchant, of at least one and no more than the price. -/
structure Presented (env : Env) (scfg : ShopConfig) (entry : CatalogEntry) (txBlob : String) (tx : Tx) (ver : Verified)
    (drops : Nat) : Prop where
  verified : verifyExact env (.obj [("txBlob", .str txBlob)]) (requirements scfg entry.priceDrops) = .ok ver
  decode : env.decode txBlob = some tx
  merchant : tx.destination = some scfg.MERCHANT
  commits : Commits tx.amount (.native drops)
  price : 0 < drops ∧ ∃ price, parseStrictDrops entry.priceDrops = some price ∧ drops ≤ price

/-- A request of the run that settled a payment under the replay key. -/
structure Settled (env : Env) (N : Node) (cfg : HttpConfig) (w : ServiceWorld) (key : String) (j : Nat) (req : HttpRequest)
    (b : Json) (receipt : Receipt) (blob : String) (tx : Tx) (txMeta : Json) : Prop where
  request : label j w.trace = some req
  submitted : Submitted cfg req b (hist j w.trace)
  key : ∃ v, verifyExact env (bodyField b "paymentPayload") (bodyField b "paymentRequirements") = .ok v ∧ v.replayId = key
  about : About env N (bodyField b "paymentPayload") (bodyField b "paymentRequirements") receipt blob tx txMeta

theorem parseStrictDrops_pos {s : String} {n : Nat} (h : parseStrictDrops s = some n) : 0 < n := by
  unfold parseStrictDrops at h
  dsimp only at h
  split_ifs at h with _ hrange
  cases h
  omega

/-- Requirements of drops, and nothing else. -/
theorem readRequirements_native {req : Json} {payTo price : String} {scheme : Scheme} {r : Requirements}
    (hobj : req.isObject = true) (hpayTo : req.getString "payTo" = some payTo) (hscheme : readScheme req = .ok scheme)
    (hasset : req.get "asset" = none) (hmax : req.getString "maxAmountRequired" = some price) :
    readRequirements env req = .ok r ↔
      isValidRAddress env payTo = true ∧ ∃ n, parseStrictDrops price = some n ∧ r = ⟨payTo, scheme, .native n⟩ := by
  have hread : ∀ p, readPayTo env req = .ok p ↔ isValidRAddress env payTo = true ∧ p = payTo := by
    intro p
    unfold readPayTo
    rw [hpayTo]
    by_cases h : isValidRAddress env payTo = true <;> simp [h, eq_comm]
  have hceiling : ∀ c, readCeiling env req = .ok c ↔ ∃ n, parseStrictDrops price = some n ∧ c = .native n := by
    intro c
    unfold readCeiling
    rw [hasset, hmax]
    cases h : parseStrictDrops price <;> simp [Json.orElse, h, eq_comm]
  unfold readRequirements
  rw [hobj]
  constructor
  · intro h
    obtain ⟨p, hp, h⟩ := bind_ok.1 h
    obtain ⟨s, hs, h⟩ := bind_ok.1 h
    obtain ⟨c, hc, h⟩ := bind_ok.1 h
    cases h
    obtain ⟨hvalid, rfl⟩ := (hread p).1 hp
    obtain ⟨n, hn, rfl⟩ := (hceiling c).1 hc
    obtain rfl : scheme = s := Except.ok.inj (hscheme.symm.trans hs)
    exact ⟨hvalid, n, hn, rfl⟩
  · rintro ⟨hvalid, n, hn, rfl⟩
    rw [(hread payTo).2 ⟨hvalid, rfl⟩, hscheme, (hceiling _).2 ⟨n, hn, rfl⟩]
    rfl

theorem presented_of_verified {scfg : ShopConfig} {entry : CatalogEntry} {txBlob : String} {ver : Verified}
    (h : verifyExact env (.obj [("txBlob", .str txBlob)]) (requirements scfg entry.priceDrops) = .ok ver) :
    ∃ tx drops, Presented env scfg entry txBlob tx ver drops := by
  obtain ⟨blob, r, tx, paid, hblob, hr, htx, hpay, hpaid, -⟩ := verifyExact_parts h
  obtain ⟨-, price, hprice, rfl⟩ := (readRequirements_native rfl rfl rfl rfl rfl).1 hr
  obtain ⟨text, drops, hamount, hdrops, -, hle, -⟩ := checkNative_parts hpaid
  obtain rfl : txBlob = blob := Option.some.inj (readBlob_ok hblob)
  refine ⟨tx, drops, h, decodeBlob_ok htx, (checkPayment_ok hpay).2.2.1, ⟨text, hamount, hdrops⟩, ?_⟩
  exact ⟨parseStrictDrops_pos hdrops, price, hprice, hle⟩

/-- The parts of a verification that succeeds. -/
theorem verifyExact_of_parts {payload req : Json} {blob : String} {r : Requirements} {tx : Tx} {paid : Paid} {sig : Bool}
    (hblob : readBlob payload = .ok blob) (hr : readRequirements env req = .ok r) (htx : decodeBlob env blob = .ok tx)
    (hpay : checkPayment env tx r.payTo = .ok ()) (hpaid : checkAmount env tx.amount r.scheme r.ceiling = .ok paid)
    (hexp : checkExpiry tx = .ok ()) (hsig : checkSignature env blob tx = .ok sig) : ∃ v, verifyExact env payload req = .ok v := by
  refine ⟨⟨tx.account, paid.amount, paid.asset, r.scheme, sig, replayKeyFor tx⟩, ?_⟩
  unfold verifyExact
  rw [hblob]
  show (readRequirements env req >>= _) = _
  rw [hr]
  show (decodeBlob env blob >>= _) = _
  rw [htx]
  show (checkPayment env tx r.payTo >>= _) = _
  rw [hpay]
  show (checkAmount env tx.amount r.scheme r.ceiling >>= _) = _
  rw [hpaid]
  show (checkExpiry tx >>= _) = _
  rw [hexp]
  show (checkSignature env blob tx >>= _) = _
  rw [hsig]
  rfl

/-- The terms name the price as the exact amount, and the facilitator is asked about any amount up to it: what it finds valid is
what it would find valid on the terms of some price up to the one that is asked. -/
theorem any_amount (env : Env) (scfg : ShopConfig) (payload : Json) (path : String) {priceDrops : String} {price : Nat}
    (hprice : parseStrictDrops priceDrops = some price) :
    (∃ v, verifyExact env payload (requirements scfg priceDrops) = .ok v) ↔
      ∃ text drops, parseStrictDrops text = some drops ∧ drops ≤ price ∧
        ∃ v, verifyExact env payload (accept scfg path text) = .ok v := by
  constructor
  · rintro ⟨v, h⟩
    obtain ⟨blob, r, tx, paid, hblob, hr, htx, hpay, hpaid, hexp, hsig, -⟩ := verifyExact_parts h
    obtain ⟨hvalid, n, hn, rfl⟩ := (readRequirements_native rfl rfl rfl rfl rfl).1 hr
    obtain rfl : price = n := Option.some.inj (hprice.symm.trans hn)
    obtain ⟨text, drops, hamount, hdrops, -, hle, -⟩ := checkNative_parts hpaid
    refine ⟨text, drops, hdrops, hle, ?_⟩
    have hexact : checkAmount env tx.amount .exact (.native drops) = .ok (.native drops) := by
      simp [checkAmount, checkNative, hamount, hdrops]
    exact verifyExact_of_parts hblob ((readRequirements_native rfl rfl rfl rfl rfl).2 ⟨hvalid, drops, hdrops, rfl⟩) htx hpay
      hexact hexp hsig
  · rintro ⟨text, drops, hdrops, hle, v, h⟩
    obtain ⟨blob, r, tx, paid, hblob, hr, htx, hpay, hpaid, hexp, hsig, -⟩ := verifyExact_parts h
    obtain ⟨hvalid, n, hn, rfl⟩ := (readRequirements_native rfl rfl rfl rfl rfl).1 hr
    obtain rfl : drops = n := Option.some.inj (hdrops.symm.trans hn)
    obtain ⟨text', drops', hamount, hdrops', -, -, hexact⟩ := checkNative_parts hpaid
    obtain rfl := hexact rfl
    have hupto : checkAmount env tx.amount .upto (.native price) = .ok (.native drops') := by
      simp [checkAmount, checkNative, hamount, hdrops', hle]
    exact verifyExact_of_parts hblob ((readRequirements_native rfl rfl rfl rfl rfl).2 ⟨hvalid, price, hprice, rfl⟩) htx hpay
      hupto hexp hsig

/-- Content is served only for a payment to the merchant within the price, under whose replay key the facilitator settled a
payment for a request that presented the secret. -/
theorem content_paid (hw : (service cfg env).system.Reach (limiter, .new maxEntries) w)
    (hnode : ∀ x ∈ submitResults (innerTrace w.trace), N.Shows x.1 x.2) (scfg : ShopConfig) (sreq : ShopRequest)
    (O : Prog.Env FacilitatorPost PostRes) (hO : FromFacilitator cfg w (Prog.run O [] (shop scfg sreq)).1)
    {c : List (String × Json)} {transaction delivered hook : Option Json}
    (hpage : (Prog.run O [] (shop scfg sreq)).2.page = .content c transaction delivered hook) :
    ∃ entry txBlob tx ver drops, Pays scfg sreq entry txBlob ∧ c = entry.content ∧
      Presented env scfg entry txBlob tx ver drops ∧
      ∃ j req b receipt blob tx' txMeta, Settled env N cfg w ver.replayId j req b receipt blob tx' txMeta := by
  obtain ⟨-, entry, txBlob, hsold⟩ := ((obeys_shop scfg sreq).run_fin O).content _ _ _ _ hpage
  rw [hpage] at hsold
  generalize (Prog.run O [] (shop scfg sreq)).1 = h at hO hsold
  cases hsold with
  | @sold r t settle t' hpays hvalid hsuccess =>
    obtain ⟨i, req, resp, hanswered⟩ := hO _ List.mem_cons_self 200 settle rfl
    obtain ⟨reply, hreply, hok⟩ := success_bodyJson (hanswered.answer.2 ▸ hsuccess)
    obtain ⟨v, hv, hback⟩ := exists_backs hw
    obtain ⟨req', hreq', hown | ⟨h₀, l, f, out, hsuf, ⟨b, hb, rfl, rfl⟩, hresp, hl, hout⟩⟩ := hback.outcome hanswered.done
    · exact absurd hreply (hown.1 reply)
    obtain rfl : req = req' := Option.some.inj (hanswered.request.symm.trans hreq')
    -- the settlement behind the answer is the one of the posted body, and it replied what was answered
    obtain ⟨a, ta, hmem, hread⟩ := hb.received
    obtain rfl : b = paymentBody scfg txBlob entry.priceDrops := by
      have hposted := hanswered.body a ta (hsuf.subset hmem)
      rw [hread] at hposted
      cases hposted
      rfl
    obtain rfl : out = .reply (.ok reply) := by
      rw [hresp] at hreply
      cases out with
      | reserved r => cases hreply
      | reply r =>
        cases r with
        | error e => cases hreply
        | ok r =>
          cases hreply
          rfl
    have hresults : submitResults v.trace = submitResults (innerTrace w.trace) := by
      refine hback.calls.filterMap_eq fun e he => ?_
      split at he
      · rfl
      · cases he
    obtain ⟨ver, hver, receipt, j, payload', reqs', deps', blob, tx', txMeta, hsettled⟩ :=
      settled_of_reply (memoryKeeps env) rfl memoryKeeps_new hv (fun x hx => hnode x (hresults ▸ hx)) hout hok hl
    obtain ⟨tx, drops, hpresented⟩ := presented_of_verified hver
    obtain ⟨reqj, bj, hreqj, hbj, hcall⟩ := submitted_of_label hv hback hsettled.call
    cases hcall
    exact ⟨entry, txBlob, tx, ver, drops, hpays, rfl, hpresented, j, reqj, bj, receipt, blob, tx', txMeta, hreqj, hbj,
      hsettled.key, hsettled.about⟩

end

/-! ## A resource of ten XAH, sold for one -/

namespace Sample

open Facilitator.Sample

deriving instance DecidableEq for HttpRequest, Arrival

/-- A resource server with a secret, which knows one payment header. -/
def merchant : ShopConfig where
  MERCHANT := payee
  SHARED_SECRET := "open sesame"
  decode h := if h = "eyJ0eEJsb2IiOi4uLn0=" then some (payload blob1) else none

/-- A request for the dearer page, with that header. -/
def premiumPlus : ShopRequest := ⟨"GET", "/premium-plus", some "eyJ0eEJsb2IiOi4uLn0="⟩

/-- The one body that parses is what the merchant posts. -/
def facilitatorHttp : HttpConfig where
  SHARED_SECRET := "open sesame"
  X402_TRUST_PROXY := 0
  X402_MCP_URL := false
  parse d := if d = utf8 "pay".toList then some (paymentBody merchant blob1 "10000000") else none
  encodeAccountID := none

/-- A body that arrives in two parts. -/
def arrival : Arrival := ⟨[utf8 "pa".toList, utf8 "y".toList], true⟩

/-- The surroundings of a request: its body arrives, and the node answers. -/
def wire : (op : Wire ⊕ Op) → Answers (service facilitatorHttp env).Choice (inMemory env).Choice op
  | .inl (.ok _) => ()
  | .inl .body => arrival
  | .inl .getClient => .ok ()
  | .inl (.request _) => .error .null
  | .inr op => nodeAnswer ledger100 (.ok (validated hash1 "1000000")) op

/-- A post with a secret, or without one. -/
def post (path : String) (secret : Option String) : HttpRequest :=
  { remoteAddress := some "10.0.0.9", xForwardedFor := none, method := "POST", url := path, secret := secret }

/-- The payment is verified, then settled. -/
def verifiedThenSettled : List (Action (service facilitatorHttp env).system) :=
  [.spawn 0 (post "/verify" none), .resume 0, .perform 0 wire, .resume 0] ++
    [.spawn 1 (post "/settle" (some "open sesame")), .resume 1, .perform 1 wire, .resume 1, .resume 1] ++
    (List.replicate 3 [.perform 1 wire, .resume 1]).flatten ++ [.resume 1, .perform 1 wire, .resume 1, .resume 1, .resume 1]

/-- The world after the verification and the settlement. -/
def settledWorld : ServiceWorld := (service facilitatorHttp env).system.play (.new 2 1000, .new 100000) verifiedThenSettled

/-- What the facilitator answered to its request `i`. -/
def answerOf (i : Nat) : Except String (Nat × Json) :=
  match settledWorld.tasks i with
  | some (.done resp) => .ok (resp.status, bodyJson resp.body)
  | _ => .error "fetch failed"

/-- The facilitator as the resource server sees it: the two requests of the run. -/
def facilitator : Prog.Env FacilitatorPost PostRes := fun _ p => (answerOf (if p.path = "/verify" then 0 else 1), 0)

/-- The body that arrives is the one that was posted. -/
def arrivesAsPosted : Entry (Wire ⊕ Op) (Answers WireRes Res) → Bool
  | ⟨.inl .body, a, _⟩ => a = arrival
  | _ => true

/-- The page is content. -/
def isContent : Page → Bool
  | .content .. => true
  | _ => false

end Sample

open Sample

theorem reach_settledWorld : (service facilitatorHttp env).system.Reach (.new 2 1000, .new 100000) settledWorld :=
  (service facilitatorHttp env).system.reach_play ..

/-- The answers of the sample come from its run. -/
theorem from_settledWorld : FromFacilitator facilitatorHttp settledWorld (Prog.run facilitator [] (shop merchant premiumPlus)).1 := by
  have hlabel : label 0 settledWorld.trace = some (post "/verify" none) ∧
      label 1 settledWorld.trace = some (post "/settle" (some "open sesame")) := by decide +kernel
  have hbodies : ∀ i < 2, (hist i settledWorld.trace).all arrivesAsPosted = true := by decide +kernel
  have hposted : ∀ entry txBlob, Pays merchant premiumPlus entry txBlob →
      paymentBody merchant txBlob entry.priceDrops = paymentBody merchant blob1 "10000000" := by
    rintro entry txBlob ⟨-, hentry, hpayment⟩
    cases hentry
    cases hpayment
    rfl
  have hread : readBody facilitatorHttp arrival = .body (paymentBody merchant blob1 "10000000") := rfl
  -- both answers are responses of the settled world, request 0 to the verify and request 1 to the settle
  have hanswered : ∀ i, i < 2 → ∀ req, label i settledWorld.trace = some req → ∀ p : FacilitatorPost, req.method = "POST" →
      req.url = p.path → req.secret = p.secret → p.body = paymentBody merchant blob1 "10000000" → ∀ status json,
        answerOf i = .ok (status, json) → ∃ i req resp, AnsweredBy facilitatorHttp settledWorld p status json i req resp := by
    intro i hi req hreq p hmethod hurl hsecret hbody status json hanswer
    unfold answerOf at hanswer
    split at hanswer
    · rename_i resp hdone
      cases hanswer
      refine ⟨i, req, resp, hdone, hreq, ⟨hmethod, hurl⟩, hsecret, fun a t hmem => ?_, rfl, rfl⟩
      have ha : a = arrival := by simpa [arrivesAsPosted] using List.all_eq_true.1 (hbodies i hi) _ hmem
      rw [ha, hread, hbody]
    · cases hanswer
  rintro ⟨p, r, t⟩ he status json hres
  obtain ⟨post, pre, hrun⟩ := List.append_of_mem he
  obtain ⟨k, hvisits, hans, -⟩ := Prog.exists_visits facilitator hrun List.nil_suffix
  replace hans : answerOf (if p.path = "/verify" then 0 else 1) = .ok (status, json) := (congrArg Prod.fst hans).trans hres
  cases (obeys_shop merchant premiumPlus).visits hvisits with
  | verify hpays =>
    exact hanswered 0 (by omega) _ hlabel.1 _ rfl rfl rfl (hposted _ _ hpays) status json hans
  | settle hpays =>
    exact hanswered 1 (by omega) _ hlabel.2 _ rfl rfl rfl (hposted _ _ hpays) status json hans

theorem content_paid_plus :
    ∃ c transaction delivered hook,
      (Prog.run facilitator [] (shop merchant premiumPlus)).2.page = .content c transaction delivered hook ∧
      ∃ entry txBlob tx ver drops, Pays merchant premiumPlus entry txBlob ∧ c = entry.content ∧
        Presented env merchant entry txBlob tx ver drops ∧ ∃ j req b receipt blob tx' txMeta,
          Settled env node facilitatorHttp settledWorld ver.replayId j req b receipt blob tx' txMeta := by
  have hcontent : isContent (Prog.run facilitator [] (shop merchant premiumPlus)).2.page = true := by decide +kernel
  have hnode : ∀ x ∈ submitResults (innerTrace settledWorld.trace), node.Shows x.1 x.2 := by decide +kernel
  obtain ⟨c, transaction, delivered, hook, hpage⟩ : ∃ c transaction delivered hook,
      (Prog.run facilitator [] (shop merchant premiumPlus)).2.page = .content c transaction delivered hook := by
    generalize (Prog.run facilitator [] (shop merchant premiumPlus)).2.page = page at hcontent
    cases page with
    | content c transaction delivered hook => exact ⟨c, transaction, delivered, hook, rfl⟩
    | _ => cases hcontent
  exact ⟨c, transaction, delivered, hook, hpage,
    content_paid reach_settledWorld hnode merchant premiumPlus facilitator from_settledWorld hpage⟩

/-- One XAH is valid for the resource of ten, and is not on its terms. -/
theorem any_amount_plus :
    (∃ v, verifyExact env (payload blob1) (requirements merchant "10000000") = .ok v) ∧
      ¬∃ v, verifyExact env (payload blob1) (accept merchant "/premium-plus" "10000000") = .ok v := by
  have hexact : (verifyExact env (payload blob1) (accept merchant "/premium-plus" "1000000")).toOption.isSome = true := by
    decide +kernel
  have hterms : (verifyExact env (payload blob1) (accept merchant "/premium-plus" "10000000")).toOption.isSome = false := by
    decide +kernel
  have hprice : parseStrictDrops "10000000" = some 10000000 := by decide +kernel
  constructor
  · refine (any_amount env merchant (payload blob1) "/premium-plus" hprice).2
      ⟨"1000000", 1000000, by decide +kernel, by omega, ?_⟩
    cases h : verifyExact env (payload blob1) (accept merchant "/premium-plus" "1000000") with
    | ok v => exact ⟨v, rfl⟩
    | error e =>
      rw [h] at hexact
      cases hexact
  · rintro ⟨v, h⟩
    rw [h] at hterms
    cases hterms

end Xahc.Demo

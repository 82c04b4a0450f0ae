/-
The resource server: it asks for a payment, has the facilitator verify and settle the one it is given, and serves what was
asked for once that is settled. Every step of it waits for the facilitator, which is a service of its own.
-/
import Xahc.Facilitator.ServiceRuns

namespace Xahc.Demo

open Xahc.Data Xahc.Effect Xahc.Facilitator

/-! ## The shop -/

/-- A page for sale. -/
structure CatalogEntry where
  priceDrops : String
  label : String
  content : List (String × Json)

/-- The pages by their path. -/
def CATALOG : List (String × CatalogEntry) :=
  [("/premium",
      { priceDrops := "1000000"
        label := "premium"
        content :=
          [("resource", .str "premium"),
           ("data", .str "The agent autonomously paid 1 XAH and unlocked the premium feed."),
           ("secretInsight", .str "x402 + Xahau Hooks = budget-enforced agentic payments.")] }),
   ("/premium-plus",
      { priceDrops := "10000000"
        label := "premium-plus"
        content :=
          [("resource", .str "premium-plus"),
           ("data", .str "If you can read this, the guardrail FAILED — the agent should never afford this.")] })]

/-- The environment of the server. -/
structure ShopConfig where
  MERCHANT : String
  SHARED_SECRET : String
  /-- `JSON.parse` of what a header says in base64; none where it throws. -/
  decode : String → Option Json

/-- What the handler reads of a request. -/
structure ShopRequest where
  method : String
  url : String
  /-- `headers["x-payment"]`, where it is a string. -/
  xPayment : Option String

/-- 120 seconds. -/
def maxTimeoutSeconds : Json := .num ⟨false, 12, 1, by decide⟩

section
variable (cfg : ShopConfig)

/-- The terms of a resource. -/
def accept (resourcePath priceDrops : String) : Json :=
  .obj
    [("scheme", .str "exact"), ("network", .str "xahau"), ("payTo", .str cfg.MERCHANT), ("maxAmountRequired", .str priceDrops),
     ("resource", .str resourcePath), ("description", .str ("Access to " ++ resourcePath)),
     ("mimeType", .str "application/json"), ("maxTimeoutSeconds", maxTimeoutSeconds)]

/-- The body of a 402. -/
def paymentRequirements (resourcePath priceDrops : String) : Json :=
  .obj [("x402Version", .num ⟨false, 2, 0, by decide⟩), ("accepts", .arr [accept cfg resourcePath priceDrops])]

/-- What the facilitator is told of the terms: not the scheme. -/
def requirements (priceDrops : String) : Json :=
  .obj [("payTo", .str cfg.MERCHANT), ("maxAmountRequired", .str priceDrops), ("network", .str "xahau"),
    ("maxTimeoutSeconds", maxTimeoutSeconds)]

/-- The blob in the payment header. -/
def parsePaymentHeader (req : ShopRequest) : Option String :=
  match req.xPayment with
  | none => none
  | some h => if h = "" then none else (cfg.decode h).bind fun json => (json.getString "txBlob").filter (· ≠ "")

/-! ## The facilitator's client -/

/-- A post to the facilitator; the secret is the header `x-x402-secret`. -/
structure FacilitatorPost where
  path : String
  secret : Option String
  body : Json

/-- The status and the JSON of an answer, or what `fetch` threw. -/
@[reducible] def PostRes (_ : FacilitatorPost) : Type := Except String (Nat × Json)

/-- A post to the facilitator; only `/settle` gets the secret. -/
def facilitatorPost (path : String) (body : Json) : FacilitatorPost :=
  ⟨path, if cfg.SHARED_SECRET ≠ "" ∧ path = "/settle" then some cfg.SHARED_SECRET else none, body⟩

/-- The body of both posts. -/
def paymentBody (txBlob priceDrops : String) : Json :=
  .obj [("paymentPayload", .obj [("txBlob", .str txBlob)]), ("paymentRequirements", requirements cfg priceDrops)]

/-! ## Pages -/

/-- The pages of the server. The links to the explorer are left out. -/
inductive Page
  | health
  | notFound
  | challenge (reqs : Json)
  | unverified (reason reqs : Json)
  | unsettled (reason transaction guardrailHookPresent reqs : Json)
  | content (content : List (String × Json)) (transaction delivered guardrailHookPresent : Option Json)
  | internal (detail : String)

/-- The status and the page of a response. -/
structure ShopResponse where
  status : Nat
  page : Page

/-- The handler, between its posts. -/
abbrev Shop := Prog FacilitatorPost PostRes ShopResponse

/-- `json[k] || other` -/
def fieldOr (json : Json) (k : String) (other : Json) : Json := ((json.get k).filter Json.truthy).getD other

/-- The reason where the facilitator's status is not 200. -/
def httpReason (path : String) (status : Nat) : Json := .str ("facilitator " ++ path ++ " HTTP " ++ toString status)

/-- The answer has the status 200 and the field. -/
def approves (field : String) (status : Nat) (json : Json) : Bool := status = 200 && (json.get field).any Json.truthy

/-- The second post: content for a settled payment. -/
def settlePayment (entry : CatalogEntry) (reqs : Json) (txBlob : String) : Shop :=
  .call (facilitatorPost cfg "/settle" (paymentBody cfg txBlob entry.priceDrops)) fun
    | .error e, _ => pure ⟨500, .internal e⟩
    | .ok (status, settle), _ =>
      if !approves "success" status settle then
        pure ⟨402, .unsettled (fieldOr settle "errorReason" (httpReason "/settle" status))
          (fieldOr settle "transaction" .null) ((Json.orElse (settle.get "guardrailHookPresent") none).getD .null) reqs⟩
      else
        pure ⟨200, .content entry.content (settle.get "transaction") (settle.get "delivered")
          (settle.get "guardrailHookPresent")⟩

/-- The first post, and the second where it is approved. -/
def sell (entry : CatalogEntry) (reqs : Json) (txBlob : String) : Shop :=
  .call (facilitatorPost cfg "/verify" (paymentBody cfg txBlob entry.priceDrops)) fun
    | .error e, _ => pure ⟨500, .internal e⟩
    | .ok (status, verify), _ =>
      if !approves "isValid" status verify then
        pure ⟨402, .unverified (fieldOr verify "invalidReason" (httpReason "/verify" status)) reqs⟩
      else settlePayment cfg entry reqs txBlob

/-- The request handler. -/
def shop (req : ShopRequest) : Shop :=
  if req.method = "GET" ∧ req.url = "/health" then pure ⟨200, .health⟩
  else match if req.method = "GET" then CATALOG.lookup req.url else none with
  | none => pure ⟨404, .notFound⟩
  | some entry =>
    let reqs := paymentRequirements cfg req.url entry.priceDrops
    match parsePaymentHeader cfg req with
    | none => pure ⟨402, .challenge reqs⟩
    | some txBlob => sell cfg entry reqs txBlob

end

/-! ## What is sold -/

/-- The request asks for the resource and carries the payment. -/
structure Pays (cfg : ShopConfig) (req : ShopRequest) (entry : CatalogEntry) (txBlob : String) : Prop where
  method : req.method = "GET"
  entry : CATALOG.lookup req.url = some entry
  payment : parsePaymentHeader cfg req = some txBlob

/-- The facilitator's answer to a post has the status 200 and the field. -/
def Approved (field : String) (r : Except String (Nat × Json)) : Prop :=
  ∃ json, r = .ok (200, json) ∧ (json.get field).any Json.truthy = true

section
variable {cfg : ShopConfig} {req : ShopRequest}

theorem approves_iff {field : String} {status : Nat} {json : Json} :
    approves field status json = true ↔ Approved field (.ok (status, json)) := by
  rw [approves, Bool.and_eq_true, decide_eq_true_iff]
  constructor
  · rintro ⟨rfl, h⟩
    exact ⟨json, rfl, h⟩
  · rintro ⟨json', h, htruthy⟩
    cases h
    exact ⟨rfl, htruthy⟩

/-- The posts of a request with their answers, the latest first. -/
abbrev ShopHist := History FacilitatorPost PostRes

/-- The two posts for a payment, one after the other: the same body, and the secret on the second alone. -/
inductive MayPost (cfg : ShopConfig) (req : ShopRequest) : ShopHist → FacilitatorPost → Prop
  | verify {entry txBlob} : Pays cfg req entry txBlob →
      MayPost cfg req [] ⟨"/verify", none, paymentBody cfg txBlob entry.priceDrops⟩
  | settle {entry txBlob r t} : Pays cfg req entry txBlob → Approved "isValid" r →
      MayPost cfg req [⟨⟨"/verify", none, paymentBody cfg txBlob entry.priceDrops⟩, r, t⟩]
        ⟨"/settle", if cfg.SHARED_SECRET = "" then none else some cfg.SHARED_SECRET, paymentBody cfg txBlob entry.priceDrops⟩

/-- The page is the content of the resource that was paid for. -/
inductive Sold (cfg : ShopConfig) (req : ShopRequest) (entry : CatalogEntry) (txBlob : String) : ShopHist → Page → Prop
  | sold {r t settle t'} : Pays cfg req entry txBlob → Approved "isValid" r →
      (settle.get "success").any Json.truthy = true →
      Sold cfg req entry txBlob
        [⟨⟨"/settle", if cfg.SHARED_SECRET = "" then none else some cfg.SHARED_SECRET, paymentBody cfg txBlob entry.priceDrops⟩,
            .ok (200, settle), t'⟩,
          ⟨⟨"/verify", none, paymentBody cfg txBlob entry.priceDrops⟩, r, t⟩]
        (.content entry.content (settle.get "transaction") (settle.get "delivered") (settle.get "guardrailHookPresent"))

/-- A page with content is sold, and nothing less than two approvals goes by without content. -/
structure Serves (cfg : ShopConfig) (req : ShopRequest) (h : ShopHist) (resp : ShopResponse) : Prop where
  content : ∀ c transaction delivered hook, resp.page = .content c transaction delivered hook →
    resp.status = 200 ∧ ∃ entry txBlob, Sold cfg req entry txBlob h resp.page
  approved : (∃ settle verify, h = [settle, verify] ∧ Approved "success" settle.res) →
    ∃ entry txBlob, Sold cfg req entry txBlob h resp.page

theorem verifyPost_eq (body : Json) : facilitatorPost cfg "/verify" body = ⟨"/verify", none, body⟩ := by
  rw [facilitatorPost, if_neg]
  rintro ⟨-, h⟩
  simp at h

theorem settlePost_eq (body : Json) :
    facilitatorPost cfg "/settle" body = ⟨"/settle", if cfg.SHARED_SECRET = "" then none else some cfg.SHARED_SECRET, body⟩ := by
  unfold facilitatorPost
  by_cases h : cfg.SHARED_SECRET = "" <;> simp [h]

theorem obeys_settlePayment {entry : CatalogEntry} {reqs : Json} {txBlob : String} {r : Except String (Nat × Json)} {t : Nat}
    (hpays : Pays cfg req entry txBlob) (hvalid : Approved "isValid" r) :
    Prog.Obeys (MayPost cfg req) (Serves cfg req)
      [⟨⟨"/verify", none, paymentBody cfg txBlob entry.priceDrops⟩, r, t⟩] (settlePayment cfg entry reqs txBlob) := by
  unfold settlePayment
  rw [settlePost_eq]
  refine ⟨.settle hpays hvalid, ?_⟩
  rintro (e | ⟨status, settle⟩) t'
  · constructor
    · simp
    · rintro ⟨settle, verify, h, json, hres, -⟩
      cases h
      cases hres
  · by_cases happroved : approves "success" status settle = true
    · obtain ⟨json, hjson, hsuccess⟩ := approves_iff.1 happroved
      cases hjson
      simp only [happroved, Bool.not_true, Bool.false_eq_true, if_false]
      exact ⟨fun _ _ _ _ _ => ⟨rfl, entry, txBlob, .sold hpays hvalid hsuccess⟩,
        fun _ => ⟨entry, txBlob, .sold hpays hvalid hsuccess⟩⟩
    · simp only [happroved, Bool.not_false, if_true]
      constructor
      · simp
      · rintro ⟨s, v, h, hres⟩
        cases h
        exact absurd (approves_iff.2 hres) happroved

/-- A page without content, before the second post. -/
theorem serves_other {h : ShopHist} {resp : ShopResponse} (hshort : h.length ≤ 1)
    (hpage : ∀ c transaction delivered hook, resp.page ≠ .content c transaction delivered hook) : Serves cfg req h resp := by
  constructor
  · intro c transaction delivered hook h
    exact absurd h (hpage c transaction delivered hook)
  · rintro ⟨settle, verify, rfl, -⟩
    simp at hshort

theorem obeys_shop (cfg : ShopConfig) (req : ShopRequest) : Prog.Obeys (MayPost cfg req) (Serves cfg req) [] (shop cfg req) := by
  unfold shop
  split_ifs with hhealth hget
  · exact serves_other (by simp) (by simp)
  · split
    · exact serves_other (by simp) (by simp)
    · rename_i entry hentry
      dsimp only
      split
      · exact serves_other (by simp) (by simp)
      · rename_i txBlob hpayment
        have hpays : Pays cfg req entry txBlob := ⟨hget, hentry, hpayment⟩
        unfold sell
        rw [verifyPost_eq]
        refine ⟨.verify hpays, ?_⟩
        rintro (e | ⟨status, verify⟩) t
        · exact serves_other (by simp) (by simp)
        · by_cases hvalid : approves "isValid" status verify = true
          · simp only [hvalid, Bool.not_true, Bool.false_eq_true, if_false]
            exact obeys_settlePayment hpays (approves_iff.1 hvalid)
          · simp only [hvalid, Bool.not_false, if_true]
            exact serves_other (by simp) (by simp)
  · exact serves_other (by simp) (by simp)

/-- Whatever the facilitator answers, the server posts a payment to be verified, and to be settled once it was valid, with the
same requirements and its secret on the second post alone; and it serves content exactly when both were approved. -/
theorem shop_sells (cfg : ShopConfig) (req : ShopRequest) (O : Prog.Env FacilitatorPost PostRes) :
    (∀ e pre post, (Prog.run O [] (shop cfg req)).1 = post ++ e :: pre → MayPost cfg req pre e.op) ∧
    ((∃ c transaction delivered hook, (Prog.run O [] (shop cfg req)).2.page = .content c transaction delivered hook) ↔
      ∃ entry txBlob, Sold cfg req entry txBlob (Prog.run O [] (shop cfg req)).1 (Prog.run O [] (shop cfg req)).2.page) ∧
    ((∃ settle verify, (Prog.run O [] (shop cfg req)).1 = [settle, verify] ∧ Approved "success" settle.res) ↔
      ∃ entry txBlob, Sold cfg req entry txBlob (Prog.run O [] (shop cfg req)).1 (Prog.run O [] (shop cfg req)).2.page) := by
  have hobeys := obeys_shop cfg req
  obtain ⟨hcontent, happroved⟩ := hobeys.run_fin O
  refine ⟨fun e pre post hrun => ?_, ⟨?_, ?_⟩, happroved, ?_⟩
  · obtain ⟨k, hvisits, -⟩ := Prog.exists_visits O hrun (List.nil_suffix)
    exact hobeys.visits hvisits
  · rintro ⟨c, transaction, delivered, hook, h⟩
    exact (hcontent c transaction delivered hook h).2
  · rintro ⟨entry, txBlob, hsold⟩
    generalize (Prog.run O [] (shop cfg req)).1 = h at hsold
    generalize (Prog.run O [] (shop cfg req)).2.page = page at hsold ⊢
    cases hsold
    exact ⟨_, _, _, _, rfl⟩
  · rintro ⟨entry, txBlob, hsold⟩
    generalize (Prog.run O [] (shop cfg req)).1 = h at hsold ⊢
    generalize (Prog.run O [] (shop cfg req)).2.page = page at hsold
    cases hsold with
    | sold _ _ hsuccess => exact ⟨_, _, rfl, _, rfl, hsuccess⟩

end

end Xahc.Demo

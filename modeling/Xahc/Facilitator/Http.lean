/-
The HTTP front end: the route of a request, what it passes before anything is done for it, and the status it is answered with.
A settlement runs behind it, once the secret was presented, the limiter let the request through and its body was read.
-/
import Xahc.Data.Utf8
import Xahc.Effect.Front
import Xahc.Facilitator.ClientIp
import Xahc.Facilitator.GetPolicy
import Xahc.Facilitator.Memory

namespace Xahc.Facilitator

open Xahc.Data Xahc.Effect

/-! ## Requests -/

/-- A request, its headers parsed. -/
structure HttpRequest extends Req where
  method : String
  url : String
  /-- `headers["x-x402-secret"]`, where it is a string. -/
  secret : Option String

/-- The settings of the server. -/
structure HttpConfig where
  SHARED_SECRET : String
  X402_TRUST_PROXY : Nat
  X402_MCP_URL : Bool
  /-- `JSON.parse` of a body's text. -/
  parse : Bytes → Option Json
  /-- `encodeAccountID` of the address codec, where it is installed. -/
  encodeAccountID : Option (Bytes → Option String)

/-- The bytes a body may have. -/
def MAX_BODY_BYTES : Nat := 64 * 1024

/-- What arrives of a body: its chunks, and whether the stream then ends or fails. -/
structure Arrival where
  chunks : List Bytes
  ends : Bool

/-- What `readBody` comes to. -/
inductive Received
  | tooLarge
  | failed
  | invalid
  | body (b : Json)

/-- The chunks up to the cap. -/
def collect (size : Nat) : List Bytes → Option Bytes
  | [] => some []
  | c :: cs => if size + c.length > MAX_BODY_BYTES then none else (collect (size + c.length) cs).map (c ++ ·)

/-- `readBody`: the chunks are joined while they fit, decoded and parsed. -/
def readBody (cfg : HttpConfig) (a : Arrival) : Received :=
  match collect 0 a.chunks with
  | none => .tooLarge
  | some d =>
    if !a.ends then .failed
    else if d = [] then .body (.obj [])
    else match cfg.parse d with
      | none => .invalid
      | some b => .body b

/-- The shared secret was presented, or none is configured. -/
def authOk (cfg : HttpConfig) (req : HttpRequest) : Bool :=
  if cfg.SHARED_SECRET = "" then true
  else match req.secret with
    | none => false
    | some provided =>
      if provided = "" then false
      else if (utf8 provided.toList).length ≠ (utf8 cfg.SHARED_SECRET.toList).length then false
      else utf8 provided.toList = utf8 cfg.SHARED_SECRET.toList

/-- The bytes of an escaped text. -/
def unescape : List Char → Option Bytes
  | [] => some []
  | '%' :: a :: b :: s => do
    let hi ← hexVal a
    let lo ← hexVal b
    return .ofNat (16 * hi + lo) :: (← unescape s)
  | '%' :: _ => none
  | c :: s => do return String.utf8EncodeChar c ++ (← unescape s)

/-- `decodeURIComponent`; it throws where the bytes are no UTF-8. -/
def decodeURIComponent (s : List Char) : Option String := do String.fromUTF8? ⟨(← unescape s).toArray⟩

/-- `url.startsWith(path)`. -/
def startsWith (url path : String) : Bool := path.toList.isPrefixOf url.toList

/-- `decodeURIComponent(url.slice(path.length).split("?")[0])` -/
def lastSegment (url path : String) : Option String :=
  decodeURIComponent ((url.toList.drop path.toList.length).takeWhile (· ≠ '?'))

/-! ## Responses -/

/-- What a response says. -/
inductive ResponseBody
  | error (message : String)
  | health (verbose : Bool)
  | metrics
  | supported
  | pubkey
  | policy (out : PolicyReadout)
  | policyUnknown (account : String)
  /-- `found`, `status` and the stored receipt. -/
  | status (receipt : Option Receipt)
  | storeUnavailable
  | simulation (sim : Simulation)
  | verified (v : Except String Verified)
  | reply (r : Reply)

/-- A status and a body. -/
structure Response where
  status : Nat
  body : ResponseBody

/-- What the front end itself waits for: the limiter's verdict, the body, and the node where a policy is read. -/
inductive Wire
  | ok (ip : String)
  | body
  | getClient
  | request (r : Request)

/-- What the operations of the front end give. -/
@[reducible] def WireRes : Wire → Type
  | .ok _ => Bool
  | .body => Arrival
  | .getClient => Except String Unit
  | .request r => Served r

/-- A handler, between its own operations and those of a settlement. -/
abbrev Serving (α : Type) := Prog (Wire ⊕ Op) (Answers WireRes Res) α

/-- A program of requests, made by the front end itself, and the response for its outcome. -/
def Reading.respond {α : Type} (f : α → Response) : Reading α → Serving Response
  | .ret a => .ret (f a)
  | .call r k => .call (.inl (.request r)) fun a t => Reading.respond f (k a t)

/-- A response. -/
def send (status : Nat) (body : ResponseBody) : Serving Response := pure ⟨status, body⟩

/-- A response with an error text. -/
def sendError (status : Nat) (message : String) : Serving Response := send status (.error message)

/-! ## Routes -/

section
variable (cfg : HttpConfig) (env : Env) (req : HttpRequest)

/-- What the limiter counts the request under. -/
def HttpRequest.key : String := clientIp req.toReq cfg.X402_TRUST_PROXY

/-- The limiter is asked for the client's address, and a request it refuses ends with 429. -/
def rateLimited (next : Serving Response) : Serving Response :=
  .call (.inl (.ok (req.key cfg))) fun ok _ => if ok then next else sendError 429 "rate limited"

/-- The body, then the route; a field of `null` cannot be read. -/
def withBody (next : Json → Serving Response) : Serving Response :=
  .call (.inl .body) fun a _ =>
    match readBody cfg a with
    | .tooLarge => sendError 413 "request body too large"
    | .invalid => sendError 400 "bad request"
    | .failed | .body .null => sendError 500 "internal error"
    | .body b => next b

/-- A field of the body; `undefined` is taken as `null` is. -/
def bodyField (b : Json) (k : String) : Json := (b.get k).getD .null

/-- The options of a settlement that a body can set. -/
def depsOf (b : Json) : Deps where
  dryRun := match b.get "dryRun" with
    | some (.bool true) => true
    | _ => false
  preSimReject := match b.get "preSimReject" with
    | some (.bool true) => true
    | _ => false

/-- The call of `settle` a body asks for. -/
def settleCall (b : Json) : Call := .settle (bodyField b "paymentPayload") (bodyField b "paymentRequirements") (depsOf b)

/-- A retryable reply is answered with 503, and what is thrown with 500. -/
def sendOutcome : Outcome → Response
  | .reply (.ok r) => ⟨if r.retryable then 503 else 200, .reply r⟩
  | .reply (.error _) | .reserved _ => ⟨500, .error "internal error"⟩

/-- `GET /policy/:account`. -/
def policyRoute : Serving Response :=
  rateLimited cfg req <|
    match lastSegment req.url "/policy/" with
    | none => sendError 500 "internal error"
    | some account =>
      if !isValidRAddress env account then sendError 400 "invalid account address"
      else if !env.XAHAU_WSS then sendError 503 "node not configured (set XAHAU_WSS)"
      else .call (.inl .getClient) fun c _ =>
        match c with
        | .error _ => send 503 (.policyUnknown account)
        | .ok () => Reading.respond (fun out => ⟨200, .policy out⟩) (getPolicy cfg.encodeAccountID client account)

/-- `GET /status/:id`, behind the secret. -/
def statusRoute : Serving Response :=
  if !authOk cfg req then sendError 401 "unauthorized"
  else rateLimited cfg req <|
    match lastSegment req.url "/status/" with
    | none => sendError 500 "internal error"
    | some id =>
      if id = "" then sendError 400 "missing id"
      else .call (.inr (.getReceipt id)) fun r _ =>
        match r with
        | .error _ => send 503 .storeUnavailable
        | .ok receipt => send 200 (.status receipt)

/-- `POST /simulate`. -/
def simulateRoute : Serving Response :=
  if !cfg.X402_MCP_URL then sendError 404 "simulation not enabled (set X402_MCP_URL)"
  else rateLimited cfg req <| withBody cfg fun b =>
    .call (.inr (.simulatePayment (bodyField b "paymentPayload") (bodyField b "paymentRequirements"))) fun sim _ =>
      send 200 (.simulation sim)

/-- `POST /verify`. -/
def verifyRoute : Serving Response :=
  rateLimited cfg req <| withBody cfg fun b =>
    send 200 (.verified (verifyExact env (bodyField b "paymentPayload") (bodyField b "paymentRequirements")))

/-- `POST /settle`, behind the secret. -/
def settleRoute : Serving Response :=
  if !authOk cfg req then sendError 401 "unauthorized"
  else rateLimited cfg req <| withBody cfg fun b => (code env (settleCall b)).innerMap sendOutcome

/-- The listener of the server. -/
def handle : Serving Response :=
  if req.method = "GET" ∧ req.url = "/health" then send 200 (.health (authOk cfg req))
  else if req.method = "GET" ∧ req.url = "/metrics" then
    if !authOk cfg req then sendError 401 "unauthorized" else send 200 .metrics
  else if req.method = "GET" ∧ req.url = "/supported" then send 200 .supported
  else if req.method = "GET" ∧ req.url = "/pubkey" then rateLimited cfg req (send 200 .pubkey)
  else if req.method = "GET" ∧ startsWith req.url "/policy/" then policyRoute cfg env req
  else if req.method = "GET" ∧ startsWith req.url "/status/" then statusRoute cfg req
  else if req.method = "POST" ∧ req.url = "/simulate" then simulateRoute cfg req
  else if req.method = "POST" ∧ req.url = "/verify" then verifyRoute cfg env req
  else if req.method = "POST" ∧ req.url = "/settle" then settleRoute cfg env req
  else sendError 404 "not found"

end

end Xahc.Facilitator

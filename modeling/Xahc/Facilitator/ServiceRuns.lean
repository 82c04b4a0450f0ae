/-
What holds in every run of the service: it refines its settlements, submits a payment at most once, shows no receipt that was
not earned, and lets an address through no more often than the limiter says.
-/
import Xahc.Facilitator.AtMostOnce
import Xahc.Facilitator.RateLimit
import Xahc.Facilitator.Service
import Xahc.Facilitator.Soundness

namespace Xahc.Facilitator

open Xahc.Data Xahc.Effect

/-- What happened on the server. -/
abbrev ServiceRun := Trace (Wire ⊕ Op) (Answers WireRes Res) HttpRequest Response

/-- The server, with its limiter and its store. -/
abbrev ServiceWorld := World (Wire ⊕ Op) (Answers WireRes Res) (InMemoryRateLimiter × InMemoryStore) HttpRequest Response

section
variable {cfg : HttpConfig} {env : Env} {maxEntries : Nat} {limiter : InMemoryRateLimiter} {w : ServiceWorld}

/-! ## The settlements behind the service -/

/-- The settlements of the server run as settlements alone do. -/
abbrev Backs (cfg : HttpConfig) (env : Env) (w : ServiceWorld) (v : World Op Res InMemoryStore Call Outcome) : Prop :=
  Simulates (memorySilence env) (Settling.Enters cfg) (Answered cfg) w v

theorem exists_backs (hw : (service cfg env).system.Reach (limiter, .new maxEntries) w) :
    ∃ v, (inMemory env).Reach (.new maxEntries) v ∧ Backs cfg env w v :=
  (service cfg env).simulates (memorySilence env) (fun req => (serves_handle cfg env req).fronts) hw

theorem service_behaves (hw : (service cfg env).system.Reach (limiter, .new maxEntries) w) :
    Behaves (service cfg env).system (MayServe cfg env) (Exposes cfg) (limiter, .new maxEntries) w.clock w.shared w.trace :=
  hw.behaves fun req => (serves_handle cfg env req).obeys

theorem settle_behaves {v : World Op Res InMemoryStore Call Outcome} (hv : (inMemory env).Reach (.new maxEntries) v) :
    Runs env maxEntries v.clock v.shared v.trace := hv.behaves (obeys_code env)

/-- A settlement behind the service runs for a request that was let in with its body. -/
theorem submitted_of_label {v : World Op Res InMemoryStore Call Outcome} (hv : (inMemory env).Reach (.new maxEntries) v)
    (hback : Backs cfg env w v) {i : Nat} {l : Call} (hl : label i v.trace = some l) :
    ∃ req b, label i w.trace = some req ∧ Submitted cfg req b (hist i w.trace) ∧ l = settleCall b := by
  have htask : v.tasks i ≠ none := by
    intro hnone
    have hfresh := (hv.linked (obeys_code env)).tasks i
    rw [hnone] at hfresh
    cases hl.symm.trans (label_of_fresh hfresh)
  obtain ⟨req, h₀, f, hreq, hsuf, b, hb, rfl, rfl⟩ := hback.entered hl htask
  exact ⟨req, b, hreq, hb.suffix hsuf, rfl⟩

/-- A run of the service is a run of settlements on the same store, with the same calls to the store and the node but for the
reads of a receipt and the simulations of its own; a response is the front end's own, or a settlement's for the body of a
request that presented the secret. -/
theorem service_refines (hw : (service cfg env).system.Reach (limiter, .new maxEntries) w) :
    ∃ v, (inMemory env).Reach (.new maxEntries) v ∧ v.clock = w.clock ∧ v.shared.Same w.clock w.shared.2 ∧
      SameCalls (memorySilence env) w.trace v.trace ∧
      ∀ i resp, w.tasks i = some (.done resp) → ∃ req, label i w.trace = some req ∧
        (Answered cfg req (hist i w.trace) resp ∨ ∃ b out, Submitted cfg req b (hist i w.trace) ∧ resp = sendOutcome out ∧
          label i v.trace = some (settleCall b) ∧ v.tasks i = some (.done out)) := by
  obtain ⟨v, hv, hback⟩ := exists_backs hw
  refine ⟨v, hv, hback.clock, hback.shared, hback.calls, fun i resp hresp => ?_⟩
  obtain ⟨req, hreq, hown | ⟨h₀, l, f, out, hsuf, ⟨b, hb, rfl, rfl⟩, rfl, hl, hout⟩⟩ := hback.outcome hresp
  · exact ⟨req, hreq, .inl hown⟩
  · exact ⟨req, hreq, .inr ⟨b, out, hb.suffix hsuf, rfl, hl, hout⟩⟩

/-! ## At most one submit -/

theorem timely_behind {L : Ledger env} {tr : ServiceRun} {tr' : Run} (h : SameCalls (memorySilence env) tr tr')
    (htime : Timely env L (innerTrace tr)) : Timely env L tr' := by
  have hreads : ledgerReads tr' = ledgerReads (innerTrace tr) := by
    refine h.filterMap_eq fun e he => ?_
    split at he
    · rfl
    · cases he
  have hcaptured : captured tr' = captured (innerTrace tr) := by
    refine h.filterMap_eq fun e he => ?_
    split at he
    · rfl
    · cases he
  have hreserved : reservations tr' = reservations (innerTrace tr) := by
    refine h.filterMap_eq fun e he => ?_
    split at he
    · rfl
    · cases he
  have hanswers : submitAnswers tr' = submitAnswers (innerTrace tr) := by
    refine h.filterMap_eq fun e he => ?_
    split at he
    · rfl
    · cases he
  constructor
  · rw [hreads]
    exact htime.reads
  · rw [hreads, hcaptured]
    exact htime.prompt
  · rw [hanswers, hreserved]
    exact htime.submits

theorem mem_innerTrace {tr : ServiceRun} {e : Event Op Res Call Outcome} :
    e ∈ innerTrace tr ↔ ∃ e' ∈ tr, e'.inner? = some e := List.mem_filterMap

/-- A payment in its window is submitted again only after its submit failed with a `tem` error, and whatever is submitted was
in the body of a request that presented the secret and was let through, and was verified. -/
theorem service_submits_once (L : Ledger env) (hw : (service cfg env).system.Reach (limiter, .new maxEntries) w)
    (htime : Timely env L (innerTrace w.trace)) :
    (∀ post mid pre i j ti tj b b' tx lls,
      w.trace = post ++ .called j tj (.inr (.submitAndWait b')) :: (mid ++ .called i ti (.inr (.submitAndWait b)) :: pre) →
        env.decode b = some tx → env.decode b' = some tx → tx.lastLedgerSequence = some lls → L.index tj < lls →
          ∃ t e, Event.resumed i t (.inr (.submitAndWait b)) (.error e) ∈ mid ∧ submitDefinitelyNotApplied e = true) ∧
    ∀ i t b, Event.called i t (.inr (.submitAndWait b)) ∈ w.trace → ∃ req body v, label i w.trace = some req ∧
      Submitted cfg req body (hist i w.trace) ∧ (bodyField body "paymentPayload").getString "txBlob" = some b ∧
        verifyExact env (bodyField body "paymentPayload") (bodyField body "paymentRequirements") = .ok v := by
  obtain ⟨v, hv, hback⟩ := exists_backs hw
  have hruns := settle_behaves hv
  constructor
  · intro post mid pre i j ti tj b b' tx lls htr hd hd' hlls hopen
    -- the two submits are submits of the settlements behind, in the same order
    have hinner : (innerTrace w.trace : Run) = innerTrace post ++ .called j tj (.submitAndWait b') ::
        (innerTrace mid ++ .called i ti (.submitAndWait b) :: innerTrace pre) := by
      simp [innerTrace, htr, Event.inner?]
    obtain ⟨post', mid', pre', htr', hmid⟩ := hback.calls.between rfl rfl hinner
    obtain ⟨t, e, hresumed, htem⟩ := once_of_timely (timely_behind hback.calls htime) hruns htr' hd hd' hlls hopen
    obtain ⟨e', he', hinner'⟩ := mem_innerTrace.1 (hmid _ hresumed rfl)
    refine ⟨t, e, ?_, htem⟩
    unfold Event.inner? at hinner'
    split at hinner' <;> cases hinner'
    exact he'
  · intro i t b hcalled
    have hcalled' : Event.called i t (.submitAndWait b) ∈ v.trace :=
      (hback.calls.mem_iff rfl).2 (mem_innerTrace.2 ⟨_, hcalled, rfl⟩)
    obtain ⟨post, pre, htr⟩ := List.append_of_mem hcalled'
    rw [htr] at hruns
    obtain ⟨-, l, -, hl, hmay⟩ := hruns.called_may
    rw [← htr] at hl
    obtain ⟨req, body, hreq, hbody, rfl⟩ := submitted_of_label hv hback hl
    obtain ⟨a, hres, rfl⟩ := hmay
    obtain ⟨h₀, -, hready⟩ := hres.ready
    exact ⟨req, body, a.v, hreq, hbody, hready.txBlob, hready.verified⟩

/-! ## Receipts that are shown -/

/-- Every receipt in the store of the service was stored by a settlement. -/
theorem service_stored {t : Nat} {s : InMemoryRateLimiter × InMemoryStore} {tr : ServiceRun} {key : String} {receipt : Receipt}
    (hb : Behaves (service cfg env).system (MayServe cfg env) (Exposes cfg) (limiter, .new maxEntries) t s tr) :
    (∃ expiry, s.2.receipts.lookup key = some (receipt, expiry)) →
      ∃ j t₁ expiryMs r, Event.performed j t₁ (.inr (.setReceipt key receipt expiryMs)) r ∈ tr := by
  refine hb.induct (I := fun _ s tr => (∃ expiry, s.2.receipts.lookup key = some (receipt, expiry)) →
    ∃ j t₁ expiryMs r, Event.performed j t₁ (.inr (.setReceipt key receipt expiryMs)) r ∈ tr) ?_ ?_ ?_ ?_
  · rintro ⟨expiry, h⟩
    cases h
  · exact fun t d s tr ih => ih
  · intro e s tr _ ih h
    obtain ⟨j, t₁, expiryMs, r, hmem⟩ := ih h
    exact ⟨j, t₁, expiryMs, r, List.mem_cons_of_mem _ hmem⟩
  · rintro i t op c s tr - - ih ⟨expiry, h⟩
    have hkept : (∃ expiry, s.2.receipts.lookup key = some (receipt, expiry)) →
        ∃ j t₁ expiryMs r, Event.performed j t₁ (.inr (.setReceipt key receipt expiryMs)) r ∈
          .performed i t op ((service cfg env).system.perform t op c s).2 :: tr := by
      intro hs
      obtain ⟨j, t₁, expiryMs, r, hmem⟩ := ih hs
      exact ⟨j, t₁, expiryMs, r, List.mem_cons_of_mem _ hmem⟩
    cases op with
    | inl g => exact hkept ⟨expiry, h⟩
    | inr op =>
      rcases performInMemory_receipts h with h | rfl
      · exact hkept ⟨expiry, h⟩
      · exact ⟨i, t, _, _, List.mem_cons_self⟩

/-- A successful receipt that `/status` shows, it shows to a caller with the secret, and the receipt is about the payment in
the body of a request to settle. -/
theorem status_sound {N : Node} (hw : (service cfg env).system.Reach (limiter, .new maxEntries) w)
    (hnode : Honest N (innerTrace w.trace)) {i : Nat} {resp : Response} {receipt : Receipt}
    (hdone : w.tasks i = some (.done resp)) (hbody : resp.body = .status (some receipt)) (hsuccess : receipt.success = true) :
    ∃ req, label i w.trace = some req ∧ authOk cfg req = true ∧ ∃ j req' body blob tx txMeta,
      label j w.trace = some req' ∧ Submitted cfg req' body (hist j w.trace) ∧
        About env N (bodyField body "paymentPayload") (bodyField body "paymentRequirements") receipt blob tx txMeta := by
  obtain ⟨v, hv, hback⟩ := exists_backs hw
  have hb := service_behaves hw
  obtain ⟨req, hreq, hown | ⟨h₀, l, f, out, -, ⟨b, -, -, rfl⟩, rfl, -⟩⟩ := hback.outcome hdone
  · obtain ⟨hauth, id, t, -, hread⟩ := hown.2.receipt receipt hbody
    refine ⟨req, hreq, hauth, ?_⟩
    -- the receipt was in the store when it was read, so a settlement had stored it
    obtain ⟨t₀, -, hp⟩ := hb.performed_of_hist hread
    obtain ⟨post, pre, htr⟩ := List.append_of_mem hp
    rw [htr] at hb
    obtain ⟨-, s', hcut⟩ := hb.cut
    obtain ⟨-, s'', hbp, -, c, hperf, -⟩ := hcut.inv
    have hheld : (s''.2.getReceipt id t₀).2 = some receipt := Except.ok.inj (congrArg Prod.snd hperf)
    obtain ⟨j, t₁, expiryMs, r, hstored⟩ := service_stored hbp (InMemoryStore.getReceipt_some hheld)
    have hstored' : Event.performed j t₁ (.inr (.setReceipt id receipt expiryMs)) r ∈ w.trace :=
      htr ▸ List.mem_append_right _ (List.mem_cons_of_mem _ hstored)
    have hbehind : Event.performed j t₁ (.setReceipt id receipt expiryMs) r ∈ v.trace :=
      (hback.calls.mem_iff rfl).2 (mem_innerTrace.2 ⟨_, hstored', rfl⟩)
    have hresults : submitResults v.trace = submitResults (innerTrace w.trace) := by
      refine hback.calls.filterMap_eq fun e he => ?_
      split at he
      · rfl
      · cases he
    obtain ⟨payload, reqs, deps, v', blob, tx, paid, txMeta, hl, -, habout⟩ :=
      about_of_stored (settle_behaves hv) (fun x hx => hnode x (hresults ▸ hx)) hbehind hsuccess
    obtain ⟨req', body, hreq', hbody', hcall⟩ := submitted_of_label hv hback hl
    cases hcall
    exact ⟨j, req', body, blob, tx, txMeta, hreq', hbody', habout⟩
  · cases out with
    | reply r => cases r <;> cases hbody
    | reserved r => cases hbody

/-! ## Admission -/

/-- A decision of the limiter. -/
def decision? : Event (Wire ⊕ Op) (Answers WireRes Res) HttpRequest Response → Option (RateCall × Bool)
  | .performed _ t (.inl (.ok ip)) ok => some (⟨ip, t⟩, ok)
  | _ => none

/-- The decisions in a run, the first one first. -/
def admissions (tr : ServiceRun) : List (RateCall × Bool) := (tr.filterMap decision?).reverse

/-- How many requests of the address are let through between `s` and `t`. -/
def admitted (ip : String) (s t : ℚ) (tr : ServiceRun) : Nat :=
  (tr.filterMap decision?).countP fun c => c.1.ip = ip ∧ s ≤ c.1.now ∧ c.1.now ≤ t ∧ c.2 = true

theorem decisions_concat (c : RateCall) : ∀ (cs : List RateCall) (l : InMemoryRateLimiter),
    decisions InMemoryRateLimiter.ok l (cs ++ [c]) = decisions InMemoryRateLimiter.ok l cs ++
      [((cs.foldl (fun l c => (l.ok c.ip c.now).1) l).ok c.ip c.now).2]
  | [], _ => rfl
  | c' :: cs, l => by
    rw [List.cons_append, decisions, decisions_concat c cs, decisions, List.cons_append, List.foldl_cons]

/-- The limiter has decided the calls of the run in their order. -/
structure Limited (limiter : InMemoryRateLimiter) (t : Nat) (s : InMemoryRateLimiter × InMemoryStore) (tr : ServiceRun) :
    Prop where
  decisions : (admissions tr).map Prod.snd = decisions InMemoryRateLimiter.ok limiter ((admissions tr).map Prod.fst)
  limiter : s.1 = ((admissions tr).map Prod.fst).foldl (fun l c => (l.ok c.ip c.now).1) limiter
  sorted : (((admissions tr).map Prod.fst).map RateCall.now).Pairwise (· ≤ ·)
  past : ∀ c ∈ admissions tr, c.1.now ≤ t

theorem admissions_skip {e : Event (Wire ⊕ Op) (Answers WireRes Res) HttpRequest Response} (he : decision? e = none)
    (tr : ServiceRun) : admissions (e :: tr) = admissions tr := by rw [admissions, List.filterMap_cons_none he, admissions]

theorem service_limited {t : Nat} {s : InMemoryRateLimiter × InMemoryStore} {tr : ServiceRun}
    (hb : Behaves (service cfg env).system (MayServe cfg env) (Exposes cfg) (limiter, .new maxEntries) t s tr) :
    Limited limiter t s tr := by
  refine hb.induct (I := Limited limiter) ?_ ?_ ?_ ?_
  · exact ⟨rfl, rfl, .nil, by simp [admissions]⟩
  · rintro t d s tr ⟨hdecisions, hlimiter, hsorted, hpast⟩
    exact ⟨hdecisions, hlimiter, hsorted, fun c hc => (hpast c hc).trans (by exact_mod_cast Nat.le_add_right t d)⟩
  · rintro e s tr hmove ⟨hdecisions, hlimiter, hsorted, hpast⟩
    have hskip : admissions (e :: tr) = admissions tr := by
      refine admissions_skip ?_ tr
      cases e with
      | performed i t op r => exact absurd rfl (hmove i t op r)
      | _ => rfl
    constructor <;> rwa [hskip]
  · rintro i t op c s tr - - ⟨hdecisions, hlimiter, hsorted, hpast⟩
    -- an operation that is no call of the limiter changes neither its state nor the decisions
    have hother : decision? (.performed i t op ((service cfg env).system.perform t op c s).2) = none →
        ((service cfg env).system.perform t op c s).1.1 = s.1 → Limited limiter t ((service cfg env).system.perform t op c s).1
          (.performed i t op ((service cfg env).system.perform t op c s).2 :: tr) := by
      intro hnone hsame
      constructor <;> rw [admissions_skip hnone]
      · exact hdecisions
      · exact hsame.trans hlimiter
      · exact hsorted
      · exact hpast
    cases op with
    | inr op => exact hother rfl rfl
    | inl g =>
      cases g with
      | body | getClient | request => exact hother rfl rfl
      | ok ip =>
        have hcons : admissions (.performed i t (.inl (.ok ip)) (s.1.ok ip t).2 :: tr) =
            admissions tr ++ [(⟨ip, t⟩, (s.1.ok ip t).2)] := by simp [admissions, decision?]
        show Limited limiter t ((s.1.ok ip t).1, s.2) (.performed i t (.inl (.ok ip)) (s.1.ok ip t).2 :: tr)
        constructor <;> rw [hcons]
        · rw [List.map_append, List.map_append, hdecisions, List.map_singleton, List.map_singleton, decisions_concat,
            ← hlimiter]
        · rw [List.map_append, List.foldl_append, ← hlimiter]
          rfl
        · rw [List.map_append, List.map_append, List.pairwise_append]
          refine ⟨hsorted, by simp, fun x hx y hy => ?_⟩
          obtain ⟨c, hc, rfl⟩ := List.mem_map.1 hx
          obtain ⟨d, hd, rfl⟩ := List.mem_map.1 hc
          simp only [List.map_singleton, List.mem_singleton] at hy
          exact hy ▸ hpast d hd
        · rintro c hc
          rcases List.mem_append.1 hc with hc | hc
          · exact hpast c hc
          · rw [List.mem_singleton.1 hc]

/-- An address is let through in an interval for a full bucket and what is refilled in it, and whatever is done for a request
is done after it was let through, on a route and with a secret that permit it; the front end itself asks the node where a
policy is asked for, and asks no more than a readout does. -/
theorem service_admits {max windowMs : ℚ} (hmax : 1 ≤ max) (hwindow : 0 < windowMs)
    (hw : (service cfg env).system.Reach (.new max windowMs, .new maxEntries) w) :
    (∀ (ip : String) (s t : ℚ), s ≤ t → (admitted ip s t w.trace : ℚ) ≤ max + (t - s) * max / windowMs) ∧
    ∀ i t op, Event.called i t op ∈ w.trace → ∃ req, label i w.trace = some req ∧ (op = .inl (.ok (req.key cfg)) ∨
      (∃ t', Event.performed i t' (.inl (.ok (req.key cfg))) true ∈ w.trace) ∧
        (∀ g, op = .inl g → PermittedWire env req g) ∧
        ∀ op', op = .inr op' → Permitted cfg req (hist i w.trace) op') := by
  have hb := service_behaves hw
  constructor
  · intro ip s t hst
    -- what a trace admits is what the limiter decided on its calls, in their order
    obtain ⟨hdecisions, -, hsorted, -⟩ := service_limited hb
    have hcount : admitted ip s t w.trace =
        allowedWithin ip s t ((admissions w.trace).map Prod.fst) ((admissions w.trace).map Prod.snd) := by
      rw [allowedWithin, ← List.unzip_fst, ← List.unzip_snd, List.zip_unzip, admissions, List.countP_reverse, admitted]
    obtain ⟨now, hnow⟩ : ∃ now, ∀ c ∈ (admissions w.trace).map Prod.fst, now ≤ c.now := by
      cases hcalls : (admissions w.trace).map Prod.fst with
      | nil => exact ⟨0, List.forall_mem_nil _⟩
      | cons c cs =>
        rw [hcalls, List.map_cons, List.pairwise_cons] at hsorted
        exact ⟨c.now, List.forall_mem_cons.2 ⟨le_rfl, fun c' hc' => hsorted.1 c'.now (List.mem_map_of_mem hc')⟩⟩
    have hsane : Sane (.new max windowMs) now := ⟨hmax, hwindow, fun ip b hb => by cases hb⟩
    rw [hcount, hdecisions, decisions_ok ⟨rfl, rfl, fun ip => .inl rfl⟩ hsane hsorted hnow, mul_div_right_comm]
    exact allowedWithin_le hsane hst hsorted hnow
  · intro i t op hcalled
    -- the run is cut just before the call, where `called_may` says what the request had seen
    obtain ⟨post, pre, htr⟩ := List.append_of_mem hcalled
    have hruns := hb
    rw [htr] at hruns
    obtain ⟨-, req, -, hreq, hmay⟩ := hruns.called_may
    obtain ⟨-, s', hcut⟩ := hruns.cut
    obtain ⟨-, s'', hpre, -⟩ := hcut.inv
    rw [← htr] at hreq
    have hhist : hist i pre <:+ hist i w.trace := by
      rw [htr, List.append_cons]
      exact hist_suffix _ pre
    have hpassed : Passed cfg req (hist i pre) →
        ∃ t', Event.performed i t' (.inl (.ok (req.key cfg))) true ∈ w.trace := by
      rintro ⟨t', hmem⟩
      obtain ⟨t₀, -, hp⟩ := hpre.performed_of_hist hmem
      exact ⟨t₀, htr ▸ List.mem_append_right _ (List.mem_cons_of_mem _ hp)⟩
    refine ⟨req, hreq, ?_⟩
    cases op with
    | inl g =>
      cases g with
      | ok ip =>
        obtain ⟨-, rfl⟩ := hmay
        exact .inl rfl
      | body | getClient | request =>
        refine .inr ⟨hpassed hmay.1, fun g hg => ?_, by simp⟩
        cases hg
        exact hmay.2
    | inr op =>
      refine .inr ⟨hpassed hmay.1, by simp, fun op' hop => ?_⟩
      cases hop
      exact hmay.2.suffix hhist

end

/-! ## A payment that is settled, and asked for -/

namespace Sample

/-- The secret is set, and the one body that parses asks for the payment of one XAH. -/
def http : HttpConfig where
  SHARED_SECRET := "open sesame"
  X402_TRUST_PROXY := 0
  X402_MCP_URL := false
  parse d := if d = utf8 "pay".toList then some (.obj [("paymentPayload", payload blob1), ("paymentRequirements", req)]) else none
  encodeAccountID := none

/-- A request with the secret. -/
def httpRequest (method url : String) : HttpRequest :=
  { remoteAddress := some "10.0.0.7", xForwardedFor := none, method := method, url := url, secret := some "open sesame" }

/-- The body in two chunks, and the node's answers. -/
def wire (submit : Except Json (Option Json)) :
    (op : Wire ⊕ Op) → Answers (service http env).Choice (inMemory env).Choice op
  | .inl (.ok _) => ()
  | .inl .body => ⟨[utf8 "pa".toList, utf8 "y".toList], true⟩
  | .inl .getClient => .ok ()
  | .inl (.request _) => .error .null
  | .inr op => nodeAnswer ledger100 submit op

/-- A request to settle as far as its submit's answer: the limiter, the body, and the settlement. -/
def requested (i : Nat) (submit : Except Json (Option Json)) : List (Action (service http env).system) :=
  [.spawn i (httpRequest "POST" "/settle"), .resume i, .perform i (wire submit), .resume i, .resume i] ++
    (List.replicate 3 [.perform i (wire submit), .resume i]).flatten ++ [.resume i, .perform i (wire submit), .resume i]

/-- The payment is settled, and its receipt is asked for. -/
def settledThenAsked : List (Action (service http env).system) :=
  requested 0 (.ok (validated hash1 "1000000")) ++
    [.resume 0, .resume 0, .spawn 1 (httpRequest "GET" ("/status/" ++ replayKeyFor tx1)), .resume 1, .resume 1]

/-- The first submit fails before the payment is applied; a second request submits it again. -/
def triedAgain : List (Action (service http env).system) :=
  requested 0 (.error malformed) ++ [.resume 0, .tick 8000] ++ requested 1 (.ok (validated hash1 "1000000"))

/-- The service after a schedule; its limiter lets two requests through in a second. -/
def served (as : List (Action (service http env).system)) : ServiceWorld :=
  (service http env).system.play (.new 2 1000, .new 100000) as

theorem reach_served (as : List (Action (service http env).system)) :
    (service http env).system.Reach (.new 2 1000, .new 100000) (served as) := (service http env).system.reach_play ..

end Sample

/-- The response to a request, with the receipt it shows. -/
def shownBy : Task (Wire ⊕ Op) (Answers WireRes Res) Response → Option (Response × Receipt)
  | .done resp =>
    match resp.body with
    | .status (some receipt) => some (resp, receipt)
    | _ => none
  | _ => none

theorem shownBy_some {task : Task (Wire ⊕ Op) (Answers WireRes Res) Response} {resp : Response} {receipt : Receipt}
    (h : shownBy task = some (resp, receipt)) : task = .done resp ∧ resp.body = .status (some receipt) := by
  unfold shownBy at h
  split at h
  · split at h <;> cases h
    exact ⟨rfl, ‹_›⟩
  · cases h

open Sample

theorem service_refines_paid :
    ∃ v, (inMemory env).Reach (.new 100000) v ∧ v.clock = (served settledThenAsked).clock ∧
      v.shared.Same (served settledThenAsked).clock (served settledThenAsked).shared.2 ∧
      SameCalls (memorySilence env) (served settledThenAsked).trace v.trace ∧
      ∀ i resp, (served settledThenAsked).tasks i = some (.done resp) → ∃ req, label i (served settledThenAsked).trace = some req ∧
        (Answered http req (hist i (served settledThenAsked).trace) resp ∨
          ∃ b out, Submitted http req b (hist i (served settledThenAsked).trace) ∧ resp = sendOutcome out ∧
            label i v.trace = some (settleCall b) ∧ v.tasks i = some (.done out)) :=
  service_refines (reach_served settledThenAsked)

theorem service_submits_once_tried :
    (∀ post mid pre i j ti tj b b' tx lls, (served triedAgain).trace =
      post ++ .called j tj (.inr (.submitAndWait b')) :: (mid ++ .called i ti (.inr (.submitAndWait b)) :: pre) →
        env.decode b = some tx → env.decode b' = some tx → tx.lastLedgerSequence = some lls → ledger.index tj < lls →
          ∃ t e, Event.resumed i t (.inr (.submitAndWait b)) (.error e) ∈ mid ∧ submitDefinitelyNotApplied e = true) ∧
    ∀ i t b, Event.called i t (.inr (.submitAndWait b)) ∈ (served triedAgain).trace → ∃ req body v,
      label i (served triedAgain).trace = some req ∧ Submitted http req body (hist i (served triedAgain).trace) ∧
        (bodyField body "paymentPayload").getString "txBlob" = some b ∧
          verifyExact env (bodyField body "paymentPayload") (bodyField body "paymentRequirements") = .ok v :=
  service_submits_once ledger (reach_served triedAgain) ⟨by decide +kernel, by decide +kernel, by decide +kernel⟩

theorem status_sound_asked :
    ∃ resp receipt, (served settledThenAsked).tasks 1 = some (.done resp) ∧ resp.body = .status (some receipt) ∧
      ∃ req, label 1 (served settledThenAsked).trace = some req ∧ authOk http req = true ∧ ∃ j req' body blob tx txMeta,
        label j (served settledThenAsked).trace = some req' ∧ Submitted http req' body (hist j (served settledThenAsked).trace) ∧
          About env node (bodyField body "paymentPayload") (bodyField body "paymentRequirements") receipt blob tx txMeta := by
  have hnode : ∀ x ∈ submitResults (innerTrace (served settledThenAsked).trace), node.Shows x.1 x.2 := by decide +kernel
  have hshown : (((served settledThenAsked).tasks 1).bind shownBy).any (fun x => x.2.success) = true := by decide +kernel
  obtain ⟨⟨resp, receipt⟩, hx, hsuccess⟩ := (Option.any_eq_true ..).1 hshown
  obtain ⟨task, htask, hby⟩ := Option.bind_eq_some_iff.1 hx
  obtain ⟨rfl, hbody⟩ := shownBy_some hby
  exact ⟨resp, receipt, htask, hbody, status_sound (reach_served settledThenAsked) hnode htask hbody hsuccess⟩

theorem service_admits_asked :
    (∀ (ip : String) (s t : ℚ), s ≤ t → (admitted ip s t (served settledThenAsked).trace : ℚ) ≤ 2 + (t - s) * 2 / 1000) ∧
    ∀ i t op, Event.called i t op ∈ (served settledThenAsked).trace → ∃ req, label i (served settledThenAsked).trace = some req ∧
      (op = .inl (.ok (req.key http)) ∨
        (∃ t', Event.performed i t' (.inl (.ok (req.key http))) true ∈ (served settledThenAsked).trace) ∧
          (∀ g, op = .inl g → PermittedWire env req g) ∧
            ∀ op', op = .inr op' → Permitted http req (hist i (served settledThenAsked).trace) op') :=
  service_admits (by decide +kernel) (by decide +kernel) (reach_served settledThenAsked)

end Xahc.Facilitator

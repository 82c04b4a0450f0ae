/-
The contract of `settle`: what has been answered before each of its calls, and how a settlement can
end. Everything later modules say of runs of settlements is derived from it.
-/
import Xahc.Facilitator.Settle

namespace Xahc.Facilitator

open Xahc.Data Xahc.Effect

/-- What a settlement did, the latest first. -/
abbrev Hist := History Op Res

/-! ## Answered calls -/

/-- The store threw. -/
def isFault : Entry Op Res → Bool
  | ⟨.isConsumed _, .error _, _⟩ | ⟨.getReceipt _, .error _, _⟩ | ⟨.reserve .., .error _, _⟩
  | ⟨.release _, .error _, _⟩ | ⟨.set .., .error _, _⟩ | ⟨.setReceipt .., .error _, _⟩ => true
  | _ => false

/-- A transaction is submitted. -/
def isSubmit (e : Entry Op Res) : Bool :=
  match e.op with
  | .submitAndWait _ => true
  | _ => false

/-- An answer that changed nothing: a read that did not throw, or a reservation that was not made. -/
def isQuiet : Entry Op Res → Bool
  | ⟨.isConsumed _, .ok _, _⟩ | ⟨.getReceipt _, .ok _, _⟩ | ⟨.reserve .., .ok .full, _⟩
  | ⟨.reserve .., .ok .exists, _⟩ | ⟨.getClient, _, _⟩ | ⟨.request _, _, _⟩ | ⟨.simulatePayment .., _, _⟩ => true
  | _ => false

/-- A call that only persists what a resolved submit gave. -/
def isPersist (e : Entry Op Res) : Bool :=
  match e.op with
  | .set .. | .setReceipt .. => true
  | _ => false

/-- A key is reserved. -/
def isReserve (e : Entry Op Res) : Bool :=
  match e.op with
  | .reserve .. => true
  | _ => false

/-- Nothing but reads and requests. -/
def Quiet (h : Hist) : Prop := ∀ e ∈ h, isQuiet e = true

theorem not_fault_of_quiet {e : Entry Op Res} (h : isQuiet e = true) : isFault e = false := by
  unfold isQuiet at h
  split at h <;> first | rfl | cases h

theorem not_submit_of_quiet {e : Entry Op Res} (h : isQuiet e = true) : isSubmit e = false := by
  unfold isQuiet at h
  split at h <;> first | rfl | cases h

theorem Quiet.cons {h : Hist} {e : Entry Op Res} (he : isQuiet e = true) (hq : Quiet h) : Quiet (e :: h) :=
  List.forall_mem_cons.2 ⟨he, hq⟩

/-- The two store calls whose failure is not caught: the release after a `tem` submit, and the read of the
receipt after a lost race for the reservation. -/
def Uncaught : Hist → Prop
  | ⟨.release _, .error _, _⟩ :: _ => True
  | ⟨.getReceipt _, .error _, _⟩ :: ⟨.reserve .., .ok .exists, _⟩ :: _ => True
  | _ => False

/-! ## Before each call -/

section
variable (env : Env) (payload req : Json)

/-- The attempt `a` is about to reserve its replay key. -/
structure Ready (a : Attempt) (h : Hist) : Prop where
  verified : verifyExact env payload req = .ok a.v
  req_eq : a.req = req
  txBlob : payload.getString "txBlob" = some a.txBlob
  decode : env.decode a.txBlob = some a.tx
  captured : ∃ r, ⟨.isConsumed a.v.replayId, r, a.now⟩ ∈ h
  window : ∃ lls r t cur, a.tx.lastLedgerSequence = some lls ∧ ⟨.request .ledgerValidated, .ok r, t⟩ ∈ h ∧
    ledgerIndexOf r = some cur ∧ cur < lls ∧ a.expiryMs = consumedExpiryFor env lls cur a.now
  quiet : Quiet h
  first : ∀ e ∈ h, isReserve e = false

/-- The attempt `a` holds its replay key and has not submitted. -/
def Reserved (a : Attempt) (h : Hist) : Prop :=
  ∃ t h₀, h = ⟨.reserve a.v.replayId a.expiryMs (some a.now), .ok .reserved, t⟩ :: h₀ ∧ Ready env payload req a h₀

/-- The submit of `a` has resolved to an outcome that can be read. -/
def Resolved (a : Attempt) (code : String) (txMeta : Json) (hash : Option Json) (h : Hist) : Prop :=
  ∃ later r t h₀, h = later ++ ⟨.submitAndWait a.txBlob, .ok r, t⟩ :: h₀ ∧ (∀ e ∈ later, isPersist e = true) ∧
    readSubmit r = some (code, txMeta, hash) ∧ Reserved env payload req a h₀

/-- What has been answered when `op` is called. -/
def May (h : Hist) : Op → Prop
  | .isConsumed key | .getReceipt key => ∃ v, verifyExact env payload req = .ok v ∧ key = v.replayId ∧ Quiet h
  | .reserve key expiryMs now => ∃ a, Ready env payload req a h ∧ key = a.v.replayId ∧ expiryMs = a.expiryMs ∧
      now = some a.now
  | .submitAndWait txBlob => ∃ a, Reserved env payload req a h ∧ txBlob = a.txBlob
  | .release key => ∃ a e t h₀, h = ⟨.submitAndWait a.txBlob, .error e, t⟩ :: h₀ ∧
      submitDefinitelyNotApplied e = true ∧ Reserved env payload req a h₀ ∧ key = a.v.replayId
  | .set key expiryMs now => ∃ a code txMeta hash text, Resolved env payload req a code txMeta hash h ∧
      key = "hash:" ++ text ∧ expiryMs = a.expiryMs ∧ now = a.now
  | .setReceipt key receipt expiryMs => ∃ a code txMeta hash, Resolved env payload req a code txMeta hash h ∧
      key = a.v.replayId ∧ expiryMs = a.expiryMs ∧
      receipt = terminalReceipt env req a.v a.auth a.hookPresent a.now code txMeta hash
  | .getClient | .request _ | .simulatePayment .. => True

/-- What the rest of a settlement does not depend on: the answers of the calls that only persist. -/
def Persists : (op : Op) → (Res op → Nat → Settlement) → Prop
  | .set .., k | .setReceipt .., k => ∃ out, ∀ r t, Prog.Yields out (k r t)
  | _, _ => True

/-- How a settlement ends. -/
inductive Ending : Hist → Except Json Reply → Prop
  | refused {h r} : Quiet h → Ending h (.ok (.rejected r))
  | unavailable {h f r} : Quiet h → isFault f = true → ¬Uncaught (f :: h) → r.retryable = true →
      Ending (f :: h) (.ok (.rejected r))
  | replayed {h v receipt payer t} : Quiet h → verifyExact env payload req = .ok v →
      Ending (⟨.getReceipt v.replayId, .ok (some receipt), t⟩ :: h) (.ok (.replayed receipt payer))
  | lost {h key e t key' expiryMs now t'} : Quiet h →
      Ending (⟨.getReceipt key, .error e, t⟩ :: ⟨.reserve key' expiryMs now, .ok .exists, t'⟩ :: h) (.error e)
  | released {h a key t e t' r} : Reserved env payload req a h →
      Ending (⟨.release key, .ok (), t⟩ :: ⟨.submitAndWait a.txBlob, .error e, t'⟩ :: h) (.ok (.rejected r))
  | stuck {h a key e t e' t'} : Reserved env payload req a h →
      Ending (⟨.release key, .error e, t⟩ :: ⟨.submitAndWait a.txBlob, .error e', t'⟩ :: h) (.error e)
  | unknown {h a r t rej} : Reserved env payload req a h →
      Ending (⟨.submitAndWait a.txBlob, r, t⟩ :: h) (.ok (.rejected rej))
  | settled {h a code txMeta hash key receipt expiryMs r t} : Resolved env payload req a code txMeta hash h →
      receipt = terminalReceipt env req a.v a.auth a.hookPresent a.now code txMeta hash →
      Ending (⟨.setReceipt key receipt expiryMs, r, t⟩ :: h) (.ok (.settled receipt))

/-- The program may do what it does after the history, persists a receipt that it gives, and ends as it may. -/
abbrev Meets : Hist → Settlement → Prop :=
  Prog.Along (fun h op k => May env payload req h op ∧ Persists op k) (Ending env payload req)

end

/-! ## After the submit -/

section
variable {env : Env} {payload req : Json} {a : Attempt} {h : Hist}

theorem meets_persistReceipt {code : String} {txMeta : Json} {hash : Option Json}
    (hr : Resolved env payload req a code txMeta hash h) :
    Meets env payload req h
      (persistReceipt a (terminalReceipt env req a.v a.auth a.hookPresent a.now code txMeta hash)) :=
  ⟨⟨⟨a, code, txMeta, hash, hr, rfl, rfl, rfl⟩, _, fun _ _ => rfl⟩, fun _ _ => .settled hr rfl⟩

theorem Resolved.cons {code : String} {txMeta : Json} {hash : Option Json} {e : Entry Op Res}
    (he : isPersist e = true) (hr : Resolved env payload req a code txMeta hash h) :
    Resolved env payload req a code txMeta hash (e :: h) := by
  obtain ⟨later, r, t, h₀, rfl, hlater, hread, hres⟩ := hr
  exact ⟨e :: later, r, t, h₀, rfl, List.forall_mem_cons.2 ⟨he, hlater⟩, hread, hres⟩

theorem meets_settleReceipt {code : String} {txMeta : Json} {hash : Option Json} (hreq : a.req = req)
    (hr : Resolved env payload req a code txMeta hash h) :
    Meets env payload req h (settleReceipt env a code txMeta hash) := by
  subst hreq
  unfold settleReceipt
  dsimp only
  split
  · rename_i hashText _
    refine ⟨⟨⟨a, code, txMeta, hash, _, hr, rfl, rfl, rfl⟩, _, fun _ _ _ _ => rfl⟩, fun r t => ?_⟩
    exact meets_persistReceipt (hr.cons rfl)
  · exact meets_persistReceipt hr

theorem meets_settleSubmit (hr : Reserved env payload req a h) :
    Meets env payload req h (settleSubmit env a) := by
  have hreq : a.req = req := hr.elim fun t h => h.elim fun h₀ h => h.2.req_eq
  refine ⟨⟨⟨a, hr, rfl⟩, trivial⟩, fun r t => ?_⟩
  cases r with
  | error e =>
    dsimp only
    split
    · rename_i htem
      refine ⟨⟨⟨a, e, t, h, rfl, htem, hr, rfl⟩, trivial⟩, fun r t => ?_⟩
      cases r with
      | error e => exact .stuck hr
      | ok u => exact .released hr
    · exact .unknown hr
  | ok r =>
    dsimp only
    split
    · exact .unknown hr
    · rename_i code txMeta hash hread
      exact meets_settleReceipt hreq ⟨[], r, t, h, rfl, by simp, hread, hr⟩

/-! ## Up to the submit -/

theorem meets_settleReserve (hr : Ready env payload req a h) :
    Meets env payload req h (settleReserve env a) := by
  refine ⟨⟨⟨a, hr, rfl, rfl, rfl⟩, trivial⟩, fun r t => ?_⟩
  cases r with
  | error e => exact .unavailable hr.quiet rfl id rfl
  | ok res =>
    cases res with
    | full => exact .refused (hr.quiet.cons rfl)
    | «exists» =>
      refine ⟨⟨⟨a.v, hr.verified, rfl, hr.quiet.cons rfl⟩, trivial⟩, fun r t => ?_⟩
      cases r with
      | error e => exact .lost hr.quiet
      | ok receipt =>
        cases receipt with
        | none => exact .refused ((hr.quiet.cons rfl).cons rfl)
        | some receipt => exact .replayed (hr.quiet.cons rfl) hr.verified
    | reserved => exact meets_settleSubmit ⟨t, h, rfl, hr⟩

/-! ## The node reads -/

/-- `h'` adds answers of node requests to `h`. -/
def Asked (h h' : Hist) : Prop := ∃ asked, h' = asked ++ h ∧ ∀ e ∈ asked, ∃ rq r t, e = ⟨.request rq, r, t⟩

theorem Asked.refl (h : Hist) : Asked h h := ⟨[], rfl, fun _ he => nomatch he⟩

theorem Asked.cons {h h' : Hist} (rq : Request) (r : Except Json Json) (t : Nat) (ha : Asked h h') :
    Asked h (⟨.request rq, r, t⟩ :: h') := by
  obtain ⟨asked, rfl, hasked⟩ := ha
  refine ⟨⟨.request rq, r, t⟩ :: asked, rfl, fun e he => ?_⟩
  rcases List.mem_cons.1 he with rfl | he
  · exact ⟨rq, r, t, rfl⟩
  · exact hasked e he

theorem Asked.quiet {h h' : Hist} (ha : Asked h h') (hq : Quiet h) : Quiet h' := by
  obtain ⟨asked, rfl, hasked⟩ := ha
  refine List.forall_mem_append.2 ⟨fun e he => ?_, hq⟩
  obtain ⟨rq, r, t, rfl⟩ := hasked e he
  rfl

/-- A program that only asks the node, from `h` on. -/
def Asks {α : Type} (h : Hist) (post : Hist → α → Prop) : Hist → Settling α → Prop :=
  Prog.Along (fun _ op _ => ∃ rq, op = .request rq) (fun h' a => Asked h h' ∧ post h' a)

theorem asks_request {α : Type} {post : Hist → α → Prop} {h' : Hist} {rq : Request}
    {k : Except Json Json → Nat → Settling α} (hk : ∀ r t, Asks h post (⟨.request rq, r, t⟩ :: h') (k r t)) :
    Asks h post h' (.call (.request rq) k) :=
  ⟨⟨rq, rfl⟩, hk⟩

/-- Asking the node before going on. -/
theorem Asks.bind {α : Type} {post : Hist → α → Prop} {p : Settling α} {f : α → Settlement}
    (hp : Asks h post h p) (hf : ∀ h' a, Asked h h' → post h' a → Meets env payload req h' (f a)) :
    Meets env payload req h (p >>= f) := by
  refine Prog.Along.bind (fun h op k hop => ?_) (fun h' a hmid => hf h' a hmid.1 hmid.2) hp
  obtain ⟨rq, rfl⟩ := hop
  exact ⟨trivial, trivial⟩

theorem asks_guardrailHookPresent (h : Hist) (account : Option String) :
    Asks h (fun _ _ => True) h (guardrailHookPresent account) := by
  refine asks_request fun r t => ?_
  cases r <;> exact ⟨(Asked.refl h).cons .., trivial⟩

theorem asks_currentValidatedLedger (h : Hist) :
    Asks h (fun h' cur => ∀ n, cur = some n →
      ∃ r t, ⟨.request .ledgerValidated, .ok r, t⟩ ∈ h' ∧ ledgerIndexOf r = some n) h currentValidatedLedger := by
  refine asks_request fun r t => ?_
  cases r with
  | error e => exact ⟨(Asked.refl h).cons .., fun _ hn => nomatch hn⟩
  | ok r => exact ⟨(Asked.refl h).cons .., fun n hn => ⟨r, t, List.mem_cons_self, hn⟩⟩

theorem asks_fetchAccountRoot (h : Hist) (account : Option String) :
    Asks h (fun _ _ => True) h (fetchAccountRoot account) := by
  refine asks_request fun r t => ?_
  cases r <;> exact ⟨(Asked.refl h).cons .., trivial⟩

theorem asks_signerListFallback {h h' : Hist} (account : Option String) (ha : Asked h h') :
    Asks h (fun _ _ => True) h' (fetchSignerList.fallback account) := by
  refine asks_request fun r t => ?_
  cases r <;> exact ⟨ha.cons .., trivial⟩

theorem asks_fetchSignerList (h : Hist) (account : Option String) :
    Asks h (fun _ _ => True) h (fetchSignerList account) := by
  refine asks_request fun r t => ?_
  cases r with
  | error e => exact asks_signerListFallback account ((Asked.refl h).cons ..)
  | ok r =>
    dsimp only [Prog.bind]
    split
    · exact ⟨(Asked.refl h).cons .., trivial⟩
    · exact asks_signerListFallback account ((Asked.refl h).cons ..)

theorem asks_authorizeOnLedger (h : Hist) (tx : Tx) (isMultisig : Bool) :
    Asks h (fun _ _ => True) h (authorizeOnLedger env tx isMultisig) := by
  unfold authorizeOnLedger
  split
  · exact Prog.Along.bind (fun _ _ _ hop => hop) (fun _ _ hmid => hmid) (asks_fetchSignerList h tx.account)
  · exact Prog.Along.bind (fun _ _ _ hop => hop) (fun _ _ hmid => hmid) (asks_fetchAccountRoot h tx.account)

/-! ## From the verification to the reservation -/

/-- Settling has started: the payload is verified and decoded, and the clock has been read. -/
structure Started (env : Env) (payload req : Json) (v : Verified) (txBlob : String) (tx : Tx) (now : Nat)
    (h : Hist) : Prop where
  verified : verifyExact env payload req = .ok v
  blob : payload.getString "txBlob" = some txBlob
  decode : env.decode txBlob = some tx
  captured : ∃ r, ⟨.isConsumed v.replayId, r, now⟩ ∈ h
  quiet : Quiet h
  first : ∀ e ∈ h, isReserve e = false

theorem Started.asked {v : Verified} {txBlob : String} {tx : Tx} {now : Nat} {h' : Hist}
    (hs : Started env payload req v txBlob tx now h) (ha : Asked h h') :
    Started env payload req v txBlob tx now h' := by
  refine { hs with captured := ?_, quiet := ha.quiet hs.quiet, first := ?_ }
  · obtain ⟨asked, rfl, -⟩ := ha
    exact hs.captured.imp fun r hr => List.mem_append_right _ hr
  · obtain ⟨asked, rfl, hasked⟩ := ha
    refine List.forall_mem_append.2 ⟨fun e he => ?_, hs.first⟩
    obtain ⟨rq, r, t, rfl⟩ := hasked e he
    rfl

/-- The window of `w` is what the ledger read gave. -/
structure InWindow (w : Window) (h : Hist) : Prop where
  lls : w.tx.lastLedgerSequence = some w.lastLedger
  read : ∃ r t, ⟨.request .ledgerValidated, .ok r, t⟩ ∈ h ∧ ledgerIndexOf r = some w.curLedger
  open_ : w.curLedger < w.lastLedger

theorem InWindow.asked {w : Window} {h' : Hist} (hw : InWindow w h) (ha : Asked h h') : InWindow w h' := by
  obtain ⟨asked, rfl, -⟩ := ha
  obtain ⟨r, t, hr, hidx⟩ := hw.read
  exact { hw with read := ⟨r, t, List.mem_append_right _ hr, hidx⟩ }

theorem meets_settleAuthorized {w : Window} {auth : Authorized} (hreq : w.req = req)
    (hs : Started env payload req w.v w.txBlob w.tx w.now h) (hw : InWindow w h) :
    Meets env payload req h (settleAuthorized env w auth) := by
  refine (asks_guardrailHookPresent h w.tx.account).bind fun h' hookPresent ha _ => ?_
  have hs' := hs.asked ha
  have hw' := hw.asked ha
  refine meets_settleReserve
    { verified := hs'.verified
      req_eq := hreq
      txBlob := hs'.blob
      decode := hs'.decode
      captured := hs'.captured
      window := ?_
      quiet := hs'.quiet
      first := hs'.first }
  obtain ⟨r, t, hr, hidx⟩ := hw'.read
  exact ⟨w.lastLedger, r, t, w.curLedger, hw'.lls, hr, hidx, hw'.open_, rfl⟩

theorem meets_settleAuthorize {w : Window} (hreq : w.req = req)
    (hs : Started env payload req w.v w.txBlob w.tx w.now h) (hw : InWindow w h) :
    Meets env payload req h (settleAuthorize env w) := by
  unfold settleAuthorize
  split
  · exact meets_settleAuthorized hreq hs hw
  · refine (asks_authorizeOnLedger h w.tx _).bind fun h' decision ha _ => ?_
    cases decision with
    | authorized source => exact meets_settleAuthorized hreq (hs.asked ha) (hw.asked ha)
    | rejected reason => exact .refused (hs.asked ha).quiet
    | fallback => exact meets_settleAuthorized hreq (hs.asked ha) (hw.asked ha)

theorem meets_settleWindow {v : Verified} {txBlob : String} {tx : Tx} {now : Nat} {cur : Option ℚ}
    (hs : Started env payload req v txBlob tx now h)
    (hcur : ∀ n, cur = some n → ∃ r t, ⟨.request .ledgerValidated, .ok r, t⟩ ∈ h ∧ ledgerIndexOf r = some n) :
    Meets env payload req h (settleWindow env req v txBlob tx now cur) := by
  unfold settleWindow
  split
  · exact .refused hs.quiet
  · exact .refused hs.quiet
  · rename_i curLedger lastLedger hlls
    split_ifs with hpast hfar
    · exact .refused hs.quiet
    · exact .refused hs.quiet
    · exact meets_settleAuthorize rfl hs ⟨hlls, hcur _ rfl, not_le.1 hpast⟩

theorem meets_settleLedger {v : Verified} {txBlob : String} {tx : Tx} {now : Nat}
    (hs : Started env payload req v txBlob tx now h) :
    Meets env payload req h (settleLedger env req v txBlob tx now) := by
  refine ⟨⟨trivial, trivial⟩, fun r t => ?_⟩
  have hs' : Started env payload req v txBlob tx now (⟨.getClient, r, t⟩ :: h) :=
    { hs with
      captured := hs.captured.imp fun _ hr => List.mem_cons_of_mem _ hr
      quiet := hs.quiet.cons rfl
      first := List.forall_mem_cons.2 ⟨rfl, hs.first⟩ }
  cases r with
  | error msg => exact .refused hs'.quiet
  | ok u =>
    refine (asks_currentValidatedLedger _).bind fun h' cur ha hcur => ?_
    exact meets_settleWindow (hs'.asked ha) hcur

/-- Before `isConsumed` only a simulation may have been asked for. -/
structure Untouched (h : Hist) : Prop where
  quiet : Quiet h
  first : ∀ e ∈ h, isReserve e = false

theorem meets_settleReplay {v : Verified} (hv : verifyExact env payload req = .ok v) (hu : Untouched h) :
    Meets env payload req h (settleReplay env payload req v) := by
  refine ⟨⟨⟨v, hv, rfl, hu.quiet⟩, trivial⟩, fun r now => ?_⟩
  cases r with
  | error e => exact .unavailable hu.quiet rfl id rfl
  | ok consumed =>
    have hq : Quiet (⟨.isConsumed v.replayId, .ok consumed, now⟩ :: h) := hu.quiet.cons rfl
    cases consumed with
    | false =>
      obtain ⟨blob, tx, paid, hver⟩ := verifyExact_ok hv
      show Meets env payload req _ (settleFresh env payload req v now)
      simp only [settleFresh, hver.txBlob, Option.getD_some, hver.decode]
      exact meets_settleLedger
        { verified := hv
          blob := hver.txBlob
          decode := hver.decode
          captured := ⟨_, List.mem_cons_self⟩
          quiet := hq
          first := List.forall_mem_cons.2 ⟨rfl, hu.first⟩ }
    | true =>
      refine ⟨⟨⟨v, hv, rfl, hq⟩, trivial⟩, fun r t => ?_⟩
      cases r with
      | error e => exact .unavailable hq rfl id rfl
      | ok receipt =>
        cases receipt with
        | none => exact .refused (hq.cons rfl)
        | some receipt => exact .replayed hq hv

/-- `settle` meets its contract, for every payload, requirements and options. -/
theorem meets_settle (env : Env) (payload req : Json) (deps : Deps) :
    Meets env payload req [] (settle env payload req deps) := by
  have hnil : Quiet [] := fun _ he => nomatch he
  unfold settle
  split
  · exact .refused hnil
  split
  · exact .refused hnil
  · rename_i v hv
    have hu : ∀ sim t, Untouched [⟨.simulatePayment payload req, sim, t⟩] := fun sim t =>
      ⟨hnil.cons rfl, by simp [isReserve]⟩
    unfold settleVerified
    split_ifs
    · exact ⟨⟨trivial, trivial⟩, fun sim t => .refused (hu sim t).quiet⟩
    · refine ⟨⟨trivial, trivial⟩, fun sim t => ?_⟩
      show Meets env payload req _ (settleSimulated env payload req v sim)
      unfold settleSimulated
      split
      · exact .refused (hu sim t).quiet
      · exact meets_settleReplay hv (hu sim t)
    · exact meets_settleReplay hv ⟨hnil, by simp⟩

end

end Xahc.Facilitator

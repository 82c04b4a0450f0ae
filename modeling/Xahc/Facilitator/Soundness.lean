/-
Settlement soundness: what a reply with `success: true` says of the payment it answers. A receipt that the
call made itself is about its own transaction. A receipt found under the replay key is about the transaction
of the call that stored it, which need not be the same one.
-/
import Xahc.Facilitator.Memory

namespace Xahc.Facilitator

open Xahc.Data Xahc.Effect

section
variable {env : Env} {σ : Type} {s₀ s : σ} {t : Nat} {tr : Trace Op Res Call Outcome} {payload req : Json}

/-! ## The node -/

/-- What happened on the ledger: the hash of the transaction in a blob, and the metadata with which it was
validated. -/
structure Node where
  hashOf : String → String
  Validated : String → Json → Prop

/-- A submit of the blob resolves to the hash and the validated metadata of its transaction. -/
def Node.Shows (N : Node) (blob : String) (r : Option Json) : Prop :=
  (Json.get? (Json.get? r "result") "hash").bind Json.asString = some (N.hashOf blob) ∧
    ∃ txMeta ∈ Json.get? (Json.get? r "result") "meta", N.Validated blob txMeta

/-- What submits resolved to. -/
def submitResults (tr : Trace Op Res Call Outcome) : List (String × Option Json) :=
  tr.filterMap fun
    | .performed _ _ (.submitAndWait blob) (.ok r) => some (blob, r)
    | _ => none

/-- Every submit of the run was answered as the node shows. -/
def Honest (N : Node) (tr : Trace Op Res Call Outcome) : Prop := ∀ x ∈ submitResults tr, N.Shows x.1 x.2

/-! ## Soundness -/

/-- The receipt is about the transaction in the payload: it carries its hash, and the transaction was
validated with `tesSUCCESS`, pays the payee asked for and delivered what it committed to, in the asset asked
for. -/
structure About (env : Env) (N : Node) (payload req : Json) (receipt : Receipt) (blob : String) (tx : Tx)
    (txMeta : Json) : Prop where
  txBlob : payload.getString "txBlob" = some blob
  decode : env.decode blob = some tx
  transaction : receipt.transaction = some (.str (N.hashOf blob))
  validated : N.Validated blob txMeta
  code : txMeta.getString "TransactionResult" = some "tesSUCCESS"
  payTo : ∃ payTo, req.getString "payTo" = some payTo ∧ tx.destination = some payTo
  delivers : Delivers tx.amount (assetOf req) txMeta

/-- The receipt is about the payment of this payload. -/
def Settles (env : Env) (N : Node) (payload req : Json) (receipt : Receipt) : Prop :=
  ∃ blob tx txMeta, About env N payload req receipt blob tx txMeta

/-- The calls that replied, with their replies. -/
def replies (tr : Trace Op Res Call Outcome) : List (Nat × Reply) :=
  tr.filterMap fun
    | .finished i _ (.reply (.ok reply)) => some (i, reply)
    | _ => none

/-- Every reply of success is about the payment of its call. -/
def Sound (env : Env) (N : Node) (tr : Trace Op Res Call Outcome) : Prop :=
  ∀ x ∈ replies tr, x.2.success = true → ∃ payload req deps receipt, label x.1 tr = some (.settle payload req deps) ∧
    x.2.receipt? = some receipt ∧ Settles env N payload req receipt

/-! ## Receipts found and stored -/

/-- The receipts that calls found, with the call and the key. -/
def found (tr : Trace Op Res Call Outcome) : List (Nat × String × Receipt) :=
  tr.filterMap fun
    | .performed i _ (.getReceipt key) (.ok (some receipt)) => some (i, key, receipt)
    | _ => none

/-- The receipts that calls stored. -/
def stored (tr : Trace Op Res Call Outcome) : List (Nat × String × Receipt) :=
  tr.filterMap fun
    | .performed i _ (.setReceipt key receipt _) _ => some (i, key, receipt)
    | _ => none

/-- The transaction blob that call `i` was given. -/
def blobOf (i : Nat) (tr : Trace Op Res Call Outcome) : Option String := (label i tr).bind Call.blob?

/-- Whenever a call finds a successful receipt, it was stored by a call with the same transaction. -/
def SameTransaction (tr : Trace Op Res Call Outcome) : Prop :=
  ∀ x ∈ found tr, x.2.2.success = true → ∀ y ∈ stored tr, y.2 = x.2 → blobOf y.1 tr = blobOf x.1 tr

/-! ## The receipt of a submit -/

theorem readSubmit_some {r : Option Json} {code : String} {txMeta : Json} {hash : Option Json}
    (h : readSubmit r = some (code, txMeta, hash)) :
    Json.get? (Json.get? r "result") "meta" = some txMeta ∧ txMeta.getString "TransactionResult" = some code ∧
      hash = Json.get? (Json.get? r "result") "hash" := by
  unfold readSubmit at h
  obtain ⟨j, hj, h⟩ := Option.bind_eq_some_iff.1 h
  obtain ⟨result, hresult, h⟩ := Option.bind_eq_some_iff.1 h
  obtain ⟨m, hm, h⟩ := Option.bind_eq_some_iff.1 h
  obtain ⟨c, hc, h⟩ := Option.bind_eq_some_iff.1 h
  split_ifs at h
  cases h
  have hr : Json.get? r "result" = some result := by
    rw [(Option.filter_eq_some_iff.1 hj).1]
    exact (Option.filter_eq_some_iff.1 hresult).1
  rw [hr]
  exact ⟨hm, hc, rfl⟩

/-- The successful receipt of a call's own submit is about its transaction. -/
theorem about_of_resolved {N : Node} {a : Attempt} {code : String} {txMeta : Json} {hash : Option Json} {h : Hist}
    (hres : Resolved env payload req a code txMeta hash h)
    (hnode : ∀ blob r t, (⟨.submitAndWait blob, .ok r, t⟩ : Entry Op Res) ∈ h → N.Shows blob r)
    (hsuccess : (terminalReceipt env req a.v a.auth a.hookPresent a.now code txMeta hash).success = true) :
    About env N payload req (terminalReceipt env req a.v a.auth a.hookPresent a.now code txMeta hash) a.txBlob a.tx
      txMeta := by
  obtain ⟨later, r, t, h₀, rfl, -, hread, hreserved⟩ := hres
  obtain ⟨h₁, -, hready⟩ := hreserved.ready
  obtain ⟨hmeta, hcode, rfl⟩ := readSubmit_some hread
  obtain ⟨hhash, txMeta', hmeta', hvalid⟩ := hnode _ _ _ (List.mem_append_right _ List.mem_cons_self)
  obtain rfl : txMeta = txMeta' := Option.some.inj (hmeta.symm.trans hmeta')
  obtain ⟨blob, tx, paid, hver⟩ := verifyExact_ok hready.verified
  obtain ⟨rfl, rfl⟩ := hver.unique hready.txBlob hready.decode
  -- a success on the receipt is an outcome read from the metadata
  obtain ⟨out, hout⟩ : ∃ out, onLedgerOutcome a.v code txMeta = .ok out := by
    cases hout : onLedgerOutcome a.v code txMeta with
    | ok out => exact ⟨out, rfl⟩
    | error e => simp [terminalReceipt, hout, Except.toOption] at hsuccess
  obtain ⟨rfl, hdelivers⟩ := onLedgerOutcome_ok hver hout
  refine
    { txBlob := hready.txBlob
      decode := hready.decode
      transaction := ?_
      validated := hvalid
      code := hcode
      payTo := hver.payTo
      delivers := hdelivers }
  obtain ⟨text, htext, hstr⟩ := Option.bind_eq_some_iff.1 hhash
  cases text with
  | str s =>
    cases hstr
    exact htext
  | _ => cases hstr

/-! ## The same transaction under other requirements -/

theorem Commits.not_both {amount : Option Json} {drops : Nat} {asset : Asset} {value : TokenValue}
    (hn : Commits amount (.native drops)) (ht : Commits amount (.token asset value)) : False := by
  obtain ⟨s, rfl, -⟩ := hn
  obtain ⟨a, currency, text, ha, hcur, -⟩ := ht
  cases ha
  cases hcur

/-- What was delivered in one asset was delivered in any other that the same amount commits to. -/
theorem Delivers.asked {amount : Option Json} {txMeta : Json} {paid paid' : Paid}
    (hd : Delivers amount paid'.asset txMeta) (hc : Commits amount paid) (hc' : Commits amount paid') :
    Delivers amount paid.asset txMeta := by
  cases paid with
  | native drops =>
    cases paid' with
    | native drops' => exact hd
    | token asset value => exact (hc.not_both hc').elim
  | token asset value =>
    cases paid' with
    | native drops' => exact (hc'.not_both hc).elim
    | token asset' value' =>
      obtain ⟨committed, d, delivered, hcommitted, hread, hcur, hiss, hdv, hle⟩ := hd
      obtain ⟨a, currency, text, rfl, hacur, haiss, hatext, hcanon, hval⟩ := hc
      obtain ⟨a', currency', text', ha', hacur', haiss', -, hcanon', -⟩ := hc'
      cases ha'
      obtain rfl : currency = currency' := Option.some.inj (hacur.symm.trans hacur')
      have hissuer : asset.issuer = asset'.issuer := Option.some.inj (haiss.symm.trans haiss')
      obtain ⟨a'', currency'', text'', ha'', -, -, htext'', -, hval''⟩ := hcommitted
      cases ha''
      obtain rfl : text = text'' := Option.some.inj (hatext.symm.trans htext'')
      refine ⟨committed, d, delivered, ⟨a, currency, text, rfl, hacur, haiss, hatext, hcanon, hval''⟩, hread, ?_,
        hiss.trans hissuer.symm, hdv, hle⟩
      exact hcur.trans (hcanon'.symm.trans hcanon)

/-- A receipt about a transaction is one about it under any requirements that the transaction meets. -/
theorem About.asked {N : Node} {payload' req' : Json} {receipt : Receipt} {blob : String} {tx : Tx} {txMeta : Json}
    {v v' : Verified} {paid paid' : Paid} (h : About env N payload' req' receipt blob tx txMeta)
    (hv : IsVerified env payload req v blob tx paid) (hv' : IsVerified env payload' req' v' blob tx paid') :
    About env N payload req receipt blob tx txMeta where
  txBlob := hv.txBlob
  decode := hv.decode
  transaction := h.transaction
  validated := h.validated
  code := h.code
  payTo := hv.payTo
  delivers := hv.asked ▸ Delivers.asked (hv'.asked ▸ h.delivers) hv.commits hv'.commits

/-! ## Sound runs -/

section
variable {N : Node} {S : System Op Res σ Call Outcome} {pre : Trace Op Res Call Outcome} {i : Nat}

theorem shows_of_hist (hb : Behaves S (MayCall env) (Ends env) s₀ t s pre) (hsub : ∀ e ∈ pre, e ∈ tr)
    (hnode : Honest N tr) {blob : String} {r : Option Json} {t' : Nat}
    (hmem : (⟨.submitAndWait blob, .ok r, t'⟩ : Entry Op Res) ∈ hist i pre) : N.Shows blob r := by
  obtain ⟨t₀, -, hp⟩ := hb.performed_of_hist hmem
  exact hnode (blob, r) (List.mem_filterMap.2 ⟨_, hsub _ hp, rfl⟩)

/-- A stored receipt of success is about the transaction of the call that stored it. -/
theorem about_of_stored (hb : Behaves S (MayCall env) (Ends env) s₀ t s tr) (hnode : Honest N tr) {t₀ : Nat}
    {key : String} {receipt : Receipt} {expiryMs : ℚ} {r : Except Json Unit}
    (hp : Event.performed i t₀ (.setReceipt key receipt expiryMs) r ∈ tr) (hsuccess : receipt.success = true) :
    ∃ payload req deps v blob tx paid txMeta, label i tr = some (.settle payload req deps) ∧
      IsVerified env payload req v blob tx paid ∧ About env N payload req receipt blob tx txMeta := by
  obtain ⟨post, pre, s', rfl, hbp, l, hl, hmay⟩ := hb.performed_at hp
  cases l with
  | reserve key' expiryMs' => cases hmay.2
  | settle payload req deps =>
    obtain ⟨a, code, txMeta, hash, hres, rfl, rfl, rfl⟩ := hmay
    have habout := about_of_resolved hres
      (fun blob r t hmem => shows_of_hist hbp (fun e he => List.mem_append_right _ (List.mem_cons_of_mem _ he)) hnode hmem)
      hsuccess
    obtain ⟨h₀, -, hreserved⟩ := hres.reserved
    obtain ⟨h₁, -, hready⟩ := hreserved.ready
    obtain ⟨blob, tx, paid, hver⟩ := verifyExact_ok hready.verified
    obtain ⟨rfl, rfl⟩ := hver.unique hready.txBlob hready.decode
    exact ⟨payload, req, deps, a.v, _, _, paid, txMeta, hl, hver, habout⟩

/-- Settlement soundness, in every run on a store that keeps receipts in which every receipt of success that a
call finds was stored by a call with the same transaction. -/
theorem settle_sound (K : Keeps S) (hcode : S.code = code env) (hs₀ : ∀ key receipt, ¬K.holds s₀ key receipt)
    {w : World Op Res σ Call Outcome} (hw : S.Reach s₀ w) (hnode : Honest N w.trace) (hsame : SameTransaction w.trace) :
    Sound env N w.trace := by
  have hb : Behaves S (MayCall env) (Ends env) s₀ w.clock w.shared w.trace :=
    hw.behaves fun l => hcode ▸ obeys_code env l
  rintro ⟨i, reply⟩ hx hsuccess
  obtain ⟨e, he, hreply⟩ := List.mem_filterMap.1 hx
  obtain ⟨tf, rfl⟩ : ∃ tf, e = .finished i tf (.reply (.ok reply)) := by
    unfold replies at hx
    split at hreply <;> cases hreply
    exact ⟨_, rfl⟩
  obtain ⟨post, pre, htr⟩ := List.append_of_mem he
  rw [htr] at hb hnode hsame ⊢
  have hsub : ∀ {x}, x ∈ pre → x ∈ post ++ .finished i tf (.reply (.ok reply)) :: pre := fun hx =>
    List.mem_append_right _ (List.mem_cons_of_mem _ hx)
  obtain ⟨l, hl, hend⟩ := hb.finished_fin
  obtain ⟨-, s', hcut⟩ := hb.cut
  obtain ⟨-, s'', hbp, -⟩ := hcut.inv
  cases l with
  | reserve key expiryMs => cases hend
  | settle payload req deps =>
    have hshows : ∀ blob r t', (⟨.submitAndWait blob, .ok r, t'⟩ : Entry Op Res) ∈ hist i pre → N.Shows blob r :=
      fun blob r t' hmem => shows_of_hist hbp (fun _ => hsub) hnode hmem
    have hfound : ∀ key receipt t', (⟨.getReceipt key, .ok (some receipt), t'⟩ : Entry Op Res) ∈ hist i pre →
        ∃ t₀, Event.performed i t₀ (.getReceipt key) (.ok (some receipt)) ∈ pre := by
      intro key receipt t' hmem
      obtain ⟨t₀, -, hp⟩ := hbp.performed_of_hist hmem
      exact ⟨t₀, hp⟩
    replace hend : Ending env payload req (hist i pre) (.ok reply) := hend
    generalize hist i pre = h at hend hshows hfound
    cases hend with
    | refused _ | unavailable _ _ _ _ | released _ | unknown _ => cases hsuccess
    | settled hres hreceipt =>
      subst hreceipt
      refine ⟨payload, req, deps, _, hl, rfl, _, _, _, about_of_resolved hres (fun blob r t' hmem => ?_) hsuccess⟩
      exact hshows _ _ _ (List.mem_cons_of_mem _ hmem)
    | @replayed _ v receipt payer t' _ hv =>
      refine ⟨payload, req, deps, receipt, hl, rfl, ?_⟩
      obtain ⟨t₀, hp⟩ := hfound _ _ _ List.mem_cons_self
      obtain ⟨j, t₁, expiryMs, r, hstored⟩ := K.answered hs₀ hbp hp
      obtain ⟨payload', req', deps', v', blob', tx', paid', txMeta, hl', hver', habout⟩ :=
        about_of_stored hb hnode (hsub hstored) hsuccess
      obtain ⟨blob, tx, paid, hver⟩ := verifyExact_ok hv
      -- the call that stored the receipt carried the same blob, so the same transaction
      have hblob := hsame (i, v.replayId, receipt) (List.mem_filterMap.2 ⟨_, hsub hp, rfl⟩) hsuccess
        (j, v.replayId, receipt) (List.mem_filterMap.2 ⟨_, hsub hstored, rfl⟩) rfl
      simp only [blobOf, hl, hl', Option.bind_some, Call.blob?, hver.txBlob, hver'.txBlob, Option.some.injEq] at hblob
      obtain ⟨-, rfl⟩ := hver'.unique hver'.txBlob (hblob ▸ hver.decode)
      exact ⟨blob, _, txMeta, (hblob ▸ habout).asked hver (hblob ▸ hver')⟩

end

end

/-! ## Runs in which a receipt is found -/

namespace Sample

/-- Both payments of the invoice were validated, each with the amount it was signed for. -/
def node : Node where
  hashOf blob := if blob = blob1 then hash1 else hash2
  Validated blob txMeta := txMeta.getString "TransactionResult" = some "tesSUCCESS" ∧
    txMeta.getString "delivered_amount" = some (if blob = blob1 then "1000000" else "5000000")

instance (blob : String) (txMeta : Json) : Decidable (node.Validated blob txMeta) :=
  inferInstanceAs (Decidable (_ ∧ _))

instance (blob : String) (r : Option Json) : Decidable (node.Shows blob r) :=
  inferInstanceAs (Decidable (_ ∧ ∃ txMeta ∈ Json.get? (Json.get? r "result") "meta", node.Validated blob txMeta))

/-- A call settles the payment of one XAH; then a call with the payment in `blob` finds its receipt. -/
def paidThen (blob : String) : List (Action (inMemory env)) :=
  upToSubmit env 0 blob1 ledger100 ++ answered env 0 ledger100 (.ok (validated hash1 "1000000")) ++
    [.resume 0, .resume 0, .spawn 1 (.settle (payload blob) req {}), .resume 1, .resume 1]

end Sample

open Sample

theorem settle_sound_paid : Sound Sample.env node ((inMemory Sample.env).play (.new 100000) (paidThen blob1)).trace := by
  have hblobs : ∀ x ∈ found ((inMemory Sample.env).play (.new 100000) (paidThen blob1)).trace,
      ∀ y ∈ stored ((inMemory Sample.env).play (.new 100000) (paidThen blob1)).trace,
        blobOf y.1 ((inMemory Sample.env).play (.new 100000) (paidThen blob1)).trace =
          blobOf x.1 ((inMemory Sample.env).play (.new 100000) (paidThen blob1)).trace := by
    decide +kernel
  have hnode : ∀ x ∈ submitResults ((inMemory Sample.env).play (.new 100000) (paidThen blob1)).trace, node.Shows x.1 x.2 := by
    decide +kernel
  exact settle_sound (memoryKeeps Sample.env) rfl memoryKeeps_new ((inMemory Sample.env).reach_play ..) hnode
    fun x hx _ y hy _ => hblobs x hx y hy

/-- The payment of five XAH is answered with the receipt of one XAH, and is never submitted. -/
theorem replays_another_payment :
    ¬∀ w, (inMemory Sample.env).Reach (.new 100000) w → Honest node w.trace → Sound Sample.env node w.trace := by
  intro h
  have hnode : ∀ x ∈ submitResults ((inMemory Sample.env).play (.new 100000) (paidThen blob2)).trace, node.Shows x.1 x.2 := by
    decide +kernel
  have hreply : (replies ((inMemory Sample.env).play (.new 100000) (paidThen blob2)).trace).head?.map (fun x =>
      (x.1, x.2.success, (x.2.receipt?.bind Receipt.transaction).bind Json.asString,
        (label x.1 ((inMemory Sample.env).play (.new 100000) (paidThen blob2)).trace).bind Call.blob?)) =
      some (1, true, some hash1, some blob2) := by
    decide +kernel
  obtain ⟨x, hx, hfacts⟩ := Option.map_eq_some_iff.1 hreply
  simp only [Prod.mk.injEq] at hfacts
  obtain ⟨-, hsuccess, hhash, hblob⟩ := hfacts
  obtain ⟨payload, req, deps, receipt, hlabel, hreceipt, blob, tx, txMeta, habout⟩ :=
    h _ ((inMemory Sample.env).reach_play _ _) hnode x (List.mem_of_head? hx) hsuccess
  rw [hlabel] at hblob
  obtain rfl : blob = blob2 := Option.some.inj (habout.txBlob.symm.trans hblob)
  rw [hreceipt] at hhash
  replace hhash : receipt.transaction.bind Json.asString = some hash1 := hhash
  rw [habout.transaction] at hhash
  revert hhash
  decide +kernel

end Xahc.Facilitator

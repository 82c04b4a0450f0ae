/-
The signatures behind a receipt: who signed an accepted payment, how far a settlement has checked that,
and when the receipt says more than was checked.
-/
import Xahc.Facilitator.Accept
import Xahc.Facilitator.Contract

namespace Xahc.Facilitator

open Xahc.Data Xahc.Effect

/-! ## What the node has shown -/

/-- The account root that an `account_info` answer carries. -/
def accountRootOf (r : Json) : Option Json := (Json.get? (r.get "result") "account_data").filter Json.isObject

/-- The signer lists of the account that the answer to a request carries. -/
def signerListsOf (account : Option String) : Request → Json → Option (List Json)
  | .accountInfoSignerLists a, r =>
    if a = account then (Json.get? (Json.get? (r.get "result") "account_data") "signer_lists").bind Json.asArray else none
  | .accountObjects a type, r =>
    if a = account ∧ type = "signer_list" then (Json.get? (r.get "result") "account_objects").bind Json.asArray else none
  | _, _ => none

/-- The node has shown `key` as the account's regular key. -/
def RegularKeyRead (h : Hist) (account : Option String) (key : String) : Prop :=
  ∃ r t root, ⟨.request (.accountInfo account), .ok r, t⟩ ∈ h ∧ accountRootOf r = some root ∧
    root.getString "RegularKey" = some key

/-- The node has shown `list` as the account's signer list. -/
def SignerListRead (h : Hist) (account : Option String) (list : SignerList) : Prop :=
  ∃ rq r t lists, ⟨.request rq, .ok r, t⟩ ∈ h ∧ signerListsOf account rq r = some lists ∧ readSignerList lists = .ok list

/-! ## Signatures that were checked -/

section
variable (env : Env)

/-- A signature of `account` on the transaction was accepted, by a key that is its own. -/
def SignerAccepted (tx : Tx) (account : String) : Prop :=
  ∃ s key sig data, some s ∈ tx.signers.getD [] ∧ s.signingPubKey = some key ∧ s.txnSignature = some sig ∧
    s.account = some account ∧ deriveAddressFromPubKey env (some key) = some account ∧
    (env.encodeForMultisigning.bind fun f => f tx account) = some data ∧
    (env.verify.bind fun f => f data sig key) = some true

/-- Distinct listed signers have signed, with the weight that the quorum asks for. -/
def QuorumMet (h : Hist) (tx : Tx) : Prop :=
  ∃ (list : SignerList) (counted : List (String × Nat)), SignerListRead h tx.account list ∧ (counted.map Prod.fst).Nodup ∧
    (∀ x ∈ counted, x ∈ list.signers ∧ SignerAccepted env tx x.1) ∧ list.quorum ≤ (counted.map Prod.snd).sum

/-- The payment is signed for its account by a signature that was checked and accepted. -/
inductive Authorizes (h : Hist) (blob : String) (tx : Tx) : Prop
  | masterKey {account : String} : tx.isMultisig = false → verifyTxSignature env blob = some true →
      deriveAddressFromPubKey env tx.signingPubKey = some account → tx.account = some account → Authorizes h blob tx
  | regularKey {key : String} : tx.isMultisig = false → verifyTxSignature env blob = some true →
      deriveAddressFromPubKey env tx.signingPubKey = some key → RegularKeyRead h tx.account key → Authorizes h blob tx
  | quorum : QuorumMet env h tx → Authorizes h blob tx

/-- The one key of the transaction is the one that the node has shown as the account's regular key. -/
def RegularKeyMatches (h : Hist) (tx : Tx) : Prop :=
  tx.isMultisig = false ∧ ∃ key, deriveAddressFromPubKey env tx.signingPubKey = some key ∧ key ≠ "" ∧
    RegularKeyRead h tx.account key

end

section
variable {env : Env} {payload req : Json} {h : Hist} {tx : Tx}

theorem RegularKeyRead.cons {account : Option String} {key : String} {e : Entry Op Res}
    (hr : RegularKeyRead h account key) : RegularKeyRead (e :: h) account key := by
  obtain ⟨r, t, root, hmem, hrest⟩ := hr
  exact ⟨r, t, root, List.mem_cons_of_mem _ hmem, hrest⟩

theorem QuorumMet.cons {e : Entry Op Res} (hq : QuorumMet env h tx) : QuorumMet env (e :: h) tx := by
  obtain ⟨list, counted, ⟨rq, r, t, lists, hmem, hread⟩, hrest⟩ := hq
  exact ⟨list, counted, ⟨rq, r, t, lists, List.mem_cons_of_mem _ hmem, hread⟩, hrest⟩

theorem positiveInteger_pos {x : Option Json} {n : Nat} (hx : positiveInteger x = some n) : 0 < n := by
  obtain ⟨q, -, hq⟩ := Option.bind_eq_some_iff.1 hx
  split_ifs at hq with hpos
  obtain rfl := Option.some.inj hq
  have hnum : 0 < q.num := hpos.2
  omega

/-- A signer list that is read asks for a positive quorum. -/
theorem readSignerList_pos {lists : List Json} {list : SignerList} (hl : readSignerList lists = .ok list) :
    0 < list.quorum := by
  unfold readSignerList at hl
  split at hl
  · cases hl
  · split at hl
    · rename_i quorum entries hquorum _
      split at hl
      · cases hl
      · cases hl
      · cases hl
        exact positiveInteger_pos hquorum
    · cases hl
  · cases hl

/-- Where a quorum is met, somebody has signed. -/
theorem QuorumMet.accepted (hq : QuorumMet env h tx) : ∃ account, SignerAccepted env tx account := by
  obtain ⟨list, counted, ⟨rq, r, t, lists, -, -, hlist⟩, -, hcounted, hsum⟩ := hq
  have hpos := readSignerList_pos hlist
  cases counted with
  | nil =>
    rw [List.map_nil, List.sum_nil] at hsum
    omega
  | cons x counted => exact ⟨x.1, (hcounted x List.mem_cons_self).2⟩

/-- A payment with one signature is authorized through that signature. -/
theorem Authorizes.verified {blob : String} (ha : Authorizes env h blob tx) (hsingle : tx.isMultisig = false) :
    verifyTxSignature env blob = some true := by
  cases ha with
  | masterKey _ hv _ _ => exact hv
  | regularKey _ hv _ _ => exact hv
  | quorum hq =>
    obtain ⟨account, s, _, _, _, hmem, -⟩ := hq.accepted
    have hnone : tx.signers.getD [] = [] := by
      cases hs : tx.signers with
      | none => rfl
      | some l => simpa [Tx.isMultisig, hs] using hsingle
    rw [hnone] at hmem
    cases hmem

/-! ## Signers that are counted -/

theorem signerWeight_some {list : SignerList} {entry : Option Signer} {account : String} {weight : Nat}
    (hw : signerWeight env tx list entry = .ok (some (account, weight))) (hentry : entry ∈ tx.signers.getD []) :
    (account, weight) ∈ list.signers ∧ SignerAccepted env tx account := by
  -- an entry counts if it is complete, its key derives its account, it is listed and its signature verifies
  unfold signerWeight at hw
  split at hw
  · cases hw
  rename_i s
  split at hw
  · rename_i key sig acct hkey hsig hacct
    split_ifs at hw with hderived
    · cases hw
    split at hw
    · cases hw
    rename_i weight' hlookup
    split at hw
    · cases hw
    rename_i data hdata
    split_ifs at hw with hverify
    · cases hw
      obtain ⟨before, after, hlist, -⟩ := List.lookup_eq_some_iff.1 hlookup
      have hmem : (account, weight) ∈ list.signers := by
        rw [← List.mem_reverse, hlist]
        exact List.mem_append_right _ List.mem_cons_self
      have haccepted : (env.verify.bind fun f => f data sig key) = some true := by
        obtain ⟨f, hf, hok⟩ := Option.map_eq_some_iff.1 hverify
        rw [hf]
        exact eq_of_beq hok
      exact ⟨hmem, s, key, sig, data, hentry, hkey, hsig, hacct, not_not.1 hderived, hdata, haccepted⟩
    · cases hw
  · cases hw

/-- What the count of the signers adds comes from distinct accounts, none of them counted before. -/
theorem sumWeights_ok {list : SignerList} : ∀ {entries : List (Option Signer)} {counted : List String} {sum total : Nat},
    (∀ entry ∈ entries, entry ∈ tx.signers.getD []) → sumWeights env tx list entries counted sum = .ok total →
    ∃ added : List (String × Nat), total = sum + (added.map Prod.snd).sum ∧ (added.map Prod.fst).Nodup ∧
      ∀ x ∈ added, x.1 ∉ counted ∧ x ∈ list.signers ∧ SignerAccepted env tx x.1
  | [], counted, sum, total, _, hs => by
    cases hs
    exact ⟨[], rfl, List.nodup_nil, fun _ hx => nomatch hx⟩
  -- an account is counted once: later entries of it are skipped
  | entry :: rest, counted, sum, total, hentries, hs => by
    have hrest : ∀ entry ∈ rest, entry ∈ tx.signers.getD [] := fun e he => hentries e (List.mem_cons_of_mem _ he)
    rw [sumWeights] at hs
    split at hs
    · cases hs
    · exact sumWeights_ok hrest hs
    · rename_i account weight hw
      split_ifs at hs with hcounted
      · exact sumWeights_ok hrest hs
      · obtain ⟨hlisted, haccepted⟩ := signerWeight_some hw (hentries _ List.mem_cons_self)
        obtain ⟨added, htotal, hnodup, hadded⟩ := sumWeights_ok hrest hs
        have hfresh : account ∉ counted := by simpa using hcounted
        refine ⟨(account, weight) :: added, ?_, ?_, ?_⟩
        · rw [List.map_cons, List.sum_cons]
          omega
        · rw [List.map_cons, List.nodup_cons]
          refine ⟨fun hmem => ?_, hnodup⟩
          obtain ⟨x, hx, hxa⟩ := List.mem_map.1 hmem
          exact (hadded x hx).1 (hxa ▸ List.mem_cons_self)
        · intro x hx
          rcases List.mem_cons.1 hx with rfl | hx
          · exact ⟨hfresh, hlisted, haccepted⟩
          · exact ⟨fun hc => (hadded x hx).1 (List.mem_cons_of_mem _ hc), (hadded x hx).2⟩

/-- A multisig transaction is authorized by a quorum of the list that was read. -/
theorem authorizeMultisig_authorized {lists : Option (Except String SignerList)} {source : String}
    (hd : authorizeMultisig env tx lists = .authorized source)
    (hread : ∀ list, lists = some (.ok list) → SignerListRead h tx.account list) : QuorumMet env h tx := by
  unfold authorizeMultisig at hd
  split at hd
  · cases hd
  · cases hd
  · cases hd
  · rename_i list
    split at hd
    · cases hd
    · rename_i total hsum
      split_ifs at hd with hquorum
      obtain ⟨added, htotal, hnodup, hadded⟩ := sumWeights_ok (fun _ he => he) hsum
      refine ⟨list, added, hread list rfl, hnodup, fun x hx => (hadded x hx).2, ?_⟩
      omega

theorem authorizeRegularKey_authorized {r : Json} :
    (∃ source, authorizeRegularKey env tx (accountRootOf r) = .authorized source) ↔
      ∃ root key, accountRootOf r = some root ∧ deriveAddressFromPubKey env tx.signingPubKey = some key ∧ key ≠ "" ∧
        root.getString "RegularKey" = some key := by
  unfold authorizeRegularKey
  cases accountRootOf r with
  | none => simp
  | some root =>
    cases deriveAddressFromPubKey env tx.signingPubKey with
    | none => simp
    | some key =>
      dsimp only
      split_ifs with hmatch
      · constructor
        · rintro -
          exact ⟨root, key, rfl, rfl, hmatch.1, hmatch.2⟩
        · rintro -
          exact ⟨_, rfl⟩
      · constructor
        · rintro ⟨source, hs⟩
          cases hs
        · rintro ⟨_, _, hr, hk, hne, hreg⟩
          cases hr
          cases hk
          exact absurd ⟨hne, hreg⟩ hmatch

/-! ## The on-ledger decision -/

/-- The account is read from the node. -/
def isAccountInfo (e : Entry Op Res) : Bool :=
  match e.op with
  | .request (.accountInfo _) => true
  | _ => false

/-- The decision is to authorize for a quorum, or where the key matches the regular key that was read. -/
structure Decided (env : Env) (h : Hist) (tx : Tx) (d : Decision) : Prop where
  authorized : ∀ source, d = .authorized source → RegularKeyMatches env h tx ∨ QuorumMet env h tx
  matched : RegularKeyMatches env h tx → ∃ source, d = .authorized source

theorem asks_accountRoot (h : Hist) (account : Option String) :
    Asks h (fun h' root => (root = none ∧ ∃ e t, h' = ⟨.request (.accountInfo account), .error e, t⟩ :: h) ∨
      ∃ r t, root = accountRootOf r ∧ h' = ⟨.request (.accountInfo account), .ok r, t⟩ :: h) h (fetchAccountRoot account) := by
  refine asks_request fun r t => ?_
  cases r with
  | error e => exact ⟨(Asked.refl h).cons .., .inl ⟨rfl, e, t, rfl⟩⟩
  | ok r => exact ⟨(Asked.refl h).cons .., .inr ⟨r, t, rfl, rfl⟩⟩

/-- A list that was read is one that the node has shown. -/
theorem asks_signerList (h : Hist) (account : Option String) :
    Asks h (fun h' lists => ∀ list, lists = some (.ok list) → SignerListRead h' account list) h (fetchSignerList account) := by
  have hfallback : ∀ {h'}, Asked h h' →
      Asks h (fun h' lists => ∀ list, lists = some (.ok list) → SignerListRead h' account list) h'
        (fetchSignerList.fallback account) := by
    intro h' ha
    refine asks_request fun r t => ?_
    cases r with
    | error e => exact ⟨ha.cons .., fun _ hl => nomatch hl⟩
    | ok r =>
      refine ⟨ha.cons .., fun list hl => ?_⟩
      obtain ⟨lists, hlists, hread⟩ := Option.map_eq_some_iff.1 hl
      exact ⟨_, r, t, lists, List.mem_cons_self, by simpa [signerListsOf] using hlists, hread⟩
  refine asks_request fun r t => ?_
  cases r with
  | error e => exact hfallback ((Asked.refl h).cons ..)
  | ok r =>
    dsimp only [Prog.bind]
    split
    · rename_i lists hlists
      refine ⟨(Asked.refl h).cons .., fun list hl => ?_⟩
      exact ⟨_, r, t, lists, List.mem_cons_self, by simpa [signerListsOf] using hlists, Option.some.inj hl⟩
    · exact hfallback ((Asked.refl h).cons ..)

theorem asks_decision (hfirst : ∀ e ∈ h, isAccountInfo e = false) :
    Asks h (fun h' d => Decided env h' tx d) h (authorizeOnLedger env tx tx.isMultisig) := by
  unfold authorizeOnLedger
  split
  · rename_i hmulti
    refine Prog.Along.bind (fun _ _ _ hop => hop) ?_ (asks_signerList h tx.account)
    intro h' lists hmid
    refine ⟨hmid.1, ?_⟩
    exact
      { authorized := fun source hd => .inr (authorizeMultisig_authorized hd hmid.2)
        matched := fun hm => absurd hmulti (by simp [hm.1]) }
  · rename_i hsingle
    rw [Bool.not_eq_true] at hsingle
    refine Prog.Along.bind (fun _ _ _ hop => hop) ?_ (asks_accountRoot h tx.account)
    intro h' root hmid
    refine ⟨hmid.1, ?_⟩
    -- the account root could not be read, or it decides by its regular key
    rcases hmid.2 with ⟨rfl, e, t, rfl⟩ | ⟨r, t, rfl, rfl⟩
    · refine ⟨fun source hd => (nomatch hd), fun hm => ?_⟩
      obtain ⟨-, key, -, -, r', t', root, hmem, -⟩ := hm
      rcases List.mem_cons.1 hmem with heq | hmem
      · cases heq
      · exact nomatch hfirst _ hmem
    · refine ⟨fun source hd => .inl ?_, fun hm => ?_⟩
      · obtain ⟨root, key, hroot, hkey, hne, hreg⟩ := authorizeRegularKey_authorized.1 ⟨source, hd⟩
        exact ⟨hsingle, key, hkey, hne, r, t, root, List.mem_cons_self, hroot, hreg⟩
      · obtain ⟨-, key, hkey, hne, r', t', root, hmem, hroot, hreg⟩ := hm
        rcases List.mem_cons.1 hmem with heq | hmem
        · cases heq
          exact authorizeRegularKey_authorized.2 ⟨root, key, hroot, hkey, hne, hreg⟩
        · exact nomatch hfirst _ hmem

/-! ## What a receipt claims -/

/-- The payment is verified and decoded, and `confirmed` says how far its authorization has come. -/
structure Claims (env : Env) (payload req : Json) (h : Hist) (v : Verified) (blob : String) (tx : Tx)
    (confirmed : Bool) : Prop where
  verified : verifyExact env payload req = .ok v
  txBlob : payload.getString "txBlob" = some blob
  decode : env.decode blob = some tx
  backed : confirmed = true → v.signatureVerified = true ∨ RegularKeyMatches env h tx ∨ QuorumMet env h tx
  matched : v.signatureVerified = false → RegularKeyMatches env h tx → confirmed = true

theorem Claims.cons {v : Verified} {blob : String} {confirmed : Bool} {e : Entry Op Res} (he : isAccountInfo e = false)
    (hc : Claims env payload req h v blob tx confirmed) : Claims env payload req (e :: h) v blob tx confirmed := by
  refine { hc with backed := fun hconf => ?_, matched := fun hv hm => ?_ }
  · rcases hc.backed hconf with hv | ⟨hsingle, key, hkey, hne, hread⟩ | hq
    · exact .inl hv
    · exact .inr (.inl ⟨hsingle, key, hkey, hne, hread.cons⟩)
    · exact .inr (.inr hq.cons)
  · obtain ⟨hsingle, key, hkey, hne, r, t, root, hmem, hrest⟩ := hm
    rcases List.mem_cons.1 hmem with rfl | hmem
    · cases he
    · exact hc.matched hv ⟨hsingle, key, hkey, hne, r, t, root, hmem, hrest⟩

/-- A settlement that builds a receipt with no other claim than what its calls have shown. -/
abbrev Builds (env : Env) (payload req : Json) : Hist → Settlement → Prop :=
  Prog.Along (fun _ _ _ => True) fun h out => ∀ receipt, out = .ok (.settled receipt) →
    ∃ v blob tx, Claims env payload req h v blob tx receipt.signatureVerified

theorem builds_reject (r : Rejection) : Builds env payload req h (reject r) := fun _ hout => nomatch hout

theorem builds_error (e : Json) : Builds env payload req h (.ret (.error e)) := fun _ hout => nomatch hout

/-- What the receipt claims of the signature holds. -/
abbrev Attempt.Claims (env : Env) (payload req : Json) (h : Hist) (a : Attempt) : Prop :=
  Facilitator.Claims env payload req h a.v a.txBlob a.tx a.auth.signatureVerified

theorem builds_persistReceipt {a : Attempt} {receipt : Receipt} (hc : a.Claims env payload req h)
    (hreceipt : receipt.signatureVerified = a.auth.signatureVerified) :
    Builds env payload req h (persistReceipt a receipt) := by
  refine ⟨trivial, fun r t receipt' hout => ?_⟩
  cases hout
  rw [hreceipt]
  exact ⟨a.v, a.txBlob, a.tx, hc.cons rfl⟩

theorem builds_settleSubmit {a : Attempt} (hc : a.Claims env payload req h) :
    Builds env payload req h (settleSubmit env a) := by
  refine ⟨trivial, fun r t => ?_⟩
  have hc' := hc.cons (e := ⟨.submitAndWait a.txBlob, r, t⟩) rfl
  cases r with
  | error e =>
    dsimp only
    split
    · refine ⟨trivial, fun r t => ?_⟩
      cases r with
      | error e => exact builds_error e
      | ok u => exact builds_reject _
    · exact builds_reject _
  | ok r =>
    dsimp only
    split
    · exact builds_reject _
    · rename_i code txMeta hash hread
      show Builds env payload req _ (settleReceipt env a code txMeta hash)
      unfold settleReceipt
      dsimp only
      split
      · exact ⟨trivial, fun r t => builds_persistReceipt (hc'.cons rfl) rfl⟩
      · exact builds_persistReceipt hc' rfl

theorem builds_settleReserve {a : Attempt} (hc : a.Claims env payload req h) :
    Builds env payload req h (settleReserve env a) := by
  refine ⟨trivial, fun r t => ?_⟩
  cases r with
  | error e => exact builds_reject _
  | ok res =>
    cases res with
    | full => exact builds_reject _
    | «exists» =>
      refine ⟨trivial, fun r t => ?_⟩
      cases r with
      | error e => exact builds_error e
      | ok receipt => cases receipt <;> exact fun _ hout => nomatch hout
    | reserved => exact builds_settleSubmit (hc.cons rfl)

theorem builds_settleAuthorized {w : Window} {auth : Authorized}
    (hc : Claims env payload req h w.v w.txBlob w.tx auth.signatureVerified) :
    Builds env payload req h (settleAuthorized env w auth) := by
  refine ⟨trivial, fun r t => ?_⟩
  cases r <;> exact builds_settleReserve (hc.cons rfl)

/-- Verified and decoded, and the node has not been asked for the account yet. -/
structure Unasked (env : Env) (payload req : Json) (h : Hist) (v : Verified) (blob : String) (tx : Tx) : Prop where
  verified : verifyExact env payload req = .ok v
  txBlob : payload.getString "txBlob" = some blob
  decode : env.decode blob = some tx
  first : ∀ e ∈ h, isAccountInfo e = false

theorem Unasked.cons {v : Verified} {blob : String} {e : Entry Op Res} (he : isAccountInfo e = false)
    (hu : Unasked env payload req h v blob tx) : Unasked env payload req (e :: h) v blob tx :=
  { hu with first := List.forall_mem_cons.2 ⟨he, hu.first⟩ }

theorem builds_settleAuthorize {w : Window} (hu : Unasked env payload req h w.v w.txBlob w.tx) :
    Builds env payload req h (settleAuthorize env w) := by
  unfold settleAuthorize
  split
  -- with the signature checked nothing is asked; otherwise the ledger decides
  · rename_i hv
    refine builds_settleAuthorized
      { verified := hu.verified
        txBlob := hu.txBlob
        decode := hu.decode
        backed := fun _ => .inl hv
        matched := fun _ _ => rfl }
  · refine Prog.Along.bind (fun _ _ _ _ => trivial) ?_ (asks_decision hu.first)
    intro h' d hmid
    have hd := hmid.2
    cases d with
    | rejected reason => exact builds_reject _
    | authorized source =>
      exact builds_settleAuthorized
        { verified := hu.verified
          txBlob := hu.txBlob
          decode := hu.decode
          backed := fun _ => .inr (hd.authorized source rfl)
          matched := fun _ _ => rfl }
    | fallback =>
      refine builds_settleAuthorized
        { verified := hu.verified
          txBlob := hu.txBlob
          decode := hu.decode
          backed := fun hconf => nomatch hconf
          matched := fun _ hm => ?_ }
      obtain ⟨source, hs⟩ := hd.matched hm
      cases hs

theorem builds_settleWindow {v : Verified} {blob : String} (now : Nat) (cur : Option ℚ)
    (hu : Unasked env payload req h v blob tx) : Builds env payload req h (settleWindow env req v blob tx now cur) := by
  unfold settleWindow
  split
  · exact builds_reject _
  · exact builds_reject _
  · split_ifs
    · exact builds_reject _
    · exact builds_reject _
    · exact builds_settleAuthorize hu

theorem builds_settleReplay {v : Verified} (hv : verifyExact env payload req = .ok v)
    (hfirst : ∀ e ∈ h, isAccountInfo e = false) : Builds env payload req h (settleReplay env payload req v) := by
  refine ⟨trivial, fun r now => ?_⟩
  cases r with
  | error e => exact builds_reject _
  | ok consumed =>
    cases consumed with
    | true =>
      refine ⟨trivial, fun r t => ?_⟩
      cases r with
      | error e => exact builds_reject _
      | ok receipt => cases receipt <;> exact fun _ hout => nomatch hout
    | false =>
      obtain ⟨blob, tx, paid, hver⟩ := verifyExact_ok hv
      have hu : Unasked env payload req (⟨.isConsumed v.replayId, .ok false, now⟩ :: h) v blob tx :=
        ⟨hv, hver.txBlob, hver.decode, List.forall_mem_cons.2 ⟨rfl, hfirst⟩⟩
      show Builds env payload req _ (settleFresh env payload req v now)
      simp only [settleFresh, hver.txBlob, Option.getD_some, hver.decode]
      refine ⟨trivial, fun r t => ?_⟩
      replace hu := hu.cons (e := ⟨.getClient, r, t⟩) rfl
      cases r with
      | error msg => exact builds_reject _
      | ok u =>
        refine ⟨trivial, fun r t => ?_⟩
        replace hu := hu.cons (e := ⟨.request .ledgerValidated, r, t⟩) rfl
        cases r with
        | error e => exact builds_settleWindow now none hu
        | ok r => exact builds_settleWindow now (ledgerIndexOf r) hu

/-- Every receipt that a settlement builds claims what its calls have shown, whatever is answered. -/
theorem builds_settle (env : Env) (payload req : Json) (deps : Deps) :
    Builds env payload req [] (settle env payload req deps) := by
  unfold settle
  split
  · exact builds_reject _
  split
  · exact builds_reject _
  · rename_i v hv
    unfold settleVerified
    split_ifs
    · exact ⟨trivial, fun sim t => builds_reject _⟩
    · refine ⟨trivial, fun sim t => ?_⟩
      show Builds env payload req _ (settleSimulated env payload req v sim)
      unfold settleSimulated
      split
      · exact builds_reject _
      · exact builds_settleReplay hv (by simp [isAccountInfo])
    · exact builds_settleReplay hv (by simp)

/-- Where a library verifies the one signature, a payment that is not refused for it has a valid one. -/
theorem checkSignature_valid {blob : String} {verified : Bool} (h : checkSignature env blob tx = .ok verified)
    (hsingle : tx.isMultisig = false) (hlib : env.verifySignature ≠ none) : verifyTxSignature env blob = some true := by
  obtain ⟨f, hf⟩ := Option.ne_none_iff_exists'.1 hlib
  unfold checkSignature at h
  have hverdict : verifyTxSignature env blob = some (f blob == some true) := by rw [verifyTxSignature, hf, Option.map_some]
  rw [hverdict] at h ⊢
  cases hok : f blob == some true with
  | true => rfl
  | false =>
    rw [hok, hsingle] at h
    split_ifs at h
    contradiction

/-- One settlement, from its call to its outcome, its calls answered by `O`. -/
def settlement (env : Env) (O : Prog.Env Op Res) (payload req : Json) (deps : Deps) : Hist × Except Json Reply :=
  Prog.run O [] (settle env payload req deps)

/-- A fresh receipt says that the signature is verified only for a payment that somebody authorized by a
signature that was checked, unless no library verifies signatures and the payment's key matches the
account's regular key: there it says so although nothing was checked. -/
theorem settle_authorized_iff {deps : Deps} {O : Prog.Env Op Res} {receipt : Receipt}
    (hout : (settlement env O payload req deps).2 = .ok (.settled receipt)) :
    ∃ blob tx, payload.getString "txBlob" = some blob ∧ env.decode blob = some tx ∧
      ((receipt.signatureVerified = true → Authorizes env (settlement env O payload req deps).1 blob tx) ↔
        ¬(env.verifySignature = none ∧ RegularKeyMatches env (settlement env O payload req deps).1 tx)) := by
  obtain ⟨v, blob, tx, hc⟩ := (builds_settle env payload req deps).run_fin O receipt hout
  obtain ⟨blob', r, tx', paid, hblob, -, htx, -, -, -, hsig, -⟩ := verifyExact_parts hc.verified
  obtain rfl : blob = blob' := Option.some.inj (hc.txBlob.symm.trans (readBlob_ok hblob))
  obtain rfl : tx = tx' := Option.some.inj (hc.decode.symm.trans (decodeBlob_ok htx))
  refine ⟨blob, tx, hc.txBlob, hc.decode, ?_, ?_⟩
  · rintro hauth ⟨hlib, hm⟩
    have hnone : verifyTxSignature env blob = none := by rw [verifyTxSignature, hlib, Option.map_none]
    -- without the library the offline check has verified nothing
    have hunverified : v.signatureVerified = false := by
      rw [← Bool.not_eq_true, checkSignature_verified hsig, hnone]
      rintro ⟨-, hv, -⟩
      cases hv
    have hv := (hauth (hc.matched hunverified hm)).verified hm.1
    rw [hnone] at hv
    cases hv
  -- a verified master key, a matched regular key or a quorum stands behind the claim
  · intro hcond hconf
    rcases hc.backed hconf with hv | hm | hq
    · obtain ⟨hsingle, hok, account, hkey, haccount⟩ := (checkSignature_verified hsig).1 hv
      exact .masterKey hsingle hok hkey haccount
    · have hlib : env.verifySignature ≠ none := fun hlib => hcond ⟨hlib, hm⟩
      obtain ⟨hsingle, key, hkey, -, hread⟩ := hm
      exact .regularKey hsingle (checkSignature_valid hsig hsingle hlib) hkey hread
    · exact .quorum hq

end

/-! ## A payment that nobody has checked -/

namespace Sample

/-- The account whose key is the payer's regular key. -/
def regular : String := "rHb9CJAWyB4rj91VRWn96DkukG4bwdtyTh"

/-- The payer's regular key. -/
def regularPubKey : String := "0330E7FC9D56BB25D6893BA3F317AE5BCF33B3291BD63DB32654A313222F7FD020"

/-- One XAH, signed with the regular key. -/
def tx4 : Tx :=
  { payment 9 110 "1000000"
      ("304402204674831FD0A624431CD1A02A39DB4D4D1AD47024C0207EF674F5C73A0112F103022065E154100873775F4625" ++
        "5E81E30702632DCC8CF16B6789A5D07BAD672A8500F9") with
    signingPubKey := some regularPubKey }

/-- A payment signed with it. -/
def blob4 : String :=
    "12000021000053592400000009201B0000006E50110FC89F8AE19394B48DEBD6353BB9AD3393F3BC791931519F19D176" ++
    "A7E5513EBC6140000000000F424068400000000000000C73210330E7FC9D56BB25D6893BA3F317AE5BCF33B3291BD63D" ++
    "B32654A313222F7FD0207446304402204674831FD0A624431CD1A02A39DB4D4D1AD47024C0207EF674F5C73A0112F103" ++
    "022065E154100873775F46255E81E30702632DCC8CF16B6789A5D07BAD672A8500F98114D80195F83AB2DE2E5769A1D0" ++
    "DAE00D9F55B213FD8314B8071AB45965A0C105EAB022F1EB7BA745C7EE8D"

/-- The hash of that payment. -/
def hash4 : String := "77B1B088B6C0351259B81519B77E3EC0383D97842C618F5FB9F94E0D71F044C5"

/-- No library verifies signatures; the address of a key is known. -/
def unchecking : Env :=
  { env with
    decode := fun s => if s = blob4 then some tx4 else none
    verifySignature := none
    deriveAddress := some fun k => if k = pubKey then some payer else if k = regularPubKey then some regular else none }

/-- A node that validates what it is given, with the given outcome. -/
def answers (outcome : Json) : Prog.Env Op Res := fun _ op => (answer ledger100 (.ok (some outcome)) op, 0)

/-- A node that shows the payer's regular key, and validates what it is given. -/
def withRegularKey : Prog.Env Op Res := fun _ op =>
  match op with
  | .request (.accountInfo _) =>
    (.ok (.obj [("result", .obj [("account_data", .obj [("Account", .str payer), ("RegularKey", .str regular)])])]), 0)
  | op => answers (validated hash4 "1000000") [] op

/-- The receipt of a settlement that resolved now. -/
def freshReceipt : Except Json Reply → Option Receipt
  | .ok (.settled receipt) => some receipt
  | _ => none

theorem of_freshReceipt {out : Except Json Reply} {receipt : Receipt} (h : freshReceipt out = some receipt) :
    out = .ok (.settled receipt) := by
  unfold freshReceipt at h
  split at h <;> cases h
  rfl

end Sample

open Sample

/-- The payment that the payer's master key signed is settled, and its signature was checked. -/
theorem settle_authorized_iff_master : ∃ receipt,
    (settlement Sample.env (answers (validated hash1 "1000000")) (Sample.payload blob1) Sample.req {}).2 = .ok (.settled receipt) ∧
    ∃ blob tx, (Sample.payload blob1).getString "txBlob" = some blob ∧ Sample.env.decode blob = some tx ∧
      ((receipt.signatureVerified = true → Authorizes Sample.env
          (settlement Sample.env (answers (validated hash1 "1000000")) (Sample.payload blob1) Sample.req {}).1 blob tx) ↔
        ¬(Sample.env.verifySignature = none ∧ RegularKeyMatches Sample.env
          (settlement Sample.env (answers (validated hash1 "1000000")) (Sample.payload blob1) Sample.req {}).1 tx)) := by
  have hfresh : (freshReceipt (settlement Sample.env (answers (validated hash1 "1000000")) (Sample.payload blob1) Sample.req
      {}).2).isSome = true := by decide +kernel
  obtain ⟨receipt, hreceipt⟩ := Option.isSome_iff_exists.1 hfresh
  exact ⟨receipt, of_freshReceipt hreceipt, settle_authorized_iff (of_freshReceipt hreceipt)⟩

/-- A receipt says that the signature is verified where no library verifies signatures. -/
theorem receipt_of_unchecked_signature :
    ¬∀ (env : Env) (O : Prog.Env Op Res) (payload req : Json) (deps : Deps) (receipt : Receipt),
      (settlement env O payload req deps).2 = .ok (.settled receipt) → receipt.signatureVerified = true →
        ∃ blob tx, payload.getString "txBlob" = some blob ∧ env.decode blob = some tx ∧
          Authorizes env (settlement env O payload req deps).1 blob tx := by
  intro h
  have hfresh : (freshReceipt (settlement unchecking withRegularKey (Sample.payload blob4) Sample.req {}).2).map
      Receipt.signatureVerified = some true := by decide +kernel
  obtain ⟨receipt, hreceipt, hverified⟩ := Option.map_eq_some_iff.1 hfresh
  obtain ⟨blob, tx, hblob, htx, hauth⟩ := h _ _ _ _ _ _ (of_freshReceipt hreceipt) hverified
  have hget : (Sample.payload blob4).getString "txBlob" = some blob4 := rfl
  have hdecode : unchecking.decode blob4 = some tx4 := by simp only [unchecking, if_true]
  rw [hget, Option.some.injEq] at hblob
  rw [← hblob, hdecode, Option.some.injEq] at htx
  subst htx
  have hv := hauth.verified rfl
  cases hv

end Xahc.Facilitator

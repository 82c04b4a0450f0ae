/-
The quorum of a multisig payment: the loop over `Signers` adds up the on-ledger weights of the listed
accounts that have signed, each once, whatever else stands among the entries and in whatever order.
-/
import Xahc.Facilitator.Authority

namespace Xahc.Facilitator

open Xahc.Data

/-! ## Sums over a list with distinct keys -/

theorem sum_map_congr {α : Type} {l : List α} {f g : α → Nat} (h : ∀ x ∈ l, f x = g x) : (l.map f).sum = (l.map g).sum := by
  rw [List.map_congr_left h]

theorem sum_map_filter {α : Type} (p : α → Bool) (f : α → Nat) (l : List α) :
    ((l.filter p).map f).sum = (l.map fun x => if p x then f x else 0).sum := by
  induction l with
  | nil => rfl
  | cons x l ih => by_cases hx : p x <;> simp [hx, ih]

theorem lookup_iff_mem {κ α : Type} [BEq κ] [LawfulBEq κ] {k : κ} {v : α} :
    ∀ {l : List (κ × α)}, (l.map Prod.fst).Nodup → (l.lookup k = some v ↔ (k, v) ∈ l)
  | [], _ => by simp
  | (k', v') :: l, hnodup => by
    rw [List.map_cons, List.nodup_cons] at hnodup
    rw [List.lookup_cons, List.mem_cons, Prod.mk.injEq]
    by_cases hk : k = k'
    · subst hk
      have hnot : (k, v) ∉ l := fun hmem => hnodup.1 (List.mem_map.2 ⟨(k, v), hmem, rfl⟩)
      simp [hnot, eq_comm]
    · simp [hk, beq_eq_false_iff_ne.2 hk, lookup_iff_mem hnodup.2]

/-- Two sums that differ in the term of one key. -/
theorem sum_map_eq_add {κ α : Type} {l : List (κ × α)} {f g : κ × α → Nat} {p : κ × α} {w : Nat}
    (hnodup : (l.map Prod.fst).Nodup) (hp : p ∈ l) (hfp : f p = w + g p) (hne : ∀ q ∈ l, q.1 ≠ p.1 → f q = g q) :
    (l.map f).sum = w + (l.map g).sum := by
  induction l with
  | nil => cases hp
  | cons q l ih =>
    rw [List.map_cons, List.nodup_cons] at hnodup
    rw [List.map_cons, List.sum_cons, List.map_cons, List.sum_cons]
    rcases List.mem_cons.1 hp with rfl | hp
    · have hrest : (l.map f).sum = (l.map g).sum := sum_map_congr fun q hq =>
        hne q (List.mem_cons_of_mem _ hq) fun hkey => hnodup.1 (hkey ▸ List.mem_map_of_mem hq)
      omega
    · have hq : f q = g q := hne q List.mem_cons_self fun hkey => hnodup.1 (hkey ▸ List.mem_map_of_mem hp)
      have hrest := ih hnodup.2 hp fun q' hq' => hne q' (List.mem_cons_of_mem _ hq')
      omega

section
variable (env : Env)

/-! ## Who has signed -/

/-- An entry of `Signers` is a signature of `account`: its key derives to the account, and its signature
verifies over the account's multisigning data. -/
def signs (tx : Tx) (account : String) : Option Signer → Bool
  | some ⟨some key, some sig, some acct⟩ =>
    acct == account && deriveAddressFromPubKey env (some key) == some account &&
      ((env.encodeForMultisigning.bind fun f => f tx account).bind fun data =>
        env.verify.bind fun f => f data sig key) == some true
  | _ => false

/-- The summed weight of the listed accounts that have signed. -/
def signedWeight (tx : Tx) (list : SignerList) : Nat :=
  ((list.signers.filter fun s => (tx.signers.getD []).any (signs env tx s.1)).map Prod.snd).sum

/-- `encodeForMultisigning` is there, encodes every transaction, and leaves `Signers` out. -/
structure EncodesUnsigned : Prop where
  total : ∀ tx account, ∃ data, (env.encodeForMultisigning.bind fun f => f tx account) = some data
  unsigned : ∀ tx signers account, (env.encodeForMultisigning.bind fun f => f { tx with signers := signers } account) =
    env.encodeForMultisigning.bind fun f => f tx account

end

section
variable {env : Env} {tx : Tx} {list : SignerList}

theorem signs_iff {account : String} {entry : Option Signer} :
    signs env tx account entry = true ↔ ∃ s key sig data, entry = some s ∧ s.signingPubKey = some key ∧
      s.txnSignature = some sig ∧ s.account = some account ∧ deriveAddressFromPubKey env (some key) = some account ∧
      (env.encodeForMultisigning.bind fun f => f tx account) = some data ∧
      (env.verify.bind fun f => f data sig key) = some true := by
  constructor
  · intro h
    unfold signs at h
    split at h
    · rename_i key sig acct
      rw [Bool.and_eq_true, Bool.and_eq_true, beq_iff_eq, beq_iff_eq, beq_iff_eq] at h
      obtain ⟨⟨rfl, hderived⟩, hverified⟩ := h
      obtain ⟨data, hdata, hverified⟩ := Option.bind_eq_some_iff.1 hverified
      exact ⟨_, key, sig, data, rfl, rfl, rfl, rfl, hderived, hdata, hverified⟩
    · cases h
  · rintro ⟨⟨k, g, a⟩, key, sig, data, rfl, rfl, rfl, rfl, hderived, hdata, hverified⟩
    simp [signs, hderived, hdata, hverified]

/-- An entry with all of its fields is a signature of the account it names, and of that one where its key derives
to it and its signature verifies. -/
theorem signs_some {s : Signer} {key sig acct account : String} (hkey : s.signingPubKey = some key)
    (hsig : s.txnSignature = some sig) (hacct : s.account = some acct) :
    signs env tx account (some s) = true ↔ acct = account ∧ deriveAddressFromPubKey env (some key) = some account ∧
      ∃ data, (env.encodeForMultisigning.bind fun f => f tx account) = some data ∧
        (env.verify.bind fun f => f data sig key) = some true := by
  rw [signs_iff]
  constructor
  · rintro ⟨s', key', sig', data, heq, hkey', hsig', hacct', hderived, hdata, hverified⟩
    obtain rfl := Option.some.inj heq
    obtain rfl := Option.some.inj (hkey.symm.trans hkey')
    obtain rfl := Option.some.inj (hsig.symm.trans hsig')
    exact ⟨Option.some.inj (hacct.symm.trans hacct'), hderived, data, hdata, hverified⟩
  · rintro ⟨rfl, hderived, data, hdata, hverified⟩
    exact ⟨s, key, sig, data, rfl, hkey, hsig, hacct, hderived, hdata, hverified⟩

/-- The account has signed where some entry is a signature of it. -/
theorem signerAccepted_iff {account : String} :
    SignerAccepted env tx account ↔ (tx.signers.getD []).any (signs env tx account) = true := by
  rw [List.any_eq_true]
  constructor
  · rintro ⟨s, key, sig, data, hmem, h⟩
    exact ⟨some s, hmem, signs_iff.2 ⟨s, key, sig, data, rfl, h⟩⟩
  · rintro ⟨entry, hmem, h⟩
    obtain ⟨s, key, sig, data, rfl, hsigned⟩ := signs_iff.1 h
    exact ⟨s, key, sig, data, hmem, hsigned⟩

/-- An entry is a signature of one account at most. -/
theorem signs_unique {a b : String} {entry : Option Signer} (ha : signs env tx a entry = true)
    (hb : signs env tx b entry = true) : a = b := by
  obtain ⟨s, _, _, _, rfl, -, -, hacct, -⟩ := signs_iff.1 ha
  obtain ⟨s', _, _, _, heq, -, -, hacct', -⟩ := signs_iff.1 hb
  obtain rfl := Option.some.inj heq
  exact Option.some.inj (hacct.symm.trans hacct')

/-! ## One entry -/

theorem lookup_signers (hnodup : (list.signers.map Prod.fst).Nodup) {account : String} {weight : Nat} :
    list.signers.reverse.lookup account = some weight ↔ (account, weight) ∈ list.signers := by
  rw [lookup_iff_mem (by rw [List.map_reverse]; exact List.nodup_reverse.2 hnodup), List.mem_reverse]

/-- What the loop makes of an entry: the listed account that it is a signature of, if there is one. -/
theorem signerWeight_spec (henc : EncodesUnsigned env) (hnodup : (list.signers.map Prod.fst).Nodup)
    (entry : Option Signer) :
    (signerWeight env tx list entry = .ok none ∧ ∀ s ∈ list.signers, signs env tx s.1 entry = false) ∨
    ∃ s ∈ list.signers, signerWeight env tx list entry = .ok (some s) ∧ signs env tx s.1 entry = true := by
  -- an entry that is a signature of nobody, or of an account that is not listed, adds nothing
  have hnobody : (∀ account weight, (account, weight) ∈ list.signers → signs env tx account entry ≠ true) →
      ∀ s ∈ list.signers, signs env tx s.1 entry = false := fun h s hs => Bool.not_eq_true _ ▸ h s.1 s.2 hs
  unfold signerWeight
  split
  · exact .inl ⟨rfl, hnobody fun account weight _ => by simp [signs]⟩
  rename_i s
  split
  · rename_i key sig account hkey hsig hacct
    split_ifs with hderived
    · refine .inl ⟨rfl, hnobody fun a weight _ h => ?_⟩
      obtain ⟨rfl, hderived', -⟩ := (signs_some hkey hsig hacct).1 h
      exact hderived hderived'
    cases hlookup : list.signers.reverse.lookup account with
    | none =>
      refine .inl ⟨rfl, hnobody fun a weight hmem h => ?_⟩
      obtain ⟨rfl, -⟩ := (signs_some hkey hsig hacct).1 h
      rw [(lookup_signers hnodup).2 hmem] at hlookup
      cases hlookup
    | some weight =>
      obtain ⟨data, hdata⟩ := henc.total tx account
      dsimp only
      rw [hdata]
      dsimp only
      split_ifs with hverify
      · refine .inr ⟨(account, weight), (lookup_signers hnodup).1 hlookup, rfl, (signs_some hkey hsig hacct).2 ?_⟩
        obtain ⟨f, hf, hok⟩ := Option.map_eq_some_iff.1 hverify
        exact ⟨rfl, not_not.1 hderived, data, hdata, by rw [hf]; exact eq_of_beq hok⟩
      · refine .inl ⟨rfl, hnobody fun a weight' _ h => hverify ?_⟩
        obtain ⟨rfl, -, data', hdata', hok⟩ := (signs_some hkey hsig hacct).1 h
        obtain rfl := Option.some.inj (hdata.symm.trans hdata')
        obtain ⟨f, hf, hok⟩ := Option.bind_eq_some_iff.1 hok
        rw [hf, Option.map_some, hok]
        rfl
  · rename_i hmalformed
    refine .inl ⟨rfl, hnobody fun a weight _ h => ?_⟩
    obtain ⟨s', key', sig', data', heq, hkey', hsig', hacct', -⟩ := signs_iff.1 h
    obtain rfl := Option.some.inj heq
    exact hmalformed _ _ _ hkey' hsig' hacct'

/-! ## The loop -/

/-- What a listed account still adds: its weight, if it is not credited yet and has signed among the
entries to come. -/
def stillAdds (env : Env) (tx : Tx) (counted : List String) (entries : List (Option Signer)) (s : String × Nat) : Nat :=
  if !counted.contains s.1 && entries.any (signs env tx s.1) then s.2 else 0

/-- The invariant of the loop: what it returns is what was summed so far and what every listed account
still adds. -/
theorem sumWeights_eq (henc : EncodesUnsigned env) (hnodup : (list.signers.map Prod.fst).Nodup) :
    ∀ (entries : List (Option Signer)) (counted : List String) (sum : Nat),
      sumWeights env tx list entries counted sum = .ok (sum + (list.signers.map (stillAdds env tx counted entries)).sum)
  | [], counted, sum => by
    have hnone : stillAdds env tx counted [] = fun _ => 0 := funext fun s => by simp [stillAdds]
    rw [sumWeights, hnone]
    simp
  | entry :: rest, counted, sum => by
    rw [sumWeights]
    rcases signerWeight_spec henc hnodup entry with ⟨hw, hnobody⟩ | ⟨s, hs, hw, hsigned⟩
    · rw [hw]
      dsimp only
      rw [sumWeights_eq henc hnodup rest counted sum]
      congr 2
      refine sum_map_congr fun s hs => ?_
      simp [stillAdds, hnobody s hs]
    · rw [hw]
      dsimp only
      -- the entry is a signature of no other account
      have hother : ∀ q : String × Nat, q.1 ≠ s.1 → signs env tx q.1 entry = false := fun q hq => by
        rw [← Bool.not_eq_true]
        exact fun h => hq (signs_unique h hsigned)
      split_ifs with hcounted
      · -- the account is credited already
        rw [sumWeights_eq henc hnodup rest counted sum]
        congr 2
        refine sum_map_congr fun q hq => ?_
        by_cases hkey : q.1 = s.1
        · simp only [stillAdds, hkey, hcounted, Bool.not_true, Bool.false_and]
        · simp [stillAdds, hother q hkey]
      · -- its weight is credited now, and no entry to come credits it again
        rw [sumWeights_eq henc hnodup rest (s.1 :: counted) (sum + s.2)]
        congr 1
        have hfresh : stillAdds env tx counted (entry :: rest) s = s.2 + stillAdds env tx (s.1 :: counted) rest s := by
          rw [Bool.not_eq_true] at hcounted
          simp only [stillAdds, hcounted, List.any_cons, hsigned, List.contains_cons, beq_self_eq_true, Bool.not_false,
            Bool.true_or, Bool.and_self, Bool.not_true, Bool.false_and, if_true, Bool.false_eq_true, if_false, Nat.add_zero]
        have hsame : ∀ q ∈ list.signers, q.1 ≠ s.1 →
            stillAdds env tx counted (entry :: rest) q = stillAdds env tx (s.1 :: counted) rest q := fun q _ hq => by
          simp [stillAdds, hother q hq, hq]
        rw [sum_map_eq_add hnodup hs hfresh hsame]
        omega

/-- The loop sums up the signed weight. -/
theorem sumWeights_signed (henc : EncodesUnsigned env) (hnodup : (list.signers.map Prod.fst).Nodup) :
    sumWeights env tx list (tx.signers.getD []) [] 0 = .ok (signedWeight env tx list) := by
  rw [sumWeights_eq henc hnodup, signedWeight, sum_map_filter, Nat.zero_add]
  congr 1

/-! ## Entries that do not matter -/

/-- Other entries with the same signatures among them. -/
def SameSignatures (env : Env) (tx : Tx) (signers : List (Option Signer)) : Prop :=
  ∀ account entry, signs env tx account entry = true → (entry ∈ signers ↔ entry ∈ tx.signers.getD [])

theorem SameSignatures.perm {signers : List (Option Signer)} (h : signers.Perm (tx.signers.getD [])) :
    SameSignatures env tx signers := fun _ _ _ => h.mem_iff

theorem SameSignatures.duplicate {entry : Option Signer} (h : entry ∈ tx.signers.getD []) :
    SameSignatures env tx (entry :: tx.signers.getD []) := by
  intro account e _
  rw [List.mem_cons, or_iff_right_iff_imp]
  rintro rfl
  exact h

theorem SameSignatures.invalid {entry : Option Signer} (h : ∀ account, signs env tx account entry = false) :
    SameSignatures env tx (entry :: tx.signers.getD []) := by
  intro account e he
  rw [List.mem_cons, or_iff_right_iff_imp]
  rintro rfl
  rw [h account] at he
  cases he

theorem signs_with (henc : EncodesUnsigned env) (signers : Option (List (Option Signer))) (account : String)
    (entry : Option Signer) : signs env { tx with signers := signers } account entry = signs env tx account entry := by
  unfold signs
  split
  · rw [henc.unsigned]
  · rfl

/-- The signed weight depends on the signatures among the entries only. -/
theorem signedWeight_with (henc : EncodesUnsigned env) {signers : List (Option Signer)} (h : SameSignatures env tx signers) :
    signedWeight env { tx with signers := some signers } list = signedWeight env tx list := by
  have hany : ∀ account, signers.any (signs env { tx with signers := some signers } account) =
      (tx.signers.getD []).any (signs env tx account) := by
    intro account
    rw [Bool.eq_iff_iff, List.any_eq_true, List.any_eq_true]
    constructor
    · rintro ⟨entry, hmem, hsigned⟩
      rw [signs_with henc] at hsigned
      exact ⟨entry, (h account entry hsigned).1 hmem, hsigned⟩
    · rintro ⟨entry, hmem, hsigned⟩
      exact ⟨entry, (h account entry hsigned).2 hmem, by rw [signs_with henc]; exact hsigned⟩
  unfold signedWeight
  simp only [Option.getD_some, hany]

/-- A multisig payment is authorized exactly where the listed accounts that have signed it carry the
quorum, so that only the signatures among its entries matter. -/
theorem multisig_quorum_iff (henc : EncodesUnsigned env) (hnodup : (list.signers.map Prod.fst).Nodup)
    (accountRoot : Option Json) :
    ((∃ source, authorizeOnLedgerDecide env tx (some (.ok list)) accountRoot true = .authorized source) ↔
      list.quorum ≤ signedWeight env tx list) ∧
    ∀ signers, SameSignatures env tx signers →
      authorizeOnLedgerDecide env { tx with signers := some signers } (some (.ok list)) accountRoot true =
        authorizeOnLedgerDecide env tx (some (.ok list)) accountRoot true := by
  have hdecide : ∀ tx, authorizeOnLedgerDecide env tx (some (.ok list)) accountRoot true =
      if signedWeight env tx list ≥ list.quorum then .authorized "multisig"
      else .rejected "unauthorized: multisig quorum not met by valid on-ledger signers" := by
    intro tx
    rw [authorizeOnLedgerDecide, if_pos rfl, authorizeMultisig, sumWeights_signed henc hnodup]
  constructor
  · rw [hdecide]
    split_ifs with hquorum
    · exact iff_of_true ⟨_, rfl⟩ hquorum
    · exact iff_of_false (fun h => nomatch h) hquorum
  · intro signers hsame
    rw [hdecide, hdecide, signedWeight_with henc hsame]

end

/-! ## A payment of two signers -/

namespace Sample

/-- The two signers of a list, their keys, and their signatures on a payment of the payer. -/
def signer1 : String := "rE4esRmc6svXnGqxFJzTabZxHtv3hL9vqE"

/-- The second signer. -/
def signer2 : String := "rfQMVZZ2ayi5hJd2GrVsShApvMd14RPHV8"

/-- The key of the first signer. -/
def signerKey1 : String := "ED4FD9D4156736335894E2FC2FB11D9DFB08F20206750204DFB4F32E97D478818A"

/-- The key of the second signer. -/
def signerKey2 : String := "ED68A229C175952D113FC4FC4198652F5A1E54D4D36D21CC3F425178F093C0DD06"

/-- The signature of the first signer. -/
def signature1 : String :=
    "417AD7D84C3212925D59744C0EDE99F54DBF0221E20E85947DE00B5F6E03E44378ABE0F4375D53A2FD79A007C934930E" ++
    "02B8DAB9522DEB622486317504450E01"

/-- The signature of the second signer. -/
def signature2 : String :=
    "B8C13AC02EC26FA06546CB024A53C45AC6960B84955E1CB43B297D9EEDCFC14F6FFC104A1EE019BE1B899577A92A8F1C" ++
    "117DDB45D27A81C29955DCA7C3C3D10E"

/-- The data that a signer of the payment signs: the payment, then the signer's account. -/
def signingData (account : String) : String :=
    "534D540012000021000053592400000007201B0000006E50110FC89F8AE19394B48DEBD6353BB9AD3393F3BC791931519F" ++
    "19D176A7E5513EBC6140000000000F424068400000000000000C73008114D80195F83AB2DE2E5769A1D0DAE00D9F55B213" ++
    "FD8314B8071AB45965A0C105EAB022F1EB7BA745C7EE8D" ++
    (if account = signer1 then "9DA96ACA1727E255348CC9770AE7DD9FCEF4EA1E"
     else if account = signer2 then "463B6D94A91CF632922865FC8C7EA0B5ED64AEAA" else "")

/-- An entry of `Signers`. -/
def entryOf (account key sig : String) : Option Signer := some ⟨some key, some sig, some account⟩

/-- The first signer with the second one's signature, then with its own, twice, and the second signer. -/
def multisigned : Tx :=
  { payment 7 110 "1000000" "" with
    signingPubKey := some ""
    txnSignature := none
    signers := some [entryOf signer1 signerKey1 signature2, entryOf signer1 signerKey1 signature1,
      entryOf signer1 signerKey1 signature1, entryOf signer2 signerKey2 signature2] }

/-- All libraries, as far as this payment needs them. -/
def multisigEnv : Env :=
  { env with
    deriveAddress := some fun k => if k = signerKey1 then some signer1 else if k = signerKey2 then some signer2 else none
    verify := some fun data sig key =>
      some (data = signingData signer1 ∧ sig = signature1 ∧ key = signerKey1 ∨
        data = signingData signer2 ∧ sig = signature2 ∧ key = signerKey2)
    encodeForMultisigning := some fun _ account => some (signingData account) }

theorem multisigEnv_encodes : EncodesUnsigned multisigEnv where
  total _ account := ⟨signingData account, rfl⟩
  unsigned _ _ _ := rfl

end Sample

/-- Two signers of weight one meet a quorum of two, also with their entries in another order. -/
theorem multisig_quorum_iff_two :
    signedWeight Sample.multisigEnv Sample.multisigned ⟨2, [(Sample.signer1, 1), (Sample.signer2, 1)]⟩ = 2 ∧
    ((∃ source, authorizeOnLedgerDecide Sample.multisigEnv Sample.multisigned
        (some (.ok ⟨2, [(Sample.signer1, 1), (Sample.signer2, 1)]⟩)) none true = .authorized source) ↔
      2 ≤ signedWeight Sample.multisigEnv Sample.multisigned ⟨2, [(Sample.signer1, 1), (Sample.signer2, 1)]⟩) ∧
    authorizeOnLedgerDecide Sample.multisigEnv
        { Sample.multisigned with signers := some (Sample.multisigned.signers.getD []).reverse }
        (some (.ok ⟨2, [(Sample.signer1, 1), (Sample.signer2, 1)]⟩)) none true =
      authorizeOnLedgerDecide Sample.multisigEnv Sample.multisigned
        (some (.ok ⟨2, [(Sample.signer1, 1), (Sample.signer2, 1)]⟩)) none true := by
  have hlisted : ([(Sample.signer1, 1), (Sample.signer2, 1)].map Prod.fst).Nodup := by decide +kernel
  have h := @multisig_quorum_iff Sample.multisigEnv Sample.multisigned ⟨2, [(Sample.signer1, 1), (Sample.signer2, 1)]⟩
    Sample.multisigEnv_encodes hlisted none
  exact ⟨by decide +kernel, h.1, h.2 _ (.perm (List.reverse_perm _))⟩

end Xahc.Facilitator

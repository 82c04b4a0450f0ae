/-
`GET /status/:id`: the lookup of a stored receipt by its replay key, or by `hash:` and a transaction hash.
A settlement binds the hash key, but stores its receipt under the replay key only, on either store.
-/
import Xahc.Facilitator.Memory
import Xahc.Facilitator.Redis

namespace Xahc.Facilitator

open Xahc.Data Xahc.Effect

/-! ## Users of a store -/

/-- A key that is meant to name a transaction by its hash. -/
def IsHashKey (key : String) : Prop := "hash:".toList <+: key.toList

/-- What shares a store: settlements, and operations made on it by anything else. -/
inductive User
  | settle (payload req : Json) (deps : Deps)
  | direct (op : Op)

/-- Whatever it does, it does not itself store a receipt under a hash key. -/
def User.Plain : User → Prop
  | .settle .. => True
  | .direct op => ∀ key receipt expiryMs, op = .setReceipt key receipt expiryMs → ¬IsHashKey key

/-- The user is a settlement. -/
def User.isSettle : User → Bool
  | .settle .. => true
  | .direct _ => false

theorem User.plain_of_isSettle {u : User} (h : u.isSettle = true) : u.Plain := by
  cases u with
  | settle payload req deps => trivial
  | direct op => cases h

/-- The program of a user. -/
def userCode (env : Env) : User → Settling Unit
  | .settle payload req deps => do
    let _ ← settle env payload req deps
    return ()
  | .direct op => do
    let _ ← Prog.perform op
    return ()

/-- What a user may do. -/
def MayUser (env : Env) : User → Hist → Op → Prop
  | .settle payload req _, h, op => May env payload req h op
  | .direct op, _, op' => op' = op

theorem obeys_userCode (env : Env) (u : User) :
    Prog.Obeys (MayUser env u) (fun _ _ => True) [] (userCode env u) := by
  cases u with
  | settle payload req deps =>
    refine (meets_settle env payload req deps).bind (fun h op k hmay => hmay.1) fun h r hr => ?_
    exact Prog.along_ret.2 trivial
  | direct op => exact ⟨rfl, fun _ _ => trivial⟩

/-- A plain user stores receipts under keys that name no hash. -/
theorem MayUser.setReceipt {env : Env} {u : User} {h : Hist} {key : String} {receipt : Receipt} {expiryMs : ℚ}
    (hu : u.Plain) (hm : MayUser env u h (.setReceipt key receipt expiryMs)) : ¬IsHashKey key := by
  cases u with
  | settle payload req deps =>
    obtain ⟨a, code, txMeta, hash, hres, rfl, -⟩ := hm
    obtain ⟨h₁, -, hreserved⟩ := hres.reserved
    obtain ⟨h₂, -, hready⟩ := hreserved.ready
    exact (isBinding_replayId hready.verified).1
  | direct op => exact hu key receipt expiryMs hm.symm

/-- Any number of settlements and other operations on one process's store. -/
def memoryUsers (env : Env) : System Op Res InMemoryStore User Unit where
  Choice := Answer
  eager := atOnce
  perform := performInMemory
  code := userCode env

/-- Any number of them, of any number of instances, on one Redis. -/
def redisUsers (env : Env) (maxEntries : Nat) : System Cmd CmdRes Db User Unit where
  Choice := CmdChoice
  eager := (onRedis env maxEntries).eager
  perform := performRedis
  code u := (userCode env u).interp (RedisStore.handler maxEntries)

section
variable {O : Type} {R : O → Type} {σ : Type}

/-- The users of a run. -/
def users (tr : Trace O R User Unit) : List User :=
  tr.filterMap fun
    | .spawned _ _ u => some u
    | _ => none

/-- Every user of the run is plain. -/
def AllPlain (tr : Trace O R User Unit) : Prop := ∀ u ∈ users tr, u.Plain

theorem mem_users_of_label {tr : Trace O R User Unit} {i : Nat} {u : User} (h : label i tr = some u) : u ∈ users tr := by
  induction tr with
  | nil => cases h
  | cons e tr ih =>
    have hold : label i tr = some u → u ∈ users (e :: tr) := by
      intro h
      obtain ⟨e', he', hu⟩ := List.mem_filterMap.1 (ih h)
      exact List.mem_filterMap.2 ⟨e', List.mem_cons_of_mem _ he', hu⟩
    cases e with
    | spawned j t l =>
      rw [label] at h
      split_ifs at h
      · cases h
        exact List.mem_filterMap.2 ⟨_, List.mem_cons_self, rfl⟩
      · exact hold h
    | _ => exact hold h

theorem AllPlain.of_cons {e : Event O R User Unit} {tr : Trace O R User Unit} (h : AllPlain (e :: tr)) : AllPlain tr := by
  intro u hu
  obtain ⟨e', he', heq⟩ := List.mem_filterMap.1 hu
  exact h u (List.mem_filterMap.2 ⟨e', List.mem_cons_of_mem _ he', heq⟩)

end

/-! ## Receipts by hash, in memory -/

section
variable {env : Env} {maxEntries t : Nat} {tr : Trace Op Res User Unit} {s : InMemoryStore}

/-- No receipt is ever stored under a hash key. -/
theorem memory_no_hash (hb : Behaves (memoryUsers env) (MayUser env) (fun _ _ _ => True) (.new maxEntries) t s tr)
    (hplain : AllPlain tr) {key : String} (hkey : IsHashKey key) : s.receipts.lookup key = none := by
  revert hplain
  refine hb.induct (I := fun _ s tr => AllPlain tr → s.receipts.lookup key = none) (fun _ => rfl) ?_ ?_ ?_
  · exact fun t d s tr ih => ih
  · exact fun e s tr _ ih hplain => ih hplain.of_cons
  · intro i t op c s tr hb hphase ih hplain
    have hold := ih hplain.of_cons
    cases hlook : (performInMemory t op c s).1.receipts.lookup key with
    | none => exact hlook
    | some v =>
      -- the operation stored a receipt, which a plain user does under another kind of key
      rcases performInMemory_receipts hlook with h | rfl
      · rw [hold] at h
        cases h
      · obtain ⟨u, hu, hmay, -⟩ := hb.performing hphase
        exact absurd hkey (hmay.setReceipt (hplain.of_cons u (mem_users_of_label hu)))

end

/-! ## Receipts by hash, on Redis -/

/-- The receipt that `getReceipt` finds on a server that carries out its command. -/
def Db.receipt (db : Db) (t : Nat) (key : String) : Option Receipt :=
  match db.live t ("r:" ++ key) with
  | some (.json receipt) => some receipt
  | _ => none

theorem Db.lookup_of_receipt {db : Db} {t : Nat} {key : String} {receipt : Receipt} (h : db.receipt t key = some receipt) :
    ∃ e, db.lookup ("r:" ++ key) = some (.json receipt, e) := by
  unfold Db.receipt at h
  split at h
  · rename_i r hlive
    cases h
    obtain ⟨v, hv, hfst⟩ := Option.map_eq_some_iff.1 hlive
    obtain ⟨hlook, -⟩ := Option.filter_eq_some_iff.1 hv
    exact ⟨v.2, by rw [hlook, ← hfst]⟩
  · cases h

/-- A command that stores no receipt under a hash key. -/
def PlainCmd (c : Cmd) : Prop := ∀ key receipt px, c = .setPX ("r:" ++ key) (.json receipt) px → ¬IsHashKey key

/-- The command is plain, if its user is. -/
def PlainFor (u : User) (_ : CmdHist) (c : Cmd) : Prop := u.Plain → PlainCmd c

section
variable {env : Env} {maxEntries t : Nat} {tr : Trace Cmd CmdRes User Unit} {db : Db}

/-- What the methods of the store send for a plain user. -/
theorem plain_handler {u : User} {h : Hist} {h' : CmdHist} {op : Op} (hmay : MayUser env u h op) :
    Prog.Obeys (PlainFor u) (fun _ _ => True) h' (RedisStore.handler maxEntries op) := by
  have hother : ∀ {h'' : CmdHist} {c : Cmd}, (∀ key value px, c ≠ .setPX key value px) → PlainFor u h'' c :=
    fun hc _ key receipt px heq => absurd heq (hc _ _ _)
  have hreserve : ∀ key expiryMs now h'', Prog.Obeys (PlainFor u) (fun _ _ => True) h''
      (RedisStore.reserveAt maxEntries key expiryMs now) := by
    intro key expiryMs now h''
    refine ⟨hother (by simp), fun r t => ?_⟩
    dsimp only
    split
    · trivial
    · trivial
    · refine ⟨hother (by simp), fun n t => ?_⟩
      dsimp only
      split
      · trivial
      · split
        · exact ⟨hother (by simp), fun r t => trivial⟩
        · trivial
  -- a receipt is written by `setReceipt` alone, and there the user vouches for it
  cases op with
  | reserve key expiryMs now =>
    cases now with
    | some now => exact hreserve key expiryMs now h'
    | none => exact ⟨hother (by simp), fun _ now => hreserve key expiryMs now _⟩
  | release key =>
    refine ⟨hother (by simp), fun r t => ?_⟩
    dsimp only
    split
    · trivial
    · exact ⟨hother (by simp), fun r t => trivial⟩
  | set key expiryMs now =>
    refine ⟨fun _ key' receipt px heq => ?_, fun r t => trivial⟩
    cases heq
  | setReceipt key receipt expiryMs =>
    refine ⟨hother (by simp), fun _ now => ⟨fun hu key' receipt' px heq => ?_, fun r t => trivial⟩⟩
    obtain ⟨hkey, -, -⟩ := Cmd.setPX.inj heq
    obtain rfl : key = key' := by simpa using hkey
    exact hmay.setReceipt hu
  | isConsumed | getReceipt | getClient | request | submitAndWait | simulatePayment =>
    exact ⟨hother (by simp), fun r t => trivial⟩

theorem obeys_redisUsers (u : User) :
    Prog.Obeys (PlainFor u) (fun _ _ => True) [] ((redisUsers env maxEntries).code u) := by
  have hh : ∀ (h' : CmdHist) (h : Hist) (op : Op), True → MayUser env u h op →
      Prog.Obeys (PlainFor u) (fun _ _ => True) h' (RedisStore.handler maxEntries op) :=
    fun _ _ _ _ hmay => plain_handler hmay
  exact (Prog.Obeys.interp hh trivial (obeys_userCode env u)).imp (fun _ _ _ hc => hc) fun _ _ _ => trivial

/-- A command only adds the value that it sets. -/
theorem performRedis_json {c : Cmd} {choice : CmdChoice c} {key : String} {receipt : Receipt} {e : Nat}
    (h : (performRedis t c choice db).1.lookup key = some (.json receipt, e)) :
    db.lookup key = some (.json receipt, e) ∨ ∃ px, c = .setPX key (.json receipt) px := by
  have hinsert : ∀ {key' v}, (db.insert key' v).lookup key = some (.json receipt, e) →
      db.lookup key = some (.json receipt, e) ∨ (key' = key ∧ v = (.json receipt, e)) := by
    intro key' v h
    by_cases hk : key = key'
    · subst hk
      rw [AList.lookup_insert] at h
      exact .inr ⟨rfl, Option.some.inj h⟩
    · rw [AList.lookup_insert_ne hk] at h
      exact .inl h
  have hmeets : ∀ {β : Type} {x : Db × β} {fate : Fate}, (fate.meets db x).1.lookup key = some (.json receipt, e) →
      db.lookup key = some (.json receipt, e) ∨ x.1.lookup key = some (.json receipt, e) := by
    intro β x fate h
    cases fate with
    | undelivered err => exact .inl h
    | delivered | answerLost => exact .inr h
  -- only SET PX puts a receipt under a key; whether the command arrived is for the fate to say
  cases c with
  | now | node => exact .inl h
  | setNX key' px =>
    rcases hmeets h with h | h
    · exact .inl h
    · unfold Db.setNX at h
      split_ifs at h
      · exact .inl h
      · rcases hinsert h with h | ⟨-, hv⟩
        · exact .inl h
        · cases hv
  | setPX key' value px =>
    rcases hmeets h with h | h
    · exact .inl h
    · rcases hinsert h with h | ⟨rfl, hv⟩
      · exact .inl h
      · cases hv
        exact .inr ⟨px, rfl⟩
  | del key' =>
    rcases hmeets h with h | h
    · exact .inl h
    · replace h : (db.erase key').lookup key = some (.json receipt, e) := h
      by_cases hk : key = key'
      · rw [hk, AList.lookup_erase] at h
        cases h
      · rw [AList.lookup_erase_ne hk] at h
        exact .inl h
  | dbsize | «exists» | get => exact .inl ((hmeets h).elim id id)

/-- No receipt is ever stored under a hash key. -/
theorem redis_no_hash (hb : Behaves (redisUsers env maxEntries) PlainFor (fun _ _ _ => True) ∅ t db tr)
    (hplain : AllPlain tr) {key : String} (hkey : IsHashKey key) {receipt : Receipt} {e : Nat} :
    db.lookup ("r:" ++ key) ≠ some (.json receipt, e) := by
  revert hplain
  refine hb.induct (I := fun _ db tr => AllPlain tr → db.lookup ("r:" ++ key) ≠ some (.json receipt, e)) ?_ ?_ ?_ ?_
  · exact fun _ h => nomatch h
  · exact fun t d db tr ih => ih
  · exact fun e db tr _ ih hplain => ih hplain.of_cons
  · intro i t c choice db tr hb hphase ih hplain hlook
    have hold := ih hplain.of_cons
    rcases performRedis_json hlook with h | ⟨px, rfl⟩
    · exact hold h
    · obtain ⟨u, hu, hmay, -⟩ := hb.performing hphase
      exact hmay (hplain.of_cons u (mem_users_of_label hu)) key receipt px rfl hkey

end

/-! ## Agreement of the two lookups -/

/-- The hashes that the node reported to the calls that submitted, with the call. -/
def reportedHashes (tr : Trace Op Res User Unit) : List (Nat × String) :=
  tr.filterMap fun
    | .resumed i _ (.submitAndWait _) (.ok r) => (readSubmit r).bind fun x => x.2.2.map fun hash => (i, hash.toStr)
    | _ => none

/-- The receipts that calls stored, with the call, the key and the expiry. -/
def storedReceipts (tr : Trace Op Res User Unit) : List (Nat × String × Receipt × ℚ) :=
  tr.filterMap fun
    | .performed i _ (.setReceipt key receipt expiryMs) _ => some (i, key, receipt, expiryMs)
    | _ => none

/-- A call submitted, was told the hash `h`, and stored its receipt under `k` until `expiryMs`. -/
def Memoized (tr : Trace Op Res User Unit) (k h : String) (receipt : Receipt) (expiryMs : ℚ) : Prop :=
  ∃ i, (i, h) ∈ reportedHashes tr ∧ (i, k, receipt, expiryMs) ∈ storedReceipts tr

/-! The same, by the commands sent to Redis; under the store's own prefix `r:`. -/

/-- The hashes of submits, on Redis. -/
def reportedHashesCmd (tr : Trace Cmd CmdRes User Unit) : List (Nat × String) :=
  tr.filterMap fun
    | .resumed i _ (.node (.submitAndWait _)) (.ok r) => (readSubmit r).bind fun x => x.2.2.map fun hash => (i, hash.toStr)
    | _ => none

/-- The receipts stored, with their expiry, on Redis. -/
def storedReceiptsCmd (tr : Trace Cmd CmdRes User Unit) : List (Nat × String × Receipt × Nat) :=
  tr.filterMap fun
    | .performed i t (.setPX key (.json receipt) px) (.received ()) => some (i, key, receipt, t + px)
    | _ => none

/-- A settlement reported the hash and stored its receipt, on Redis. -/
def MemoizedCmd (tr : Trace Cmd CmdRes User Unit) (k h : String) (receipt : Receipt) (expiry : Nat) : Prop :=
  ∃ i, (i, h) ∈ reportedHashesCmd tr ∧ (i, "r:" ++ k, receipt, expiry) ∈ storedReceiptsCmd tr

section
variable (w : World Op Res InMemoryStore User Unit) (w' : World Cmd CmdRes Db User Unit)

/-- A settlement is memoized and its binding has not expired. -/
def LiveMemoized : Prop := ∃ k h receipt expiryMs, Memoized w.trace k h receipt expiryMs ∧ (w.clock : ℚ) < expiryMs

/-- Until a memoized settlement expires, the lookups by its replay key and by its hash both give its receipt. -/
def StatusAgrees : Prop :=
  ∀ k h receipt expiryMs, Memoized w.trace k h receipt expiryMs → (w.clock : ℚ) < expiryMs →
    (w.shared.getReceipt k w.clock).2 = some receipt ∧ (w.shared.getReceipt ("hash:" ++ h) w.clock).2 = some receipt

/-- A receipt that was stored lives, on Redis. -/
def LiveMemoizedCmd : Prop := ∃ k h receipt expiry, MemoizedCmd w'.trace k h receipt expiry ∧ w'.clock < expiry

/-- Both keys of a stored receipt show it while it lives, on Redis. -/
def StatusAgreesCmd : Prop :=
  ∀ k h receipt expiry, MemoizedCmd w'.trace k h receipt expiry → w'.clock < expiry →
    w'.shared.receipt w'.clock k = some receipt ∧ w'.shared.receipt w'.clock ("hash:" ++ h) = some receipt

end

theorem isHashKey_append (h : String) : IsHashKey ("hash:" ++ h) := by simp [IsHashKey]

/-- The lookups agree exactly as long as no memoized settlement is live: the one by hash never finds a
receipt. -/
theorem status_agrees_iff (env : Env) (maxEntries : Nat) :
    (∀ w, (memoryUsers env).Reach (.new maxEntries) w → AllPlain w.trace → (StatusAgrees w ↔ ¬LiveMemoized w)) ∧
    (∀ w, (redisUsers env maxEntries).Reach ∅ w → AllPlain w.trace → (StatusAgreesCmd w ↔ ¬LiveMemoizedCmd w)) := by
  constructor
  · intro w hw hplain
    have hb := hw.behaves (obeys_userCode env)
    -- the lookup by hash finds no receipt, whatever was settled
    have hnone : ∀ h, (w.shared.getReceipt ("hash:" ++ h) w.clock).2 = none := by
      intro h
      unfold InMemoryStore.getReceipt
      rw [memory_no_hash hb hplain (isHashKey_append h)]
    constructor
    · rintro hagrees ⟨k, h, receipt, expiryMs, hmem, hlive⟩
      have := (hagrees k h receipt expiryMs hmem hlive).2
      rw [hnone] at this
      cases this
    · intro hno k h receipt expiryMs hmem hlive
      exact absurd ⟨k, h, receipt, expiryMs, hmem, hlive⟩ hno
  · intro w hw hplain
    have hb : Behaves (redisUsers env maxEntries) PlainFor (fun _ _ _ => True) ∅ w.clock w.shared w.trace :=
      hw.behaves obeys_redisUsers
    have hnone : ∀ h, w.shared.receipt w.clock ("hash:" ++ h) = none := by
      intro h
      cases hrec : w.shared.receipt w.clock ("hash:" ++ h) with
      | none => rfl
      | some receipt =>
        obtain ⟨e, he⟩ := Db.lookup_of_receipt hrec
        exact absurd he (redis_no_hash hb hplain (isHashKey_append h))
    constructor
    · rintro hagrees ⟨k, h, receipt, expiry, hmem, hlive⟩
      have := (hagrees k h receipt expiry hmem hlive).2
      rw [hnone] at this
      cases this
    · intro hno k h receipt expiry hmem hlive
      exact absurd ⟨k, h, receipt, expiry, hmem, hlive⟩ hno

/-! ## A settlement looked up -/

namespace Sample

/-- A payment of one XAH, settled on a store in memory. -/
def paidInMemory : List (Action (memoryUsers env)) :=
  [.spawn 0 (.settle (payload blob1) req {}), .resume 0] ++ answeredBy (.ok none) ++ answeredBy (.ok none) ++
    answeredBy (.ok none) ++ [.resume 0] ++ answeredBy (.ok (validated hash1 "1000000")) ++ [.resume 0, .resume 0]
where
  answeredBy (submit : Except Json (Option Json)) : List (Action (memoryUsers env)) :=
    [.perform 0 (nodeAnswer ledger100 submit), .resume 0]

/-- The same settlement on Redis: `EXISTS`, the node three times, `SET NX`, `DBSIZE`, the submit, and the two
`SET PX`. -/
def paidOnRedis : List (Action (redisUsers env 100000)) :=
  [.spawn 0 (.settle (payload blob1) req {})] ++ (List.replicate 8 [.perform 0 delivered, .resume 0]).flatten ++
    [.resume 0, .perform 0 delivered, .resume 0]
where
  delivered : (c : Cmd) → CmdChoice c
    | .now => ()
    | .node op => answer ledger100 (.ok (validated hash1 "1000000")) op
    | .setNX .. | .setPX .. | .dbsize | .del _ | .exists _ | .get _ => (.delivered, 0)

end Sample

open Sample

theorem status_agrees_iff_paid :
    (StatusAgrees ((memoryUsers Sample.env).play (.new 100000) paidInMemory) ↔
      ¬LiveMemoized ((memoryUsers Sample.env).play (.new 100000) paidInMemory)) ∧
    (StatusAgreesCmd ((redisUsers Sample.env 100000).play ∅ paidOnRedis) ↔
      ¬LiveMemoizedCmd ((redisUsers Sample.env 100000).play ∅ paidOnRedis)) := by
  have husers : (users ((memoryUsers Sample.env).play (.new 100000) paidInMemory).trace).all User.isSettle = true ∧
      (users ((redisUsers Sample.env 100000).play ∅ paidOnRedis).trace).all User.isSettle = true := by
    decide +kernel
  exact ⟨(status_agrees_iff Sample.env 100000).1 _ (System.reach_play ..) fun u hu =>
      User.plain_of_isSettle (List.all_eq_true.1 husers.1 u hu),
    (status_agrees_iff Sample.env 100000).2 _ (System.reach_play ..) fun u hu =>
      User.plain_of_isSettle (List.all_eq_true.1 husers.2 u hu)⟩

/-- The payment's receipt is found by its invoice and not by its hash. -/
theorem receipt_unknown_by_hash :
    ¬∀ w, (memoryUsers Sample.env).Reach (.new 100000) w → AllPlain w.trace → StatusAgrees w := by
  intro h
  have hrun : (users ((memoryUsers Sample.env).play (.new 100000) paidInMemory).trace).all User.isSettle = true ∧
      reportedHashes ((memoryUsers Sample.env).play (.new 100000) paidInMemory).trace = [(0, hash1)] ∧
      (storedReceipts ((memoryUsers Sample.env).play (.new 100000) paidInMemory).trace).head?.map
        (fun x => (x.1, x.2.1, x.2.2.2)) = some (0, replayKeyFor tx1, 340000) ∧
      (((memoryUsers Sample.env).play (.new 100000) paidInMemory).clock : ℚ) < 340000 ∧
      (((memoryUsers Sample.env).play (.new 100000) paidInMemory).shared.getReceipt ("hash:" ++ hash1)
        ((memoryUsers Sample.env).play (.new 100000) paidInMemory).clock).2.isNone = true := by
    decide +kernel
  obtain ⟨husers, hhashes, hstored, hclock, hnone⟩ := hrun
  obtain ⟨x, hx, hfacts⟩ := Option.map_eq_some_iff.1 hstored
  obtain ⟨i, k, receipt, expiryMs⟩ := x
  simp only [Prod.mk.injEq] at hfacts
  obtain ⟨rfl, rfl, rfl⟩ := hfacts
  have hagrees := h _ (System.reach_play ..) fun u hu => User.plain_of_isSettle (List.all_eq_true.1 husers u hu)
  have hmem : Memoized ((memoryUsers Sample.env).play (.new 100000) paidInMemory).trace (replayKeyFor tx1) hash1 receipt 340000 :=
    ⟨0, by rw [hhashes]; exact List.mem_singleton.2 rfl, List.mem_of_head? hx⟩
  rw [(hagrees _ _ _ _ hmem hclock).2] at hnone
  cases hnone

end Xahc.Facilitator

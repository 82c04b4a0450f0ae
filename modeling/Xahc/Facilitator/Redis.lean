/-
The shared replay store: every method as the Redis commands it awaits. A command is atomic on the server,
is carried out some time after it was sent, and may fail on the way there or on the way back.
-/
import Xahc.Data.JsMap
import Xahc.Effect.Owner
import Xahc.Facilitator.Calls

namespace Xahc.Facilitator

open Xahc.Data Xahc.Effect

/-! ## Commands -/

/-- What a key holds: the mark of a binding, or a receipt. -/
inductive Value
  | one
  | json (receipt : Receipt)

/-- The commands; `now` reads the process's own clock and `node` is not for the store. -/
inductive Cmd
  | now
  | setNX (key : String) (px : Nat)
  | setPX (key : String) (value : Value) (px : Nat)
  | dbsize
  | del (key : String)
  | «exists» (key : String)
  | get (key : String)
  | node (op : Op)

/-- A command's reply; where the server carried the command out and its answer was lost, the client does
not learn the answer. -/
inductive CmdReply (α : Type)
  | received (a : α)
  | lost (e : Json) (a : α)
  | unsent (e : Json)

/-- What the client is told. -/
def CmdReply.seen {α : Type} : CmdReply α → Except Json α
  | .received a => .ok a
  | .lost e _ | .unsent e => .error e

/-- What the server answered. -/
def CmdReply.server {α : Type} : CmdReply α → Option α
  | .received a | .lost _ a => some a
  | .unsent _ => none

/-- What the commands give. -/
@[reducible] def CmdRes : Cmd → Type
  | .now => Unit
  | .setNX .. => CmdReply Bool
  | .setPX .. => CmdReply Unit
  | .dbsize => CmdReply Nat
  | .del _ => CmdReply Unit
  | .exists _ => CmdReply Bool
  | .get _ => CmdReply (Option Value)
  | .node op => Res op

/-! ## The store's methods -/

/-- A program of commands. -/
abbrev RedisProg (α : Type) := Prog Cmd CmdRes α

namespace RedisStore

/-- Milliseconds to live from an absolute expiry. -/
def px (expiryMs : ℚ) (now : Nat) : Nat := (max 1 ⌊expiryMs - now⌋).toNat

/-- Sets the key if it is not there, and takes it back where that makes too many. -/
def reserveAt (maxEntries : Nat) (key : String) (expiryMs : ℚ) (now : Nat) : RedisProg (Except Json Reservation × Nat) :=
  .call (.setNX key (px expiryMs now)) fun r t =>
    match r.seen with
    | .error e => .ret (.error e, t)
    | .ok false => .ret (.ok .exists, t)
    | .ok true =>
      .call .dbsize fun n t =>
        match n.seen with
        | .error e => .ret (.error e, t)
        | .ok n =>
          if n > maxEntries then .call (.del key) fun r t => .ret (r.seen.map fun () => .full, t)
          else .ret (.ok .reserved, t)

/-- The same, at the caller's time or at the time now. -/
def reserve (maxEntries : Nat) (key : String) (expiryMs : ℚ) : Option Nat → RedisProg (Except Json Reservation × Nat)
  | some now => reserveAt maxEntries key expiryMs now
  | none => .call .now fun _ now => reserveAt maxEntries key expiryMs now

/-- Whether the key exists. -/
def isConsumed (key : String) : RedisProg (Except Json Bool × Nat) :=
  .call (.exists key) fun r t => .ret (r.seen, t)

/-- Sets the key. -/
def set (key : String) (expiryMs : ℚ) (now : Nat) : RedisProg (Except Json Bool × Nat) :=
  .call (.setPX key .one (px expiryMs now)) fun r t => .ret (r.seen.map fun () => true, t)

/-- Deletes the binding, then the receipt. -/
def release (key : String) : RedisProg (Except Json Unit × Nat) :=
  .call (.del key) fun r t =>
    match r.seen with
    | .error e => .ret (.error e, t)
    | .ok () => .call (.del ("r:" ++ key)) fun r t => .ret (r.seen, t)

/-- Only receipts are stored under these keys. -/
def getReceipt (key : String) : RedisProg (Except Json (Option Receipt) × Nat) :=
  .call (.get ("r:" ++ key)) fun r t =>
    .ret (r.seen.map fun v =>
      match v with
      | some (.json receipt) => some receipt
      | _ => none, t)

/-- Stores a receipt under `r:`. -/
def setReceipt (key : String) (receipt : Receipt) (expiryMs : ℚ) : RedisProg (Except Json Unit × Nat) :=
  .call .now fun _ now =>
    .call (.setPX ("r:" ++ key) (.json receipt) (px expiryMs now)) fun r t => .ret (r.seen, t)

/-- An operation as the commands it awaits, and the time at which its caller goes on. -/
def handler (maxEntries : Nat) : (op : Op) → RedisProg (Res op × Nat)
  | .isConsumed key => isConsumed key
  | .getReceipt key => getReceipt key
  | .reserve key expiryMs now => reserve maxEntries key expiryMs now
  | .release key => release key
  | .set key expiryMs now => set key expiryMs now
  | .setReceipt key receipt expiryMs => setReceipt key receipt expiryMs
  | .getClient => .call (.node .getClient) fun r t => .ret (r, t)
  | .request r => .call (.node (.request r)) fun r t => .ret (r, t)
  | .submitAndWait txBlob => .call (.node (.submitAndWait txBlob)) fun r t => .ret (r, t)
  | .simulatePayment payload req => .call (.node (.simulatePayment payload req)) fun r t => .ret (r, t)

end RedisStore

/-! ## The server -/

/-- Values and the time at which they expire. -/
abbrev Db := JsMap (Value × Nat)

/-- What becomes of a command: it is answered, its answer is lost, or it never arrives. -/
inductive Fate
  | delivered
  | answerLost (e : Json)
  | undelivered (e : Json)

/-- A command that would leave `x.1` and answer `x.2`. -/
def Fate.meets {α : Type} (db : Db) (x : Db × α) : Fate → Db × CmdReply α
  | .delivered => (x.1, .received x.2)
  | .answerLost e => (x.1, .lost e x.2)
  | .undelivered e => (db, .unsent e)

namespace Db

/-- The value of a key that has not expired. -/
def live (db : Db) (t : Nat) (key : String) : Option Value :=
  ((db.lookup key).filter fun v => t < v.2).map Prod.fst

/-- `SET key 1 PX px NX`. -/
def setNX (db : Db) (t : Nat) (key : String) (px : Nat) : Db × Bool :=
  if (db.live t key).isSome then (db, false) else (db.insert key (.one, t + px), true)

/-- `SET key value PX px`. -/
def setPX (db : Db) (t : Nat) (key : String) (value : Value) (px : Nat) : Db × Unit :=
  (db.insert key (value, t + px), ())

/-- `DEL key`. -/
def del (db : Db) (key : String) : Db × Unit := (db.erase key, ())

/-- The live keys, and whatever else the database holds. -/
def dbsize (db : Db) (t others : Nat) : Db × Nat := (db, (db.keep fun v => t < v.2).size + others)

end Db

/-- What the surroundings decide of a command: its fate, and what else the database holds. -/
@[reducible] def CmdChoice : Cmd → Type
  | .now => Unit
  | .node op => Res op
  | _ => Fate × Nat

/-- A command on the database. -/
def performRedis (t : Nat) : (c : Cmd) → CmdChoice c → Db → Db × CmdRes c
  | .now, _, db => (db, ())
  | .setNX key px, fate, db => fate.1.meets db (db.setNX t key px)
  | .setPX key value px, fate, db => fate.1.meets db (db.setPX t key value px)
  | .dbsize, fate, db => fate.1.meets db (db.dbsize t fate.2)
  | .del key, fate, db => fate.1.meets db (db.del key)
  | .exists key, fate, db => fate.1.meets db (db, (db.live t key).isSome)
  | .get key, fate, db => fate.1.meets db (db, db.live t key)
  | .node _, r, db => (db, r)

/-- Any number of calls of any number of instances on one Redis. -/
def onRedis (env : Env) (maxEntries : Nat) : System Cmd CmdRes Db Call Outcome where
  Choice := CmdChoice
  eager
    | .now => some ()
    | .setNX .. | .setPX .. | .dbsize | .del _ | .exists _ | .get _ | .node _ => none
  perform := performRedis
  code l := (code env l).interp (RedisStore.handler maxEntries)

/-! ## The server's leases -/

namespace Db

/-- The table of bindings; receipts are not bindings. -/
def bindings (db : Db) : Lease.Table String Nat := fun key =>
  if IsReceiptKey key then none else (db.lookup key).map Prod.snd

variable {db : Db} {key : String} {v : Value × Nat} {t : Nat}

theorem bindings_insert (h : ¬IsReceiptKey key) :
    bindings (db.insert key v) = Function.update db.bindings key (some v.2) := by
  funext k
  by_cases hk : k = key
  · subst hk
    simp [bindings, h]
  · simp [bindings, Function.update_of_ne hk, AList.lookup_insert_ne hk]

theorem bindings_insert_receipt (h : IsReceiptKey key) : bindings (db.insert key v) = db.bindings := by
  funext k
  by_cases hk : k = key
  · subst hk
    simp [bindings, h]
  · simp [bindings, AList.lookup_insert_ne hk]

theorem bindings_erase (h : ¬IsReceiptKey key) : bindings (db.erase key) = Function.update db.bindings key none := by
  funext k
  by_cases hk : k = key
  · subst hk
    simp [bindings]
  · simp [bindings, Function.update_of_ne hk, AList.lookup_erase_ne hk]

theorem bindings_erase_receipt (h : IsReceiptKey key) : bindings (db.erase key) = db.bindings := by
  funext k
  by_cases hk : k = key
  · subst hk
    simp [bindings, h]
  · simp [bindings, AList.lookup_erase_ne hk]

/-- A key that is not live is free. -/
theorem free_of_not_live (h : (db.live t key).isSome = false) : Lease.Free t (db.bindings key) := by
  intro e he
  unfold bindings at he
  split_ifs at he
  obtain ⟨v, hv, rfl⟩ := Option.map_eq_some_iff.1 he
  by_contra hlt
  simp [live, hv, not_le.1 hlt] at h

end Db

/-- What a command does to the bindings, by what the server answered. -/
def cmdAct (t : Nat) : (c : Cmd) → CmdRes c → Option (Lease.Act String Nat)
  | .setNX key px, r => if r.server = some true ∧ ¬IsReceiptKey key then some (.take key (t + px)) else none
  | .setPX key _ px, r => if r.server.isSome ∧ ¬IsReceiptKey key then some (.put key (t + px)) else none
  | .del key, r => if r.server.isSome ∧ ¬IsReceiptKey key then some (.drop key) else none
  | _, _ => none

/-- Redis keeps leases: `SET NX` takes a key that is free, `SET` puts a binding over, `DEL` drops one. -/
def redisLeasing (env : Env) (maxEntries : Nat) : Leasing (onRedis env maxEntries) String Nat where
  time := id
  time_mono := monotone_id
  view := Db.bindings
  act := cmdAct
  Proper _ _ := True
  performs t c fate db _ := by
    have hsame : ∀ k, Lease.Fades t (db.bindings k) (db.bindings k) := fun _ => .inl rfl
    cases c with
    | setNX key px =>
      refine ⟨_, hsame, ?_⟩
      show Lease.Becomes t db.bindings (cmdAct t (.setNX key px) (fate.1.meets db (db.setNX t key px)).2)
        (fate.1.meets db (db.setNX t key px)).1.bindings
      unfold Db.setNX
      by_cases hrec : IsReceiptKey key
      · cases fate.1 <;> split_ifs <;>
          simp [Fate.meets, cmdAct, hrec, Lease.Becomes, Db.bindings_insert_receipt]
      · cases hlive : (db.live t key).isSome
        · cases fate.1 <;>
            simp [Fate.meets, cmdAct, hrec, Lease.Becomes, Lease.Follows, CmdReply.server, Db.bindings_insert,
              Db.free_of_not_live hlive]
        · cases fate.1 <;> simp [Fate.meets, cmdAct, Lease.Becomes, CmdReply.server]
    | setPX key value px =>
      refine ⟨_, hsame, ?_⟩
      show Lease.Becomes t db.bindings (cmdAct t (.setPX key value px) (fate.1.meets db (db.setPX t key value px)).2)
        (fate.1.meets db (db.setPX t key value px)).1.bindings
      by_cases hrec : IsReceiptKey key <;> cases fate.1 <;>
        simp [Fate.meets, cmdAct, hrec, Lease.Becomes, Lease.Follows, CmdReply.server, Db.setPX, Db.bindings_insert,
          Db.bindings_insert_receipt]
    | del key =>
      refine ⟨_, hsame, ?_⟩
      show Lease.Becomes t db.bindings (cmdAct t (.del key) (fate.1.meets db (db.del key)).2)
        (fate.1.meets db (db.del key)).1.bindings
      by_cases hrec : IsReceiptKey key <;> cases fate.1 <;>
        simp [Fate.meets, cmdAct, hrec, Lease.Becomes, Lease.Follows, CmdReply.server, Db.del, Db.bindings_erase,
          Db.bindings_erase_receipt]
    | now | node => exact ⟨_, hsame, rfl⟩
    | dbsize | «exists» | get =>
      refine ⟨_, hsame, ?_⟩
      obtain ⟨fate, others⟩ := fate
      cases fate <;> rfl

/-! ## The contract, command by command -/

/-- The commands of a task with their answers, the latest first. -/
abbrev CmdHist := History Cmd CmdRes

/-- What has been answered when a command is sent: bindings are taken under binding keys and put under
others, and a binding is deleted by a call that took it and has deleted nothing. -/
def MayCmd (h : CmdHist) : Cmd → Prop
  | .setNX key _ => IsBinding key
  | .setPX key _ _ => ¬IsBinding key
  | .del key => IsReceiptKey key ∨ (IsBinding key ∧ (∃ px t, ⟨.setNX key px, .received true, t⟩ ∈ h) ∧
      ∀ e ∈ h, ∀ key, e.op ≠ .del key)
  | _ => True

/-- An operation that may have deleted a key. -/
def Deletes (e : Entry Op Res) : Prop :=
  (∃ key, e.op = .release key) ∨ ∃ key expiryMs now r t, e = ⟨.reserve key expiryMs now, r, t⟩ ∧ r ≠ .ok .reserved

/-- What the commands' answers say of the operations'. -/
structure Mirrors (h' : CmdHist) (h : Hist) : Prop where
  reserved : ∀ key expiryMs now t, ⟨.reserve key expiryMs now, .ok .reserved, t⟩ ∈ h →
    ∃ px t', ⟨.setNX key px, .received true, t'⟩ ∈ h'
  deletes : ∀ e' ∈ h', ∀ key, e'.op = .del key → ∃ e ∈ h, Deletes e

section
variable {env : Env} {maxEntries : Nat} {l : Call} {h : Hist} {h' : CmdHist} {e : Entry Op Res} {e' : Entry Cmd CmdRes}
  {key : String} {expiryMs : ℚ}

theorem Mirrors.nil : Mirrors [] [] := ⟨by simp, by simp⟩

theorem Mirrors.cmd (hm : Mirrors h' h) (he : ∀ key, e'.op ≠ .del key) : Mirrors (e' :: h') h where
  reserved key expiryMs now t hmem := by
    obtain ⟨px, t', ht'⟩ := hm.reserved key expiryMs now t hmem
    exact ⟨px, t', List.mem_cons_of_mem _ ht'⟩
  deletes x hx key hop := by
    rcases List.mem_cons.1 hx with rfl | hx
    · exact absurd hop (he key)
    · exact hm.deletes x hx key hop

theorem Mirrors.op (hm : Mirrors h' h)
    (he : ∀ key expiryMs now t, e = ⟨.reserve key expiryMs now, .ok .reserved, t⟩ →
      ∃ px t', ⟨.setNX key px, .received true, t'⟩ ∈ h') : Mirrors h' (e :: h) where
  reserved key expiryMs now t hmem := by
    rcases List.mem_cons.1 hmem with heq | hmem
    · exact he key expiryMs now t heq.symm
    · exact hm.reserved key expiryMs now t hmem
  deletes x hx key hop := by
    obtain ⟨e, he, hd⟩ := hm.deletes x hx key hop
    exact ⟨e, List.mem_cons_of_mem _ he, hd⟩

/-- Commands of an operation that may delete, other than a reservation that was made. -/
theorem Mirrors.deleted (hm : Mirrors h' h) (hd : Deletes e) (hsuf : h' <:+ h'')
    (he : ∀ key expiryMs now t, e ≠ ⟨.reserve key expiryMs now, .ok .reserved, t⟩) : Mirrors h'' (e :: h) where
  reserved key expiryMs now t hmem := by
    rcases List.mem_cons.1 hmem with heq | hmem
    · exact absurd heq.symm (he key expiryMs now t)
    · obtain ⟨px, t', ht'⟩ := hm.reserved key expiryMs now t hmem
      exact ⟨px, t', hsuf.subset ht'⟩
  deletes _ _ _ _ := ⟨e, List.mem_cons_self, hd⟩

/-- Where no operation may have deleted a key, no command has. -/
theorem Mirrors.not_del (hm : Mirrors h' h) (hnone : ∀ e ∈ h, ¬Deletes e) : ∀ x ∈ h', ∀ key, x.op ≠ .del key :=
  fun x hx key hop => (hm.deletes x hx key hop).elim fun e he => hnone e he.1 he.2

/-- The contract of one method: it keeps the commands' answers in step with the operations'. -/
abbrev Handles (h' : CmdHist) (h : Hist) (op : Op) : RedisProg (Res op × Nat) → Prop :=
  Prog.Obeys MayCmd (fun h'' x => Mirrors h'' (⟨op, x.1, x.2⟩ :: h)) h'

theorem handles_reserveAt {now : Option Nat} {at_ : Nat} (hm : Mirrors h' h) (hres : Reserving key now h) :
    Handles h' h (.reserve key expiryMs now) (RedisStore.reserveAt maxEntries key expiryMs at_) := by
  have hnone : ∀ e ∈ h, ¬Deletes e := by
    rintro e he (⟨key, hop⟩ | ⟨key, expiryMs, now, r, t, rfl, -⟩)
    · exact (hres.fresh e he).2 key hop
    · cases (hres.fresh _ he).1
  refine ⟨hres.binding, fun r t => ?_⟩
  have hm₁ : Mirrors (⟨.setNX key (RedisStore.px expiryMs at_), r, t⟩ :: h') h := hm.cmd (by simp)
  cases r with
  | lost e a => exact hm₁.op (by simp)
  | unsent e => exact hm₁.op (by simp)
  | received won =>
    cases won with
    | false => exact hm₁.op (by simp)
    | true =>
      refine ⟨trivial, fun n t₁ => ?_⟩
      have hm₂ : Mirrors (⟨.dbsize, n, t₁⟩ :: ⟨.setNX key (RedisStore.px expiryMs at_), .received true, t⟩ :: h') h :=
        hm₁.cmd (by simp)
      have hwon : ⟨.setNX key (RedisStore.px expiryMs at_), .received true, t⟩ ∈
          (⟨.dbsize, n, t₁⟩ :: ⟨.setNX key (RedisStore.px expiryMs at_), .received true, t⟩ :: h' : CmdHist) := by simp
      cases n with
      | lost e a => exact hm₂.op (by simp)
      | unsent e => exact hm₂.op (by simp)
      | received n =>
        dsimp only [CmdReply.seen]
        split
        · refine ⟨.inr ⟨hres.binding, ⟨_, _, hwon⟩, ?_⟩, fun r t₂ => ?_⟩
          · -- this call has deleted nothing yet
            simpa using hm.not_del hnone
          · refine hm₂.deleted (.inr ⟨key, expiryMs, now, _, _, rfl, ?_⟩) (List.suffix_cons _ _) ?_ <;> cases r <;>
              simp [Except.map]
        · refine hm₂.op fun key' expiryMs' now' t' heq => ?_
          cases heq
          exact ⟨_, _, hwon⟩

theorem handles_release (hm : Mirrors h' h) (hrel : Releasing key h) :
    Handles h' h (.release key) (RedisStore.release key) := by
  have hnone : ∀ e ∈ h, ¬Deletes e := by
    rintro e he (⟨key, hop⟩ | ⟨key, expiryMs, now, r, t, rfl, hr⟩)
    · exact hrel.first e he key hop
    · exact hr (hrel.won _ _ _ _ _ he)
  obtain ⟨expiryMs, now, t, ht⟩ := hrel.reserved
  refine ⟨.inr ⟨hrel.binding, hm.reserved _ _ _ _ ht, hm.not_del hnone⟩, fun r t => ?_⟩
  have hdone : ∀ {h''} {r : Except Json Unit} {t : Nat}, h' <:+ h'' → Mirrors h'' (⟨.release key, r, t⟩ :: h) :=
    fun hsuf => hm.deleted (.inl ⟨key, rfl⟩) hsuf (by simp)
  cases r with
  | lost e a => exact hdone (List.suffix_cons _ _)
  | unsent e => exact hdone (List.suffix_cons _ _)
  | received u =>
    refine ⟨.inl (isReceiptKey_append key), fun r t => hdone ?_⟩
    exact (List.suffix_cons _ _).trans (List.suffix_cons _ _)

theorem handles (hm : Mirrors h' h) {op : Op} (hmay : MayCall env l h op) :
    Handles h' h op (RedisStore.handler maxEntries op) := by
  cases op with
  | isConsumed key => exact ⟨trivial, fun r t => (hm.cmd (by simp)).op (by simp)⟩
  | getReceipt key => exact ⟨trivial, fun r t => (hm.cmd (by simp)).op (by simp)⟩
  | reserve key expiryMs now =>
    cases now with
    | some now => exact handles_reserveAt hm hmay.reserve
    | none => exact ⟨trivial, fun _ now => handles_reserveAt (hm.cmd (by simp)) hmay.reserve⟩
  | release key => exact handles_release hm hmay.release
  | set key expiryMs now => exact ⟨hmay.set.1, fun r t => (hm.cmd (by simp)).op (by simp)⟩
  | setReceipt key receipt expiryMs =>
    refine ⟨trivial, fun _ now => ⟨fun h => h.2 (isReceiptKey_append key), fun r t => ?_⟩⟩
    exact ((hm.cmd (by simp)).cmd (by simp)).op (by simp)
  | getClient => exact ⟨trivial, fun r t => (hm.cmd (by simp)).op (by simp)⟩
  | request r => exact ⟨trivial, fun r t => (hm.cmd (by simp)).op (by simp)⟩
  | submitAndWait txBlob => exact ⟨trivial, fun r t => (hm.cmd (by simp)).op (by simp)⟩
  | simulatePayment payload req => exact ⟨trivial, fun r t => (hm.cmd (by simp)).op (by simp)⟩

theorem obeys_onRedis (l : Call) :
    Prog.Obeys MayCmd (fun h' a => ∃ h, Mirrors h' h ∧ Ends env l h a) [] ((onRedis env maxEntries).code l) := by
  have hh : ∀ h' h op, Mirrors h' h → MayCall env l h op → Handles h' h op (RedisStore.handler maxEntries op) :=
    fun _ _ _ hm hmay => handles hm hmay
  exact Prog.Obeys.interp hh .nil (obeys_code env l)

/-! ## Ownership -/

variable {s₀ : Db}

theorem cmdAct_drop {t : Nat} {c : Cmd} {r : CmdRes c} (h : cmdAct t c r = some (.drop key)) :
    c = .del key ∧ ¬IsReceiptKey key := by
  cases c with
  | del key' =>
    simp only [cmdAct] at h
    split_ifs at h with hc
    cases h
    exact ⟨rfl, hc.2⟩
  | setNX key' px | setPX key' value px =>
    simp only [cmdAct] at h
    split_ifs at h
    cases h
  | _ => cases h

theorem cmdAct_put {t e : Nat} {c : Cmd} {r : CmdRes c} (h : cmdAct t c r = some (.put key e)) :
    ∃ value px, c = .setPX key value px := by
  cases c with
  | setPX key' value px =>
    simp only [cmdAct] at h
    split_ifs at h
    cases h
    exact ⟨_, _, rfl⟩
  | setNX key' px | del key' =>
    simp only [cmdAct] at h
    split_ifs at h
    cases h
  | _ => cases h

/-- A call deletes a binding only where it took it itself. -/
theorem redis_isHeld : (redisLeasing env maxEntries).IsHeld (fun _ => MayCmd)
    (fun l h' a => ∃ h, Mirrors h' h ∧ Ends env l h a) s₀ := by
  intro t s tr i c r key hb hphase hact
  obtain ⟨rfl, hrec⟩ := cmdAct_drop hact
  obtain ⟨l, -, hmay, hanswered⟩ := hb.performing hphase
  obtain ⟨hbinding, ⟨px, t', hmem⟩, hfirst⟩ := hmay.resolve_left hrec
  obtain ⟨t₀, -, hp⟩ := hb.performed_of_hist hmem
  have htake : cmdAct t₀ (.setNX key px) (.received true) = some (.take key (t₀ + px)) := by
    simp [cmdAct, CmdReply.server, hrec]
  refine ⟨t₀ + px, Leasing.holds_leases hp htake (fun t₁ c₁ r₁ hp₁ hact₁ => ?_)
    fun j t₁ c₁ r₁ e' hp₁ hact₁ => ?_⟩
  · obtain ⟨rfl, -⟩ := cmdAct_drop hact₁
    obtain ⟨t₂, hmem₂⟩ := hanswered _ _ _ hp₁
    exact hfirst _ hmem₂ key rfl
  · obtain ⟨value, px', rfl⟩ := cmdAct_put hact₁
    obtain ⟨post, pre, s', -, -, l', -, hmay'⟩ := hb.performed_at hp₁
    exact hmay' hbinding

end

end Xahc.Facilitator

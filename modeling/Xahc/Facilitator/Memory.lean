/-
The default replay store: bindings and receipts in memory, swept on access, with a hard cap. Its methods
take effect where they are called; the node answers in its own time.
-/
import Xahc.Data.JsMap
import Xahc.Effect.Owner
import Xahc.Facilitator.Calls

namespace Xahc.Facilitator

open Xahc.Data Xahc.Effect

/-! ## The store -/

/-- The store in memory: two maps with an expiry each, and how many bindings it may hold. -/
structure InMemoryStore where
  /-- key -> expiry (epoch ms) -/
  map : JsMap ℚ
  receipts : JsMap (Receipt × ℚ)
  maxEntries : Nat

namespace InMemoryStore

/-- An empty store. -/
def new (maxEntries : Nat) : InMemoryStore := ⟨∅, ∅, maxEntries⟩

/-- Drop expired bindings and receipts; true iff there is room for one more. -/
def sweep (s : InMemoryStore) (now : Nat) : InMemoryStore × Bool :=
  let s := { s with
    map := s.map.keep fun exp => !decide (exp ≤ now)
    receipts := s.receipts.keep fun v => !decide (v.2 ≤ now) }
  (s, s.map.size < s.maxEntries)

/-- Binds a key that is free, where there is room after a sweep. -/
def reserve (s : InMemoryStore) (key : String) (expiryMs : ℚ) (now : Nat) : InMemoryStore × Reservation :=
  if (s.map.lookup key).any fun exp => decide ((now : ℚ) < exp) then (s, .exists)
  else
    let (s, hasRoom) := s.sweep now
    if !hasRoom && (s.map.lookup key).isNone then (s, .full)
    else ({ s with map := s.map.insert key expiryMs }, .reserved)

/-- The expiry of a live binding; one that expired is deleted. -/
def get (s : InMemoryStore) (key : String) (now : Nat) : InMemoryStore × Option ℚ :=
  match s.map.lookup key with
  | none => (s, none)
  | some exp => if exp ≤ now then ({ s with map := s.map.erase key }, none) else (s, some exp)

/-- Whether the key is bound. -/
def isConsumed (s : InMemoryStore) (key : String) (now : Nat) : InMemoryStore × Bool :=
  let (s, exp) := s.get key now
  (s, exp.isSome)

/-- Unconditional upsert, where there is room. -/
def set (s : InMemoryStore) (key : String) (expiryMs : ℚ) (now : Nat) : InMemoryStore × Bool :=
  let (s, hasRoom) := s.sweep now
  if !hasRoom && (s.map.lookup key).isNone then (s, false)
  else ({ s with map := s.map.insert key expiryMs }, true)

/-- Deletes the binding and the receipt. -/
def release (s : InMemoryStore) (key : String) : InMemoryStore :=
  { s with map := s.map.erase key, receipts := s.receipts.erase key }

/-- The live receipt of a key; one that expired is deleted. -/
def getReceipt (s : InMemoryStore) (key : String) (now : Nat) : InMemoryStore × Option Receipt :=
  match s.receipts.lookup key with
  | none => (s, none)
  | some (receipt, expiry) =>
    if expiry ≤ now then ({ s with receipts := s.receipts.erase key }, none) else (s, some receipt)

/-- Stores a receipt until its expiry. -/
def setReceipt (s : InMemoryStore) (key : String) (receipt : Receipt) (expiryMs : ℚ) : InMemoryStore :=
  { s with receipts := s.receipts.insert key (receipt, expiryMs) }

end InMemoryStore

/-! ## The store and the node behind the loop -/

/-- What the node, or the simulation, is free to answer; the store's answers are its own. -/
@[reducible] def Answer : Op → Type
  | .getClient => Except String Unit
  | .request _ => Except Json Json
  | .submitAndWait _ => Except Json (Option Json)
  | .simulatePayment .. => Simulation
  | _ => Unit

/-- The operations of the store are performed as they are called. -/
def atOnce : (op : Op) → Option (Answer op)
  | .getClient | .request _ | .submitAndWait _ | .simulatePayment .. => none
  | .isConsumed _ | .getReceipt _ | .reserve .. | .release _ | .set .. | .setReceipt .. => some ()

/-- An operation that takes effect at `clock`; a method called without `now` reads the clock. -/
def performInMemory (clock : Nat) : (op : Op) → Answer op → InMemoryStore → InMemoryStore × Res op
  | .isConsumed key, _, s => (s.isConsumed key clock).map id .ok
  | .getReceipt key, _, s => (s.getReceipt key clock).map id .ok
  | .reserve key expiryMs now, _, s => (s.reserve key expiryMs (now.getD clock)).map id .ok
  | .release key, _, s => (s.release key, .ok ())
  | .set key expiryMs now, _, s => (s.set key expiryMs now).map id .ok
  | .setReceipt key receipt expiryMs, _, s => (s.setReceipt key receipt expiryMs, .ok ())
  | .getClient, r, s => (s, r)
  | .request _, r, s => (s, r)
  | .submitAndWait _, r, s => (s, r)
  | .simulatePayment .., r, s => (s, r)

/-- Any number of calls on one process's store. -/
def inMemory (env : Env) : System Op Res InMemoryStore Call Outcome where
  Choice := Answer
  eager := atOnce
  perform := performInMemory
  code := code env

/-! ## The store's leases -/

/-- What an operation does to the bindings, by its answer. -/
def leaseAct : (op : Op) → Res op → Option (Lease.Act String ℚ)
  | .reserve key expiryMs _, .ok .reserved => some (.take key expiryMs)
  | .set key expiryMs _, .ok true => some (.put key expiryMs)
  | .release key, .ok () => some (.drop key)
  | _, _ => none

namespace InMemoryStore

/-- The table of bindings. -/
def bindings (s : InMemoryStore) : Lease.Table String ℚ := fun key => s.map.lookup key

variable {s : InMemoryStore} {key : String} {expiryMs : ℚ} {now clock : Nat}

theorem fades_sweep (hle : now ≤ clock) (k : String) :
    Lease.Fades (clock : ℚ) (s.bindings k) ((s.sweep now).1.bindings k) := by
  simp only [sweep, bindings, JsMap.lookup_keep]
  cases h : s.map.lookup k with
  | none => exact .inl rfl
  | some exp =>
    by_cases hexp : exp ≤ now
    · exact .inr ⟨by simp [hexp], exp, rfl, hexp.trans (by exact_mod_cast hle)⟩
    · exact .inl (by simp [hexp])

theorem bindings_insert : ({ s with map := s.map.insert key expiryMs } : InMemoryStore).bindings =
    Function.update s.bindings key (some expiryMs) := JsMap.lookup_set ..

theorem bindings_erase : ({ s with map := s.map.erase key } : InMemoryStore).bindings =
    Function.update s.bindings key none := JsMap.lookup_delete ..

theorem fades_get (k : String) : Lease.Fades (clock : ℚ) (s.bindings k) ((s.get key clock).1.bindings k) := by
  unfold get
  split
  · exact .inl rfl
  · rename_i exp hexp
    split_ifs with hle
    · rw [bindings_erase]
      by_cases hk : k = key
      · subst hk
        exact .inr ⟨Function.update_self .., exp, hexp, hle⟩
      · exact .inl (Function.update_of_ne hk ..)
    · exact .inl rfl

/-- A key that is not held is free after the sweep. -/
theorem free_sweep (hle : now ≤ clock) (hheld : ¬((s.map.lookup key).any fun exp => decide ((now : ℚ) < exp)) = true) :
    Lease.Free (clock : ℚ) ((s.sweep now).1.bindings key) := by
  intro exp hexp
  obtain ⟨hlook, -⟩ := JsMap.lookup_of_keep hexp
  simp only [hlook, Option.any_some, decide_eq_true_eq, not_lt] at hheld
  exact hheld.trans (by exact_mod_cast hle)

end InMemoryStore

/-- The store keeps leases: a reservation takes a key that is free, `set` puts a binding over, `release`
drops one. Times captured before a call are in its past. -/
def memoryLeasing (env : Env) : Leasing (inMemory env) String ℚ where
  time t := t
  time_mono := Nat.mono_cast
  view := InMemoryStore.bindings
  act _ := leaseAct
  Proper t
    | .reserve _ _ now => ∀ n, now = some n → n ≤ t
    | .set _ _ now => now ≤ t
    | _ => True
  performs t op c s hproper := by
    have hsame : ∀ k, Lease.Fades (t : ℚ) (s.bindings k) (s.bindings k) := fun _ => .inl rfl
    cases op with
    | isConsumed key => exact ⟨_, s.fades_get, rfl⟩
    | getReceipt key =>
      refine ⟨_, hsame, ?_⟩
      show ((s.getReceipt key t).1).bindings = s.bindings
      unfold InMemoryStore.getReceipt
      split
      · rfl
      · split_ifs <;> rfl
    | reserve key expiryMs now =>
      have hnow : now.getD t ≤ t := by
        cases now with
        | none => exact le_rfl
        | some n => exact hproper n rfl
      show ∃ mid, _ ∧ Lease.Becomes (t : ℚ) mid (leaseAct (.reserve key expiryMs now) (.ok (s.reserve key expiryMs _).2))
        (s.reserve key expiryMs (now.getD t)).1.bindings
      unfold InMemoryStore.reserve
      split_ifs with hheld
      · exact ⟨_, hsame, rfl⟩
      · dsimp only
        split_ifs
        · exact ⟨_, InMemoryStore.fades_sweep hnow, rfl⟩
        · exact ⟨_, InMemoryStore.fades_sweep hnow, InMemoryStore.free_sweep hnow hheld, InMemoryStore.bindings_insert⟩
    | release key => exact ⟨_, hsame, InMemoryStore.bindings_erase⟩
    | set key expiryMs now =>
      show ∃ mid, _ ∧ Lease.Becomes (t : ℚ) mid (leaseAct (.set key expiryMs now) (.ok (s.set key expiryMs now).2))
        (s.set key expiryMs now).1.bindings
      unfold InMemoryStore.set
      dsimp only
      split_ifs
      · exact ⟨_, InMemoryStore.fades_sweep hproper, rfl⟩
      · exact ⟨_, InMemoryStore.fades_sweep hproper, InMemoryStore.bindings_insert⟩
    | setReceipt | getClient | request | submitAndWait | simulatePayment => exact ⟨_, hsame, rfl⟩

variable {env : Env} {s₀ : InMemoryStore}

theorem leaseAct_drop {op : Op} {r : Res op} {key : String} (h : leaseAct op r = some (.drop key)) :
    op = .release key := by
  unfold leaseAct at h
  split at h <;> cases h
  rfl

theorem leaseAct_put {op : Op} {r : Res op} {key : String} {e : ℚ} (h : leaseAct op r = some (.put key e)) :
    ∃ now, op = .set key e now := by
  unfold leaseAct at h
  split at h <;> cases h
  exact ⟨_, rfl⟩

theorem leaseAct_take {op : Op} {r : Res op} {key : String} {e : ℚ} (h : leaseAct op r = some (.take key e)) :
    ∃ now, ∀ i t, (Event.performed i t op r : Event Op Res Call Outcome) =
      .performed i t (.reserve key e now) (.ok .reserved) := by
  unfold leaseAct at h
  split at h <;> cases h
  exact ⟨_, fun _ _ => rfl⟩

theorem memory_isProper : (memoryLeasing env).IsProper (MayCall env) (Ends env) s₀ := by
  intro t s tr i op hb hphase
  obtain ⟨l, -, hmay, -⟩ := hb.performing hphase
  cases op with
  | reserve key expiryMs now =>
    intro n hn
    obtain ⟨key', r, hr⟩ := hmay.reserve.captured n hn
    exact hb.time_le (mem_hist.1 hr)
  | set key expiryMs now =>
    obtain ⟨key', r, hr⟩ := hmay.set.2
    exact hb.time_le (mem_hist.1 hr)
  | _ => trivial

/-- A settlement releases only what it reserved itself. -/
theorem memory_isHeld : (memoryLeasing env).IsHeld (MayCall env) (Ends env) s₀ := by
  intro t s tr i op r key hb hphase hact
  obtain rfl := leaseAct_drop hact
  obtain ⟨l, -, hmay, hanswered⟩ := hb.performing hphase
  have hrel := hmay.release
  obtain ⟨expiryMs, now, t', hr⟩ := hrel.reserved
  obtain ⟨t₀, -, hp⟩ := hb.performed_of_hist hr
  refine ⟨expiryMs, Leasing.holds_leases hp rfl (fun t₁ op₁ r₁ hp₁ hact₁ => ?_)
    fun j t₁ op₁ r₁ e' hp₁ hact₁ => ?_⟩
  · obtain rfl := leaseAct_drop hact₁
    obtain ⟨t₂, hmem⟩ := hanswered _ _ _ hp₁
    exact hrel.first _ hmem key rfl
  · obtain ⟨now', rfl⟩ := leaseAct_put hact₁
    obtain ⟨post, pre, s', -, -, l', -, hmay'⟩ := hb.performed_at hp₁
    exact hmay'.set.1 hrel.binding

/-! ## The store's receipts -/

theorem InMemoryStore.receipts_get {s : InMemoryStore} {key : String} {now : Nat} :
    (s.get key now).1.receipts = s.receipts := by
  unfold InMemoryStore.get
  split
  · rfl
  · split_ifs <;> rfl

/-- An operation only adds the receipt that it stores. -/
theorem performInMemory_receipts {t : Nat} {op : Op} {c : Answer op} {s : InMemoryStore} {key : String}
    {v : Receipt × ℚ} (h : (performInMemory t op c s).1.receipts.lookup key = some v) :
    s.receipts.lookup key = some v ∨ op = .setReceipt key v.1 v.2 := by
  have hkeep : ∀ {now : Nat}, (s.sweep now).1.receipts.lookup key = some v → s.receipts.lookup key = some v :=
    fun h => (JsMap.lookup_of_keep h).1
  have herase : ∀ {key'}, (s.receipts.erase key').lookup key = some v → s.receipts.lookup key = some v := by
    intro key' h
    by_cases hk : key = key'
    · rw [hk, AList.lookup_erase] at h
      cases h
    · rwa [AList.lookup_erase_ne hk] at h
  -- `setReceipt` alone adds a receipt; a sweep or a release only takes some away
  cases op with
  | isConsumed key' =>
    rw [show (performInMemory t (.isConsumed key') c s).1.receipts = (s.get key' t).1.receipts from rfl,
      InMemoryStore.receipts_get] at h
    exact .inl h
  | getReceipt key' =>
    replace h : (s.getReceipt key' t).1.receipts.lookup key = some v := h
    unfold InMemoryStore.getReceipt at h
    split at h
    · exact .inl h
    · split_ifs at h
      · exact .inl (herase h)
      · exact .inl h
  | reserve key' expiryMs now =>
    replace h : (s.reserve key' expiryMs (now.getD t)).1.receipts.lookup key = some v := h
    unfold InMemoryStore.reserve at h
    split_ifs at h
    · exact .inl h
    · dsimp only at h
      split_ifs at h <;> exact .inl (hkeep h)
  | release key' => exact .inl (herase h)
  | set key' expiryMs now =>
    replace h : (s.set key' expiryMs now).1.receipts.lookup key = some v := h
    unfold InMemoryStore.set at h
    dsimp only at h
    split_ifs at h <;> exact .inl (hkeep h)
  | setReceipt key' receipt expiryMs =>
    replace h : (s.receipts.insert key' (receipt, expiryMs)).lookup key = some v := h
    by_cases hk : key = key'
    · rw [hk, AList.lookup_insert] at h
      cases h
      exact .inr (by rw [hk])
    · rw [AList.lookup_insert_ne hk] at h
      exact .inl h
  | getClient | request | submitAndWait | simulatePayment => exact .inl h

theorem InMemoryStore.getReceipt_some {s : InMemoryStore} {key : String} {now : Nat} {receipt : Receipt}
    (h : (s.getReceipt key now).2 = some receipt) : ∃ expiry, s.receipts.lookup key = some (receipt, expiry) := by
  unfold InMemoryStore.getReceipt at h
  split at h
  · cases h
  · rename_i r expiry hlook
    split_ifs at h
    cases h
    exact ⟨expiry, hlook⟩

/-- Which receipts the store holds, and which operation adds one. -/
def memoryKeeps (env : Env) : Keeps (inMemory env) where
  holds s key receipt := ∃ expiry, s.receipts.lookup key = some (receipt, expiry)
  adds t op c s key receipt h := by
    obtain ⟨expiry, h⟩ := h
    rcases performInMemory_receipts h with h | rfl
    · exact .inl ⟨expiry, h⟩
    · exact .inr ⟨expiry, rfl⟩
  answers t key c s receipt h := InMemoryStore.getReceipt_some (Except.ok.inj h)

theorem memoryKeeps_new {maxEntries : Nat} (key : String) (receipt : Receipt) :
    ¬(memoryKeeps env).holds (.new maxEntries) key receipt := by
  rintro ⟨expiry, h⟩
  cases h

/-- The store never throws. -/
theorem performInMemory_ok {t t' : Nat} {op : Op} {c : Answer op} {s s' : InMemoryStore} {r : Res op}
    (h : performInMemory t op c s = (s', r)) : isFault ⟨op, r, t'⟩ = false := by
  obtain rfl := congrArg Prod.snd h
  cases op <;> rfl

section
variable {may : Call → Hist → Op → Prop} {fin : Call → Hist → Outcome → Prop} {maxEntries t : Nat} {s : InMemoryStore}
  {tr : Trace Op Res Call Outcome}

theorem not_fault_of_performed (hb : Behaves (inMemory env) may fin (.new maxEntries) t s tr) {i t₀ t' : Nat} {op : Op}
    {r : Res op} (hp : Event.performed i t₀ op r ∈ tr) : isFault ⟨op, r, t'⟩ = false := by
  obtain ⟨post, pre, rfl⟩ := List.append_of_mem hp
  obtain ⟨-, s', hcut⟩ := hb.cut
  obtain ⟨-, s'', hb', -, c, hperf, -⟩ := hcut.inv
  exact performInMemory_ok hperf

end

/-! ## Schedules -/

namespace Sample

/-- What the node answers when `submit` is what comes of a submit. -/
def nodeAnswer (ledger : JsNum) (submit : Except Json (Option Json)) : (op : Op) → Answer op
  | .getClient => answer ledger submit .getClient
  | .request r => answer ledger submit (.request r)
  | .submitAndWait txBlob => answer ledger submit (.submitAndWait txBlob)
  | .simulatePayment payload req => answer ledger submit (.simulatePayment payload req)
  | .isConsumed _ | .getReceipt _ | .reserve .. | .release _ | .set .. | .setReceipt .. => ()

variable (env : Env)

/-- Call `i` has its answer from the node. -/
def answered (i : Nat) (ledger : JsNum) (submit : Except Json (Option Json)) : List (Action (inMemory env)) :=
  [.perform i (nodeAnswer ledger submit), .resume i]

/-- A settlement as far as its submit: `isConsumed`, the client, the ledger, the hook and `reserve`. -/
def upToSubmit (i : Nat) (blob : String) (ledger : JsNum) : List (Action (inMemory env)) :=
  [.spawn i (.settle (payload blob) req {}), .resume i] ++ answered env i ledger (.ok none) ++
    answered env i ledger (.ok none) ++ answered env i ledger (.ok none) ++ [.resume i]

end Sample

end Xahc.Facilitator

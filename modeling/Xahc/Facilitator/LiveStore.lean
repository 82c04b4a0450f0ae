/-
The in-memory store against what it is for: a map of bindings that expire on their own, with a cap on how many
are live. Expired entries stay in the store until some call drops them; none of its answers tells.
-/
import Xahc.Data.Expiring
import Xahc.Facilitator.Memory
import Mathlib.Data.Set.Card

namespace Xahc.Facilitator

open Xahc.Data Xahc.Data.Expiring

/-! ## Calls of the store -/

/-- The calls of a store. -/
inductive StoreCall
  | reserve (key : String) (expiryMs : ℚ)
  | get (key : String)
  | isConsumed (key : String)
  | set (key : String) (expiryMs : ℚ)
  | release (key : String)
  | getReceipt (key : String)
  | setReceipt (key : String) (receipt : Receipt) (expiryMs : ℚ)

/-- What they answer. -/
inductive StoreAnswer
  | reserved (reservation : Reservation)
  | expiry (exp : Option ℚ)
  | consumed (consumed : Bool)
  | upserted (done : Bool)
  | receipt (receipt : Option Receipt)
  | done

/-- The call may bind the key over or drop it, live or not. -/
def StoreCall.Overwrites : StoreCall → String → Prop
  | .set key _, k | .release key, k => key = k
  | _, _ => False

/-- A call on the store in memory. -/
def InMemoryStore.call (s : InMemoryStore) (now : Nat) : StoreCall → InMemoryStore × StoreAnswer
  | .reserve key expiryMs => (s.reserve key expiryMs now).map id .reserved
  | .get key => (s.get key now).map id .expiry
  | .isConsumed key => (s.isConsumed key now).map id .consumed
  | .set key expiryMs => (s.set key expiryMs now).map id .upserted
  | .release key => (s.release key, .done)
  | .getReceipt key => (s.getReceipt key now).map id .receipt
  | .setReceipt key receipt expiryMs => (s.setReceipt key receipt expiryMs, .done)

/-! ## What the store is for -/

/-- Bindings and receipts, of which only the live ones count. -/
structure LiveStore where
  bindings : String → Option ℚ
  receipts : String → Option (Receipt × ℚ)
  maxEntries : Nat

namespace LiveStore

/-- A store with nothing live. -/
def new (maxEntries : Nat) : LiveStore := ⟨fun _ => none, fun _ => none, maxEntries⟩

/-- The expiry of the key's binding, if it is live. -/
def expiry (b : LiveStore) (now : Nat) (key : String) : Option ℚ := live id (now : ℚ) b.bindings key

/-- The receipt of a key, while it lives. -/
def receipt (b : LiveStore) (now : Nat) (key : String) : Option Receipt :=
  (live Prod.snd (now : ℚ) b.receipts key).map Prod.fst

/-- How many bindings are live. -/
noncomputable def count (b : LiveStore) (now : Nat) : Nat := Set.ncard {key | b.expiry now key ≠ none}

/-- The key is bound until the expiry. -/
def bind (b : LiveStore) (key : String) (expiryMs : ℚ) : LiveStore :=
  { b with bindings := Function.update b.bindings key (some expiryMs) }

/-- A key with a live binding is taken; another is bound unless the cap of live bindings is reached. -/
noncomputable def reserve (b : LiveStore) (now : Nat) (key : String) (expiryMs : ℚ) : LiveStore × Reservation :=
  if b.expiry now key ≠ none then (b, .exists)
  else if b.maxEntries ≤ b.count now then (b, .full)
  else (b.bind key expiryMs, .reserved)

/-- A key is bound, or bound over, unless that takes one more live binding than the cap. -/
noncomputable def set (b : LiveStore) (now : Nat) (key : String) (expiryMs : ℚ) : LiveStore × Bool :=
  if b.expiry now key = none ∧ b.maxEntries ≤ b.count now then (b, false) else (b.bind key expiryMs, true)

/-- The key has neither a binding nor a receipt. -/
def release (b : LiveStore) (key : String) : LiveStore :=
  { b with bindings := Function.update b.bindings key none, receipts := Function.update b.receipts key none }

/-- The key has the receipt until the expiry. -/
def setReceipt (b : LiveStore) (key : String) (receipt : Receipt) (expiryMs : ℚ) : LiveStore :=
  { b with receipts := Function.update b.receipts key (some (receipt, expiryMs)) }

/-- A call on the map of what lives. -/
noncomputable def call (b : LiveStore) (now : Nat) : StoreCall → LiveStore × StoreAnswer
  | .reserve key expiryMs => (b.reserve now key expiryMs).map id .reserved
  | .get key => (b, .expiry (b.expiry now key))
  | .isConsumed key => (b, .consumed (b.expiry now key).isSome)
  | .set key expiryMs => (b.set now key expiryMs).map id .upserted
  | .release key => (b.release key, .done)
  | .getReceipt key => (b, .receipt (b.receipt now key))
  | .setReceipt key receipt expiryMs => (b.setReceipt key receipt expiryMs, .done)

end LiveStore

/-- Calls one after the other, each with the clock it reads: the store they leave, and their answers. -/
def calls {S : Type} (call : S → Nat → StoreCall → S × StoreAnswer) (s : S) :
    List (Nat × StoreCall) → S × List StoreAnswer
  | [] => (s, [])
  | (now, c) :: rest => (calls call (call s now c).1 rest).map id ((call s now c).2 :: ·)

/-! ## The live entries of the store -/

namespace InMemoryStore

/-- The table of receipts. -/
def receiptTable (s : InMemoryStore) : String → Option (Receipt × ℚ) := fun key => s.receipts.lookup key

variable {s : InMemoryStore} {key : String} {expiryMs : ℚ} {now : Nat}

theorem sweep_bindings : (s.sweep now).1.bindings = live id (now : ℚ) s.bindings := by
  funext k
  simp only [sweep, bindings, live, JsMap.lookup_keep, id_eq, ← not_le, decide_not]

theorem sweep_receipts : (s.sweep now).1.receiptTable = live Prod.snd (now : ℚ) s.receiptTable := by
  funext k
  simp only [sweep, receiptTable, live, JsMap.lookup_keep, ← not_le, decide_not]

theorem size_eq_count (m : JsMap ℚ) : m.size = Set.ncard {key | m.lookup key ≠ none} := by
  have hkeys : {key | m.lookup key ≠ none} = (m.keys.toFinset : Set String) := by
    ext key
    rw [Set.mem_ofPred_eq, Ne, AList.lookup_eq_none, not_not, List.coe_toFinset, Set.mem_ofPred_eq, AList.mem_keys]
  rw [hkeys, Set.ncard_coe_finset, List.toFinset_card_of_nodup m.keys_nodup, JsMap.size_eq_keys]

end InMemoryStore

/-- The store holds the live entries, and possibly expired ones. -/
structure Refines (s : InMemoryStore) (b : LiveStore) (now : Nat) : Prop where
  maxEntries : s.maxEntries = b.maxEntries
  bindings : live id (now : ℚ) s.bindings = live id (now : ℚ) b.bindings
  receipts : live Prod.snd (now : ℚ) s.receiptTable = live Prod.snd (now : ℚ) b.receipts

namespace Refines

open InMemoryStore

variable {s : InMemoryStore} {b : LiveStore} {now now' : Nat}

theorem later (h : Refines s b now) (hle : now ≤ now') : Refines s b now' :=
  ⟨h.maxEntries, live_later h.bindings (by exact_mod_cast hle), live_later h.receipts (by exact_mod_cast hle)⟩

/-! ## The sweep -/

theorem sweep (h : Refines s b now) : Refines (s.sweep now).1 b now := by
  refine ⟨h.maxEntries, ?_, ?_⟩
  · rw [sweep_bindings, live_live le_rfl, h.bindings]
  · rw [sweep_receipts, live_live le_rfl, h.receipts]

/-- After the sweep the map holds what is live. -/
theorem lookup_sweep (h : Refines s b now) (key : String) : (s.sweep now).1.map.lookup key = b.expiry now key := by
  have : (s.sweep now).1.bindings key = live id (now : ℚ) s.bindings key := congrFun sweep_bindings key
  rw [h.bindings] at this
  exact this

theorem room_sweep (h : Refines s b now) : (s.sweep now).2 = decide (b.count now < b.maxEntries) := by
  have hcount : (s.sweep now).1.map.size = b.count now := by
    rw [size_eq_count, LiveStore.count]
    simp only [h.lookup_sweep]
  rw [← hcount, ← h.maxEntries]
  rfl

theorem held_iff (h : Refines s b now) (key : String) :
    ((s.map.lookup key).any fun exp => decide ((now : ℚ) < exp)) = true ↔ b.expiry now key ≠ none := by
  rw [LiveStore.expiry, ← h.bindings, live, InMemoryStore.bindings]
  cases s.map.lookup key <;> simp

/-! ## One call -/

/-- A key bound in both. -/
theorem bind (h : Refines s b now) (key : String) (expiryMs : ℚ) :
    Refines { s with map := s.map.insert key expiryMs } (b.bind key expiryMs) now := by
  refine ⟨h.maxEntries, ?_, h.receipts⟩
  rw [bindings_insert]
  exact live_update_congr h.bindings _ _

theorem reserve (h : Refines s b now) (key : String) (expiryMs : ℚ) :
    (s.reserve key expiryMs now).2 = (b.reserve now key expiryMs).2 ∧
      Refines (s.reserve key expiryMs now).1 (b.reserve now key expiryMs).1 now := by
  unfold InMemoryStore.reserve LiveStore.reserve
  by_cases hheld : b.expiry now key ≠ none
  · rw [if_pos ((h.held_iff key).2 hheld), if_pos hheld]
    exact ⟨rfl, h⟩
  · rw [if_neg fun hany => hheld ((h.held_iff key).1 hany), if_neg hheld]
    dsimp only
    rw [h.room_sweep, h.lookup_sweep, not_not.1 hheld]
    by_cases hfull : b.maxEntries ≤ b.count now
    · rw [if_pos hfull, if_pos (by simpa using hfull)]
      exact ⟨rfl, h.sweep⟩
    · rw [if_neg hfull, if_neg (by simpa using hfull)]
      exact ⟨rfl, h.sweep.bind key expiryMs⟩

theorem set (h : Refines s b now) (key : String) (expiryMs : ℚ) :
    (s.set key expiryMs now).2 = (b.set now key expiryMs).2 ∧
      Refines (s.set key expiryMs now).1 (b.set now key expiryMs).1 now := by
  unfold InMemoryStore.set LiveStore.set
  dsimp only
  rw [h.room_sweep, h.lookup_sweep]
  by_cases hfull : b.expiry now key = none ∧ b.maxEntries ≤ b.count now
  · rw [if_pos hfull, if_pos (by simpa [and_comm] using hfull)]
    exact ⟨rfl, h.sweep⟩
  · rw [if_neg hfull, if_neg (by simpa [and_comm] using hfull)]
    exact ⟨rfl, h.sweep.bind key expiryMs⟩

/-- Reading a key drops its binding when it has expired. -/
theorem get (h : Refines s b now) (key : String) :
    (s.get key now).2 = b.expiry now key ∧ Refines (s.get key now).1 b now := by
  rw [LiveStore.expiry, ← h.bindings]
  unfold InMemoryStore.get live InMemoryStore.bindings
  split
  · rename_i hlook
    rw [hlook]
    exact ⟨rfl, h⟩
  · rename_i exp hlook
    rw [hlook]
    split_ifs with hexp
    · refine ⟨(Option.filter_some_neg (by simpa using hexp)).symm, h.maxEntries, ?_, h.receipts⟩
      rw [bindings_erase, live_drop, h.bindings]
      intro v hv
      rw [InMemoryStore.bindings, hlook] at hv
      cases hv
      exact hexp
    · exact ⟨(Option.filter_some_pos (by simpa using hexp)).symm, h⟩

theorem getReceipt (h : Refines s b now) (key : String) :
    (s.getReceipt key now).2 = b.receipt now key ∧ Refines (s.getReceipt key now).1 b now := by
  rw [LiveStore.receipt, ← h.receipts]
  unfold InMemoryStore.getReceipt live receiptTable
  split
  · rename_i hlook
    rw [hlook]
    exact ⟨rfl, h⟩
  · rename_i receipt exp hlook
    rw [hlook]
    split_ifs with hexp
    · refine ⟨by simpa using hexp, h.maxEntries, h.bindings, ?_⟩
      rw [← h.receipts]
      refine Eq.trans (congrArg _ (JsMap.lookup_delete s.receipts key)) (live_drop fun v hv => ?_)
      cases hlook.symm.trans hv
      exact hexp
    · refine ⟨?_, h⟩
      rw [Option.filter_some_pos (by simpa using hexp)]
      rfl

theorem release (h : Refines s b now) (key : String) : Refines (s.release key) (b.release key) now := by
  refine ⟨h.maxEntries, ?_, ?_⟩
  · exact Eq.trans (congrArg _ (JsMap.lookup_delete s.map key)) (live_update_congr h.bindings key none)
  · exact Eq.trans (congrArg _ (JsMap.lookup_delete s.receipts key)) (live_update_congr h.receipts key none)

theorem setReceipt (h : Refines s b now) (key : String) (receipt : Receipt) (expiryMs : ℚ) :
    Refines (s.setReceipt key receipt expiryMs) (b.setReceipt key receipt expiryMs) now := by
  refine ⟨h.maxEntries, h.bindings, ?_⟩
  exact Eq.trans (congrArg _ (JsMap.lookup_set s.receipts key _)) (live_update_congr h.receipts key _)

theorem call (h : Refines s b now) (c : StoreCall) :
    (s.call now c).2 = (b.call now c).2 ∧ Refines (s.call now c).1 (b.call now c).1 now := by
  cases c with
  | reserve key expiryMs => exact (h.reserve key expiryMs).imp_left (congrArg StoreAnswer.reserved)
  | get key => exact (h.get key).imp_left (congrArg StoreAnswer.expiry)
  | isConsumed key => exact (h.get key).imp_left (congrArg fun exp : Option ℚ => StoreAnswer.consumed exp.isSome)
  | set key expiryMs => exact (h.set key expiryMs).imp_left (congrArg StoreAnswer.upserted)
  | release key => exact ⟨rfl, h.release key⟩
  | getReceipt key => exact (h.getReceipt key).imp_left (congrArg StoreAnswer.receipt)
  | setReceipt key receipt expiryMs => exact ⟨rfl, h.setReceipt key receipt expiryMs⟩

end Refines

/-- Along a clock that does not go back, the store answers as the map of live bindings. -/
theorem calls_refine : ∀ {s : InMemoryStore} {b : LiveStore} {now : Nat} {cs : List (Nat × StoreCall)},
    Refines s b now → (cs.map Prod.fst).Pairwise (· ≤ ·) → (∀ c ∈ cs, now ≤ c.1) →
      (calls InMemoryStore.call s cs).2 = (calls LiveStore.call b cs).2
  | _, _, _, [], _, _, _ => rfl
  | s, b, now, (now', c) :: cs, h, hsorted, hnow => by
    rw [List.map_cons, List.pairwise_cons] at hsorted
    obtain ⟨hanswer, hnext⟩ := (h.later (hnow _ List.mem_cons_self)).call c
    have ih := calls_refine hnext hsorted.2 fun c' hc' => hsorted.1 c'.1 (List.mem_map_of_mem hc')
    rw [calls, calls, Prod.map_snd, Prod.map_snd, hanswer, ih]

/-! ## The cap, and what a call leaves alone -/

namespace InMemoryStore

variable {s : InMemoryStore} {now : Nat}

/-- Entries are added after the sweep, and only where there is room or the key is there. -/
theorem size_insert_sweep (h : s.map.size ≤ s.maxEntries) {key : String} (expiryMs : ℚ)
    (hroom : ¬((!(s.sweep now).2 && ((s.sweep now).1.map.lookup key).isNone) = true)) :
    JsMap.size ((s.sweep now).1.map.insert key expiryMs) ≤ s.maxEntries := by
  rw [Bool.and_eq_true, not_and_or] at hroom
  rcases hroom with hroom | hmem
  · have hlt : (s.sweep now).1.map.size < s.maxEntries := by simpa [sweep] using hroom
    exact (JsMap.size_set_le _ key expiryMs).trans hlt
  · have hkey : key ∈ (s.sweep now).1.map := by
      rwa [Option.isNone_iff_eq_none, AList.lookup_eq_none, not_not] at hmem
    rw [JsMap.size_set_of_mem hkey]
    exact (JsMap.size_keep_le _ _).trans h

/-- The cap holds whatever the clock says. -/
theorem call_size_le (h : s.map.size ≤ s.maxEntries) (now : Nat) (c : StoreCall) :
    (s.call now c).1.map.size ≤ s.maxEntries ∧ (s.call now c).1.maxEntries = s.maxEntries := by
  have hsweep : (s.sweep now).1.map.size ≤ s.maxEntries := (JsMap.size_keep_le _ _).trans h
  have hget (key : String) : (s.get key now).1.map.size ≤ s.maxEntries ∧ (s.get key now).1.maxEntries = s.maxEntries := by
    unfold get
    split
    · exact ⟨h, rfl⟩
    · split_ifs
      · exact ⟨(JsMap.size_delete_le _ _).trans h, rfl⟩
      · exact ⟨h, rfl⟩
  -- only `reserve` and `set` add a key, and both look at the size first
  cases c with
  | reserve key expiryMs =>
    show (s.reserve key expiryMs now).1.map.size ≤ _ ∧ (s.reserve key expiryMs now).1.maxEntries = _
    unfold reserve
    dsimp only
    split_ifs with hheld hfull
    · exact ⟨h, rfl⟩
    · exact ⟨hsweep, rfl⟩
    · exact ⟨size_insert_sweep h expiryMs hfull, rfl⟩
  | get key => exact hget key
  | isConsumed key => exact hget key
  | set key expiryMs =>
    show (s.set key expiryMs now).1.map.size ≤ _ ∧ (s.set key expiryMs now).1.maxEntries = _
    unfold set
    dsimp only
    split_ifs with hfull
    · exact ⟨hsweep, rfl⟩
    · exact ⟨size_insert_sweep h expiryMs hfull, rfl⟩
  | release key => exact ⟨(JsMap.size_delete_le _ _).trans h, rfl⟩
  | getReceipt key =>
    show (s.getReceipt key now).1.map.size ≤ _ ∧ (s.getReceipt key now).1.maxEntries = _
    unfold getReceipt
    split
    · exact ⟨h, rfl⟩
    · split_ifs <;> exact ⟨h, rfl⟩
  | setReceipt key receipt expiryMs => exact ⟨h, rfl⟩

/-- Neither the sweep nor a lookup removes a live binding. -/
theorem sweep_keeps {k : String} {exp : ℚ} (hlook : s.map.lookup k = some exp) (hlive : (now : ℚ) < exp) :
    (s.sweep now).1.map.lookup k = some exp := by
  have hkept : live id (now : ℚ) s.bindings k = some exp := live_eq_some.2 ⟨hlook, hlive⟩
  exact (congrFun sweep_bindings k).trans hkept

theorem get_keeps {k : String} {exp : ℚ} (hlook : s.map.lookup k = some exp) (hlive : (now : ℚ) < exp) (key : String) :
    (s.get key now).1.map.lookup k = some exp := by
  unfold get
  split
  · exact hlook
  · rename_i exp' hlook'
    split_ifs with hexp
    · have hne : k ≠ key := by
        rintro rfl
        cases hlook.symm.trans hlook'
        exact not_le.2 hlive hexp
      exact (AList.lookup_erase_ne hne).trans hlook
    · exact hlook

/-- A live binding stays through every call but a `set` or a `release` of its key. -/
theorem call_keeps {k : String} {exp : ℚ} (hlook : s.map.lookup k = some exp) (hlive : (now : ℚ) < exp) {c : StoreCall}
    (hc : ¬c.Overwrites k) : (s.call now c).1.map.lookup k = some exp := by
  have hsweep := sweep_keeps hlook hlive
  -- a sweep keeps what is live, and the other calls touch no key but their own
  cases c with
  | reserve key expiryMs =>
    show (s.reserve key expiryMs now).1.map.lookup k = _
    unfold reserve
    dsimp only
    split_ifs with hheld hfull
    · exact hlook
    · exact hsweep
    · have hne : k ≠ key := by
        rintro rfl
        exact hheld (by simpa [hlook] using hlive)
      exact (AList.lookup_insert_ne hne).trans hsweep
  | get key => exact get_keeps hlook hlive key
  | isConsumed key => exact get_keeps hlook hlive key
  | set key expiryMs =>
    show (s.set key expiryMs now).1.map.lookup k = _
    unfold set
    dsimp only
    split_ifs with hfull
    · exact hsweep
    · exact (AList.lookup_insert_ne (Ne.symm hc)).trans hsweep
  | release key => exact (AList.lookup_erase_ne (Ne.symm hc)).trans hlook
  | getReceipt key =>
    show (s.getReceipt key now).1.map.lookup k = _
    unfold getReceipt
    split
    · exact hlook
    · split_ifs <;> exact hlook
  | setReceipt key receipt expiryMs => exact hlook

end InMemoryStore

/-- The cap holds after any calls. -/
theorem calls_size_le : ∀ {s : InMemoryStore} (cs : List (Nat × StoreCall)), s.map.size ≤ s.maxEntries →
    (calls InMemoryStore.call s cs).1.map.size ≤ s.maxEntries ∧
      (calls InMemoryStore.call s cs).1.maxEntries = s.maxEntries
  | _, [], h => ⟨h, rfl⟩
  | s, (now, c) :: cs, h => by
    obtain ⟨hsize, hmax⟩ := InMemoryStore.call_size_le h now c
    have ih := calls_size_le cs (hsize.trans_eq hmax.symm)
    rwa [hmax] at ih

/-- In any run along a clock that does not go back, a new store answers as the capped map of live bindings. It
never holds more entries than the cap, and no call but a `set` or a `release` of its key touches a live binding. -/
theorem inMemoryStore_refines (maxEntries : Nat) {cs : List (Nat × StoreCall)}
    (hsorted : (cs.map Prod.fst).Pairwise (· ≤ ·)) :
    (calls InMemoryStore.call (.new maxEntries) cs).2 = (calls LiveStore.call (.new maxEntries) cs).2 ∧
      ∀ earlier now c later, cs = earlier ++ (now, c) :: later →
        let s := (calls InMemoryStore.call (.new maxEntries) earlier).1
        let s' := (s.call now c).1
        s.map.size ≤ maxEntries ∧ s'.map.size ≤ maxEntries ∧
          ∀ k exp, s.map.lookup k = some exp → (now : ℚ) < exp → ¬c.Overwrites k → s'.map.lookup k = some exp := by
  constructor
  · have hnew : Refines (.new maxEntries) (.new maxEntries) 0 := ⟨rfl, rfl, rfl⟩
    exact calls_refine hnew hsorted fun c _ => Nat.zero_le c.1
  · intro earlier now c later _
    obtain ⟨hsize, hmax⟩ := calls_size_le (s := .new maxEntries) earlier (Nat.zero_le maxEntries)
    have hnext := (InMemoryStore.call_size_le (hsize.trans_eq hmax.symm) now c).1
    exact ⟨hsize, hnext.trans_eq hmax, fun k exp hlook hlive hc =>
      InMemoryStore.call_keeps hlook hlive hc⟩

/-- A cap of one: a second key is refused while the first is live, and taken once it has expired. -/
theorem inMemoryStore_refines_full :
    (calls LiveStore.call (.new 1) [(0, .reserve "a" 10), (5, .reserve "b" 20), (5, .reserve "a" 30), (9, .get "a"),
      (10, .reserve "b" 20)]).2 = [.reserved .reserved, .reserved .full, .reserved .exists, .expiry (some 10),
        .reserved .reserved] :=
  (inMemoryStore_refines 1 (by decide)).1.symm.trans rfl

end Xahc.Facilitator

/-
The programs that share a replay store: settlements, and reservations made directly. Their contract, and
what it says of the keys and the times that reach the store.
-/
import Xahc.Effect.Loop
import Xahc.Facilitator.Contract

namespace Xahc.Facilitator

open Xahc.Data Xahc.Effect

/-! ## Keys -/

/-- A key under which one backend stores receipts. -/
def IsReceiptKey (key : String) : Prop := "r:".toList <+: key.toList

instance (key : String) : Decidable (IsReceiptKey key) :=
  inferInstanceAs (Decidable ("r:".toList <+: key.toList))

/-- A key that names neither a hash binding nor a stored receipt. -/
def IsBinding (key : String) : Prop := ¬"hash:".toList <+: key.toList ∧ ¬IsReceiptKey key

theorem isBinding_replayKeyFor (tx : Tx) : IsBinding (replayKeyFor tx) := by
  have hinv : ∀ s, IsBinding ("inv:" ++ s) := fun s => by simp [IsBinding, IsReceiptKey]
  have hacct : ∀ s, IsBinding ("acct:" ++ s) := fun s => by simp [IsBinding, IsReceiptKey]
  unfold replayKeyFor
  split
  · split
    · exact hinv _
    · rw [String.append_assoc, String.append_assoc]
      exact hacct _
  · rw [String.append_assoc, String.append_assoc]
    exact hacct _

theorem not_isBinding_hash (s : String) : ¬IsBinding ("hash:" ++ s) := by simp [IsBinding]

theorem isReceiptKey_append (s : String) : IsReceiptKey ("r:" ++ s) := by simp [IsReceiptKey]

/-! ## Calls -/

/-- What is started against a store: a settlement, or a direct reservation of a binding. -/
inductive Call
  | settle (payload req : Json) (deps : Deps)
  | reserve (key : {key : String // IsBinding key}) (expiryMs : ℚ)

/-- What a call ends in. -/
inductive Outcome
  | reply (r : Except Json Reply)
  | reserved (r : Except Json Reservation)

section
variable (env : Env)

/-- The program of a call. -/
def code : Call → Settling Outcome
  | .settle payload req deps => do return .reply (← settle env payload req deps)
  | .reserve key expiryMs => do return .reserved (← Prog.perform (Op.reserve key expiryMs none))

/-- What a call may do after its history. -/
def MayCall : Call → Hist → Op → Prop
  | .settle payload req _, h, op => May env payload req h op
  | .reserve key expiryMs, h, op => h = [] ∧ op = .reserve key expiryMs none

/-- How a call may end after its history. -/
def Ends : Call → Hist → Outcome → Prop
  | .settle payload req _, h, .reply r => Ending env payload req h r
  | .reserve .., _, .reserved _ => True
  | _, _, _ => False

theorem obeys_code (l : Call) : Prog.Obeys (MayCall env l) (Ends env l) [] (code env l) := by
  cases l with
  | settle payload req deps =>
    exact (meets_settle env payload req deps).bind (fun h op k hmay => hmay.1) fun h r hr => hr
  | reserve key expiryMs => exact ⟨⟨rfl, rfl⟩, fun _ _ => trivial⟩

end

/-! ## What reaches the store -/

variable {env : Env} {payload req : Json} {a : Attempt} {l : Call} {h : Hist} {key : String} {expiryMs : ℚ}

theorem isBinding_replayId {v : Verified} (hv : verifyExact env payload req = .ok v) : IsBinding v.replayId := by
  obtain ⟨blob, tx, paid, hver⟩ := verifyExact_ok hv
  rw [hver.replayId]
  exact isBinding_replayKeyFor tx

theorem Reserved.ready (hr : Reserved env payload req a h) : ∃ h₀, h₀ <:+ h ∧ Ready env payload req a h₀ := by
  obtain ⟨t, h₀, rfl, hready⟩ := hr
  exact ⟨h₀, List.suffix_cons _ _, hready⟩

theorem Resolved.reserved {code : String} {txMeta : Json} {hash : Option Json}
    (hr : Resolved env payload req a code txMeta hash h) : ∃ h₀, h₀ <:+ h ∧ Reserved env payload req a h₀ := by
  obtain ⟨later, r, t, h₀, rfl, -, -, hres⟩ := hr
  exact ⟨h₀, (List.suffix_cons _ _).trans (List.suffix_append _ _), hres⟩

/-- What has been answered when a key is reserved. -/
structure Reserving (key : String) (now : Option Nat) (h : Hist) : Prop where
  binding : IsBinding key
  captured : ∀ n, now = some n → ∃ key r, ⟨.isConsumed key, r, n⟩ ∈ h
  fresh : ∀ e ∈ h, isReserve e = false ∧ ∀ key, e.op ≠ .release key

theorem Quiet.not_release (hq : Quiet h) {e : Entry Op Res} (he : e ∈ h) (key : String) : e.op ≠ .release key := by
  intro hop
  have hquiet := hq e he
  obtain ⟨op, r, t⟩ := e
  obtain rfl : op = .release key := hop
  cases hquiet

theorem MayCall.reserve {now : Option Nat} (hm : MayCall env l h (.reserve key expiryMs now)) :
    Reserving key now h := by
  cases l with
  | settle payload req deps =>
    obtain ⟨a, hready, rfl, rfl, rfl⟩ := hm
    refine
      { binding := isBinding_replayId hready.verified
        captured := fun n hn => ?_
        fresh := fun e he => ⟨hready.first e he, hready.quiet.not_release he⟩ }
    cases hn
    exact ⟨_, hready.captured⟩
  | reserve key' expiryMs' =>
    obtain ⟨rfl, hop⟩ := hm
    cases hop
    exact { binding := key'.2, captured := by simp, fresh := by simp }

/-- Only hash bindings are put, at a time captured before. -/
theorem MayCall.set {now : Nat} (hm : MayCall env l h (.set key expiryMs now)) :
    ¬IsBinding key ∧ ∃ key r, ⟨.isConsumed key, r, now⟩ ∈ h := by
  cases l with
  | settle payload req deps =>
    obtain ⟨a, code, txMeta, hash, text, hres, rfl, rfl, rfl⟩ := hm
    obtain ⟨h₁, hsuf₁, hreserved⟩ := hres.reserved
    obtain ⟨h₂, hsuf₂, hready⟩ := hreserved.ready
    obtain ⟨r, hr⟩ := hready.captured
    exact ⟨not_isBinding_hash text, _, r, hsuf₁.subset (hsuf₂.subset hr)⟩
  | reserve key' expiryMs' =>
    obtain ⟨-, hop⟩ := hm
    cases hop

/-- What has been answered when a key is released. -/
structure Releasing (key : String) (h : Hist) : Prop where
  binding : IsBinding key
  reserved : ∃ expiryMs now t, ⟨.reserve key expiryMs now, .ok .reserved, t⟩ ∈ h
  first : ∀ e ∈ h, ∀ key, e.op ≠ .release key
  won : ∀ key expiryMs now r t, ⟨.reserve key expiryMs now, r, t⟩ ∈ h → r = .ok .reserved

theorem MayCall.release (hm : MayCall env l h (.release key)) : Releasing key h := by
  cases l with
  | settle payload req deps =>
    obtain ⟨a, e, t, h₀, rfl, -, ⟨t', h₁, rfl, hready⟩, rfl⟩ := hm
    refine
      { binding := isBinding_replayId hready.verified
        reserved := ⟨_, _, _, List.mem_cons_of_mem _ List.mem_cons_self⟩
        first := fun e he key hop => ?_
        won := fun key expiryMs now r t hmem => ?_ }
    · rcases List.mem_cons.1 he with rfl | he
      · cases hop
      rcases List.mem_cons.1 he with rfl | he
      · cases hop
      exact hready.quiet.not_release he key hop
    · rcases List.mem_cons.1 hmem with heq | hmem
      · cases heq
      rcases List.mem_cons.1 hmem with heq | hmem
      · cases heq
        rfl
      · cases hready.first _ hmem
  | reserve key' expiryMs' =>
    obtain ⟨-, hop⟩ := hm
    cases hop

/-- The blob that a call may submit. -/
def Call.blob? : Call → Option String
  | .settle payload _ _ => payload.getString "txBlob"
  | .reserve .. => none

theorem MayCall.blob {b : String} (hm : MayCall env l h (.submitAndWait b)) : l.blob? = some b := by
  cases l with
  | settle payload req deps =>
    obtain ⟨a, hres, rfl⟩ := hm
    obtain ⟨h₀, -, hready⟩ := hres.ready
    exact hready.txBlob
  | reserve key expiryMs => cases hm.2

/-! ## Receipts in a store -/

/-- A store that gives back only receipts that were put into it. -/
structure Keeps {σ : Type} (S : System Op Res σ Call Outcome) where
  holds : σ → String → Receipt → Prop
  adds : ∀ t op c s key receipt, holds (S.perform t op c s).1 key receipt →
    holds s key receipt ∨ ∃ expiryMs, op = .setReceipt key receipt expiryMs
  answers : ∀ t key c s receipt, (S.perform t (.getReceipt key) c s).2 = .ok (some receipt) → holds s key receipt

section
variable {σ : Type} {S : System Op Res σ Call Outcome} (K : Keeps S) {may : Call → Hist → Op → Prop}
  {fin : Call → Hist → Outcome → Prop} {s₀ s : σ} {t : Nat} {tr : Trace Op Res Call Outcome} {receipt : Receipt}

/-- Every receipt in the store was put there by a call. -/
theorem Keeps.stored (hs₀ : ∀ key receipt, ¬K.holds s₀ key receipt) (hb : Behaves S may fin s₀ t s tr)
    (h : K.holds s key receipt) : ∃ i t₀ expiryMs r, Event.performed i t₀ (.setReceipt key receipt expiryMs) r ∈ tr := by
  revert h
  refine hb.induct (I := fun _ s tr => K.holds s key receipt →
    ∃ i t₀ expiryMs r, Event.performed i t₀ (.setReceipt key receipt expiryMs) r ∈ tr) ?_ ?_ ?_ ?_
  · exact fun h => (hs₀ _ _ h).elim
  · exact fun t d s tr ih => ih
  · intro e s tr _ ih h
    obtain ⟨i, t₀, expiryMs, r, hmem⟩ := ih h
    exact ⟨i, t₀, expiryMs, r, List.mem_cons_of_mem _ hmem⟩
  · intro i t op c s tr _ _ ih h
    rcases K.adds _ _ _ _ _ _ h with h | ⟨expiryMs, rfl⟩
    · obtain ⟨j, t₀, expiryMs, r, hmem⟩ := ih h
      exact ⟨j, t₀, expiryMs, r, List.mem_cons_of_mem _ hmem⟩
    · exact ⟨i, t, expiryMs, _, List.mem_cons_self⟩

/-- A receipt that a call reads was put there before. -/
theorem Keeps.answered (hs₀ : ∀ key receipt, ¬K.holds s₀ key receipt) (hb : Behaves S may fin s₀ t s tr) {i t₀ : Nat}
    (hp : Event.performed i t₀ (.getReceipt key) (.ok (some receipt)) ∈ tr) :
    ∃ j t₁ expiryMs r, Event.performed j t₁ (.setReceipt key receipt expiryMs) r ∈ tr := by
  obtain ⟨post, pre, rfl⟩ := List.append_of_mem hp
  obtain ⟨-, s', hcut⟩ := hb.cut
  obtain ⟨-, s'', hb', -, c, hperf, -⟩ := hcut.inv
  have hheld := K.answers _ _ _ _ _ (congrArg Prod.snd hperf)
  obtain ⟨j, t₁, expiryMs, r, hmem⟩ := K.stored hs₀ hb' hheld
  exact ⟨j, t₁, expiryMs, r, List.mem_append_right _ (List.mem_cons_of_mem _ hmem)⟩

end

end Xahc.Facilitator

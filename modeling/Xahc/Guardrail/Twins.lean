/-
`agentGuardrail.c` and the refutation twins of both guardrail Hooks: one body each, with what a twin does differently as
a parameter.
-/
import Xahc.Guardrail.Hook

namespace Xahc.Guardrail

open Xahc.Data

/-- The byte loops compare the first `n` bytes. -/
def sameBytes (n : Nat) (a b : Bytes) : Bool :=
  (List.range n).foldl (fun ok i => if a.getD i 0 != b.getD i 0 then false else ok) true

/-- How the Hook's end is reported where all of its checks pass. -/
def exitOf (passed : Exit) : Except Exit Unit → Exit
  | .error e => e
  | .ok _ => passed

/-! ## The stateless Hook -/

/-- The lines of a guardrail Hook's exits. -/
structure Lines where
  notPayment : Int
  accountRead : Int
  incoming : Int
  lim : Int
  native : Int
  cap : Int
  destRead : Int
  destination : Int
  within : Int

/-- The payments of others pass; the lines are those of the file. -/
def policeAt (notPayment accountRead incoming : Int) (i : Install) (tx : Otxn) : Except Exit Unit :=
  if tx.tt ≠ ttPAYMENT then .error (.accept "not a payment" notPayment)
  else do
    let origin := tx.otxnField 20 sfAccount
    require (origin.rc = 20) "otxn account read" accountRead
    if !sameBytes 20 origin.buf i.me.1 then .error (.accept "incoming" incoming) else .ok ()

/-- The destination lock, of which the loop compares the first `n` bytes. -/
def checkDestinationAt (n : Nat) (destRead destination : Int) (i : Install) (tx : Otxn) : Except Exit Unit :=
  let allowed := i.hookParam 20 dstKey
  if allowed.rc = 20 then do
    let dest := tx.otxnField 20 sfDestination
    require (dest.rc = 20) "otxn dest read" destRead
    require (sameBytes n dest.buf allowed.buf) "destination not in policy" destination
  else .ok ()

/-- The checks of the stateless Hook: its cap compares with `under`, its destination loop runs over `n` bytes. -/
def agentChecks (l : Lines) (under : UInt64 → UInt64 → Bool) (n : Nat) (i : Install) (tx : Otxn) : Except Exit Unit := do
  policeAt l.notPayment l.accountRead l.incoming i tx
  let limit ← dropsParam i limKey l.lim
  let drops := xahcOtxnDrops tx
  require (drops ≥ 0) "native amount only" l.native
  require (under (UInt64.ofNat drops.toNat) limit) "over per-tx spend limit" l.cap
  checkDestinationAt n l.destRead l.destination i tx

/-- A stateless guardrail with its lines, its comparison and the bytes of the destination it compares. -/
def agentHook (l : Lines) (under : UInt64 → UInt64 → Bool) (n : Nat) (i : Install) (tx : Otxn) : Exit :=
  exitOf (.accept "within policy" l.within) (agentChecks l under n i tx)

/-- The lines of `agent_guardrail.c`. -/
def agentGuardrailLines : Lines := ⟨20, 24, 32, 37, 45, 46, 53, 59, 62⟩

/-- `agent_guardrail.c`. -/
def agentGuardrail : Install → Otxn → Exit := agentHook agentGuardrailLines (fun drops limit => drops ≤ limit) 20

/-- The lines of `agent_guardrail_BUG.c`. -/
def agentGuardrailBUGLines : Lines := ⟨27, 30, 38, 42, 50, 52, 58, 64, 67⟩

/-- `(uint32_t)drops <= (uint32_t)limit`. -/
def agentGuardrailBUG : Install → Otxn → Exit :=
  agentHook agentGuardrailBUGLines (fun drops limit => drops.toUInt32 ≤ limit.toUInt32) 20

/-- The lines of `agent_guardrail_dstBUG.c`. -/
def agentGuardrailDstBUGLines : Lines := ⟨24, 28, 36, 41, 49, 50, 57, 63, 66⟩

/-- Its destination loop stops after 4 of the 20 bytes. -/
def agentGuardrailDstBUG : Install → Otxn → Exit :=
  agentHook agentGuardrailDstBUGLines (fun drops limit => drops ≤ limit) 4

/-! ### What the stateless Hook accepts -/

theorem sameBytes_iff {n : Nat} {a b : Bytes} (ha : n ≤ a.length) (hb : n ≤ b.length) :
    sameBytes n a b = true ↔ a.take n = b.take n := by
  unfold sameBytes
  rw [sameAccount_fold, Bool.true_and, List.all_eq_true]
  constructor
  · intro h
    apply List.ext_getElem
    · rw [List.length_take, List.length_take, Nat.min_eq_left ha, Nat.min_eq_left hb]
    · intro i hi _
      rw [List.length_take] at hi
      have := h i (List.mem_range.2 (by omega))
      rw [List.getElem_take, List.getElem_take]
      simpa [List.getElem?_eq_getElem (by omega : i < a.length), List.getElem?_eq_getElem (by omega : i < b.length)] using this
  · intro h i hi
    have hi := List.mem_range.1 hi
    have hget := congrArg (fun l : Bytes => l[i]?) h
    simp only [List.getElem?_take_of_lt hi] at hget
    rw [List.getD_eq_getElem?_getD, List.getD_eq_getElem?_getD, hget]
    exact beq_self_eq_true _

/-- A transaction the guardrail Hooks let through without looking at any policy. -/
def PassedThrough (i : Install) (tx : Otxn) : Prop :=
  tx.tt ≠ ttPAYMENT ∨ ∃ b, tx.field sfAccount = some b ∧ b.length = 20 ∧ b ≠ i.me.1

/-- The destination lock as far as the first `n` bytes tell. -/
def DestinationUpTo (n : Nat) (i : Install) (tx : Otxn) : Prop :=
  ∀ d, i.params dstKey = some d → d.length = 20 →
    ∃ b, tx.field sfDestination = some b ∧ b.length = 20 ∧ b.take n = d.take n

theorem destinationUpTo_all {i : Install} {tx : Otxn} : DestinationUpTo 20 i tx ↔ DestinationOk i tx := by
  unfold DestinationUpTo DestinationOk
  constructor
  · intro h d hd hlen
    obtain ⟨b, hb, hblen, htake⟩ := h d hd hlen
    rw [List.take_of_length_le hblen.le, List.take_of_length_le hlen.le] at htake
    rw [hb, htake]
  · intro h d hd hlen
    exact ⟨d, h d hd hlen, hlen, rfl⟩

theorem policeAt_ok {i : Install} {tx : Otxn} {j k l : Int} {u : Unit} : policeAt j k l i tx = .ok u ↔ Outgoing i tx := by
  unfold policeAt Outgoing
  by_cases htt : tx.tt = ttPAYMENT
  · simp only [htt, ne_eq, not_true_eq_false, if_false, true_and, bind_ok, require_ok, decide_eq_true_eq, exists_const]
    constructor
    · rintro ⟨hrc, hsame⟩
      obtain ⟨b, hb, hlen⟩ := (readInto_rc_eq (le_refl 20)).1 hrc
      rw [Otxn.otxnField, hb, readInto_fits hlen.le] at hsame
      split at hsame
      · cases hsame
      · rename_i h
        have hsame : sameBytes 20 b i.me.1 = true := by simpa using h
        rw [hb, (sameAccount_iff hlen i.me.2).1 hsame]
    · intro hacc
      have hlen := i.me.2
      rw [Otxn.otxnField, hacc, readInto_fits hlen.le]
      exact ⟨congrArg Nat.cast hlen, by rw [(sameBytes_iff hlen.ge hlen.ge).2 rfl]; rfl⟩
  · simp [htt]

theorem policeAt_error {i : Install} {tx : Otxn} {j k l : Int} {e : Exit} (h : policeAt j k l i tx = .error e) :
    e.accepts = true ↔ PassedThrough i tx := by
  unfold policeAt at h
  unfold PassedThrough
  -- what passes through is no payment, or one of another account
  by_cases htt : tx.tt = ttPAYMENT
  · rw [if_neg (not_not.2 htt)] at h
    rcases bind_error h with h | ⟨_, hrc, h⟩
    · rw [require_error h]
      have hrc : (tx.otxnField 20 sfAccount).rc ≠ 20 := by
        intro hrc
        rw [require, decide_eq_true hrc] at h
        cases h
      simp only [Bool.false_eq_true, htt, ne_eq, not_true_eq_false, false_or, false_iff]
      rintro ⟨b, hb, hlen, -⟩
      exact hrc ((readInto_rc_eq (le_refl 20)).2 ⟨b, hb, hlen⟩)
    · rw [require_ok, decide_eq_true_eq] at hrc
      obtain ⟨b, hb, hlen⟩ := (readInto_rc_eq (le_refl 20)).1 hrc
      rw [Otxn.otxnField, hb, readInto_fits hlen.le] at h
      by_cases hsame : sameBytes 20 b i.me.1 = true
      · rw [hsame] at h
        cases h
      · rw [Bool.eq_false_iff.2 hsame] at h
        cases h
        have hne : b ≠ i.me.1 := by
          rintro rfl
          exact hsame ((sameBytes_iff hlen.ge hlen.ge).2 rfl)
        exact ⟨fun _ => .inr ⟨b, hb, hlen, hne⟩, fun _ => rfl⟩
  · rw [if_pos htt] at h
    cases h
    exact ⟨fun _ => .inl htt, fun _ => rfl⟩

theorem checkDestinationAt_ok {n : Nat} (hn : n ≤ 20) {j k : Int} {i : Install} {tx : Otxn} {u : Unit} :
    checkDestinationAt n j k i tx = .ok u ↔ DestinationUpTo n i tx := by
  unfold checkDestinationAt DestinationUpTo
  simp only
  by_cases hrc : (i.hookParam 20 dstKey).rc = 20
  · obtain ⟨d, hd, hlen⟩ := (readInto_rc_eq (le_refl 20)).1 hrc
    rw [if_pos hrc, Install.hookParam, hd, readInto_fits hlen.le]
    simp only [bind_ok, require_ok, decide_eq_true_eq, exists_const, Option.some.injEq, forall_eq', hlen, forall_const]
    constructor
    · rintro ⟨hdest, hsame⟩
      obtain ⟨b, hb, hblen⟩ := (readInto_rc_eq (le_refl 20)).1 hdest
      rw [Otxn.otxnField, hb, readInto_fits hblen.le] at hsame
      exact ⟨b, hb, hblen, (sameBytes_iff (hn.trans hblen.ge) (hn.trans hlen.ge)).1 hsame⟩
    · rintro ⟨b, hb, hblen, htake⟩
      rw [Otxn.otxnField, hb, readInto_fits hblen.le]
      exact ⟨congrArg Nat.cast hblen, (sameBytes_iff (hn.trans hblen.ge) (hn.trans hlen.ge)).2 htake⟩
  · rw [if_neg hrc]
    refine ⟨fun _ d hd hlen => ?_, fun _ => rfl⟩
    exact absurd ((readInto_rc_eq (le_refl 20)).2 ⟨d, hd, hlen⟩) hrc

theorem checkDestinationAt_error {n : Nat} {j k : Int} {i : Install} {tx : Otxn} {e : Exit}
    (h : checkDestinationAt n j k i tx = .error e) : e.accepts = false := by
  unfold checkDestinationAt at h
  simp only at h
  split at h
  · rcases bind_error h with h | ⟨_, -, h⟩ <;> exact require_error h
  · cases h

/-- A payment the stateless Hook lets out. -/
structure Allowed (under : UInt64 → UInt64 → Bool) (n : Nat) (i : Install) (tx : Otxn) (limit amount : UInt64) : Prop where
  outgoing : Outgoing i tx
  lim : ∃ b, i.params limKey = some b ∧ b.length = 8 ∧ be64 b = limit
  native : xahcOtxnDrops tx = (amount.toNat : Int)
  cap : under amount limit = true
  destination : DestinationUpTo n i tx

/-- What drops that are not negative are as a word. -/
theorem drops_word {tx : Otxn} (h : 0 ≤ xahcOtxnDrops tx) :
    ((UInt64.ofNat (xahcOtxnDrops tx).toNat).toNat : Int) = xahcOtxnDrops tx := by
  obtain ⟨b, hb, hlen, hnat⟩ := native_of_drops h
  have hlt : beNat b % 2 ^ 62 < 2 ^ 64 := (Nat.mod_lt _ (by decide)).trans (by decide)
  rw [drops_of_native hb hlen hnat, Int.toNat_natCast, UInt64.toNat_ofNat_of_lt' hlt]

theorem agentChecks_ok {l : Lines} {under : UInt64 → UInt64 → Bool} {n : Nat} (hn : n ≤ 20) {i : Install} {tx : Otxn}
    {u : Unit} : agentChecks l under n i tx = .ok u ↔ ∃ limit amount, Allowed under n i tx limit amount := by
  simp only [agentChecks, bind_ok, policeAt_ok, dropsParam_ok, require_ok, checkDestinationAt_ok hn, decide_eq_true_eq,
    exists_const]
  constructor
  · rintro ⟨hout, limit, hlim, hpos, hunder, hdest⟩
    exact ⟨limit, _, hout, hlim, (drops_word hpos).symm, hunder, hdest⟩
  · rintro ⟨limit, amount, h⟩
    have hpos : xahcOtxnDrops tx ≥ 0 := by
      rw [h.native]
      omega
    have hamount : UInt64.ofNat (xahcOtxnDrops tx).toNat = amount := by
      rw [h.native, Int.toNat_natCast, UInt64.ofNat_toNat]
    exact ⟨h.outgoing, limit, h.lim, hpos, by rw [hamount, h.cap], h.destination⟩

theorem agentChecks_error {l : Lines} {under : UInt64 → UInt64 → Bool} {n : Nat} {i : Install} {tx : Otxn} {e : Exit}
    (h : agentChecks l under n i tx = .error e) : e.accepts = true ↔ PassedThrough i tx := by
  rcases bind_error h with h | ⟨_, hout, h⟩
  · exact policeAt_error h
  have hrefused : e.accepts = false := by
    rcases bind_error h with h | ⟨_, -, h⟩
    · rcases bind_error h with h | ⟨_, -, h⟩
      · exact require_error h
      · cases h
    rcases bind_error h with h | ⟨_, -, h⟩
    · exact require_error h
    rcases bind_error h with h | ⟨_, -, h⟩
    · exact require_error h
    · exact checkDestinationAt_error h
  obtain ⟨htt, hacc⟩ := policeAt_ok.1 hout
  simp only [hrefused, Bool.false_eq_true, false_iff]
  rintro (hne | ⟨b, hb, -, hne⟩)
  · exact hne htt
  · exact hne (Option.some.inj (hb.symm.trans hacc))

/-- The stateless Hook accepts what is no payment of its account, and the payments it allows. -/
theorem agentHook_accepts {l : Lines} {under : UInt64 → UInt64 → Bool} {n : Nat} (hn : n ≤ 20) {i : Install} {tx : Otxn} :
    (agentHook l under n i tx).accepts = true ↔
      PassedThrough i tx ∨ ∃ limit amount, Allowed under n i tx limit amount := by
  unfold agentHook
  cases hc : agentChecks l under n i tx with
  | error e =>
    have hnone : ¬∃ limit amount, Allowed under n i tx limit amount := by
      intro hallowed
      rw [(agentChecks_ok hn (u := ())).2 hallowed] at hc
      cases hc
    rw [or_iff_left hnone]
    exact agentChecks_error hc
  | ok u => exact ⟨fun _ => .inr ((agentChecks_ok hn).1 hc), fun _ => rfl⟩

/-! ## The stateful Hook -/

/-- The lines of the stateful Hook's exits that the stateless one lacks. -/
structure StatefulLines extends Lines where
  plm : Int
  badPer : Int
  perZero : Int
  corrupt : Int
  budget : Int
  commit : Int

/-- PER of 8 or of 4 bytes. -/
def decodePerAt (badPer : Int) (r : HostRead) : Except Exit UInt64 :=
  if r.rc = 8 then .ok (be64 r.buf)
  else if r.rc = 4 then .ok (be32 r.buf)
  else .error (.rollback "bad PER param" badPer)

/-- PER, which has to be positive. -/
def readPerAt (badPer perZero : Int) (i : Install) : Except Exit UInt64 := do
  let per ← decodePerAt badPer (i.hookParam 8 perKey)
  require (per > 0) "PER must be > 0" perZero
  return per

/-- The three numbers of the policy. -/
def readPolicyAt (l : StatefulLines) (i : Install) : Except Exit Policy := do
  let lim ← dropsParam i limKey l.lim
  let plm ← dropsParam i plmKey l.plm
  let per ← readPerAt l.badPer l.perZero i
  return ⟨lim, plm, per⟩

/-- The amount, which has to be native and within LIM. -/
def readAmountAt (native cap : Int) (tx : Otxn) (lim : UInt64) : Except Exit UInt64 := do
  let drops := xahcOtxnDrops tx
  require (drops ≥ 0) "native amount only" native
  let amount := UInt64.ofNat drops.toNat
  require (amount ≤ lim) "over per-tx spend limit" cap
  return amount

/-- The stored period as it stands now; a read that fails opens a new one. -/
def readPeriodAt (corrupt : Int) (st : HookState) (now per : UInt64) : Except Exit Period :=
  let srd := readInto 16 (st skey)
  if srd.rc = 16 then .ok ((Period.decode srd.buf).roll now per)
  else if srd.rc < 0 then .ok ⟨now, 0⟩
  else .error (.rollback "corrupt state" corrupt)

/-- The checks of the stateful Hook, with the room a period has left for a payment. -/
def hookChecksAt (l : StatefulLines) (room : UInt64 → Period → UInt64) (i : Install) (tx : Otxn) (now : UInt64)
    (st : HookState) : Except Exit Period := do
  policeAt l.notPayment l.accountRead l.incoming i tx
  let pol ← readPolicyAt l i
  let amount ← readAmountAt l.native l.cap tx pol.lim
  let p ← readPeriodAt l.corrupt st now pol.per
  require (amount ≤ room pol.plm p) "over period budget" l.budget
  checkDestinationAt 20 l.destRead l.destination i tx
  return ⟨p.periodStart, p.spent + amount⟩

/-- A stateful guardrail with its lines and the room it leaves in a period. -/
def statefulHook (l : StatefulLines) (room : UInt64 → Period → UInt64) (i : Install) (tx : Otxn) (now : UInt64)
    (st : HookState) : Exit × HookState :=
  match hookChecksAt l room i tx now st with
  | .error e => (e, st)
  | .ok p => (.accept "within policy" l.within, st.set skey p.encode)

/-- The lines of `agent_guardrail_stateful.c`. -/
def agentGuardrailStatefulLines : StatefulLines :=
  { notPayment := 55, accountRead := 59, incoming := 67, lim := 74, plm := 80, badPer := 94, perZero := 97,
    native := 101, cap := 105, corrupt := 133, budget := 142, destRead := 149, destination := 155, commit := 163,
    within := 165 }

/-- The stateful Hook is the body with its own lines and headroom. -/
theorem hook_eq_statefulHook : hook = statefulHook agentGuardrailStatefulLines remaining := rfl

end Xahc.Guardrail

/-
The refutation twins against the Hooks they are twins of: on which payments a twin decides differently, whether its defect
lets an over-limit payment out at all, and how much the twin without a budget lets out at one ledger.
-/
import Xahc.Guardrail.Budget
import Xahc.Guardrail.Twins

namespace Xahc.Guardrail

open Xahc.Data

/-! ## The truncated comparison -/

/-- An outgoing native payment that meets everything but the cap. -/
structure Unlimited (i : Install) (tx : Otxn) (limit amount : UInt64) : Prop where
  outgoing : Outgoing i tx
  lim : ∃ b, i.params limKey = some b ∧ b.length = 8 ∧ be64 b = limit
  native : xahcOtxnDrops tx = (amount.toNat : Int)
  destination : DestinationUpTo 20 i tx

theorem Allowed.unlimited {under : UInt64 → UInt64 → Bool} {i : Install} {tx : Otxn} {limit amount : UInt64}
    (h : Allowed under 20 i tx limit amount) : Unlimited i tx limit amount :=
  ⟨h.outgoing, h.lim, h.native, h.destination⟩

theorem not_passedThrough {i : Install} {tx : Otxn} (h : Outgoing i tx) : ¬PassedThrough i tx := by
  obtain ⟨htt, hacc⟩ := h
  rintro (hne | ⟨b, hb, -, hne⟩)
  · exact hne htt
  · exact hne (Option.some.inj (hb.symm.trans hacc))

/-- The installed cap and the amount of a payment are determined. -/
theorem Unlimited.unique {i : Install} {tx : Otxn} {limit amount limit' amount' : UInt64}
    (h : Unlimited i tx limit amount) (h' : Unlimited i tx limit' amount') : limit = limit' ∧ amount = amount' := by
  obtain ⟨b, hb, -, rfl⟩ := h.lim
  obtain ⟨b', hb', -, rfl⟩ := h'.lim
  obtain rfl : b = b' := Option.some.inj (hb.symm.trans hb')
  have hamount := h.native.symm.trans h'.native
  exact ⟨rfl, UInt64.toNat_inj.1 (by omega)⟩

/-- Where only the cap is left to check, its comparison decides. -/
theorem accepts_unlimited {l : Lines} {under : UInt64 → UInt64 → Bool} {i : Install} {tx : Otxn} {limit amount : UInt64}
    (h : Unlimited i tx limit amount) : (agentHook l under 20 i tx).accepts = under amount limit := by
  have hiff : (agentHook l under 20 i tx).accepts = true ↔ under amount limit = true := by
    rw [agentHook_accepts (le_refl 20), or_iff_right (not_passedThrough h.outgoing)]
    constructor
    · rintro ⟨limit', amount', h'⟩
      obtain ⟨rfl, rfl⟩ := h.unique h'.unlimited
      exact h'.cap
    · intro hcap
      exact ⟨limit, amount, h.outgoing, h.lim, h.native, hcap, h.destination⟩
  exact Bool.eq_iff_iff.2 hiff

/-- Elsewhere the comparison does not matter. -/
theorem accepts_not_unlimited {l l' : Lines} {under under' : UInt64 → UInt64 → Bool} {i : Install} {tx : Otxn}
    (h : ¬∃ limit amount, Unlimited i tx limit amount) :
    (agentHook l under 20 i tx).accepts = (agentHook l' under' 20 i tx).accepts := by
  have hnone (v : UInt64 → UInt64 → Bool) : ¬∃ limit amount, Allowed v 20 i tx limit amount := by
    rintro ⟨limit, amount, hallowed⟩
    exact h ⟨limit, amount, hallowed.unlimited⟩
  apply Bool.eq_iff_iff.2
  rw [agentHook_accepts (le_refl 20), agentHook_accepts (le_refl 20), or_iff_left (hnone under), or_iff_left (hnone under')]

/-- A native payment of the account itself, to the locked destination where there is one. -/
def payment (i : Install) (amount : UInt64) : Otxn where
  tt := ttPAYMENT
  drops := amount
  account := i.me
  destination := (i.params dstKey).elim i.me fun d => if h : d.length = 20 then ⟨d, h⟩ else i.me

theorem payment_unlimited {i : Install} {limit : UInt64} (amount : UInt64)
    (hlim : ∃ b, i.params limKey = some b ∧ b.length = 8 ∧ be64 b = limit) (hamount : amount.toNat < 2 ^ 62) :
    Unlimited i (payment i amount) limit amount where
  outgoing := ⟨rfl, rfl⟩
  lim := hlim
  native := by
    rw [drops_of_nativeAmount rfl]
    show ((amount.toNat % 2 ^ 62 : Nat) : Int) = _
    rw [Nat.mod_eq_of_lt hamount]
  destination := by
    intro d hd hlen
    have hdest : (payment i amount).destination = ⟨d, hlen⟩ := by
      simp [payment, hd, hlen]
    refine ⟨d, ?_, hlen, rfl⟩
    show some (payment i amount).destination.1 = some d
    rw [hdest]

/-- The twin with the truncated comparison decides differently from `agentGuardrail.c` on exactly the payments that meet
everything but the cap and whose low halves compare otherwise than the amount and the cap do; and it lets some payment out
above the cap just where the cap leaves room for one in the 62 bits of native drops. -/
theorem agent_guardrail_BUG_leaks (i : Install) :
    (∀ tx, (agentGuardrailBUG i tx).accepts ≠ (agentGuardrail i tx).accepts ↔
      ∃ limit amount, Unlimited i tx limit amount ∧
        ¬(amount.toNat % 2 ^ 32 ≤ limit.toNat % 2 ^ 32 ↔ amount ≤ limit)) ∧
    ∀ limit, (∃ b, i.params limKey = some b ∧ b.length = 8 ∧ be64 b = limit) →
      ((∃ tx amount, Unlimited i tx limit amount ∧ limit < amount ∧ (agentGuardrailBUG i tx).accepts = true) ↔
        limit.toNat < 2 ^ 62 - 2 ^ 32) := by
  have hlow (x y : UInt64) : decide (x.toUInt32 ≤ y.toUInt32) = true ↔ x.toNat % 2 ^ 32 ≤ y.toNat % 2 ^ 32 := by
    rw [decide_eq_true_eq, UInt32.le_iff_toNat_le, UInt64.toNat_toUInt32, UInt64.toNat_toUInt32]
  refine ⟨fun tx => ?_, fun limit hlim => ?_⟩
  · constructor
    · intro hdiff
      by_cases h : ∃ limit amount, Unlimited i tx limit amount
      · obtain ⟨limit, amount, h⟩ := h
        refine ⟨limit, amount, h, fun hiff => hdiff ?_⟩
        rw [agentGuardrailBUG, agentGuardrail, accepts_unlimited h, accepts_unlimited h]
        exact Bool.eq_iff_iff.2 ((hlow amount limit).trans (hiff.trans decide_eq_true_iff.symm))
      · exact absurd (accepts_not_unlimited h) hdiff
    · rintro ⟨limit, amount, h, hdiff⟩ hsame
      rw [agentGuardrailBUG, agentGuardrail, accepts_unlimited h, accepts_unlimited h] at hsame
      exact hdiff ((hlow amount limit).symm.trans ((Bool.eq_iff_iff.1 hsame).trans decide_eq_true_iff))
  · constructor
    · rintro ⟨tx, amount, h, hover, haccepts⟩
      rw [agentGuardrailBUG, accepts_unlimited h] at haccepts
      have hlo := (hlow amount limit).1 haccepts
      have hover := UInt64.lt_iff_toNat_lt.1 hover
      obtain ⟨b, hb, hlen, hnat⟩ := native_of_drops (by rw [h.native]; omega)
      have hdrops := drops_of_native hb hlen hnat
      rw [h.native] at hdrops
      omega
    · intro hroom
      -- the next multiple of 2 ^ 32 above the cap has a low half of zero
      have hlt : (limit.toNat / 2 ^ 32 + 1) * 2 ^ 32 < 2 ^ 62 := by omega
      have hvalue : (UInt64.ofNat ((limit.toNat / 2 ^ 32 + 1) * 2 ^ 32)).toNat = (limit.toNat / 2 ^ 32 + 1) * 2 ^ 32 :=
        UInt64.toNat_ofNat_of_lt' (hlt.trans (by decide))
      have h := payment_unlimited _ hlim (by rw [hvalue]; exact hlt)
      refine ⟨_, _, h, ?_, ?_⟩
      · rw [UInt64.lt_iff_toNat_lt, hvalue]
        omega
      · rw [agentGuardrailBUG, accepts_unlimited h, hlow, hvalue]
        omega

theorem agent_guardrail_BUG_leaks_small : ∃ tx amount, Unlimited smallInstall tx 5 amount ∧ 5 < amount ∧
    (agentGuardrailBUG smallInstall tx).accepts = true :=
  ((agent_guardrail_BUG_leaks smallInstall).2 5 ⟨_, smallInstall_installed.lim.choose_spec⟩).2 (by decide)

/-! ## The truncated destination loop -/

/-- The twin whose destination loop stops early decides differently from `agentGuardrail.c` on exactly the payments within
the cap whose destination shares its first 4 bytes with the lock and is another one. -/
theorem agent_guardrail_dstBUG_differs (i : Install) (tx : Otxn) :
    (agentGuardrailDstBUG i tx).accepts ≠ (agentGuardrail i tx).accepts ↔
      ∃ d b, i.params dstKey = some d ∧ d.length = 20 ∧ tx.field sfDestination = some b ∧ b.length = 20 ∧ b ≠ d ∧
        b.take 4 = d.take 4 ∧ ∃ limit amount, Outgoing i tx ∧
          (∃ l, i.params limKey = some l ∧ l.length = 8 ∧ be64 l = limit) ∧
          xahcOtxnDrops tx = (amount.toNat : Int) ∧ amount ≤ limit := by
  have hshort : (agentGuardrailDstBUG i tx).accepts = true ↔ _ := agentHook_accepts (by decide)
  have hfull : (agentGuardrail i tx).accepts = true ↔ _ := agentHook_accepts (le_refl 20)
  -- whoever passes the whole comparison passes the start of it
  have hweaken : (agentGuardrail i tx).accepts = true → (agentGuardrailDstBUG i tx).accepts = true := by
    intro h
    rw [hshort]
    refine (hfull.1 h).imp_right ?_
    rintro ⟨limit, amount, hout, hlim, hnat, hcap, hdest⟩
    refine ⟨limit, amount, hout, hlim, hnat, hcap, fun d hd hlen => ?_⟩
    obtain ⟨b, hb, hblen, htake⟩ := hdest d hd hlen
    have h4 := congrArg (List.take 4) htake
    rw [List.take_take, List.take_take] at h4
    exact ⟨b, hb, hblen, h4⟩
  constructor
  · intro hdiff
    have hnot : ¬(agentGuardrail i tx).accepts = true := fun h => hdiff ((hweaken h).trans h.symm)
    have hyes : (agentGuardrailDstBUG i tx).accepts = true := by
      by_contra h
      exact hdiff ((Bool.eq_false_iff.2 h).trans (Bool.eq_false_iff.2 hnot).symm)
    rcases hshort.1 hyes with hpass | ⟨limit, amount, hout, hlim, hnat, hcap, hdest⟩
    · exact absurd (hfull.2 (.inl hpass)) hnot
    by_contra hnone
    refine hnot (hfull.2 (.inr ⟨limit, amount, hout, hlim, hnat, hcap, fun d hd hlen => ?_⟩))
    obtain ⟨b, hb, hblen, htake⟩ := hdest d hd hlen
    by_cases hbd : b = d
    · exact ⟨b, hb, hblen, by rw [hbd]⟩
    · exact absurd ⟨d, b, hd, hlen, hb, hblen, hbd, htake, limit, amount, hout, hlim, hnat, of_decide_eq_true hcap⟩ hnone
  · rintro ⟨d, b, hd, hlen, hb, hblen, hne, htake, limit, amount, hout, hlim, hnat, hcap⟩ hsame
    have hyes : (agentGuardrailDstBUG i tx).accepts = true := by
      refine hshort.2 (.inr ⟨limit, amount, hout, hlim, hnat, decide_eq_true hcap, fun d' hd' _ => ?_⟩)
      obtain rfl : d = d' := Option.some.inj (hd.symm.trans hd')
      exact ⟨b, hb, hblen, htake⟩
    rw [hsame, hfull, or_iff_right (not_passedThrough hout)] at hyes
    obtain ⟨_, _, hallowed⟩ := hyes
    obtain ⟨b', hb', -, htake'⟩ := hallowed.destination d hd hlen
    obtain rfl : b = b' := Option.some.inj (hb.symm.trans hb')
    rw [List.take_of_length_le hblen.le, List.take_of_length_le hlen.le] at htake'
    exact hne htake'

/-! ## The budget that forgets -/

/-- What the payments add up to. -/
def total (txs : List Otxn) : Nat := (txs.map fun tx => (xahcOtxnDrops tx).toNat).sum

/-- The budget slot is empty, or holds a period. -/
def Readable (st : HookState) : Prop := st skey = none ∨ ∃ q : Period, st skey = some q.encode

theorem Readable.period {st : HookState} (h : Readable st) (now per : UInt64) : ∃ p, readPeriod st now per = .ok p := by
  rcases h with h | ⟨q, hq⟩
  · exact ⟨⟨now, 0⟩, readPeriod_ok.2 (.inr ⟨.inl h, rfl⟩)⟩
  · exact ⟨_, readPeriod_ok.2 (.inl ⟨_, hq, Period.encode_length q, rfl⟩)⟩

end Xahc.Guardrail

/-
What the guardrail Hook refuses to run without: exactly which parameters and stored values let an
outgoing payment through although a parameter or the state is not as the contract asks.
-/
import Xahc.Guardrail.Hook

namespace Xahc.Guardrail

open Xahc.Data

/-- The contract of an accepted outgoing payment: required parameters present at their lengths and
`PER` positive, the budget slot absent or 16 bytes, and a present `DST` the payment's destination. -/
structure FailClosed (i : Install) (st : HookState) (tx : Otxn) : Prop where
  lim : ∃ b, i.params limKey = some b ∧ b.length = 8
  plm : ∃ b, i.params plmKey = some b ∧ b.length = 8
  per : ∃ b, i.params perKey = some b ∧ (b.length = 4 ∨ b.length = 8) ∧ 0 < beNat b
  state : ∀ b, st skey = some b → b.length = 16
  dst : ∀ d, i.params dstKey = some d → tx.field sfDestination = some d

/-- Parameters the Hook can take a policy from. -/
def TakesPolicy (i : Install) : Prop := ∃ pol, Installed i pol

/-- A stored value shorter than the layout, the one kind the Hook rolls back on. -/
def ShortState (st : HookState) : Prop := ∃ b, st skey = some b ∧ b.length < 16

/-- Neither the state nor `DST` overruns or misses the length the Hook compares with. -/
structure WellSized (i : Install) (st : HookState) : Prop where
  state : ∀ b, st skey = some b → b.length ≤ 16
  dst : ∀ d, i.params dstKey = some d → d.length = 20

theorem perBytes_pos {b : Bytes} {v : UInt64} (h : PerBytes b v) : 0 < v ↔ 0 < beNat b := by
  rw [UInt64.lt_iff_toNat_lt]
  rcases h with ⟨hlen, rfl⟩ | ⟨hlen, rfl⟩
  · rw [be64_toNat hlen]; rfl
  · rw [be32_toNat hlen]; rfl

/-- On well-sized state and `DST`, whatever is spent is spent under the contract. -/
theorem failClosed_of_spends {i : Install} {tx : Otxn} {now : UInt64} {st : HookState} {pol : Policy}
    {amount : UInt64} {p : Period} (hw : WellSized i st) (h : Spends i tx now st pol amount p) :
    FailClosed i st tx := by
  obtain ⟨lim, hlim, hlim8, -⟩ := h.installed.lim
  obtain ⟨plm, hplm, hplm8, -⟩ := h.installed.plm
  obtain ⟨per, hper, hbytes, hpos⟩ := h.installed.per
  refine ⟨⟨lim, hlim, hlim8⟩, ⟨plm, hplm, hplm8⟩, ⟨per, hper, ?_, (perBytes_pos hbytes).mp hpos⟩, ?_, ?_⟩
  · rcases hbytes with ⟨hl, -⟩ | ⟨hl, -⟩
    · exact Or.inr hl
    · exact Or.inl hl
  · intro b hb
    rcases readPeriod_ok.mp h.period with ⟨b', hb', hlen, -⟩ | ⟨hnone | ⟨b', hb', hlong⟩, -⟩
    · rw [hb] at hb'; cases hb'; exact hlen
    · rw [hb] at hnone; cases hnone
    · rw [hb] at hb'; cases hb'
      exact absurd (hw.state b hb) (by omega)
  · intro d hd
    exact h.destination d hd (hw.dst d hd)

/-! ## The payment of nothing -/

/-- An outgoing payment of zero drops to `dest`. -/
def zeroPayment (i : Install) (dest : AccountID) : Otxn := ⟨ttPAYMENT, 0, i.me, dest, fun _ => none⟩

theorem zeroPayment_outgoing (i : Install) (dest : AccountID) : Outgoing i (zeroPayment i dest) := ⟨rfl, rfl⟩

theorem zeroPayment_drops (i : Install) (dest : AccountID) : xahcOtxnDrops (zeroPayment i dest) = 0 := by
  have served : (zeroPayment i dest).field sfAmount = some (nativeAmount (zeroPayment i dest).drops) := rfl
  exact drops_of_nativeAmount served

/-- Wherever the Hook finds a policy and no short state, it lets a payment of nothing to the locked
destination through. -/
theorem zeroPayment_spends {i : Install} {st : HookState} {pol : Policy} (hpol : Installed i pol)
    (hst : ¬ShortState st) {dest : AccountID}
    (hdest : ∀ d, i.params dstKey = some d → d.length = 20 → d = dest.1) (now : UInt64) :
    ∃ p, Spends i (zeroPayment i dest) now st pol 0 p := by
  have readable : ∃ p, readPeriod st now pol.per = .ok p := by
    cases hs : st skey with
    | none => exact ⟨_, readPeriod_ok.mpr (Or.inr ⟨Or.inl hs, rfl⟩)⟩
    | some b =>
      have hlen : 16 ≤ b.length := not_lt.mp fun hlt => hst ⟨b, hs, hlt⟩
      rcases hlen.eq_or_lt with heq | hlt
      · exact ⟨_, readPeriod_ok.mpr (Or.inl ⟨b, hs, heq.symm, rfl⟩)⟩
      · exact ⟨_, readPeriod_ok.mpr (Or.inr ⟨Or.inr ⟨b, hs, hlt⟩, rfl⟩)⟩
  obtain ⟨p, hp⟩ := readable
  refine ⟨p, zeroPayment_outgoing i dest, hpol, ?_, ?_, hp, ?_, ?_⟩
  · rw [zeroPayment_drops]; rfl
  · exact UInt64.le_iff_toNat_le.mpr (Nat.zero_le _)
  · exact UInt64.le_iff_toNat_le.mpr (Nat.zero_le _)
  · intro d hd hlen
    rw [hdest d hd hlen]
    rfl

/-- Some destination agrees with `DST` wherever the Hook compares with it, and differs from it
wherever it does not. -/
theorem exists_destination (i : Install) :
    ∃ dest : AccountID, ∀ d, i.params dstKey = some d → (d.length = 20 ↔ d = dest.1) := by
  cases hd : i.params dstKey with
  | none => exact ⟨i.me, by simp⟩
  | some d =>
    by_cases hlen : d.length = 20
    · refine ⟨⟨d, hlen⟩, ?_⟩
      rintro _ ⟨⟩
      simp [hlen]
    · refine ⟨i.me, ?_⟩
      rintro _ ⟨⟩
      refine ⟨fun h => absurd h hlen, ?_⟩
      rintro rfl
      exact absurd i.me.2 hlen

/-! ## Exactly when the Hook fails closed -/

/-- The Hook keeps its contract on every outgoing payment exactly where it takes no policy, where the
state is short, or where neither the state nor `DST` has a length it mistakes for an absent one. -/
theorem hook_failClosed_iff (i : Install) (st : HookState) :
    (∀ tx now, Outgoing i tx → (hook i tx now st).1.accepts = true → FailClosed i st tx) ↔
      ¬TakesPolicy i ∨ ShortState st ∨ WellSized i st := by
  constructor
  · intro hall
    by_contra hnot
    obtain ⟨⟨pol, hpol⟩, hst, hw⟩ : TakesPolicy i ∧ ¬ShortState st ∧ ¬WellSized i st := by
      simpa [not_or] using hnot
    obtain ⟨dest, hdest⟩ := exists_destination i
    obtain ⟨p, hs⟩ := zeroPayment_spends hpol hst (fun d hd => (hdest d hd).mp) 0
    have hout := zeroPayment_outgoing i dest
    have hf := hall _ 0 hout ((hook_accepts_iff hout).mpr ⟨pol, 0, p, hs⟩)
    refine hw ⟨fun b hb => (hf.state b hb).le, fun d hd => (hdest d hd).mpr ?_⟩
    have := hf.dst d hd
    exact (Option.some.inj this).symm
  · rintro hcond tx now hout hacc
    obtain ⟨pol, amount, p, hs⟩ := (hook_accepts_iff hout).mp hacc
    rcases hcond with hno | ⟨b, hb, hshort⟩ | hw
    · exact absurd ⟨pol, hs.installed⟩ hno
    · rcases readPeriod_ok.mp hs.period with ⟨b', hb', hlen, -⟩ | ⟨hnone | ⟨b', hb', hlong⟩, -⟩
      · rw [hb] at hb'; cases hb'; omega
      · rw [hb] at hnone; cases hnone
      · rw [hb] at hb'; cases hb'; omega
    · exact failClosed_of_spends hw hs

/-! A 17-byte value under the budget slot reads as `TOO_SMALL`, and a 21-byte `DST` as no lock. -/

/-- LIM and PLM of 10 drops, PER of 5 ledgers, and a `DST` of 21 bytes. -/
def oversizeInstall : Install where
  me := AccountID.filled 0xAA
  params key :=
    if key = limKey ∨ key = plmKey then some (wr64 10)
    else if key = perKey then some [0, 0, 0, 5]
    else if key = dstKey then some (List.replicate 21 0xBB)
    else none

/-- A budget slot with 17 bytes. -/
def oversizeState : HookState := fun key => if key = skey then some (List.replicate 17 0xFF) else none

/-- A payment of 7 drops. -/
def oversizePayment : Otxn where
  tt := ttPAYMENT
  drops := 7
  account := AccountID.filled 0xAA
  destination := AccountID.filled 0xCC

theorem hook_accepts_oversize :
    Outgoing oversizeInstall oversizePayment ∧
      (hook oversizeInstall oversizePayment 1000000 oversizeState).1 = .accept "within policy" 165 ∧
      ¬FailClosed oversizeInstall oversizeState oversizePayment := by
  refine ⟨⟨rfl, by decide⟩, by decide, fun h => ?_⟩
  have := h.state (List.replicate 17 0xFF) (by decide)
  simp at this

end Xahc.Guardrail

/-
Runs of the guardrail Hook: over any sequence of transactions at nondecreasing ledgers, what is
spent stays under both caps, the stored total is the exact sum of the period's payments, and a
window of one period length never sees more than two period budgets.
-/
import Xahc.Guardrail.Hook

namespace Xahc.Guardrail

open Xahc.Data

/-! ## Payments over ledgers -/

/-- An accepted outgoing payment: its ledger and its drops. -/
structure Paid where
  ledger : Nat
  amount : Nat
  deriving DecidableEq, Repr

/-- What was paid from ledger `lo` up to, not including, ledger `hi`. -/
def paidBetween (paid : List Paid) (lo hi : Nat) : Nat :=
  ((paid.filter fun p => lo ≤ p.ledger ∧ p.ledger < hi).map Paid.amount).sum

/-- What was paid from ledger `lo` on. -/
def paidSince (paid : List Paid) (lo : Nat) : Nat :=
  ((paid.filter fun p => lo ≤ p.ledger).map Paid.amount).sum

theorem paidBetween_append (xs ys : List Paid) (lo hi : Nat) :
    paidBetween (xs ++ ys) lo hi = paidBetween xs lo hi + paidBetween ys lo hi := by
  simp [paidBetween]

theorem paidSince_append (xs ys : List Paid) (lo : Nat) :
    paidSince (xs ++ ys) lo = paidSince xs lo + paidSince ys lo := by
  simp [paidSince]

@[simp] theorem paidBetween_single (p : Paid) (lo hi : Nat) :
    paidBetween [p] lo hi = if lo ≤ p.ledger ∧ p.ledger < hi then p.amount else 0 := by
  unfold paidBetween
  by_cases h : lo ≤ p.ledger ∧ p.ledger < hi <;> simp [h]

@[simp] theorem paidSince_single (p : Paid) (lo : Nat) :
    paidSince [p] lo = if lo ≤ p.ledger then p.amount else 0 := by
  unfold paidSince
  by_cases h : lo ≤ p.ledger <;> simp [h]

theorem paidBetween_le_since (paid : List Paid) {a lo : Nat} (hi : Nat) (h : a ≤ lo) :
    paidBetween paid lo hi ≤ paidSince paid a := by
  induction paid with
  | nil => simp [paidBetween, paidSince]
  | cons p paid ih =>
    rw [← List.singleton_append, paidBetween_append, paidSince_append]
    have : paidBetween [p] lo hi ≤ paidSince [p] a := by
      simp only [paidBetween_single, paidSince_single]
      split <;> split <;> omega
    omega

theorem paidBetween_split (paid : List Paid) (lo mid hi : Nat) :
    paidBetween paid lo hi ≤ paidBetween paid lo mid + paidSince paid mid := by
  induction paid with
  | nil => simp [paidBetween, paidSince]
  | cons p paid ih =>
    rw [← List.singleton_append, paidBetween_append, paidBetween_append, paidSince_append]
    have : paidBetween [p] lo hi ≤ paidBetween [p] lo mid + paidSince [p] mid := by
      simp only [paidBetween_single, paidSince_single]
      split <;> split <;> split <;> omega
    omega

theorem paidSince_eq_zero {paid : List Paid} {lo : Nat} (h : ∀ p ∈ paid, p.ledger < lo) :
    paidSince paid lo = 0 := by
  unfold paidSince
  rw [List.filter_eq_nil_iff.mpr fun p hp => by simpa using h p hp]
  rfl

/-! ## Runs -/

/-- A transaction that reaches the Hook, and the ledger it runs at. -/
structure Event where
  now : UInt64
  tx : Otxn

instance (i : Install) (tx : Otxn) : Decidable (Outgoing i tx) :=
  inferInstanceAs (Decidable (_ ∧ _))

/-- The Hook lets an outgoing payment through. -/
def Lets (i : Install) (st : HookState) (e : Event) : Prop :=
  Outgoing i e.tx ∧ (hook i e.tx e.now st).1.accepts = true

instance (i : Install) (st : HookState) (e : Event) : Decidable (Lets i st e) :=
  inferInstanceAs (Decidable (_ ∧ _))

/-- The state of the Hook with the outgoing payments it let through so far. -/
structure Ledger where
  st : HookState
  paid : List Paid

/-- An event, and the payment it let out. -/
def Ledger.step (i : Install) (l : Ledger) (e : Event) : Ledger where
  st := (hook i e.tx e.now l.st).2
  paid := if Lets i l.st e then l.paid ++ [⟨e.now.toNat, (xahcOtxnDrops e.tx).toNat⟩] else l.paid

/-- Events one after the other. -/
def Ledger.run (i : Install) (l : Ledger) (es : List Event) : Ledger := es.foldl (Ledger.step i) l

/-- No payment yet, on a namespace without a budget slot. -/
def Ledger.Fresh (l : Ledger) : Prop := l.st skey = none ∧ l.paid = []

/-- The stored period accounts for the payments made by ledger `clock`: its total is exactly what was
paid since its start, and under the cap; no payment lies past its reach; and what was paid before its
start but less than one period length earlier is under the cap too. -/
structure Tracks (pol : Policy) (clock : Nat) (paid : List Paid) (q : Period) : Prop where
  start : q.periodStart.toNat ≤ clock
  exact : q.spent.toNat = paidSince paid q.periodStart.toNat
  under : q.spent ≤ pol.plm
  reach : ∀ p ∈ paid, p.ledger < q.periodStart.toNat + pol.per.toNat
  before : ∀ w, q.periodStart.toNat < w + pol.per.toNat →
    paidBetween paid w q.periodStart.toNat ≤ pol.plm.toNat

/-- The budget invariant at ledger `clock`. -/
structure WithinBudget (pol : Policy) (clock : Nat) (l : Ledger) : Prop where
  capped : ∀ p ∈ l.paid, p.amount ≤ pol.lim.toNat
  stored : (l.st skey = none ∧ l.paid = []) ∨ ∃ q : Period, l.st skey = some q.encode ∧ Tracks pol clock l.paid q
  windows : ∀ w, paidBetween l.paid w (w + pol.per.toNat) ≤ 2 * pol.plm.toNat

theorem WithinBudget.mono {pol : Policy} {c c' : Nat} {l : Ledger} (h : WithinBudget pol c l) (hc : c ≤ c') :
    WithinBudget pol c' l := by
  refine ⟨h.capped, ?_, h.windows⟩
  rcases h.stored with hs | ⟨q, hq, ht⟩
  · exact Or.inl hs
  · exact Or.inr ⟨q, hq, ht.start.trans hc, ht.exact, ht.under, ht.reach, ht.before⟩

theorem withinBudget_fresh {pol : Policy} {l : Ledger} (h : l.Fresh) : WithinBudget pol 0 l := by
  obtain ⟨hst, hpaid⟩ := h
  refine ⟨?_, Or.inl ⟨hst, hpaid⟩, ?_⟩
  · simp [hpaid]
  · simp [hpaid, paidBetween]

/-! ## What a payment spends from -/

/-- The stored period is spent from only inside its reach. -/
theorem roll_cases {q : Period} {now : UInt64} (per : UInt64) (h : q.periodStart ≤ now) :
    (q.roll now per = q ∧ now.toNat < q.periodStart.toNat + per.toNat) ∨
      (q.roll now per = ⟨now, 0⟩ ∧ q.periodStart.toNat + per.toNat ≤ now.toNat) := by
  have hle := UInt64.le_iff_toNat_le.mp h
  have hsub : (now - q.periodStart).toNat = now.toNat - q.periodStart.toNat := UInt64.toNat_sub_of_le _ _ h
  unfold Period.roll
  by_cases hroll : now < q.periodStart ∨ now - q.periodStart ≥ per
  · rw [if_pos hroll]
    rcases hroll with hlt | hge
    · exact absurd (UInt64.lt_iff_toNat_lt.mp hlt) (by omega)
    · have := UInt64.le_iff_toNat_le.mp hge
      exact Or.inr ⟨rfl, by omega⟩
  · rw [if_neg hroll]
    have hlt : now - q.periodStart < per := UInt64.not_le.mp fun hge => hroll (Or.inr hge)
    have := UInt64.lt_iff_toNat_lt.mp hlt
    exact Or.inl ⟨rfl, by omega⟩

/-- An amount within the headroom adds up without wrapping. -/
theorem add_within {plm amount : UInt64} {p : Period} (hp : p.spent ≤ plm) (h : amount ≤ remaining plm p) :
    (p.spent + amount).toNat = p.spent.toNat + amount.toNat ∧
      p.spent.toNat + amount.toNat ≤ plm.toNat := by
  rw [remaining, if_pos hp] at h
  have hsum : p.spent.toNat + amount.toNat ≤ plm.toNat := by
    have h1 := UInt64.le_iff_toNat_le.mp h
    have h2 := UInt64.le_iff_toNat_le.mp hp
    rw [UInt64.toNat_sub_of_le _ _ hp] at h1
    omega
  refine ⟨?_, hsum⟩
  rw [UInt64.toNat_add, Nat.mod_eq_of_lt (hsum.trans_lt plm.toNat_lt)]

/-- A period opened now tracks payments that all lie before it. -/
theorem tracks_open {pol : Policy} {now : UInt64} {paid : List Paid} (hlt : ∀ p ∈ paid, p.ledger < now.toNat)
    (hbefore : ∀ w, now.toNat < w + pol.per.toNat → paidBetween paid w now.toNat ≤ pol.plm.toNat) :
    Tracks pol now.toNat paid ⟨now, 0⟩ where
  start := le_refl _
  exact := (paidSince_eq_zero hlt).symm
  under := UInt64.le_iff_toNat_le.mpr (Nat.zero_le _)
  reach p hp := (hlt p hp).trans_le (Nat.le_add_right _ _)
  before := hbefore

/-- The period the Hook reads tracks the payments so far, and reaches past the current ledger. -/
theorem tracks_read {pol : Policy} {clock : Nat} {l : Ledger} {now : UInt64} {p : Period}
    (h : WithinBudget pol clock l) (hpos : 0 < pol.per) (hclock : clock ≤ now.toNat)
    (hread : readPeriod l.st now pol.per = .ok p) :
    Tracks pol now.toNat l.paid p ∧ now.toNat < p.periodStart.toNat + pol.per.toNat := by
  have hpos' := UInt64.lt_iff_toNat_lt.mp hpos
  have fresh : now.toNat < (⟨now, 0⟩ : Period).periodStart.toNat + pol.per.toNat :=
    Nat.lt_add_of_pos_right hpos'
  rcases h.stored with ⟨hnone, hpaid⟩ | ⟨q, hq, ht⟩
  · rcases readPeriod_ok.mp hread with ⟨b, hb, -⟩ | ⟨-, rfl⟩
    · rw [hnone] at hb; cases hb
    · exact ⟨tracks_open (by simp [hpaid]) (by simp [hpaid, paidBetween]), fresh⟩
  · rcases readPeriod_ok.mp hread with ⟨b, hb, -, rfl⟩ | ⟨hun, -⟩
    · rw [hq] at hb; cases hb
      rw [Period.decode_encode]
      have hstart : q.periodStart ≤ now := UInt64.le_iff_toNat_le.mpr (ht.start.trans hclock)
      rcases roll_cases pol.per hstart with ⟨hroll, hlive⟩ | ⟨hroll, helapsed⟩
      · rw [hroll]
        exact ⟨⟨ht.start.trans hclock, ht.exact, ht.under, ht.reach, ht.before⟩, hlive⟩
      · rw [hroll]
        refine ⟨tracks_open (fun p hp => (ht.reach p hp).trans_le helapsed) (fun w hw => ?_), fresh⟩
        -- a window that reaches the new start lies wholly after the old one
        have hafter : q.periodStart.toNat ≤ w := by omega
        have hunder := UInt64.le_iff_toNat_le.mp ht.under
        rw [ht.exact] at hunder
        exact (paidBetween_le_since l.paid now.toNat hafter).trans hunder
    · rcases hun with hnone | ⟨b, hb, hlong⟩
      · rw [hq] at hnone; cases hnone
      · rw [hq] at hb; cases hb
        simp at hlong

/-- Paying within the headroom keeps the period tracking. -/
theorem tracks_pay {pol : Policy} {now amount : UInt64} {paid : List Paid} {p : Period}
    (h : Tracks pol now.toNat paid p) (hlive : now.toNat < p.periodStart.toNat + pol.per.toNat)
    (hroom : amount ≤ remaining pol.plm p) :
    Tracks pol now.toNat (paid ++ [⟨now.toNat, amount.toNat⟩]) ⟨p.periodStart, p.spent + amount⟩ := by
  obtain ⟨hadd, hle⟩ := add_within h.under hroom
  refine ⟨h.start, ?_, ?_, ?_, ?_⟩
  · rw [hadd, h.exact, paidSince_append, paidSince_single, if_pos h.start]
  · rw [UInt64.le_iff_toNat_le, hadd]
    exact hle
  · intro x hx
    rcases List.mem_append.mp hx with hx | hx
    · exact h.reach x hx
    · rw [List.mem_singleton.mp hx]
      exact hlive
  · intro w hw
    have hstart := h.start
    rw [paidBetween_append, paidBetween_single, if_neg (by dsimp only; omega)]
    exact h.before w hw

/-- A payment at `now` falls in windows that reach the running period, and these hold at most the
previous period's total and the running one's. -/
theorem windows_pay {pol : Policy} {now : Nat} {paid : List Paid} {amount : Nat} {q : Period}
    (hold : ∀ w, paidBetween paid w (w + pol.per.toNat) ≤ 2 * pol.plm.toNat)
    (h : Tracks pol now (paid ++ [⟨now, amount⟩]) q) (w : Nat) :
    paidBetween (paid ++ [⟨now, amount⟩]) w (w + pol.per.toNat) ≤ 2 * pol.plm.toNat := by
  by_cases hw : w ≤ now ∧ now < w + pol.per.toNat
  · have hstart := h.start
    have hbefore := h.before w (by omega)
    have hunder := UInt64.le_iff_toNat_le.mp h.under
    rw [h.exact] at hunder
    have := paidBetween_split (paid ++ [⟨now, amount⟩]) w q.periodStart.toNat (w + pol.per.toNat)
    omega
  · rw [paidBetween_append, paidBetween_single, if_neg hw]
    exact hold w

/-! ## Steps and runs -/

theorem step_spends {i : Install} {l : Ledger} {e : Event} {pol : Policy} {amount : UInt64} {p : Period}
    (h : Spends i e.tx e.now l.st pol amount p) :
    l.step i e = ⟨l.st.set skey (Period.encode ⟨p.periodStart, p.spent + amount⟩),
      l.paid ++ [⟨e.now.toNat, amount.toNat⟩]⟩ := by
  have lets : Lets i l.st e := ⟨h.outgoing, (hook_accepts_iff h.outgoing).mpr ⟨pol, amount, p, h⟩⟩
  rw [Ledger.step, if_pos lets, hook_spends h, h.native, Int.toNat_natCast]

theorem lets_iff {i : Install} {st : HookState} {e : Event} :
    Lets i st e ↔ ∃ pol amount p, Spends i e.tx e.now st pol amount p := by
  constructor
  · rintro ⟨hout, hacc⟩
    exact (hook_accepts_iff hout).mp hacc
  · rintro ⟨pol, amount, p, h⟩
    exact ⟨h.outgoing, (hook_accepts_iff h.outgoing).mpr ⟨pol, amount, p, h⟩⟩

theorem step_skips {i : Install} {l : Ledger} {e : Event} (h : ¬Lets i l.st e) : l.step i e = l := by
  rw [Ledger.step, if_neg h, hook_state_of_not_spends (fun hs => h (lets_iff.mpr hs))]

theorem installed_unique {i : Install} {pol pol' : Policy} (h : Installed i pol) (h' : Installed i pol') :
    pol = pol' := by
  have := readPolicy_ok.mpr h
  rw [readPolicy_ok.mpr h'] at this
  exact (Except.ok.inj this).symm

/-- One transaction preserves the budget invariant. -/
theorem step_withinBudget {i : Install} {pol : Policy} (hpol : Installed i pol) {clock : Nat} {l : Ledger}
    {e : Event} (h : WithinBudget pol clock l) (hclock : clock ≤ e.now.toNat) :
    WithinBudget pol e.now.toNat (l.step i e) := by
  by_cases hlets : Lets i l.st e
  · obtain ⟨pol', amount, p, hs⟩ := lets_iff.mp hlets
    obtain rfl := installed_unique hpol hs.installed
    obtain ⟨-, -, -, hpos⟩ := hpol.per
    obtain ⟨htrack, hlive⟩ := tracks_read h hpos hclock hs.period
    have hpay := tracks_pay htrack hlive hs.room
    rw [step_spends hs]
    refine ⟨?_, Or.inr ⟨_, by simp, hpay⟩, windows_pay h.windows hpay⟩
    intro x hx
    rcases List.mem_append.mp hx with hx | hx
    · exact h.capped x hx
    · rw [List.mem_singleton.mp hx]
      exact UInt64.le_iff_toNat_le.mp hs.cap
  · rw [step_skips hlets]
    exact h.mono hclock

/-- The ledger of the last transaction of a run. -/
def clockAfter (es : List Event) : Nat := es.getLast?.elim 0 fun e => e.now.toNat

theorem clockAfter_le {es : List Event} {e : Event} (h : ∀ e' ∈ es, e'.now ≤ e.now) :
    clockAfter es ≤ e.now.toNat := by
  unfold clockAfter
  cases hl : es.getLast? with
  | none => exact Nat.zero_le _
  | some e' => exact UInt64.le_iff_toNat_le.mp (h e' (List.mem_of_getLast? hl))

theorem run_snoc (i : Install) (l : Ledger) (es : List Event) (e : Event) :
    l.run i (es ++ [e]) = (l.run i es).step i e := by
  simp [Ledger.run]

/-- So does a run at nondecreasing ledgers, from the last transaction backwards. -/
theorem run_withinBudget {i : Install} {pol : Policy} (hpol : Installed i pol) {l : Ledger} (hfresh : l.Fresh)
    (es : List Event) (hmono : es.Pairwise fun a b => a.now ≤ b.now) :
    WithinBudget pol (clockAfter es) (l.run i es) := by
  induction es using List.reverseRecOn with
  | nil => exact withinBudget_fresh hfresh
  | append_singleton es e ih =>
    obtain ⟨hpre, -, hle⟩ := List.pairwise_append.mp hmono
    have hclock := clockAfter_le fun e' he' => hle e' he' e (List.mem_singleton.mpr rfl)
    rw [run_snoc, show clockAfter (es ++ [e]) = e.now.toNat by simp [clockAfter]]
    exact step_withinBudget hpol (ih hpre) hclock

/-- Period-budget safety: in a run from an empty budget slot at nondecreasing ledgers, a payment the
Hook lets through is at most `LIM` and leaves a stored total that is exactly what was paid since the
stored start, and at most `PLM`; any other transaction leaves the state alone; and every window of
`PER` ledgers sees at most `2 * PLM`. -/
theorem run_budget_safe {i : Install} {pol : Policy} (hpol : Installed i pol) {l : Ledger} (hfresh : l.Fresh)
    (past : List Event) (e : Event) (hmono : (past ++ [e]).Pairwise fun a b => a.now ≤ b.now) :
    (Lets i (l.run i past).st e →
      xahcOtxnDrops e.tx ≤ (pol.lim.toNat : Int) ∧
        ∃ q : Period, (l.run i (past ++ [e])).st skey = some q.encode ∧
          q.spent.toNat = paidSince (l.run i (past ++ [e])).paid q.periodStart.toNat ∧
          q.spent.toNat ≤ pol.plm.toNat) ∧
    (¬Lets i (l.run i past).st e → (l.run i (past ++ [e])).st = (l.run i past).st) ∧
    ∀ w, paidBetween (l.run i (past ++ [e])).paid w (w + pol.per.toNat) ≤ 2 * pol.plm.toNat := by
  have hafter := run_withinBudget hpol hfresh (past ++ [e]) hmono
  refine ⟨fun hlets => ?_, fun hnot => ?_, hafter.windows⟩
  · obtain ⟨pol', amount, p, hs⟩ := lets_iff.mp hlets
    obtain rfl := installed_unique hpol hs.installed
    refine ⟨?_, ?_⟩
    · rw [hs.native]
      exact Int.ofNat_le.mpr (UInt64.le_iff_toNat_le.mp hs.cap)
    · rcases hafter.stored with ⟨-, hnil⟩ | ⟨q, hq, ht⟩
      · rw [run_snoc, step_spends hs] at hnil
        simp at hnil
      · exact ⟨q, hq, ht.exact, UInt64.le_iff_toNat_le.mp ht.under⟩
  · rw [run_snoc, step_skips hnot]

/-- LIM 5, PLM 8, PER 10: a payment of 5 drops leaves 5 spent. -/
def smallInstall : Install where
  me := AccountID.filled 0xAA
  params key :=
    if key = limKey then some (wr64 5)
    else if key = plmKey then some (wr64 8)
    else if key = perKey then some [0, 0, 0, 10]
    else none

theorem smallInstall_installed : Installed smallInstall ⟨5, 8, 10⟩ :=
  ⟨⟨_, rfl, by decide, by decide⟩, ⟨_, rfl, by decide, by decide⟩,
    ⟨[0, 0, 0, 10], rfl, Or.inr ⟨by decide, by decide⟩, by decide⟩⟩

/-- A payment of 5 drops. -/
def smallPayment : Otxn where
  tt := ttPAYMENT
  drops := 5
  account := AccountID.filled 0xAA
  destination := AccountID.filled 0xCC

theorem run_budget_safe_small :
    let l : Ledger := ⟨fun _ => none, []⟩
    let r := l.run smallInstall [⟨100, smallPayment⟩, ⟨109, smallPayment⟩]
    Lets smallInstall l.st ⟨100, smallPayment⟩ ∧ r.st skey = some (Period.encode ⟨100, 5⟩) ∧
      ∀ w, paidBetween r.paid w (w + 10) ≤ 2 * 8 :=
  ⟨by decide, by decide,
    (run_budget_safe smallInstall_installed ⟨rfl, rfl⟩ [⟨100, smallPayment⟩]
      ⟨109, smallPayment⟩ (by simp)).2.2⟩

end Xahc.Guardrail

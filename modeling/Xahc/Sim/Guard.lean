/-
The guard of the hook simulator: `_g` counts the crossings of a guard and halts the run when they exceed
the bound. C passes the bound as an unsigned number and the host reads it as a signed one.
-/
import Mathlib.Algebra.Ring.Nat
import Mathlib.Data.List.AList

namespace Xahc.Sim

/-! ## The host function -/

/-- How a run ends. -/
inductive Outcome
  | Accept (code : Int64)
  | Rollback (code : Int64)
  | Returned (code : Int64)
  | GuardViolation (id : Int32)
  deriving DecidableEq, Repr

/-- Halts the execution of the hook. -/
inductive Halt
  | halt
  deriving DecidableEq, Repr

/-- What a run keeps of its guards: how often each was crossed, and how the run ended. -/
structure GuardCtx where
  guards : AList fun _ : Int32 => UInt32 := ∅
  outcome : Option Outcome := none
  deriving DecidableEq

/-- `*c.guards.entry(id).or_insert(0)`. -/
def GuardCtx.crossed (c : GuardCtx) (id : Int32) : UInt32 := (c.guards.lookup id).getD 0

/-- The host function. The count is a `u32` and wraps around in a release build. -/
def _g (c : GuardCtx) (id max : Int32) : GuardCtx × Except Halt Int32 :=
  let count := c.crossed id + 1
  let c := { c with guards := c.guards.insert id count }
  if max > 0 ∧ count > max.toUInt32 then ({ c with outcome := some (.GuardViolation id) }, .error .halt)
  else (c, .ok 1)

/-! ## The calls of a hook -/

/-- A call `_g(id, maxiter)` as C makes it. -/
structure Crossing where
  id : UInt32
  maxiter : UInt32
  deriving DecidableEq, Repr

/-- The macro; `counter` is the value of `__COUNTER__`. -/
def XAHC_GUARD (counter maxiter : UInt32) : Crossing := ⟨0x80000000 + (counter + 1), maxiter + 1⟩

/-- The guard of an inner loop: its turns over all turns of the outer one. -/
def XAHC_GUARD_NESTED (counter innerIters outerIters : UInt32) : Crossing :=
  XAHC_GUARD counter (innerIters * outerIters)

/-- The calls of a run in their order, up to the one that halts it, and the position of that one. -/
def crossings (c : GuardCtx) : List Crossing → GuardCtx × Option Nat
  | [] => (c, none)
  | x :: xs =>
    match _g c x.id.toInt32 x.maxiter.toInt32 with
    | (c, .error .halt) => (c, some 0)
    | (c, .ok _) =>
      let r := crossings c xs
      (r.1, r.2.map (· + 1))

/-- The run halts at call `k` with a violation of guard `id`. -/
def HaltsAt (calls : List Crossing) (k : Nat) (id : UInt32) : Prop :=
  (crossings {} calls).2 = some k ∧ (crossings {} calls).1.outcome = some (.GuardViolation id.toInt32)

/-! ## Going over a bound -/

/-- How many of the first `n` calls cross the guard `id`. -/
def crossedWithin (calls : List Crossing) (n : Nat) (id : UInt32) : Nat := (calls.take n).countP (·.id = id)

/-- At call `k` the crossings of its guard, this one included, exceed its bound. -/
def Over (calls : List Crossing) (k : Nat) (x : Crossing) : Prop :=
  calls[k]? = some x ∧ x.maxiter.toNat < crossedWithin calls (k + 1) x.id

/-- Call `k` is the first to go over its bound. -/
def FirstOver (calls : List Crossing) (k : Nat) (x : Crossing) : Prop :=
  Over calls k x ∧ ∀ j < k, ∀ y, ¬Over calls j y

/-- The host notices a crossing over a bound that a signed number can hold, as long as its count has not
wrapped around. -/
def Noticed (calls : List Crossing) (k : Nat) (x : Crossing) : Prop :=
  0 < x.maxiter.toNat ∧ x.maxiter.toNat < 2 ^ 31 ∧ crossedWithin calls (k + 1) x.id < 2 ^ 32

/-! ## What the host counts -/

section
variable {calls : List Crossing} {c : GuardCtx} {n k : Nat} {x : Crossing}

theorem crossedWithin_succ (hx : calls[n]? = some x) (id : UInt32) :
    crossedWithin calls (n + 1) id = crossedWithin calls n id + if x.id = id then 1 else 0 := by
  unfold crossedWithin
  rw [List.take_add_one, hx, List.countP_append]
  by_cases hid : x.id = id <;> simp [hid]

theorem pos_toInt32 (m : UInt32) : m.toInt32 > 0 ↔ 0 < m.toNat ∧ m.toNat < 2 ^ 31 := by
  have hlt := m.toNat_lt
  have hint : m.toInt32.toInt = if 2 * m.toNat < 2 ^ 32 then (m.toNat : Int) else m.toNat - 2 ^ 32 :=
    BitVec.toInt_eq_toNat_cond m.toBitVec
  rw [gt_iff_lt, Int32.lt_iff_toInt_lt, Int32.toInt_zero, hint]
  split <;> omega

/-- The counts of a run that has made its first `n` calls without a halt. -/
structure Counted (calls : List Crossing) (n : Nat) (c : GuardCtx) : Prop where
  crossed : ∀ id : UInt32, c.crossed id.toInt32 = UInt32.ofNat (crossedWithin calls n id)
  running : c.outcome = none

/-- At call `k` the host finds the count, as a `u32`, above the bound, as a positive signed number. -/
def Trips (calls : List Crossing) (k : Nat) (x : Crossing) : Prop :=
  calls[k]? = some x ∧ x.maxiter.toInt32 > 0 ∧ x.maxiter.toNat < crossedWithin calls (k + 1) x.id % 2 ^ 32

/-- One call: a halt where it trips, else one more crossing counted. -/
theorem _g_spec (h : Counted calls n c) (hx : calls[n]? = some x) :
    (Trips calls n x ∧ (_g c x.id.toInt32 x.maxiter.toInt32).2 = .error .halt ∧
      (_g c x.id.toInt32 x.maxiter.toInt32).1.outcome = some (.GuardViolation x.id.toInt32)) ∨
    (¬Trips calls n x ∧ (_g c x.id.toInt32 x.maxiter.toInt32).2 = .ok 1 ∧
      Counted calls (n + 1) (_g c x.id.toInt32 x.maxiter.toInt32).1) := by
  have hcount : c.crossed x.id.toInt32 + 1 = UInt32.ofNat (crossedWithin calls (n + 1) x.id) := by
    rw [h.crossed, crossedWithin_succ hx, if_pos rfl, UInt32.ofNat_add]
    rfl
  have hover : c.crossed x.id.toInt32 + 1 > x.maxiter.toInt32.toUInt32 ↔
      x.maxiter.toNat < crossedWithin calls (n + 1) x.id % 2 ^ 32 := by
    rw [hcount, UInt32.toUInt32_toInt32, gt_iff_lt, UInt32.lt_iff_toNat_lt, UInt32.toNat_ofNat']
  unfold _g
  dsimp only
  split_ifs with htrip
  · exact .inl ⟨⟨hx, htrip.1, hover.1 htrip.2⟩, rfl, rfl⟩
  · refine .inr ⟨fun ht => htrip ⟨ht.2.1, hover.2 ht.2.2⟩, rfl, ?_, h.running⟩
    intro id
    rw [GuardCtx.crossed, crossedWithin_succ hx]
    by_cases hid : x.id = id
    · subst hid
      rw [AList.lookup_insert, if_pos rfl, Option.getD_some, hcount, crossedWithin_succ hx, if_pos rfl]
    · have hne : id.toInt32 ≠ x.id.toInt32 := fun heq => hid (by
        rw [← UInt32.toUInt32_toInt32 x.id, ← heq, UInt32.toUInt32_toInt32])
      rw [AList.lookup_insert_ne hne, if_neg hid, Nat.add_zero]
      exact h.crossed id

/-- A run from its `n`-th call on halts at the first call that trips. -/
theorem crossings_spec : ∀ {rest : List Crossing} {n : Nat} {c : GuardCtx}, calls.drop n = rest → Counted calls n c →
    (∀ k, (crossings c rest).2 = some k → (∃ x, Trips calls (n + k) x ∧
      (crossings c rest).1.outcome = some (.GuardViolation x.id.toInt32)) ∧ ∀ j < k, ∀ y, ¬Trips calls (n + j) y) ∧
    ((crossings c rest).2 = none → ∀ j y, ¬Trips calls (n + j) y)
  | [], n, c, hrest, _ => by
    refine ⟨fun k hk => (nomatch hk), ?_⟩
    rintro - j y hy
    have hlen := List.drop_eq_nil_iff.1 hrest
    have := (List.getElem?_eq_some_iff.1 hy.1).1
    omega
  | x :: rest, n, c, hrest, h => by
    have hx : calls[n]? = some x := by
      rw [← Nat.add_zero n, ← List.getElem?_drop, hrest]
      rfl
    have hdrop : calls.drop (n + 1) = rest := by
      rw [← List.drop_drop, hrest]
      rfl
    rw [crossings]
    -- this crossing trips its guard and ends the run, or it is counted and the rest is a run from the next one
    rcases _g_spec h hx with ⟨htrips, hres, hout⟩ | ⟨htrips, hres, hcounted⟩
    · generalize _g c x.id.toInt32 x.maxiter.toInt32 = r at *
      obtain ⟨c', res⟩ := r
      subst hres
      refine ⟨?_, fun hk => (nomatch hk)⟩
      intro k hk
      obtain rfl := Option.some.inj hk
      exact ⟨⟨x, htrips, hout⟩, fun j hj => nomatch hj⟩
    · generalize _g c x.id.toInt32 x.maxiter.toInt32 = r at *
      obtain ⟨c', res⟩ := r
      subst hres
      obtain ⟨hsome, hnone⟩ := crossings_spec hdrop hcounted
      have hfirst : ∀ {y}, ¬Trips calls (n + 0) y := fun {y} hy => by
        obtain rfl := Option.some.inj (hx.symm.trans hy.1)
        exact htrips hy
      constructor
      · intro k hk
        obtain ⟨k', hk', rfl⟩ := Option.map_eq_some_iff.1 hk
        obtain ⟨htrip, hbefore⟩ := hsome k' hk'
        refine ⟨by rwa [show n + (k' + 1) = n + 1 + k' by omega], fun j hj y => ?_⟩
        cases j with
        | zero => exact hfirst
        | succ j =>
          rw [show n + (j + 1) = n + 1 + j by omega]
          exact hbefore j (by omega) y
      · intro hk j y
        cases j with
        | zero => exact hfirst
        | succ j =>
          rw [show n + (j + 1) = n + 1 + j by omega]
          exact hnone (Option.map_eq_none_iff.1 hk) j y

/-- A run halts exactly at the first call that trips. -/
theorem haltsAt_iff {id : UInt32} : HaltsAt calls k id ↔
    ∃ x, Trips calls k x ∧ x.id = id ∧ ∀ j < k, ∀ y, ¬Trips calls j y := by
  have hstart : Counted calls 0 {} := ⟨fun id => rfl, rfl⟩
  obtain ⟨hsome, hnone⟩ := crossings_spec (List.drop_zero (l := calls)) hstart
  simp only [Nat.zero_add] at hsome hnone
  constructor
  · rintro ⟨hk, hout⟩
    obtain ⟨⟨x, htrip, hout'⟩, hbefore⟩ := hsome k hk
    rw [hout', Option.some.injEq, Outcome.GuardViolation.injEq] at hout
    refine ⟨x, htrip, ?_, hbefore⟩
    rw [← UInt32.toUInt32_toInt32 x.id, hout, UInt32.toUInt32_toInt32]
  · rintro ⟨x, htrip, rfl, hbefore⟩
    cases hk : (crossings {} calls).2 with
    | none => exact absurd htrip (hnone hk k x)
    | some k' =>
      obtain ⟨⟨y, hy, hout⟩, hbefore'⟩ := hsome k' hk
      have hkk : k' = k := by
        rcases Nat.lt_trichotomy k' k with hlt | heq | hlt
        · exact absurd hy (hbefore k' hlt y)
        · exact heq
        · exact absurd htrip (hbefore' k hlt x)
      subst hkk
      obtain rfl := Option.some.inj (htrip.1.symm.trans hy.1)
      exact ⟨hk, hout⟩

/-! ## Halting at the bound -/

/-- What trips is over its bound. -/
theorem Trips.over (h : Trips calls k x) : Over calls k x :=
  ⟨h.1, Nat.lt_of_lt_of_le h.2.2 (Nat.mod_le _ _)⟩

/-- Crossings that were counted end with one of them. -/
theorem exists_last_crossing {id : UInt32} : ∀ {n : Nat}, 0 < crossedWithin calls n id →
    ∃ j y, j < n ∧ calls[j]? = some y ∧ y.id = id ∧ crossedWithin calls (j + 1) id = crossedWithin calls n id
  | 0, h => by simp [crossedWithin] at h
  | n + 1, h => by
    cases hx : calls[n]? with
    | none =>
      have hsame : crossedWithin calls (n + 1) id = crossedWithin calls n id := by
        have hlen := List.getElem?_eq_none_iff.1 hx
        rw [crossedWithin, crossedWithin, List.take_of_length_le hlen, List.take_of_length_le (by omega)]
      obtain ⟨j, y, hj, hy, hid, hcount⟩ := exists_last_crossing (hsame ▸ h)
      exact ⟨j, y, by omega, hy, hid, by rw [hcount, hsame]⟩
    | some x =>
      by_cases hid : x.id = id
      · exact ⟨n, x, by omega, hx, hid, rfl⟩
      · have hsame : crossedWithin calls (n + 1) id = crossedWithin calls n id := by
          rw [crossedWithin_succ hx, if_neg hid, Nat.add_zero]
        obtain ⟨j, y, hj, hy, hid, hcount⟩ := exists_last_crossing (hsame ▸ h)
        exact ⟨j, y, by omega, hy, hid, by rw [hcount, hsame]⟩

/-- Until a call goes over its bound, no guard is crossed more often than a bound can say. -/
theorem FirstOver.crossed_le (h : FirstOver calls k x) : crossedWithin calls (k + 1) x.id ≤ 2 ^ 32 := by
  rw [crossedWithin_succ h.1.1, if_pos rfl]
  rcases Nat.eq_zero_or_pos (crossedWithin calls k x.id) with hzero | hpos
  · omega
  · obtain ⟨j, y, hj, hy, hid, hcount⟩ := exists_last_crossing hpos
    have hle : crossedWithin calls (j + 1) y.id ≤ y.maxiter.toNat := not_lt.1 fun hlt => h.2 j hj y ⟨hy, hlt⟩
    have hlt := y.maxiter.toNat_lt
    rw [hid, hcount] at hle
    omega

/-- The first call over its bound trips where the host notices it. -/
theorem FirstOver.trips_iff (h : FirstOver calls k x) : Trips calls k x ↔ Noticed calls k x := by
  have hle := h.crossed_le
  have hover := h.1.2
  rw [Trips, Noticed, pos_toInt32, and_assoc]
  constructor
  · rintro ⟨-, hpos, hlt, hcount⟩
    refine ⟨hpos, hlt, lt_of_le_of_ne hle fun heq => ?_⟩
    rw [heq] at hcount
    omega
  · rintro ⟨hpos, hlt, hcount⟩
    refine ⟨h.1.1, hpos, hlt, ?_⟩
    rwa [Nat.mod_eq_of_lt hcount]

/-- Where a call goes over its bound, some call is the first to do so. -/
theorem Over.exists_first (h : Over calls k x) : ∃ j y, j ≤ k ∧ FirstOver calls j y := by
  induction k using Nat.strong_induction_on generalizing x with
  | _ k ih =>
    by_cases hbefore : ∃ j y, j < k ∧ Over calls j y
    · obtain ⟨j, y, hj, hy⟩ := hbefore
      obtain ⟨i, z, hi, hz⟩ := ih j hj hy
      exact ⟨i, z, by omega, hz⟩
    · exact ⟨k, x, le_rfl, h, fun j hj y hy => hbefore ⟨j, y, hj, hy⟩⟩

end

/-- The guard is enforced: a run halts exactly at the first call that goes over its bound. -/
def Enforced (calls : List Crossing) : Prop :=
  ∀ k id, HaltsAt calls k id ↔ ∃ x, FirstOver calls k x ∧ x.id = id

/-- The guard is enforced on the runs whose first call over its bound, if there is one, is noticed. -/
theorem guard_enforced_iff (calls : List Crossing) :
    Enforced calls ↔ ∀ k x, FirstOver calls k x → Noticed calls k x := by
  constructor
  · intro h k x hx
    obtain ⟨y, hy, -⟩ := haltsAt_iff.1 ((h k x.id).2 ⟨x, hx, rfl⟩)
    obtain rfl := Option.some.inj (hy.1.symm.trans hx.1.1)
    exact hx.trips_iff.1 hy
  · intro h k id
    rw [haltsAt_iff]
    constructor
    · rintro ⟨x, htrip, hid, hbefore⟩
      obtain ⟨j, y, hj, hy⟩ := htrip.over.exists_first
      -- the first call over its bound trips, so it is this one
      have hjk : j = k := Nat.le_antisymm hj (not_lt.1 fun hlt => hbefore j hlt y (hy.trips_iff.2 (h j y hy)))
      subst hjk
      obtain rfl := Option.some.inj (htrip.1.symm.trans hy.1.1)
      exact ⟨x, hy, hid⟩
    · rintro ⟨x, hx, hid⟩
      exact ⟨x, hx.trips_iff.2 (h k x hx), hid, fun j hj y hy => hx.2 j hj y hy.over⟩

/-- A guard whose bound wraps around to zero is never enforced: `XAHC_GUARD(0xFFFFFFFF)`. -/
theorem zero_bound_not_enforced : ¬∀ calls, Enforced calls := by
  intro h
  have hfirst : FirstOver [XAHC_GUARD 0 0xFFFFFFFF] 0 (XAHC_GUARD 0 0xFFFFFFFF) :=
    ⟨⟨rfl, by decide⟩, fun j hj => nomatch hj⟩
  obtain ⟨hhalts, -⟩ := (h _ 0 _).2 ⟨_, hfirst, rfl⟩
  have hnone : (crossings {} [XAHC_GUARD 0 0xFFFFFFFF]).2 = none := by decide
  rw [hnone] at hhalts
  cases hhalts

/-- What the macro passes as the bound is one a signed number can hold. -/
theorem guard_macro_bound (counter maxiter : UInt32) :
    (0 < (XAHC_GUARD counter maxiter).maxiter.toNat ∧ (XAHC_GUARD counter maxiter).maxiter.toNat < 2 ^ 31) ↔
      maxiter.toNat + 1 < 2 ^ 31 := by
  have hlt := maxiter.toNat_lt
  have hadd : (XAHC_GUARD counter maxiter).maxiter.toNat = (maxiter.toNat + 1) % 2 ^ 32 := UInt32.toNat_add ..
  rw [hadd]
  omega

/-- Of the nested macro the product counts, as a `u32`. -/
theorem guard_nested_macro_bound (counter innerIters outerIters : UInt32) :
    (0 < (XAHC_GUARD_NESTED counter innerIters outerIters).maxiter.toNat ∧
      (XAHC_GUARD_NESTED counter innerIters outerIters).maxiter.toNat < 2 ^ 31) ↔
      innerIters.toNat * outerIters.toNat % 2 ^ 32 + 1 < 2 ^ 31 := by
  rw [XAHC_GUARD_NESTED, guard_macro_bound, UInt32.toNat_mul]

end Xahc.Sim

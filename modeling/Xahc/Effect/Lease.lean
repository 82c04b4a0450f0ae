/-
Leases: bindings of keys that expire on their own, in a store that keeps no owner. A key is bound by a
test-and-set, bound over by an upsert, or deleted whoever bound it. Deletions that each caller makes while
it still holds its own lease keep every lease its holder's.
-/
import Mathlib.Logic.Function.Basic
import Mathlib.Order.Lattice

namespace Xahc.Effect.Lease

/-- What a caller did to a key. -/
inductive Act (K T : Type)
  /-- The key was free and is now bound until `e`. -/
  | take (k : K) (e : T)
  /-- The key is bound until `e`, whatever was there. -/
  | put (k : K) (e : T)
  /-- The key is free, whatever was there. -/
  | drop (k : K)

/-- What a caller did to the lease at a time. -/
structure Entry (K T : Type) where
  caller : Nat
  time : T
  act : Act K T

/-- The latest first. -/
abbrev Log (K T : Type) := List (Entry K T)

/-- The key's expiry, where it is bound; a binding may be there after its expiry. -/
abbrev Table (K T : Type) := K → Option T

section
variable {K T : Type}

/-! ## Reading a log -/

/-- The caller that bound the key last. -/
def writer [DecidableEq K] (k : K) : Log K T → Option Nat
  | [] => none
  | ⟨i, _, .take k' _⟩ :: log | ⟨i, _, .put k' _⟩ :: log => if k' = k then some i else writer k log
  | ⟨_, _, .drop _⟩ :: log => writer k log

/-- Caller `i` took `k` until `e`, has not dropped it since, and no one has put a binding over it. -/
def Holds (i : Nat) (k : K) (e : T) : Log K T → Prop
  | [] => False
  | ⟨j, _, .take k' e'⟩ :: log => (j = i ∧ k' = k ∧ e' = e) ∨ Holds i k e log
  | ⟨_, _, .put k' _⟩ :: log => k' ≠ k ∧ Holds i k e log
  | ⟨j, _, .drop k'⟩ :: log => ¬(j = i ∧ k' = k) ∧ Holds i k e log

theorem holds_of_mem {i : Nat} {k : K} {e t : T} {log : Log K T} (hmem : ⟨i, t, .take k e⟩ ∈ log)
    (hdrop : ∀ t, ⟨i, t, .drop k⟩ ∉ log) (hput : ∀ j t e', ⟨j, t, .put k e'⟩ ∉ log) : Holds i k e log := by
  induction log with
  | nil => cases hmem
  | cons x log ih =>
    have hrest : ⟨i, t, .take k e⟩ ∈ log → Holds i k e log := fun hmem =>
      ih hmem (fun t ht => hdrop t (List.mem_cons_of_mem _ ht))
        (fun j t e' ht => hput j t e' (List.mem_cons_of_mem _ ht))
    obtain ⟨j, tj, act⟩ := x
    cases act with
    | take k' e' =>
      rcases List.mem_cons.1 hmem with heq | hmem
      · cases heq
        exact .inl ⟨rfl, rfl, rfl⟩
      · exact .inr (hrest hmem)
    | put k' e' =>
      refine ⟨fun hk => hput j tj e' (hk ▸ List.mem_cons_self), hrest ?_⟩
      simpa using hmem
    | drop k' =>
      refine ⟨fun hk => hdrop tj ?_, hrest (by simpa using hmem)⟩
      rw [← hk.1, ← hk.2]
      exact List.mem_cons_self

variable [DecidableEq K]

/-- The expiry of a lease on `k` that the entry takes for caller `i`. -/
def Entry.taken (i : Nat) (k : K) (x : Entry K T) : Option T :=
  match x.act with
  | .take k' e => if x.caller = i ∧ k' = k then some e else none
  | _ => none

theorem Holds.taken {i : Nat} {k : K} {e : T} {log : Log K T} (h : Holds i k e log) :
    ∃ x ∈ log, x.taken i k = some e := by
  induction log with
  | nil => cases h
  | cons x log ih =>
    have hrest : Holds i k e log → ∃ y ∈ x :: log, y.taken i k = some e := fun h =>
      (ih h).imp fun y hy => ⟨List.mem_cons_of_mem _ hy.1, hy.2⟩
    obtain ⟨j, tj, act⟩ := x
    cases act with
    | take k' e' =>
      rcases h with ⟨rfl, rfl, rfl⟩ | h
      · exact ⟨_, List.mem_cons_self, by simp [Entry.taken]⟩
      · exact hrest h
    | put => exact hrest h.2
    | drop => exact hrest h.2

variable [LinearOrder T]

/-- No caller drops a key after the expiry of a lease it took on it. -/
def DropsInTime : Log K T → Prop
  | [] => True
  | ⟨i, t, .drop k⟩ :: log => (∀ x ∈ log, ∀ e ∈ x.taken i k, t < e) ∧ DropsInTime log
  | _ :: log => DropsInTime log

instance decidableDropsInTime : (log : Log K T) → Decidable (DropsInTime log)
  | [] => .isTrue trivial
  | ⟨i, t, .drop k⟩ :: log =>
    have := decidableDropsInTime log
    inferInstanceAs (Decidable ((∀ x ∈ log, ∀ e ∈ x.taken i k, t < e) ∧ DropsInTime log))
  | ⟨_, _, .take ..⟩ :: log => decidableDropsInTime log
  | ⟨_, _, .put ..⟩ :: log => decidableDropsInTime log

theorem DropsInTime.of_append {log' log : Log K T} (h : DropsInTime (log' ++ log)) : DropsInTime log := by
  induction log' with
  | nil => exact h
  | cons x log' ih =>
    obtain ⟨i, t, act⟩ := x
    cases act with
    | drop k => exact ih h.2
    | _ => exact ih h

/-- Every caller that drops a key holds it then, unexpired. -/
def InTime : Log K T → Prop
  | [] => True
  | ⟨i, t, .drop k⟩ :: log => (∃ e, Holds i k e log ∧ t < e) ∧ InTime log
  | _ :: log => InTime log

/-! ## Runs -/

/-- The binding is as before, or it had expired and is gone. -/
def Fades (t : T) (x y : Option T) : Prop := y = x ∨ y = none ∧ ∃ e, x = some e ∧ e ≤ t

/-- No lease lasts beyond `t`. -/
def Free (t : T) (x : Option T) : Prop := ∀ e, x = some e → e ≤ t

/-- The table after an act at the time `t`. -/
def Follows (t : T) (m : Table K T) : Act K T → Table K T → Prop
  | .take k e, m' => Free t (m k) ∧ m' = Function.update m k (some e)
  | .put k e, m' => m' = Function.update m k (some e)
  | .drop k, m' => m' = Function.update m k none

/-- The table after an act, or after none. -/
def Becomes (t : T) (m : Table K T) : Option (Act K T) → Table K T → Prop
  | none, m' => m' = m
  | some a, m' => Follows t m a m'

/-- The time, table and log of a store. -/
inductive Run : T → Table K T → Log K T → Prop
  | init (t : T) : Run t (fun _ => none) []
  | tick {t t' m log} : t ≤ t' → Run t m log → Run t' m log
  | fade {t m m' log} : Run t m log → (∀ k, Fades t (m k) (m' k)) → Run t m' log
  | act {m m' log} (x : Entry K T) : Run x.time m log → Follows x.time m x.act m' → Run x.time m' (x :: log)

variable {t : T} {m m' : Table K T} {log : Log K T} {i j : Nat} {k : K} {e e' : T}

theorem Fades.live {x y : Option T} (h : Fades t x y) (hx : x = some e) (ht : t < e) : y = some e := by
  rcases h with rfl | ⟨-, e', he', hle⟩
  · exact hx
  · cases hx.symm.trans he'
    exact absurd hle (not_le.2 ht)

/-- While drops are in time, an unexpired lease is in the table, and its holder bound the key last. -/
theorem Run.holds (h : Run t m log) (hin : InTime log) (hh : Holds i k e log) (ht : t < e) :
    m k = some e ∧ writer k log = some i := by
  induction h generalizing i k e with
  | init => cases hh
  | tick hle _ ih => exact ih hin hh (lt_of_le_of_lt hle ht)
  | fade _ hf ih =>
    obtain ⟨hm, hw⟩ := ih hin hh ht
    exact ⟨(hf k).live hm ht, hw⟩
  | @act m m' log x hrun hfol ih =>
    obtain ⟨j, tj, act⟩ := x
    cases act with
    | take k' e' =>
      obtain ⟨hfree, rfl⟩ := hfol
      by_cases hk : k' = k
      · subst hk
        rcases hh with ⟨rfl, -, rfl⟩ | hh
        · exact ⟨Function.update_self .., by simp [writer]⟩
        · exact absurd (hfree e (ih hin hh ht).1) (not_le.2 ht)
      · have hh' : Holds i k e log := hh.resolve_left fun h => hk h.2.1
        simpa [Function.update_of_ne (Ne.symm hk), writer, hk] using ih hin hh' ht
    | put k' e' =>
      obtain rfl : m' = _ := hfol
      obtain ⟨hk, hh⟩ := hh
      simpa [Function.update_of_ne (Ne.symm hk), writer, hk] using ih hin hh ht
    | drop k' =>
      obtain rfl : m' = _ := hfol
      obtain ⟨⟨e₁, hj, hlt⟩, hin⟩ := hin
      obtain ⟨hne, hh⟩ := hh
      have hi := ih hin hh ht
      by_cases hk : k' = k
      · subst hk
        -- the caller that drops holds the same key, so it is the same caller
        have hji := (ih hin hj hlt).2.symm.trans hi.2
        exact absurd ⟨Option.some.inj hji, rfl⟩ hne
      · rw [Function.update_of_ne (Ne.symm hk)]
        exact hi

/-- Two callers never hold one key at the same time. -/
theorem Run.unique (h : Run t m log) (hin : InTime log) (hi : Holds i k e log) (hti : t < e)
    (hj : Holds j k e' log) (htj : t < e') : i = j :=
  Option.some.inj ((h.holds hin hi hti).2.symm.trans (h.holds hin hj htj).2)

/-- A key is only taken after the leases others hold on it have expired. -/
theorem Run.take_after {x : Entry K T} (h : Run t m (x :: log)) (hx : x.act = .take k e') (hin : InTime log)
    (hh : Holds i k e log) : e ≤ x.time := by
  generalize hlog : x :: log = log' at h
  induction h with
  | init => cases hlog
  | tick _ _ ih => exact ih hlog
  | fade _ _ ih => exact ih hlog
  | act y hrun hfol =>
    cases hlog
    rw [hx] at hfol
    by_contra hlt
    exact hlt (hfol.1 e (hrun.holds hin hh (not_le.1 hlt)).1)

/-- Who drops a key in time has bound it last. -/
theorem Run.drop_writer (h : Run t m log) (hin : InTime (⟨i, t, .drop k⟩ :: log)) : writer k log = some i := by
  obtain ⟨⟨e, hh, ht⟩, hin⟩ := hin
  exact (h.holds hin hh ht).2

end

end Xahc.Effect.Lease

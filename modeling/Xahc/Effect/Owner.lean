/-
Leases kept by the programs of a loop in their shared state: which operations take, put and drop, the log
of a trace, and ownership: a binding that has not expired is only ever removed by the task that bound it,
and two tasks never hold one key at the same time.
-/
import Xahc.Effect.Lease
import Xahc.Effect.Loop
import Mathlib.Order.Monotone.Defs

namespace Xahc.Effect

open Lease

variable {Op : Type} {Res : Op → Type} {σ Λ α : Type} {K T : Type} [DecidableEq K] [LinearOrder T]

/-- How the shared state of a system keeps leases. -/
structure Leasing (S : System Op Res σ Λ α) (K T : Type) [DecidableEq K] [LinearOrder T] where
  time : Nat → T
  time_mono : Monotone time
  view : σ → Table K T
  /-- What an operation that takes effect at a time, with an answer, does to the leases. -/
  act : Nat → (op : Op) → Res op → Option (Act K T)
  /-- What is asked of an operation that takes effect at a time. -/
  Proper : Nat → Op → Prop
  performs : ∀ t op c s, Proper t op → ∃ mid, (∀ k, Fades (time t) (view s k) (mid k)) ∧
    Becomes (time t) mid (act t op (S.perform t op c s).2) (view (S.perform t op c s).1)

namespace Leasing

variable {S : System Op Res σ Λ α} (L : Leasing S K T)

/-- What an event does to the lease. -/
def entry : Event Op Res Λ α → Option (Lease.Entry K T)
  | .performed i t op r => (L.act t op r).map fun a => ⟨i, L.time t, a⟩
  | _ => none

/-- What the trace did to the leases. -/
def leases (tr : Trace Op Res Λ α) : Log K T := tr.filterMap L.entry

/-- Between `w` and `w'` only the task that bound a key removes its unexpired binding, and in `w'` no two
tasks hold one key. -/
structure Ownership (w w' : World Op Res σ Λ α) : Prop where
  removed : ∀ k e, L.view w.shared k = some e → L.time w.clock < e → L.view w'.shared k = none →
    ∃ i op c, Takes (S := S) w w' i op c ∧ writer k (L.leases w.trace) = some i
  unique : ∀ i j k e e', Holds i k e (L.leases w'.trace) → L.time w'.clock < e →
    Holds j k e' (L.leases w'.trace) → L.time w'.clock < e' → i = j

variable {may : Λ → History Op Res → Op → Prop} {fin : Λ → History Op Res → α → Prop} {s₀ : σ}

/-- The operations a contract lets take effect are proper. -/
def IsProper (may : Λ → History Op Res → Op → Prop) (fin : Λ → History Op Res → α → Prop) (s₀ : σ) : Prop :=
  ∀ t s tr i op, Behaves S may fin s₀ t s tr → phase i tr = .waiting op → L.Proper t op

/-- A task that a contract lets drop a key holds it, expired or not. -/
def IsHeld (may : Λ → History Op Res → Op → Prop) (fin : Λ → History Op Res → α → Prop) (s₀ : σ) : Prop :=
  ∀ t s tr i op r k, Behaves S may fin s₀ t s tr → phase i tr = .waiting op → L.act t op r = some (.drop k) →
    ∃ e, Holds i k e (L.leases tr)

variable {L} {t : Nat} {s : σ} {tr pre post : Trace Op Res Λ α} {i j : Nat} {k : K} {e : T}

theorem entry_of_move {ev : Event Op Res Λ α} (h : ∀ i t op r, ev ≠ .performed i t op r) : L.entry ev = none := by
  cases ev with
  | performed i t op r => exact absurd rfl (h i t op r)
  | _ => rfl

theorem leases_cons_none {ev : Event Op Res Λ α} (h : L.entry ev = none) : L.leases (ev :: tr) = L.leases tr :=
  List.filterMap_cons_none h

theorem leases_cons_some {t₀ : Nat} {op : Op} {r : Res op} {a : Act K T} (h : L.act t₀ op r = some a) :
    L.leases (.performed i t₀ op r :: tr) = ⟨i, L.time t₀, a⟩ :: L.leases tr :=
  List.filterMap_cons_some (by simp [entry, h])

theorem leases_append : L.leases (post ++ pre) = L.leases post ++ L.leases pre := List.filterMap_append

theorem mem_leases {x : Lease.Entry K T} (h : x ∈ L.leases tr) :
    ∃ t₀ op r, Event.performed x.caller t₀ op r ∈ tr ∧ L.act t₀ op r = some x.act := by
  obtain ⟨ev, hev, hentry⟩ := List.mem_filterMap.1 h
  cases ev with
  | performed j t₀ op r =>
    simp only [entry, Option.map_eq_some_iff] at hentry
    obtain ⟨a, ha, rfl⟩ := hentry
    exact ⟨t₀, op, r, hev, ha⟩
  | _ => cases hentry

/-- A task holds what it took, as long as it has not dropped it and no one has put a binding over it. -/
theorem holds_leases {t₀ : Nat} {op : Op} {r : Res op} (hp : Event.performed i t₀ op r ∈ tr)
    (hact : L.act t₀ op r = some (.take k e))
    (hdrop : ∀ t op r, Event.performed i t op r ∈ tr → L.act t op r ≠ some (.drop k))
    (hput : ∀ j t op r e', Event.performed j t op r ∈ tr → L.act t op r ≠ some (.put k e')) :
    Holds i k e (L.leases tr) := by
  have hmem : ⟨i, L.time t₀, .take k e⟩ ∈ L.leases tr :=
    List.mem_filterMap.2 ⟨_, hp, by simp [entry, hact]⟩
  refine holds_of_mem hmem (fun t h => ?_) (fun j t e' h => ?_)
  · obtain ⟨t₁, op₁, r₁, hp₁, hact₁⟩ := mem_leases h
    exact hdrop _ _ _ hp₁ hact₁
  · obtain ⟨t₁, op₁, r₁, hp₁, hact₁⟩ := mem_leases h
    exact hput _ _ _ _ _ hp₁ hact₁

/-- The shared state of a run keeps the leases of its trace. -/
theorem run (hinit : L.view s₀ = fun _ => none) (hproper : L.IsProper may fin s₀) (h : Behaves S may fin s₀ t s tr) :
    Run (L.time t) (L.view s) (L.leases tr) := by
  refine h.induct (I := fun t s tr => Run (L.time t) (L.view s) (L.leases tr)) ?_ ?_ ?_ ?_
  · rw [hinit]
    exact .init _
  · exact fun t d s tr ih => .tick (L.time_mono (Nat.le_add_right _ d)) ih
  · intro e s tr hmove ih
    rwa [leases_cons_none (entry_of_move hmove)]
  · intro j t₀ op c s tr hb hphase ih
    obtain ⟨mid, hfade, hact⟩ := L.performs t₀ op c s (hproper _ _ _ _ _ hb hphase)
    cases ha : L.act t₀ op (S.perform t₀ op c s).2 with
    | none =>
      rw [ha] at hact
      rw [leases_cons_none (by simp [entry, ha]), show L.view (S.perform t₀ op c s).1 = mid from hact]
      exact ih.fade hfade
    | some a =>
      rw [ha] at hact
      rw [leases_cons_some ha]
      exact .act ⟨j, L.time t₀, a⟩ (ih.fade hfade) hact

theorem inTime (hheld : L.IsHeld may fin s₀) (h : Behaves S may fin s₀ t s tr) (hdrops : DropsInTime (L.leases tr)) :
    InTime (L.leases tr) := by
  revert hdrops
  refine h.induct (I := fun _ _ tr => DropsInTime (L.leases tr) → InTime (L.leases tr)) (fun _ => trivial)
    (fun _ _ _ _ ih => ih) ?_ ?_
  · intro ev s tr hmove ih hdrops
    rw [leases_cons_none (entry_of_move hmove)] at hdrops ⊢
    exact ih hdrops
  · intro j t₀ op c s tr hb hphase ih hdrops
    cases ha : L.act t₀ op (S.perform t₀ op c s).2 with
    | none =>
      rw [leases_cons_none (by simp [entry, ha])] at hdrops ⊢
      exact ih hdrops
    | some a =>
      rw [leases_cons_some ha] at hdrops ⊢
      cases a with
      | take k e => exact ih hdrops
      | put k e => exact ih hdrops
      | drop k =>
        -- the task holds the key, and its drop comes before the lease it took expires
        obtain ⟨e, hh⟩ := hheld _ _ _ _ _ _ _ hb hphase ha
        obtain ⟨x, hx, htaken⟩ := hh.taken
        exact ⟨⟨e, hh, hdrops.1 x hx e htaken⟩, ih hdrops.2⟩

/-- Drops are in time where each comes before the expiry of the leases its task took on the key. -/
theorem dropsInTime (hdrops : ∀ post pre i t op r k, tr = post ++ .performed i t op r :: pre →
    L.act t op r = some (.drop k) → ∀ t₀ op₀ r₀ e, Event.performed i t₀ op₀ r₀ ∈ pre →
      L.act t₀ op₀ r₀ = some (.take k e) → L.time t < e) : DropsInTime (L.leases tr) := by
  induction tr with
  | nil => trivial
  | cons ev tr ih =>
    have hrest : DropsInTime (L.leases tr) := ih fun post pre i t op r k htr =>
      hdrops (ev :: post) pre i t op r k (by rw [htr, List.cons_append])
    cases ev with
    | performed j t op r =>
      cases ha : L.act t op r with
      | none =>
        rw [leases_cons_none (by simp [entry, ha])]
        exact hrest
      | some a =>
        rw [leases_cons_some ha]
        cases a with
        | drop k =>
          refine ⟨fun x hx e he => ?_, hrest⟩
          obtain ⟨t₀, op₀, r₀, hp₀, hact₀⟩ := mem_leases hx
          obtain ⟨j', tj, act⟩ := x
          cases act with
          | take k' e' =>
            simp only [Lease.Entry.taken, Option.mem_def, Option.ite_none_right_eq_some, Option.some.injEq] at he
            obtain ⟨⟨rfl, rfl⟩, rfl⟩ := he
            exact hdrops [] tr j' t op r k' rfl ha t₀ op₀ r₀ e' hp₀ hact₀
          | _ => cases he
        | _ => exact hrest
    | _ => exact hrest

/-- Where every drop is in time, bindings have owners. -/
theorem ownership {w w' : World Op Res σ Λ α} {a : Action S} (hcode : ∀ l, Prog.Obeys (may l) (fin l) [] (S.code l))
    (hinit : L.view s₀ = fun _ => none) (hproper : L.IsProper may fin s₀) (hheld : L.IsHeld may fin s₀)
    (hw : S.Reach s₀ w) (hstep : S.step w a = some w') (hdrops : DropsInTime (L.leases w'.trace)) : L.Ownership w w' := by
  have hb := hw.behaves hcode
  have hb' := (hw.step a hstep).behaves hcode
  have hrun' := run hinit hproper hb'
  have hin' := inTime hheld hb' hdrops
  constructor
  · intro k e hlive ht hgone
    -- an entry can only go in an operation on the shared state, and of its acts only a drop of the key takes it away
    rcases System.step_shared hstep with hsame | ⟨i, op, c, htakes⟩
    · rw [hsame, hlive] at hgone
      cases hgone
    refine ⟨i, op, c, htakes, ?_⟩
    obtain ⟨before, htrace, hbefore⟩ := htakes.trace
    -- what is on the trace before the operation adds no lease
    have hquiet : L.leases (before ++ w.trace) = L.leases w.trace := by
      have hnil : before.filterMap L.entry = [] := List.filterMap_eq_nil_iff.2 fun ev hev => by
        have hne := hbefore ev hev
        cases ev with
        | performed j t op r => exact absurd rfl (hne j t op r)
        | _ => rfl
      rw [leases_append, leases, hnil, List.nil_append]
    rw [htrace] at hb' hin'
    obtain ⟨-, s', hb₁, hphase, -⟩ := hb'.inv
    obtain ⟨mid, hfade, hact⟩ := L.performs w.clock op c w.shared (hproper _ _ _ _ _ hb₁ hphase)
    have hmid := (hfade k).live hlive ht
    rw [htakes.shared] at hgone
    cases ha : L.act w.clock op (S.perform w.clock op c w.shared).2 with
    | none =>
      rw [ha] at hact
      rw [show L.view _ = mid from hact, hmid] at hgone
      cases hgone
    | some act =>
      rw [ha] at hact
      rw [leases_cons_some ha, hquiet] at hin'
      cases act with
      | take k' e' =>
        rw [show L.view _ = Function.update mid k' (some e') from hact.2] at hgone
        by_cases hk : k = k'
        · simp [hk] at hgone
        · rw [Function.update_of_ne hk, hmid] at hgone
          cases hgone
      | put k' e' =>
        rw [show L.view _ = Function.update mid k' (some e') from hact] at hgone
        by_cases hk : k = k'
        · simp [hk] at hgone
        · rw [Function.update_of_ne hk, hmid] at hgone
          cases hgone
      | drop k' =>
        rw [show L.view _ = Function.update mid k' none from hact] at hgone
        by_cases hk : k = k'
        · subst hk
          exact (run hinit hproper hb).drop_writer hin'
        · rw [Function.update_of_ne hk, hmid] at hgone
          cases hgone
  · exact fun i j k e e' hi hti hj htj => hrun'.unique hin' hi hti hj htj

end Leasing

end Xahc.Effect

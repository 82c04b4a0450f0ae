/-
Programs that wait: a program calls an operation, is resumed with its answer at some later time and
goes on. Here are their composition, one program run against an environment, the rule that checks a
contract at every call, and what it means that a program's outcome no longer depends on the answers.
-/
import Mathlib.Data.List.Infix

namespace Xahc.Effect

/-- A program over the operations `Op`: it is done, or it calls an operation and waits for the answer
and the time at which it is resumed. -/
inductive Prog (Op : Type) (Res : Op → Type) (α : Type) : Type
  | ret (a : α)
  | call (op : Op) (k : Res op → Nat → Prog Op Res α)

/-- A call that has been answered, and the time at which the program went on. -/
structure Entry (Op : Type) (Res : Op → Type) where
  op : Op
  res : Res op
  time : Nat

/-- The answered calls of one program, the latest first. -/
abbrev History (Op : Type) (Res : Op → Type) := List (Entry Op Res)

namespace Prog

variable {Op Op' : Type} {Res : Op → Type} {Res' : Op' → Type} {α β : Type}

/-! ## Composition -/

/-- One call, its answer returned. -/
def perform (op : Op) : Prog Op Res (Res op) := .call op fun r _ => .ret r

/-- One program after the other. -/
def bind : Prog Op Res α → (α → Prog Op Res β) → Prog Op Res β
  | .ret a, f => f a
  | .call op k, f => .call op fun r t => (k r t).bind f

instance : Monad (Prog Op Res) where
  pure := .ret
  bind := Prog.bind

@[simp] theorem pure_eq (a : α) : (pure a : Prog Op Res α) = .ret a := rfl

@[simp] theorem ret_bind (a : α) (f : α → Prog Op Res β) : (Prog.ret a >>= f) = f a := rfl

@[simp] theorem call_bind (op : Op) (k : Res op → Nat → Prog Op Res α) (f : α → Prog Op Res β) :
    (Prog.call op k >>= f) = .call op fun r t => k r t >>= f := rfl

/-- A program over `Op` as one over `Op'`, each operation carried out by its handler. The handler says
at what time the program over `Op` is resumed. -/
def interp (handler : (op : Op) → Prog Op' Res' (Res op × Nat)) : Prog Op Res α → Prog Op' Res' α
  | .ret a => .ret a
  | .call op k => (handler op).bind fun x => (k x.1 x.2).interp handler

/-! ## One run against an environment -/

/-- An environment answers a call, and chooses the time of the answer, by what was answered before. -/
abbrev Env (Op : Type) (Res : Op → Type) := History Op Res → (op : Op) → Res op × Nat

/-- The history at the end of a run, and the outcome. -/
def run (O : Env Op Res) : History Op Res → Prog Op Res α → History Op Res × α
  | h, .ret a => (h, a)
  | h, .call op k =>
    let x := O h op
    run O (⟨op, x.1, x.2⟩ :: h) (k x.1 x.2)

@[simp] theorem run_ret (O : Env Op Res) (h : History Op Res) (a : α) : run O h (.ret a) = (h, a) := rfl

theorem run_call (O : Env Op Res) (h : History Op Res) (op : Op) (k : Res op → Nat → Prog Op Res α) :
    run O h (.call op k) = run O (⟨op, (O h op).1, (O h op).2⟩ :: h) (k (O h op).1 (O h op).2) := rfl

/-- A run only adds to the history. -/
theorem suffix_run (O : Env Op Res) (p : Prog Op Res α) : ∀ h, h <:+ (run O h p).1 := by
  induction p with
  | ret a => exact fun h => List.suffix_rfl
  | call op k ih =>
    intro h
    rw [run_call]
    exact (List.suffix_cons _ h).trans (ih _ _ _)

/-! ## Contracts -/

/-- `Along may fin h p`: when `p` goes on from the history `h`, every call it makes is one that `may`
allows there, and its outcome is one that `fin` allows. -/
def Along (may : History Op Res → (op : Op) → (Res op → Nat → Prog Op Res α) → Prop)
    (fin : History Op Res → α → Prop) : History Op Res → Prog Op Res α → Prop
  | h, .ret a => fin h a
  | h, .call op k => may h op k ∧ ∀ r t, Along may fin (⟨op, r, t⟩ :: h) (k r t)

/-- A contract that does not look at what the program does next. -/
abbrev Obeys (may : History Op Res → Op → Prop) (fin : History Op Res → α → Prop) :
    History Op Res → Prog Op Res α → Prop :=
  Along (fun h op _ => may h op) fin

section
variable {may may' : History Op Res → (op : Op) → (Res op → Nat → Prog Op Res α) → Prop}
  {fin fin' : History Op Res → α → Prop}

@[simp] theorem along_ret {h : History Op Res} {a : α} : Along may fin h (.ret a) ↔ fin h a := Iff.rfl

theorem Along.imp {p : Prog Op Res α} (hmay : ∀ h op k, may h op k → may' h op k)
    (hfin : ∀ h a, fin h a → fin' h a) : ∀ {h}, Along may fin h p → Along may' fin' h p := by
  induction p with
  | ret a => exact fun hp => hfin _ _ hp
  | call op k ih => exact fun hp => ⟨hmay _ _ _ hp.1, fun r t => ih r t (hp.2 r t)⟩

/-- What the contract allows at the end holds at the end of every run. -/
theorem Along.run_fin {p : Prog Op Res α} (O : Env Op Res) :
    ∀ {h}, Along may fin h p → fin (run O h p).1 (run O h p).2 := by
  induction p with
  | ret a => exact fun hp => hp
  | call op k ih => exact fun hp => ih _ _ (hp.2 _ _)

end

/-- The contract of a composition, from the contracts of its parts. -/
theorem Along.bind {may : History Op Res → (op : Op) → (Res op → Nat → Prog Op Res β) → Prop}
    {may' : History Op Res → (op : Op) → (Res op → Nat → Prog Op Res α) → Prop}
    {fin : History Op Res → β → Prop} {mid : History Op Res → α → Prop} {p : Prog Op Res α}
    {f : α → Prog Op Res β} (hmay : ∀ h op k, may' h op k → may h op fun r t => k r t >>= f)
    (hf : ∀ h a, mid h a → Along may fin h (f a)) :
    ∀ {h}, Along may' mid h p → Along may fin h (p >>= f) := by
  induction p with
  | ret a => exact fun hp => hf _ _ hp
  | call op k ih => exact fun hp => ⟨hmay _ _ _ hp.1, fun r t => ih r t (hp.2 r t)⟩

/-- A contract over `Op` becomes one over `Op'` when each handler keeps the histories related. -/
theorem Obeys.interp {may : History Op Res → Op → Prop} {fin : History Op Res → α → Prop}
    {may' : History Op' Res' → Op' → Prop} {rel : History Op' Res' → History Op Res → Prop}
    {handler : (op : Op) → Prog Op' Res' (Res op × Nat)} {p : Prog Op Res α}
    (hh : ∀ h' h op, rel h' h → may h op →
      Obeys may' (fun h'' x => rel h'' (⟨op, x.1, x.2⟩ :: h)) h' (handler op)) :
    ∀ {h' h}, rel h' h → Obeys may fin h p →
      Obeys may' (fun h'' a => ∃ h, rel h'' h ∧ fin h a) h' (p.interp handler) := by
  induction p with
  | ret a => exact fun hr hp => ⟨_, hr, hp⟩
  | call op k ih =>
    intro h' h hr hp
    refine Along.bind (fun _ _ _ hmay => hmay) (fun h'' x hx => ?_) (hh h' h op hr hp.1)
    exact ih x.1 x.2 hx (hp.2 x.1 x.2)

/-! ## The calls a run makes -/

/-- Going on with `p` from the history `h` can lead to the call of `op`, continued by `k`, at `g`. -/
inductive Visits : History Op Res → Prog Op Res α → History Op Res → (op : Op) →
    (Res op → Nat → Prog Op Res α) → Prop
  | here {h op k} : Visits h (.call op k) h op k
  | next {h op k g op' k'} (r : Res op) (t : Nat) :
      Visits (⟨op, r, t⟩ :: h) (k r t) g op' k' → Visits h (.call op k) g op' k'

theorem Along.visits {may : History Op Res → (op : Op) → (Res op → Nat → Prog Op Res α) → Prop}
    {fin : History Op Res → α → Prop} {h g : History Op Res} {p : Prog Op Res α} {op : Op}
    {k : Res op → Nat → Prog Op Res α} (hv : Visits h p g op k) (hp : Along may fin h p) : may g op k := by
  induction hv with
  | here => exact hp.1
  | next r t _ ih => exact ih (hp.2 r t)

/-- Two environments answer alike until the history is `g`. -/
def Agree (O O' : Env Op Res) (g : History Op Res) : Prop :=
  ∀ h op, h <:+ g → h ≠ g → O h op = O' h op

/-- An answered call in the history of a run is a call the program made there, and a run in an
environment that answered alike until then comes to the same call. -/
theorem exists_visits (O : Env Op Res) {p : Prog Op Res α} {e : Entry Op Res} {pre post : History Op Res} :
    ∀ {h}, (run O h p).1 = post ++ e :: pre → h <:+ pre →
      ∃ k, Visits h p pre e.op k ∧ O pre e.op = (e.res, e.time) ∧
        run O h p = run O pre (.call e.op k) ∧
        ∀ O', Agree O O' pre → run O' h p = run O' pre (.call e.op k) := by
  -- the entry is the answer to the first operation, or one of the run that goes on from its answer
  induction p with
  | ret a =>
    intro h hrun hsuf
    have hlen := congrArg List.length hrun
    have := hsuf.length_le
    simp only [run_ret, List.length_append, List.length_cons] at hlen
    omega
  | call op k ih =>
    intro h hrun hsuf
    have htail := suffix_run O (k (O h op).1 (O h op).2) (⟨op, (O h op).1, (O h op).2⟩ :: h)
    rw [run_call] at hrun
    rw [hrun] at htail
    by_cases heq : h = pre
    · subst heq
      have hcons := List.IsSuffix.eq_of_length
        (List.suffix_of_suffix_length_le htail (List.suffix_append post (e :: h)) (by simp)) (by simp)
      obtain ⟨rfl, -⟩ := List.cons.inj hcons
      exact ⟨k, .here, rfl, rfl, fun _ _ => rfl⟩
    · have hlt : h.length < pre.length := by
        have := hsuf.length_le
        have : h.length ≠ pre.length := fun hl => heq (hsuf.eq_of_length hl)
        omega
      have hsuf' := List.suffix_of_suffix_length_le htail
        ((List.suffix_cons e pre).trans (List.suffix_append post (e :: pre))) hlt
      obtain ⟨k', hvis, hans, hO, hO'⟩ := ih _ _ hrun hsuf'
      refine ⟨k', .next _ _ hvis, hans, by rw [run_call, hO], fun O' hag => ?_⟩
      rw [run_call, ← hag h op hsuf heq]
      exact hO' O' hag

/-! ## Outcomes that are settled -/

/-- The outcome is `a` whatever is answered from here on. -/
def Yields (a : α) : Prog Op Res α → Prop
  | .ret b => b = a
  | .call _ k => ∀ r t, Yields a (k r t)

theorem Yields.run {a : α} {p : Prog Op Res α} (O : Env Op Res) :
    ∀ {h}, Yields a p → (run O h p).2 = a := by
  induction p with
  | ret b => exact fun hp => hp
  | call op k ih => exact fun hp => ih _ _ (hp _ _)

/-- With these answers, at whatever times they come, the outcome is `a`. -/
def Answered (served : (op : Op) → Res op) (a : α) : Prog Op Res α → Prop
  | .ret b => b = a
  | .call op k => ∀ t, Answered served a (k (served op) t)

theorem Answered.bind {served : (op : Op) → Res op} {a : α} {b : β} {p : Prog Op Res α} {f : α → Prog Op Res β}
    (hp : Answered served a p) (hf : Answered served b (f a)) : Answered served b (p >>= f) := by
  induction p with
  | ret a' =>
    obtain rfl : a' = a := hp
    exact hf
  | call op k ih => exact fun t => ih _ _ (hp t)

end Prog

end Xahc.Effect

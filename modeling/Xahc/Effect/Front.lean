/-
Programs in front of a system. Each waits for operations of a kind of its own, and may then run one of the system's programs
and end by what that program gave. Every run of the fronts, in any interleaving, comes with a run of the system itself in
which the same operations take effect at the same times.
-/
import Xahc.Effect.Loop

namespace Xahc.Effect

variable {G : Type} {Rg : G → Type} {Op : Type} {Res : Op → Type} {α β Λ M σ γ : Type}

/-! ## Two kinds of operations -/

/-- What operations of two kinds answer. -/
@[reducible] def Answers (Rg : G → Type) (Res : Op → Type) : G ⊕ Op → Type
  | .inl g => Rg g
  | .inr op => Res op

/-- The program, its operations the second of two kinds. -/
def Prog.inner : Prog Op Res β → Prog (G ⊕ Op) (Answers Rg Res) β
  | .ret b => .ret b
  | .call op k => .call (.inr op) fun r t => (k r t).inner

/-- The program, and what its outcome is read as. -/
def Prog.innerMap (f : β → α) (p : Prog Op Res β) : Prog (G ⊕ Op) (Answers Rg Res) α := p.inner.bind fun b => .ret (f b)

theorem Prog.innerMap_call (f : β → α) (op : Op) (k : Res op → Nat → Prog Op Res β) :
    ((Prog.call op k).innerMap f : Prog (G ⊕ Op) (Answers Rg Res) α) = .call (.inr op) fun r t => (k r t).innerMap f := rfl

/-- The event, where it is about an operation of the second kind. -/
def Event.inner? : Event (G ⊕ Op) (Answers Rg Res) M α → Option (Event Op Res Λ β)
  | .called i t (.inr op) => some (.called i t op)
  | .performed i t (.inr op) r => some (.performed i t op r)
  | .resumed i t (.inr op) r => some (.resumed i t op r)
  | _ => none

/-- What a trace says of the operations of the second kind. -/
def innerTrace (tr : Trace (G ⊕ Op) (Answers Rg Res) M α) : Trace Op Res Λ β := tr.filterMap Event.inner?

/-- The operation an event is about. -/
def Event.op? : Event Op Res Λ α → Option Op
  | .called _ _ op | .performed _ _ op _ | .resumed _ _ op _ => some op
  | _ => none

/-- Later answers of a task come before the earlier ones. -/
theorem hist_suffix {i : Nat} (post pre : Trace Op Res Λ α) : hist i pre <:+ hist i (post ++ pre) := by
  induction post with
  | nil => exact List.suffix_rfl
  | cons e post ih =>
    cases e with
    | resumed j t op r =>
      rw [List.cons_append, hist]
      split_ifs
      · exact ih.trans (List.suffix_cons _ _)
      · exact ih
    | _ => exact ih

/-! ## Systems behind a front -/

/-- States of the system that no operation tells apart, from some time on, and the operations that change nothing but this. -/
structure Silence (S : System Op Res σ Λ β) where
  rel : Nat → σ → σ → Prop
  refl : ∀ t s, rel t s s
  later : ∀ {t s s'} (d : Nat), rel t s s' → rel (t + d) s s'
  perform : ∀ {t s s'} (op : Op) (c : S.Choice op), rel t s s' →
    (S.perform t op c s).2 = (S.perform t op c s').2 ∧ rel t (S.perform t op c s).1 (S.perform t op c s').1
  silent : Op → Bool
  kept : ∀ {t s s'} (op : Op) (c : S.Choice op), silent op = true → rel t s s' → rel t s (S.perform t op c s').1

/-- The fronts of a system: their own operations work on a state of their own. -/
structure Front (S : System Op Res σ Λ β) (G : Type) (Rg : G → Type) (γ M α : Type) where
  Choice : G → Type
  eager : (g : G) → Option (Choice g)
  perform : Nat → (g : G) → Choice g → γ → γ × Rg g
  code : M → Prog (G ⊕ Op) (Answers Rg Res) α

/-- The fronts and the system behind them, as one system. -/
@[reducible] def Front.system {S : System Op Res σ Λ β} (F : Front S G Rg γ M α) : System (G ⊕ Op) (Answers Rg Res) (γ × σ) M α where
  Choice := Answers F.Choice S.Choice
  eager
    | .inl g => F.eager g
    | .inr op => S.eager op
  perform t
    | .inl g, c, s => (((F.perform t g c s.1).1, s.2), (F.perform t g c s.1).2)
    | .inr op, c, s => ((s.1, (S.perform t op c s.2).1), (S.perform t op c s.2).2)
  code := F.code

section
variable (code : Λ → Prog Op Res β) (silent : Op → Bool)
  (enters : History (G ⊕ Op) (Answers Rg Res) → Λ → (β → α) → Prop) (fin : History (G ⊕ Op) (Answers Rg Res) → α → Prop)

/-- From the history on, a program waits for operations of its own and for silent ones, until it is done or goes on as one of
the programs behind it. -/
inductive Fronts : History (G ⊕ Op) (Answers Rg Res) → Prog (G ⊕ Op) (Answers Rg Res) α → Prop
  | done {h a} : fin h a → Fronts h (.ret a)
  | own {h g k} : (∀ r t, Fronts (⟨.inl g, r, t⟩ :: h) (k r t)) → Fronts h (.call (.inl g) k)
  | silent {h op k} : silent op = true → (∀ r t, Fronts (⟨.inr op, r, t⟩ :: h) (k r t)) → Fronts h (.call (.inr op) k)
  | enter {h l f} : enters h l f → Fronts h ((code l).innerMap f)

/-- What a task is after these answered calls, and what the task of its number behind the front is: none before it goes on as
one of the programs there, which is the one with the label from then on. -/
inductive Behind (h : History (G ⊕ Op) (Answers Rg Res)) :
    Task (G ⊕ Op) (Answers Rg Res) α → Option Λ → Option (Task Op Res β) → Prop
  | waiting {op k l?} : (∀ op', op = .inr op' → silent op' = true) →
      (∀ r t, Fronts code silent enters fin (⟨op, r, t⟩ :: h) (k r t)) → Behind h (.waiting op k) l? none
  | ready {op k r l?} : (∀ op', op = .inr op' → silent op' = true) →
      (∀ r t, Fronts code silent enters fin (⟨op, r, t⟩ :: h) (k r t)) → Behind h (.ready op k r) l? none
  | ended {a l?} : fin h a → Behind h (.done a) l? none
  | inWaiting {op k l f h₀} : h₀ <:+ h → enters h₀ l f →
      Behind h (.waiting (.inr op) fun r t => (k r t).innerMap f) (some l) (some (.waiting op k))
  | inReady {op k r l f h₀} : h₀ <:+ h → enters h₀ l f →
      Behind h (.ready (.inr op) (fun r t => (k r t).innerMap f) r) (some l) (some (.ready op k r))
  | inDone {b l f h₀} : h₀ <:+ h → enters h₀ l f → Behind h (.done (f b)) (some l) (some (.done b))

end

section
variable {S : System Op Res σ Λ β} (Z : Silence S) (enters : M → History (G ⊕ Op) (Answers Rg Res) → Λ → (β → α) → Prop)
  (fin : M → History (G ⊕ Op) (Answers Rg Res) → α → Prop)

/-- Where task `i` stands on both sides. -/
def Stands (tr : Trace (G ⊕ Op) (Answers Rg Res) M α) (tr' : Trace Op Res Λ β) (i : Nat) :
    Option (Task (G ⊕ Op) (Answers Rg Res) α) → Option (Task Op Res β) → Prop
  | none, task' => hist i tr = [] ∧ task' = none
  | some task, task' => ∃ m, label i tr = some m ∧
      Behind S.code Z.silent (enters m) (fin m) (hist i tr) task (label i tr') task'

/-- The event is about an operation that is not silent. -/
def Event.loud (silent : Op → Bool) (e : Event Op Res Λ β) : Bool := e.op?.any fun op => !silent op

/-- The same operations have taken effect at the same times, but for silent ones of the fronts' own. -/
structure SameCalls (tr : Trace (G ⊕ Op) (Answers Rg Res) M α) (tr' : Trace Op Res Λ β) : Prop where
  sub : (tr'.filter fun e => e.op?.isSome).Sublist (innerTrace tr)
  loud : tr'.filter (Event.loud Z.silent) = (innerTrace tr).filter (Event.loud Z.silent)

/-- The inner world has the clock of the outer one, a related state and the same calls, and each of its tasks stands
where the outer one's does. -/
structure Simulates (w : World (G ⊕ Op) (Answers Rg Res) (γ × σ) M α) (v : World Op Res σ Λ β) : Prop where
  clock : v.clock = w.clock
  shared : Z.rel w.clock v.shared w.shared.2
  calls : SameCalls Z w.trace v.trace
  tasks : ∀ i, Stands Z enters fin w.trace v.trace i (w.tasks i) (v.tasks i)

end

section
variable {S : System Op Res σ Λ β} {Z : Silence S} {enters : M → History (G ⊕ Op) (Answers Rg Res) → Λ → (β → α) → Prop}
  {fin : M → History (G ⊕ Op) (Answers Rg Res) → α → Prop}
  {tr : Trace (G ⊕ Op) (Answers Rg Res) M α} {tr' : Trace Op Res Λ β} {i : Nat}
  {task : Option (Task (G ⊕ Op) (Answers Rg Res) α)} {task' : Option (Task Op Res β)}

theorem Stands.cons_of_ne {e : Event (G ⊕ Op) (Answers Rg Res) M α} (he : e.task ≠ i)
    (h : Stands Z enters fin tr tr' i task task') : Stands Z enters fin (e :: tr) tr' i task task' := by
  cases task <;> simpa only [Stands, label_cons_of_ne he, hist_cons_of_ne he] using h

theorem Stands.cons_of_ne' {e : Event Op Res Λ β} (he : e.task ≠ i)
    (h : Stands Z enters fin tr tr' i task task') : Stands Z enters fin tr (e :: tr') i task task' := by
  cases task <;> simpa only [Stands, label_cons_of_ne he] using h

/-! ## One event on either side -/

/-- An event of the fronts alone: of an operation of their own, or of a silent one. -/
theorem SameCalls.outer {e : Event (G ⊕ Op) (Answers Rg Res) M α} (h : SameCalls Z tr tr')
    (he : ∀ e' : Event Op Res Λ β, e.inner? = some e' → e'.loud Z.silent = false) : SameCalls Z (e :: tr) tr' := by
  cases hinner : (e.inner? : Option (Event Op Res Λ β)) with
  | none => exact ⟨by rw [innerTrace, List.filterMap_cons_none hinner]; exact h.sub,
      by rw [innerTrace, List.filterMap_cons_none hinner]; exact h.loud⟩
  | some e' =>
    refine ⟨?_, ?_⟩ <;> rw [innerTrace, List.filterMap_cons_some hinner]
    · exact h.sub.cons _
    · rw [List.filter_cons_of_neg (by rw [he e' hinner]; exact Bool.false_ne_true)]
      exact h.loud

/-- An event behind the front that is about no operation. -/
theorem SameCalls.behind {e' : Event Op Res Λ β} (h : SameCalls Z tr tr') (he : e'.op? = none) :
    SameCalls Z tr (e' :: tr') := by
  constructor
  · rw [List.filter_cons_of_neg (by simp [he])]
    exact h.sub
  · rw [List.filter_cons_of_neg (by simp [Event.loud, he])]
    exact h.loud

/-- One event on both sides. -/
theorem SameCalls.both {e : Event (G ⊕ Op) (Answers Rg Res) M α} {e' : Event Op Res Λ β} (h : SameCalls Z tr tr')
    (he : e.inner? = some e') (hop : e'.op?.isSome = true) : SameCalls Z (e :: tr) (e' :: tr') := by
  refine ⟨?_, ?_⟩ <;> rw [innerTrace, List.filterMap_cons_some he]
  · simp only [List.filter_cons, hop, if_true]
    exact h.sub.cons_cons _
  · rw [List.filter_cons, List.filter_cons]
    split_ifs
    · exact congrArg _ h.loud
    · exact h.loud

/-! ## What the same calls show -/

section
variable (h : SameCalls Z tr tr')
include h

/-- What is read off events that are not silent is the same on both sides. -/
theorem SameCalls.filterMap_eq {δ : Type} {f : Event Op Res Λ β → Option δ}
    (hf : ∀ e, (f e).isSome = true → e.loud Z.silent = true) : tr'.filterMap f = (innerTrace tr).filterMap f := by
  have hread : ∀ l : Trace Op Res Λ β, (l.filter (Event.loud Z.silent)).filterMap f = l.filterMap f := by
    intro l
    rw [List.filterMap_filter]
    refine List.filterMap_congr fun e _ => ?_
    cases he : f e with
    | none => simp
    | some x => rw [if_pos (hf e (by simp [he]))]
  rw [← hread tr', h.loud, hread]

theorem SameCalls.mem_iff {e : Event Op Res Λ β} (he : e.loud Z.silent = true) : e ∈ tr' ↔ e ∈ innerTrace tr := by
  have hmem : ∀ l : Trace Op Res Λ β, e ∈ l.filter (Event.loud Z.silent) ↔ e ∈ l := fun l => by simp [he]
  rw [← hmem tr', h.loud, hmem]

/-- Two events in their order, and what is between them. -/
theorem SameCalls.between {e e' : Event Op Res Λ β} {post mid pre : Trace Op Res Λ β} (he : e.loud Z.silent = true)
    (he' : e'.loud Z.silent = true) (htr : innerTrace tr = post ++ e' :: (mid ++ e :: pre)) :
    ∃ post' mid' pre', tr' = post' ++ e' :: (mid' ++ e :: pre') ∧ ∀ x ∈ mid', x.loud Z.silent = true → x ∈ mid := by
  have hloud := h.loud
  rw [htr, List.filter_append, List.filter_cons_of_pos he', List.filter_append, List.filter_cons_of_pos he] at hloud
  obtain ⟨post', rest, rfl, -, hrest⟩ := List.filter_eq_append_iff.1 hloud
  obtain ⟨post₁, rest₁, rfl, -, -, hrest₁⟩ := List.filter_eq_cons_iff.1 hrest
  obtain ⟨mid', rest₂, rfl, hmid, hrest₂⟩ := List.filter_eq_append_iff.1 hrest₁
  obtain ⟨mid₁, pre', rfl, hquiet, -, -⟩ := List.filter_eq_cons_iff.1 hrest₂
  refine ⟨post' ++ post₁, mid' ++ mid₁, pre', by simp only [List.append_assoc], fun x hx hx' => ?_⟩
  rcases List.mem_append.1 hx with hx | hx
  · exact (List.mem_filter.1 (hmid ▸ List.mem_filter.2 ⟨hx, hx'⟩)).1
  · exact absurd hx' (hquiet x hx)

end

section
variable {w : World (G ⊕ Op) (Answers Rg Res) (γ × σ) M α} {v : World Op Res σ Λ β}
  (hothers : ∀ j, j ≠ i → Stands Z enters fin w.trace v.trace j (w.tasks j) (v.tasks j))
include hothers

theorem stands_move (task : Task (G ⊕ Op) (Answers Rg Res) α) (e : Event (G ⊕ Op) (Answers Rg Res) M α)
    (he : e.task = i) (hi : Stands Z enters fin (e :: w.trace) v.trace i (some task) (v.tasks i)) (j : Nat) :
    Stands Z enters fin (w.move i task e).trace v.trace j ((w.move i task e).tasks j) (v.tasks j) := by
  by_cases hj : j = i
  · subst hj
    simpa [World.move] using hi
  · simpa [World.move, hj] using (hothers j hj).cons_of_ne (he ▸ Ne.symm hj)

theorem stands_moves (task : Task (G ⊕ Op) (Answers Rg Res) α) (e : Event (G ⊕ Op) (Answers Rg Res) M α)
    (task' : Task Op Res β) (e' : Event Op Res Λ β) (he : e.task = i) (he' : e'.task = i)
    (hi : Stands Z enters fin (e :: w.trace) (e' :: v.trace) i (some task) (some task')) (j : Nat) :
    Stands Z enters fin (w.move i task e).trace (v.move i task' e').trace j ((w.move i task e).tasks j)
      ((v.move i task' e').tasks j) := by
  by_cases hj : j = i
  · subst hj
    simpa [World.move] using hi
  · simpa [World.move, hj] using ((hothers j hj).cons_of_ne (he ▸ Ne.symm hj)).cons_of_ne' (he' ▸ Ne.symm hj)

end

section
variable {w : World (G ⊕ Op) (Answers Rg Res) (γ × σ) M α} {v : World Op Res σ Λ β} (h : Simulates Z enters fin w v)
include h

/-- A task behind the front is there for a front that went on as its program. -/
theorem Simulates.entered {l : Λ} (hl : label i v.trace = some l) (htask : v.tasks i ≠ none) :
    ∃ m h₀ f, label i w.trace = some m ∧ h₀ <:+ hist i w.trace ∧ enters m h₀ l f := by
  have hi := h.tasks i
  cases hw : w.tasks i with
  | none =>
    rw [hw] at hi
    exact absurd hi.2 htask
  | some task =>
    rw [hw] at hi
    obtain ⟨m, hm, hbehind⟩ := hi
    rw [hl] at hbehind
    generalize v.tasks i = task' at hbehind htask
    cases hbehind with
    | waiting | ready | ended => exact absurd rfl htask
    | inWaiting hsuf henters | inReady hsuf henters | inDone hsuf henters => exact ⟨m, _, _, hm, hsuf, henters⟩

/-- The outcome of a front is its own, or read off the outcome of the program it went on as. -/
theorem Simulates.outcome {a : α} (ha : w.tasks i = some (.done a)) :
    ∃ m, label i w.trace = some m ∧ (fin m (hist i w.trace) a ∨ ∃ h₀ l f b, h₀ <:+ hist i w.trace ∧ enters m h₀ l f ∧
      a = f b ∧ label i v.trace = some l ∧ v.tasks i = some (.done b)) := by
  have hi := h.tasks i
  rw [ha] at hi
  obtain ⟨m, hm, hbehind⟩ := hi
  generalize hl : label i v.trace = l? at hbehind
  generalize hv : v.tasks i = task' at hbehind
  cases hbehind with
  | ended hfin => exact ⟨m, hm, .inl hfin⟩
  | inDone hsuf henters => exact ⟨m, hm, .inr ⟨_, _, _, _, hsuf, henters, rfl, rfl, rfl⟩⟩

end

/-! ## Steps -/

variable {F : Front S G Rg γ M α} {w : World (G ⊕ Op) (Answers Rg Res) (γ × σ) M α} {v : World Op Res σ Λ β}

theorem System.take_eq (S : System Op Res σ Λ β) (v : World Op Res σ Λ β) (i : Nat) (op : Op)
    (k : Res op → Nat → Prog Op Res β) (c : S.Choice op) :
    S.take v i op k c = World.move { v with shared := (S.perform v.clock op c v.shared).1 } i
      (.ready op k (S.perform v.clock op c v.shared).2) (.performed i v.clock op (S.perform v.clock op c v.shared).2) := rfl

theorem Front.take_inner (F : Front S G Rg γ M α) (w : World (G ⊕ Op) (Answers Rg Res) (γ × σ) M α) (i : Nat) (op : Op)
    (k : Res op → Nat → Prog (G ⊕ Op) (Answers Rg Res) α) (c : S.Choice op) :
    F.system.take w i (.inr op) k c =
      World.move { w with shared := (w.shared.1, (S.perform w.clock op c w.shared.2).1) } i
        (.ready (.inr op) k (S.perform w.clock op c w.shared.2).2)
        (.performed i w.clock (.inr op) (S.perform w.clock op c w.shared.2).2) := rfl

section
variable {m : M} (hclock : v.clock = w.clock) (hshared : Z.rel w.clock v.shared w.shared.2)
  (hcalls : SameCalls Z w.trace v.trace)
  (hothers : ∀ j, j ≠ i → Stands Z enters fin w.trace v.trace j (w.tasks j) (v.tasks j)) (hm : label i w.trace = some m)
include hclock hshared hcalls hothers hm

section
variable {l : Λ} {f : β → α} {h₀ : History (G ⊕ Op) (Answers Rg Res)} (hl : label i v.trace = some l)
  (hsuf : h₀ <:+ hist i w.trace) (henters : enters m h₀ l f)
include hl hsuf henters

/-- An operation of a program behind the front takes effect on both sides. -/
theorem simulates_take_in (op : Op) (k : Res op → Nat → Prog Op Res β) (c : S.Choice op) :
    Simulates Z enters fin (F.system.take w i (.inr op) (fun r t => (k r t).innerMap f) c) (S.take v i op k c) := by
  obtain ⟨hanswer, hrel⟩ := Z.perform op c hshared
  rw [F.take_inner, S.take_eq, hclock, hanswer]
  refine ⟨rfl, hrel, hcalls.both rfl rfl, ?_⟩
  refine stands_moves (w := { w with shared := _ }) (v := { v with shared := _ }) hothers _ _ _ _ rfl rfl ⟨m, hm, ?_⟩
  show Behind _ _ _ _ _ _ (label i v.trace) _
  rw [hl]
  exact .inReady hsuf henters

/-- Both sides go on with one program. -/
theorem simulates_enter_in (p : Prog Op Res β) :
    Simulates Z enters fin (F.system.enter w i (p.innerMap f)) (S.enter v i p) := by
  cases p with
  | ret b =>
    refine ⟨hclock, hshared, (hcalls.outer (by simp [Event.inner?])).behind rfl, stands_moves hothers _ _ _ _ rfl rfl ⟨m, hm, ?_⟩⟩
    show Behind _ _ _ _ _ _ (label i v.trace) _
    rw [hl]
    exact .inDone hsuf henters
  | call op k =>
    rw [Prog.innerMap_call]
    have hcalled : SameCalls Z (.called i w.clock (.inr op) :: w.trace) (.called i v.clock op :: v.trace) := by
      rw [hclock]
      exact hcalls.both rfl rfl
    have hwaits := stands_moves hothers (.waiting (.inr op) fun r t => (k r t).innerMap f) (.called i w.clock (.inr op))
      (.waiting op k) (.called i v.clock op) rfl rfl ⟨m, hm, by
        show Behind _ _ _ _ _ _ (label i v.trace) _
        rw [hl]
        exact .inWaiting hsuf henters⟩
    cases heager : S.eager op with
    | none =>
      have heager' : F.system.eager (.inr op) = none := heager
      rw [System.enter_call_none S heager, System.enter_call_none F.system heager']
      exact ⟨hclock, hshared, hcalled, hwaits⟩
    | some c =>
      have heager' : F.system.eager (.inr op) = some c := heager
      rw [System.enter_call_some S heager, System.enter_call_some F.system heager']
      exact simulates_take_in (w := w.move i _ (.called i w.clock (.inr op))) (v := v.move i _ (.called i v.clock op)) hclock
        hshared hcalled (fun j _ => hwaits j) hm hl hsuf henters op k c

end

/-- An operation of the front's own, or a silent one, takes effect. -/
theorem simulates_take_front (hnone : v.tasks i = none) (op : G ⊕ Op) (k : Answers Rg Res op → Nat → Prog (G ⊕ Op) (Answers Rg Res) α)
    (c : F.system.Choice op) (hsilent : ∀ op', op = .inr op' → Z.silent op' = true)
    (hk : ∀ r t, Fronts S.code Z.silent (enters m) (fin m) (⟨op, r, t⟩ :: hist i w.trace) (k r t)) :
    Simulates Z enters fin (F.system.take w i op k c) v := by
  have hready := stands_move (w := { w with shared := (F.system.perform w.clock op c w.shared).1 }) hothers
    (.ready op k (F.system.perform w.clock op c w.shared).2)
    (.performed i w.clock op (F.system.perform w.clock op c w.shared).2) rfl ⟨m, hm, hnone ▸ .ready hsilent hk⟩
  refine ⟨hclock, ?_, ?_, hready⟩
  · cases op with
    | inl g => exact hshared
    | inr op => exact Z.kept op c (hsilent op rfl) hshared
  · refine hcalls.outer fun e' he' => ?_
    cases op with
    | inl g => cases he'
    | inr op =>
      cases he'
      simp [Event.loud, Event.op?, hsilent op rfl]

/-- A front goes on: it waits, is done, or runs a program behind it. -/
theorem simulates_enter_front (hnone : v.tasks i = none) {p : Prog (G ⊕ Op) (Answers Rg Res) α}
    (hp : Fronts S.code Z.silent (enters m) (fin m) (hist i w.trace) p) {s : σ} (hv : S.Reach s v) :
    ∃ v', S.Reach s v' ∧ Simulates Z enters fin (F.system.enter w i p) v' := by
  have hcall : ∀ (op : G ⊕ Op) (k : Answers Rg Res op → Nat → Prog (G ⊕ Op) (Answers Rg Res) α),
      (∀ op', op = .inr op' → Z.silent op' = true) →
      (∀ r t, Fronts S.code Z.silent (enters m) (fin m) (⟨op, r, t⟩ :: hist i w.trace) (k r t)) →
      Simulates Z enters fin (F.system.enter w i (.call op k)) v := by
    intro op k hsilent hk
    have hcalled : SameCalls Z (.called i w.clock op :: w.trace) v.trace := by
      refine hcalls.outer fun e' he' => ?_
      cases op with
      | inl g => cases he'
      | inr op =>
        cases he'
        simp [Event.loud, Event.op?, hsilent op rfl]
    have hwaits := stands_move hothers (.waiting op k) (.called i w.clock op) rfl
      ⟨m, hm, hnone ▸ .waiting hsilent hk⟩
    -- an eager operation is performed at once, in front as well
    cases heager : F.system.eager op with
    | none =>
      rw [System.enter_call_none F.system heager]
      exact ⟨hclock, hshared, hcalled, hwaits⟩
    | some c =>
      rw [System.enter_call_some F.system heager]
      exact simulates_take_front (w := w.move i (.waiting op k) (.called i w.clock op)) hclock hshared hcalled
        (fun j _ => hwaits j) hm hnone op k c hsilent hk
  cases hp with
  | done hfin =>
    refine ⟨v, hv, hclock, hshared, hcalls.outer (by simp [Event.inner?]), stands_move hothers _ _ rfl ⟨m, hm, ?_⟩⟩
    rw [hnone]
    exact .ended hfin
  | own hk => exact ⟨v, hv, hcall _ _ (by simp) hk⟩
  | silent hsilent hk => exact ⟨v, hv, hcall _ _ (by simpa using hsilent) hk⟩
  -- the call behind is spawned only now, with the history that the front has by then
  | @enter _ l f henters =>
    refine ⟨_, .step (.spawn i l) hv (by rw [System.step, hnone]), ?_⟩
    exact simulates_enter_in (v := { v with trace := .spawned i v.clock l :: v.trace }) hclock hshared (hcalls.behind rfl)
      (fun j hj => (hothers j hj).cons_of_ne' (Ne.symm hj)) hm (by simp [label]) List.suffix_rfl henters (S.code l)

end

theorem simulates_step (hfronts : ∀ m, Fronts S.code Z.silent (enters m) (fin m) [] (F.code m)) {s : σ} (hv : S.Reach s v)
    (h : Simulates Z enters fin w v) {a : Action F.system} {w' : World (G ⊕ Op) (Answers Rg Res) (γ × σ) M α}
    (hstep : F.system.step w a = some w') : ∃ v', S.Reach s v' ∧ Simulates Z enters fin w' v' := by
  obtain ⟨hclock, hshared, hcalls, htasks⟩ := h
  -- what a step does behind the front depends on where the task stands: still in front, or in the handler
  cases a with
  | tick d =>
    cases hstep
    refine ⟨_, .step (.tick d) hv rfl, ?_, Z.later d hshared, hcalls, htasks⟩
    exact congrArg (· + d) hclock
  | spawn i m =>
    have hi := htasks i
    cases hnone : w.tasks i with
    | some task => simp [System.step, hnone] at hstep
    | none =>
      rw [hnone] at hi
      obtain ⟨hhist, hv'⟩ := hi
      simp only [System.step, hnone, Option.some.injEq] at hstep
      rw [← hstep]
      refine simulates_enter_front (i := i) (w := { w with trace := .spawned i w.clock m :: w.trace }) (m := m) hclock hshared
        (hcalls.outer (by simp [Event.inner?])) (fun j hj => (htasks j).cons_of_ne (Ne.symm hj)) (by simp [label]) hv' ?_ hv
      show Fronts _ _ _ _ (hist i w.trace) _
      rw [hhist]
      exact hfronts m
  | perform i c =>
    have hi := htasks i
    simp only [System.step] at hstep
    split at hstep
    · rename_i op k htask
      cases hstep
      rw [htask] at hi
      obtain ⟨m, hm, hbehind⟩ := hi
      generalize hl : label i v.trace = l? at hbehind
      generalize hv' : v.tasks i = task' at hbehind
      cases hbehind with
      | waiting hsilent hk =>
        -- in front, nothing that is loud behind was performed, so the run behind stays where it is
        exact ⟨v, hv, simulates_take_front hclock hshared hcalls (fun j _ => htasks j) hm hv' op k (c op) hsilent hk⟩
      | @inWaiting op k l f h₀ hsuf henters =>
        -- in the handler, the same operation is performed behind
        refine ⟨_, .step (.perform i fun op => c (.inr op)) hv (by rw [System.step, hv']), ?_⟩
        exact simulates_take_in hclock hshared hcalls (fun j _ => htasks j) hm hl hsuf henters op k (c (.inr op))
    · cases hstep
  | resume i =>
    have hi := htasks i
    simp only [System.step] at hstep
    split at hstep
    · rename_i op k r htask
      cases hstep
      rw [htask] at hi
      obtain ⟨m, hm, hbehind⟩ := hi
      generalize hl : label i v.trace = l? at hbehind
      generalize hv' : v.tasks i = task' at hbehind
      have hhist : hist i (.resumed i w.clock op r :: w.trace) = ⟨op, r, w.clock⟩ :: hist i w.trace := by simp [hist]
      cases hbehind with
      | ready hsilent hk =>
        refine simulates_enter_front (i := i) (w := { w with trace := .resumed i w.clock op r :: w.trace }) (m := m) hclock
          hshared (hcalls.outer fun e' he' => ?_) (fun j hj => (htasks j).cons_of_ne (Ne.symm hj)) hm hv' ?_ hv
        · cases op with
          | inl g => cases he'
          | inr op =>
            cases he'
            simp [Event.loud, Event.op?, hsilent op rfl]
        · exact hhist ▸ hk r w.clock
      | @inReady op k r l f h₀ hsuf henters =>
        refine ⟨S.enter { v with trace := .resumed i w.clock op r :: v.trace } i (k r w.clock),
          .step (.resume i) hv (by rw [System.step, hv', hclock]), ?_⟩
        refine simulates_enter_in (i := i) (w := { w with trace := .resumed i w.clock (.inr op) r :: w.trace })
          (v := { v with trace := .resumed i w.clock op r :: v.trace }) hclock hshared (hcalls.both rfl rfl)
          (fun j hj => ((htasks j).cons_of_ne (Ne.symm hj)).cons_of_ne' (Ne.symm hj)) hm hl ?_ henters (k r w.clock)
        exact hsuf.trans (hhist ▸ List.suffix_cons _ _)
    · cases hstep

/-- Every run of the fronts comes with a run of the system behind them. -/
theorem Front.simulates (F : Front S G Rg γ M α) (Z : Silence S)
    (hfronts : ∀ m, Fronts S.code Z.silent (enters m) (fin m) [] (F.code m)) {g : γ} {s : σ}
    {w : World (G ⊕ Op) (Answers Rg Res) (γ × σ) M α} (hw : F.system.Reach (g, s) w) :
    ∃ v, S.Reach s v ∧ Simulates Z enters fin w v := by
  induction hw with
  | init => exact ⟨_, .init, rfl, Z.refl _ _, ⟨.slnil, rfl⟩, fun _ => ⟨rfl, rfl⟩⟩
  | step a _ hstep ih =>
    obtain ⟨v, hv, hsim⟩ := ih
    exact simulates_step hfronts hv hsim hstep

end

end Xahc.Effect

/-
Programs that share a state on one event loop, in every interleaving at the points where they wait.
A program runs without interruption from one call to the next. The system says which operations take
effect at the call and which at some later time, and what an operation does to the shared state. The
trace of a world records everything that happened, and a contract that every program obeys turns into
a rule for proving invariants of the shared state and the trace together.
-/
import Xahc.Effect.Prog

namespace Xahc.Effect

/-! ## Systems and worlds -/

/-- Programs over a shared state `σ`; `Λ` names the programs that may be started. -/
structure System (Op : Type) (Res : Op → Type) (σ Λ α : Type) where
  /-- What the surroundings decide when an operation takes effect. -/
  Choice : Op → Type
  /-- The operations that take effect at the call. -/
  eager : (op : Op) → Option (Choice op)
  perform : Nat → (op : Op) → Choice op → σ → σ × Res op
  code : Λ → Prog Op Res α

/-- A task: waiting for its operation to be performed, ready with the result, or done. -/
inductive Task (Op : Type) (Res : Op → Type) (α : Type)
  | waiting (op : Op) (k : Res op → Nat → Prog Op Res α)
  | ready (op : Op) (k : Res op → Nat → Prog Op Res α) (r : Res op)
  | done (a : α)

/-- Something that happened to task `i` at time `t`. -/
inductive Event (Op : Type) (Res : Op → Type) (Λ α : Type)
  | spawned (i t : Nat) (l : Λ)
  | called (i t : Nat) (op : Op)
  | performed (i t : Nat) (op : Op) (r : Res op)
  | resumed (i t : Nat) (op : Op) (r : Res op)
  | finished (i t : Nat) (a : α)

/-- What happened, the latest first. -/
abbrev Trace (Op : Type) (Res : Op → Type) (Λ α : Type) := List (Event Op Res Λ α)

/-- The state the tasks share, the clock, the tasks and what happened, the latest first. -/
structure World (Op : Type) (Res : Op → Type) (σ Λ α : Type) where
  shared : σ
  clock : Nat
  tasks : Nat → Option (Task Op Res α)
  trace : Trace Op Res Λ α

/-- One move of the loop or of its surroundings. -/
inductive Action {Op : Type} {Res : Op → Type} {σ Λ α : Type} (S : System Op Res σ Λ α)
  | tick (d : Nat)
  | spawn (i : Nat) (l : Λ)
  | perform (i : Nat) (c : (op : Op) → S.Choice op)
  | resume (i : Nat)

section
variable {Op : Type} {Res : Op → Type} {σ Λ α : Type}

/-- The task of an event. -/
def Event.task : Event Op Res Λ α → Nat
  | .spawned i _ _ | .called i _ _ | .performed i _ _ _ | .resumed i _ _ _ | .finished i _ _ => i

/-- The time of an event. -/
def Event.time : Event Op Res Λ α → Nat
  | .spawned _ t _ | .called _ t _ | .performed _ t _ _ | .resumed _ t _ _ | .finished _ t _ => t

/-- The world before anything happened. -/
def World.init (s : σ) : World Op Res σ Λ α := ⟨s, 0, fun _ => none, []⟩

/-- Task `i` is now `task`, after the event `e`. -/
def World.move (w : World Op Res σ Λ α) (i : Nat) (task : Task Op Res α) (e : Event Op Res Λ α) :
    World Op Res σ Λ α :=
  { w with tasks := fun j => if j = i then some task else w.tasks j, trace := e :: w.trace }

namespace System

variable (S : System Op Res σ Λ α)

/-- Operation `op` of task `i` takes effect. -/
def take (w : World Op Res σ Λ α) (i : Nat) (op : Op) (k : Res op → Nat → Prog Op Res α)
    (c : S.Choice op) : World Op Res σ Λ α :=
  let x := S.perform w.clock op c w.shared
  { w with shared := x.1 }.move i (.ready op k x.2) (.performed i w.clock op x.2)

/-- Task `i` runs `p` as far as its next call. -/
def enter (w : World Op Res σ Λ α) (i : Nat) : Prog Op Res α → World Op Res σ Λ α
  | .ret a => w.move i (.done a) (.finished i w.clock a)
  | .call op k =>
    let w := w.move i (.waiting op k) (.called i w.clock op)
    match S.eager op with
    | none => w
    | some c => S.take w i op k c

theorem enter_call_none {w : World Op Res σ Λ α} {i : Nat} {op : Op} {k : Res op → Nat → Prog Op Res α}
    (h : S.eager op = none) :
    S.enter w i (.call op k) = w.move i (.waiting op k) (.called i w.clock op) := by
  simp [enter, h]

theorem enter_call_some {w : World Op Res σ Λ α} {i : Nat} {op : Op} {k : Res op → Nat → Prog Op Res α}
    {c : S.Choice op} (h : S.eager op = some c) :
    S.enter w i (.call op k) = S.take (w.move i (.waiting op k) (.called i w.clock op)) i op k c := by
  simp [enter, h]

/-- One step of the event loop; none where the action does not apply. -/
def step (w : World Op Res σ Λ α) : Action S → Option (World Op Res σ Λ α)
  | .tick d => some { w with clock := w.clock + d }
  | .spawn i l =>
    match w.tasks i with
    | none => some (S.enter { w with trace := .spawned i w.clock l :: w.trace } i (S.code l))
    | some _ => none
  | .perform i c =>
    match w.tasks i with
    | some (.waiting op k) => some (S.take w i op k (c op))
    | _ => none
  | .resume i =>
    match w.tasks i with
    | some (.ready op k r) =>
      some (S.enter { w with trace := .resumed i w.clock op r :: w.trace } i (k r w.clock))
    | _ => none

/-- The worlds a run from the shared state `s` comes to. -/
inductive Reach (s : σ) : World Op Res σ Λ α → Prop
  | init : Reach s (.init s)
  | step {w w'} (a : Action S) : Reach s w → S.step w a = some w' → Reach s w'

/-- A fixed schedule. -/
def runActions : List (Action S) → World Op Res σ Λ α → Option (World Op Res σ Λ α)
  | [], w => some w
  | a :: as, w => (S.step w a).bind (runActions as)

theorem Reach.runActions {S : System Op Res σ Λ α} {s : σ} :
    ∀ {as : List (Action S)} {w w'}, S.Reach s w → S.runActions as w = some w' → S.Reach s w'
  | [], w, w', hw, h => by
    cases h
    exact hw
  | a :: as, w, w', hw, h => by
    obtain ⟨w₁, hstep, hrest⟩ := Option.bind_eq_some_iff.1 h
    exact Reach.runActions (.step a hw hstep) hrest

theorem runActions_concat (as : List (Action S)) (a : Action S) :
    ∀ w, S.runActions (as ++ [a]) w = (S.runActions as w).bind fun w => S.step w a := by
  induction as with
  | nil => exact fun w => Option.bind_fun_some _
  | cons b as ih =>
    intro w
    rw [List.cons_append, runActions, runActions, Option.bind_assoc]
    exact congrArg _ (funext ih)

/-- The world a schedule comes to, where it can be followed. -/
def play (s : σ) (as : List (Action S)) : World Op Res σ Λ α := (S.runActions as (.init s)).getD (.init s)

theorem reach_play (s : σ) (as : List (Action S)) : S.Reach s (S.play s as) := by
  unfold play
  cases h : S.runActions as (.init s) with
  | none => exact .init
  | some w => exact .runActions .init h

theorem step_play {s : σ} {as : List (Action S)} {a : Action S}
    (h : (S.runActions (as ++ [a]) (.init s)).isSome = true) :
    S.step (S.play s as) a = some (S.play s (as ++ [a])) := by
  obtain ⟨w', hw'⟩ := Option.isSome_iff_exists.1 h
  unfold play
  rw [hw']
  rw [runActions_concat] at hw'
  obtain ⟨w, hw, hstep⟩ := Option.bind_eq_some_iff.1 hw'
  rw [hw]
  exact hstep

end System

/-! ## Reading a trace -/

/-- The program task `i` was started with. -/
def label (i : Nat) : Trace Op Res Λ α → Option Λ
  | [] => none
  | .spawned j _ l :: tr => if j = i then some l else label i tr
  | _ :: tr => label i tr

/-- The answered calls of task `i`. -/
def hist (i : Nat) : Trace Op Res Λ α → History Op Res
  | [] => []
  | .resumed j t op r :: tr => if j = i then ⟨op, r, t⟩ :: hist i tr else hist i tr
  | _ :: tr => hist i tr

/-- Where a task stands. -/
inductive Phase (Op : Type) (Res : Op → Type)
  | fresh | running | done
  | waiting (op : Op)
  | ready (op : Op) (r : Res op)

/-- Where task `i` stands after the trace. -/
def phase (i : Nat) : Trace Op Res Λ α → Phase Op Res
  | [] => .fresh
  | .spawned j _ _ :: tr => if j = i then .running else phase i tr
  | .called j _ op :: tr => if j = i then .waiting op else phase i tr
  | .performed j _ op r :: tr => if j = i then .ready op r else phase i tr
  | .resumed j _ _ _ :: tr => if j = i then .running else phase i tr
  | .finished j _ _ :: tr => if j = i then .done else phase i tr

/-- Task `i` has just started or gone on, at time `t`. -/
def Turn (i t : Nat) : Trace Op Res Λ α → Prop
  | .spawned j tj _ :: _ => j = i ∧ tj = t
  | .resumed j tj _ _ :: _ => j = i ∧ tj = t
  | _ => False

section
variable {i j : Nat} {e : Event Op Res Λ α} {tr : Trace Op Res Λ α}

theorem label_cons_of_ne (h : e.task ≠ i) : label i (e :: tr) = label i tr := by
  cases e <;> simp_all [label, Event.task]

theorem hist_cons_of_ne (h : e.task ≠ i) : hist i (e :: tr) = hist i tr := by
  cases e <;> simp_all [hist, Event.task]

theorem phase_cons_of_ne (h : e.task ≠ i) : phase i (e :: tr) = phase i tr := by
  cases e <;> simp_all [phase, Event.task]

theorem Turn.phase {t : Nat} (h : Turn i t tr) : phase i tr = .running := by
  cases tr with
  | nil => cases h
  | cons e tr => cases e <;> simp_all [Turn, Effect.phase]

theorem hist_of_fresh (h : phase i tr = .fresh) : hist i tr = [] := by
  induction tr with
  | nil => rfl
  | cons e tr ih =>
    by_cases he : e.task = i
    · cases e <;> simp_all [phase, Event.task]
    · rw [phase_cons_of_ne he] at h
      rw [hist_cons_of_ne he, ih h]

theorem label_of_fresh (h : phase i tr = .fresh) : label i tr = none := by
  induction tr with
  | nil => rfl
  | cons e tr ih =>
    by_cases he : e.task = i
    · cases e <;> simp_all [phase, Event.task]
    · rw [phase_cons_of_ne he] at h
      rw [label_cons_of_ne he, ih h]

theorem called_of_waiting {op : Op} (h : phase i tr = .waiting op) : ∃ t, Event.called i t op ∈ tr := by
  induction tr with
  | nil => cases h
  | cons e tr ih =>
    by_cases he : e.task = i
    · cases e with
      | called j t op' =>
        obtain rfl : j = i := he
        obtain rfl : op' = op := by simpa [phase] using h
        exact ⟨t, List.mem_cons_self⟩
      | _ => simp_all [phase, Event.task]
    · obtain ⟨t, ht⟩ := ih (by rwa [phase_cons_of_ne he] at h)
      exact ⟨t, List.mem_cons_of_mem _ ht⟩

theorem performed_of_ready {op : Op} {r : Res op} (h : phase i tr = .ready op r) :
    ∃ t, Event.performed i t op r ∈ tr := by
  induction tr with
  | nil => cases h
  | cons e tr ih =>
    by_cases he : e.task = i
    · cases e with
      | performed j t op' r' =>
        obtain rfl : j = i := he
        obtain ⟨rfl, h⟩ : op' = op ∧ r' ≍ r := by simpa [phase] using h
        obtain rfl := eq_of_heq h
        exact ⟨t, List.mem_cons_self⟩
      | _ => simp_all [phase, Event.task]
    · obtain ⟨t, ht⟩ := ih (by rwa [phase_cons_of_ne he] at h)
      exact ⟨t, List.mem_cons_of_mem _ ht⟩

/-- The answered calls of a task are the events at which it was resumed. -/
theorem mem_hist {x : Entry Op Res} : x ∈ hist i tr ↔ Event.resumed i x.time x.op x.res ∈ tr := by
  induction tr with
  | nil => simp [hist]
  | cons e tr ih =>
    cases e with
    | resumed j t op r =>
      by_cases hj : j = i
      · subst hj
        obtain ⟨xop, xres, xtime⟩ := x
        simp only [hist, if_true, List.mem_cons, ih, Event.resumed.injEq, Entry.mk.injEq, true_and]
        exact or_congr_left (by tauto)
      · simp [hist, hj, ih, Ne.symm hj]
    | _ => simp [hist, ih]

end

/-! ## Worlds whose programs obey a contract -/

section
variable (S : System Op Res σ Λ α) (may : Λ → History Op Res → Op → Prop) (fin : Λ → History Op Res → α → Prop)
  (s₀ : σ)

/-- What event `e` asks of the shared state `s` and the trace before it, and the state it leaves. -/
def Legal (s : σ) (tr : Trace Op Res Λ α) (s' : σ) : Event Op Res Λ α → Prop
  | .spawned i _ _ => phase i tr = .fresh ∧ s' = s
  | .called i t op => Turn i t tr ∧ s' = s ∧ ∃ l, label i tr = some l ∧ may l (hist i tr) op
  | .performed i t op r =>
    phase i tr = .waiting op ∧ ∃ c, S.perform t op c s = (s', r) ∧
      ∀ c', S.eager op = some c' → c' = c ∧ ∃ tr', tr = .called i t op :: tr'
  | .resumed i _ op r => phase i tr = .ready op r ∧ s' = s
  | .finished i t a => Turn i t tr ∧ s' = s ∧ ∃ l, label i tr = some l ∧ fin l (hist i tr) a

/-- The clock, shared state and trace of a run of programs of which only the contract is known. -/
inductive Behaves : Nat → σ → Trace Op Res Λ α → Prop
  | init : Behaves 0 s₀ []
  | tick {t s tr} (d : Nat) : Behaves t s tr → Behaves (t + d) s tr
  | event {s s' tr e} : Behaves e.time s tr → Legal S may fin s tr s' e → Behaves e.time s' (e :: tr)

/-- What the trace says of a task is where its program stands, and the rest of the program obeys the
contract. -/
def Matches (tr : Trace Op Res Λ α) (i : Nat) : Option (Task Op Res α) → Prop
  | none => phase i tr = .fresh
  | some (.waiting op k) =>
    phase i tr = .waiting op ∧ S.eager op = none ∧
      ∃ l, label i tr = some l ∧ Prog.Obeys (may l) (fin l) (hist i tr) (.call op k)
  | some (.ready op k r) =>
    phase i tr = .ready op r ∧ ∃ l, label i tr = some l ∧ Prog.Obeys (may l) (fin l) (hist i tr) (.call op k)
  | some (.done a) => phase i tr = .done ∧ ∃ l, label i tr = some l ∧ fin l (hist i tr) a

/-- The events of the world are those of a run, and its tasks stand where the events say. -/
structure Linked (w : World Op Res σ Λ α) : Prop where
  behaves : Behaves S may fin s₀ w.clock w.shared w.trace
  tasks : ∀ i, Matches S may fin w.trace i (w.tasks i)

end

section
variable {S : System Op Res σ Λ α} {may : Λ → History Op Res → Op → Prop}
  {fin : Λ → History Op Res → α → Prop} {s₀ : σ} {w : World Op Res σ Λ α}

theorem Matches.cons_of_ne {tr : Trace Op Res Λ α} {i : Nat} {e : Event Op Res Λ α} (h : e.task ≠ i)
    {task : Option (Task Op Res α)} (hm : Matches S may fin tr i task) : Matches S may fin (e :: tr) i task := by
  unfold Matches at *
  simpa only [label_cons_of_ne h, hist_cons_of_ne h, phase_cons_of_ne h] using hm

theorem linked_take {i : Nat} {op : Op} {k : Res op → Nat → Prog Op Res α} {l : Λ} (c : S.Choice op)
    (hb : Behaves S may fin s₀ w.clock w.shared w.trace)
    (ht : ∀ j, j ≠ i → Matches S may fin w.trace j (w.tasks j)) (hphase : phase i w.trace = .waiting op)
    (heager : ∀ c', S.eager op = some c' → c' = c ∧ ∃ tr', w.trace = .called i w.clock op :: tr')
    (hl : label i w.trace = some l) (hp : Prog.Obeys (may l) (fin l) (hist i w.trace) (.call op k)) :
    Linked S may fin s₀ (S.take w i op k c) := by
  refine ⟨.event (e := .performed ..) hb ⟨hphase, c, rfl, heager⟩, fun j => ?_⟩
  by_cases hj : j = i
  · subst hj
    simp only [System.take, World.move, if_true]
    exact ⟨by simp [phase], l, hl, hp⟩
  · simp only [System.take, World.move, hj, if_false]
    exact (ht j hj).cons_of_ne (Ne.symm hj)

/-- Running a program to its next call keeps the link. -/
theorem linked_enter {i : Nat} {p : Prog Op Res α} {l : Λ}
    (hb : Behaves S may fin s₀ w.clock w.shared w.trace)
    (ht : ∀ j, j ≠ i → Matches S may fin w.trace j (w.tasks j)) (hturn : Turn i w.clock w.trace)
    (hl : label i w.trace = some l) (hp : Prog.Obeys (may l) (fin l) (hist i w.trace) p) :
    Linked S may fin s₀ (S.enter w i p) := by
  cases p with
  | ret a =>
    refine ⟨.event (e := .finished ..) hb ⟨hturn, rfl, l, hl, hp⟩, fun j => ?_⟩
    by_cases hj : j = i
    · subst hj
      simp only [System.enter, World.move, if_true]
      exact ⟨by simp [phase], l, hl, hp⟩
    · simp only [System.enter, World.move, hj, if_false]
      exact (ht j hj).cons_of_ne (Ne.symm hj)
  | call op k =>
    have hb' : Behaves S may fin s₀ w.clock w.shared (.called i w.clock op :: w.trace) :=
      .event (e := .called ..) hb ⟨hturn, rfl, l, hl, hp.1⟩
    have ht' : ∀ j, j ≠ i → Matches S may fin (.called i w.clock op :: w.trace) j (w.tasks j) :=
      fun j hj => (ht j hj).cons_of_ne (Ne.symm hj)
    -- an eager operation is performed in the same turn, any other leaves its task waiting
    cases heager : S.eager op with
    | none =>
      rw [System.enter_call_none S heager]
      refine ⟨hb', fun j => ?_⟩
      by_cases hj : j = i
      · subst hj
        simp only [World.move, if_true]
        exact ⟨by simp [phase], heager, l, hl, hp⟩
      · simp only [World.move, hj, if_false]
        exact ht' j hj
    | some c =>
      rw [System.enter_call_some S heager]
      refine linked_take c hb' (fun j hj => ?_) (by simp [World.move, phase]) ?_ hl hp
      · simp only [World.move, hj, if_false]
        exact ht' j hj
      · exact fun c' hc' => ⟨Option.some.inj (hc'.symm.trans heager), _, rfl⟩

theorem linked_step {w' : World Op Res σ Λ α} {a : Action S}
    (hcode : ∀ l, Prog.Obeys (may l) (fin l) [] (S.code l))
    (hw : Linked S may fin s₀ w) (h : S.step w a = some w') : Linked S may fin s₀ w' := by
  -- a task is fresh, waiting or ready, and only the action that fits what it is steps it
  cases a with
  | tick d =>
    cases h
    exact ⟨hw.behaves.tick d, hw.tasks⟩
  | spawn i l =>
    simp only [System.step] at h
    split at h
    · rename_i hnone
      have hfresh : phase i w.trace = .fresh := by simpa [hnone, Matches] using hw.tasks i
      cases h
      refine linked_enter (l := l) (.event (e := .spawned ..) hw.behaves ⟨hfresh, rfl⟩)
        (fun j hj => (hw.tasks j).cons_of_ne (Ne.symm hj)) ⟨rfl, rfl⟩ (by simp [label]) ?_
      simpa only [hist, hist_of_fresh hfresh] using hcode l
    · cases h
  | perform i c =>
    simp only [System.step] at h
    split at h
    · rename_i op k hi
      obtain ⟨hphase, heager, l, hl, hp⟩ : Matches S may fin w.trace i (some (.waiting op k)) := hi ▸ hw.tasks i
      cases h
      refine linked_take _ hw.behaves (fun j _ => hw.tasks j) hphase ?_ hl hp
      exact fun c' hc' => by cases heager.symm.trans hc'
    · cases h
  | resume i =>
    simp only [System.step] at h
    split at h
    · rename_i op k r hi
      obtain ⟨hphase, l, hl, hp⟩ : Matches S may fin w.trace i (some (.ready op k r)) := hi ▸ hw.tasks i
      cases h
      refine linked_enter (.event (e := .resumed ..) hw.behaves ⟨hphase, rfl⟩) (fun j hj => (hw.tasks j).cons_of_ne (Ne.symm hj))
        ⟨rfl, rfl⟩ hl ?_
      simpa [hist] using hp.2 r w.clock
    · cases h

/-- Whatever the schedule, a run of programs that obey the contract behaves as the contract says. -/
theorem System.Reach.linked (hcode : ∀ l, Prog.Obeys (may l) (fin l) [] (S.code l)) (hw : S.Reach s₀ w) :
    Linked S may fin s₀ w := by
  induction hw with
  | init => exact ⟨.init, fun _ => rfl⟩
  | step a _ h ih => exact linked_step hcode ih h

theorem System.Reach.behaves (hcode : ∀ l, Prog.Obeys (may l) (fin l) [] (S.code l)) (hw : S.Reach s₀ w) :
    Behaves S may fin s₀ w.clock w.shared w.trace :=
  (hw.linked hcode).behaves

/-! ## What a contract says of a trace -/

variable {t : Nat} {s : σ} {tr pre post : Trace Op Res Λ α} {i : Nat}

/-- The run up to the latest event, and that event. -/
theorem Behaves.inv {e : Event Op Res Λ α} (h : Behaves S may fin s₀ t s (e :: tr)) :
    e.time ≤ t ∧ ∃ s', Behaves S may fin s₀ e.time s' tr ∧ Legal S may fin s' tr s e := by
  generalize htr : e :: tr = tr' at h
  induction h with
  | init => cases htr
  | tick d _ ih =>
    obtain ⟨hle, hs⟩ := ih htr
    exact ⟨hle.trans (Nat.le_add_right _ d), hs⟩
  | event hb hl =>
    cases htr
    exact ⟨le_rfl, _, hb, hl⟩

/-- What holds of the shared state and the trace in every run: it holds at the start, stays as time passes
and as tasks move on, and is kept by every operation that takes effect. -/
theorem Behaves.induct {I : Nat → σ → Trace Op Res Λ α → Prop} (hinit : I 0 s₀ [])
    (htick : ∀ t d s tr, I t s tr → I (t + d) s tr)
    (hmove : ∀ e s tr, (∀ i t op r, e ≠ .performed i t op r) → I e.time s tr → I e.time s (e :: tr))
    (hperform : ∀ i t op c s tr, Behaves S may fin s₀ t s tr → phase i tr = .waiting op → I t s tr →
      I t (S.perform t op c s).1 (.performed i t op (S.perform t op c s).2 :: tr))
    (h : Behaves S may fin s₀ t s tr) : I t s tr := by
  induction h with
  | init => exact hinit
  | tick d _ ih => exact htick _ d _ _ ih
  | @event s s' tr e hb hlegal ih =>
    cases e with
    | performed i t op r =>
      obtain ⟨hphase, c, hperf, -⟩ := hlegal
      have hkept := hperform i t op c s tr hb hphase ih
      rwa [hperf] at hkept
    | spawned i t l => exact hlegal.2 ▸ hmove _ s tr (by simp) ih
    | called i t op => exact hlegal.2.1 ▸ hmove _ s tr (by simp) ih
    | resumed i t op r => exact hlegal.2 ▸ hmove _ s tr (by simp) ih
    | finished i t x => exact hlegal.2.1 ▸ hmove _ s tr (by simp) ih

/-- A run can be cut after any event. -/
theorem Behaves.cut {e : Event Op Res Λ α} (h : Behaves S may fin s₀ t s (post ++ e :: pre)) :
    e.time ≤ t ∧ ∃ s', Behaves S may fin s₀ e.time s' (e :: pre) := by
  induction post generalizing t s with
  | nil =>
    obtain ⟨hle, s', hb, hl⟩ := h.inv
    exact ⟨hle, s, .event hb hl⟩
  | cons e' post ih =>
    obtain ⟨hle, s', hb, hl⟩ := h.inv
    obtain ⟨hle', hcut⟩ := ih hb
    exact ⟨hle'.trans hle, hcut⟩

theorem Behaves.label_append {l : Λ} (h : Behaves S may fin s₀ t s (post ++ pre)) (hl : label i pre = some l) :
    label i (post ++ pre) = some l := by
  induction post generalizing t s with
  | nil => exact hl
  | cons e post ih =>
    obtain ⟨-, s', hb, hlegal⟩ := h.inv
    have hlab := ih hb
    cases e with
    | spawned j tj lj =>
      by_cases hj : j = i
      · subst hj
        cases hlab.symm.trans (label_of_fresh hlegal.1)
      · rw [List.cons_append, label_cons_of_ne (e := .spawned j tj lj) hj]
        exact hlab
    | _ => exact hlab

/-- A call is one the contract allows after the calls answered before it. -/
theorem Behaves.called_may {tc : Nat} {op : Op} (h : Behaves S may fin s₀ t s (post ++ .called i tc op :: pre)) :
    Turn i tc pre ∧ ∃ l, label i pre = some l ∧ label i (post ++ .called i tc op :: pre) = some l ∧
      may l (hist i pre) op := by
  obtain ⟨-, s', hcut⟩ := h.cut
  obtain ⟨-, s'', -, hturn, -, l, hl, hmay⟩ := hcut.inv
  exact ⟨hturn, l, hl, h.label_append hl, hmay⟩

/-- A task that goes on does so at the time of its latest answer. -/
theorem Behaves.turn_time {t' : Nat} {x : Entry Op Res} {h' : History Op Res} (h : Behaves S may fin s₀ t s tr)
    (hturn : Turn i t' tr) (hx : hist i tr = x :: h') : x.time = t' := by
  cases tr with
  | nil => cases hturn
  | cons e tr =>
    cases e with
    | spawned j tj l =>
      obtain ⟨rfl, -⟩ := hturn
      obtain ⟨-, s', -, hfresh, -⟩ := h.inv
      rw [show hist j (.spawned j tj l :: tr) = hist j tr from rfl, hist_of_fresh hfresh] at hx
      cases hx
    | resumed j tj op r =>
      obtain ⟨rfl, rfl⟩ := hturn
      simp only [hist, if_true, List.cons.injEq] at hx
      rw [← hx.1]
    | _ => cases hturn

/-- An outcome is one the contract allows after the calls answered before it. -/
theorem Behaves.finished_fin {tf : Nat} {a : α} (h : Behaves S may fin s₀ t s (post ++ .finished i tf a :: pre)) :
    ∃ l, label i (post ++ .finished i tf a :: pre) = some l ∧ fin l (hist i pre) a := by
  obtain ⟨-, s', hcut⟩ := h.cut
  obtain ⟨-, s'', -, -, -, l, hl, hfin⟩ := hcut.inv
  exact ⟨l, h.label_append hl, hfin⟩

/-- Of two events in a trace one came first. -/
theorem first_of_two {e e' : Event Op Res Λ α} (he : e ∈ tr) (he' : e' ∈ tr) (hne : e ≠ e') :
    (∃ post pre, tr = post ++ e' :: pre ∧ e ∈ pre) ∨ ∃ post pre, tr = post ++ e :: pre ∧ e' ∈ pre := by
  obtain ⟨post, pre, rfl⟩ := List.append_of_mem he'
  rcases List.mem_append.1 he with hpost | hpre
  · obtain ⟨post₁, post₂, rfl⟩ := List.append_of_mem hpost
    refine .inr ⟨post₁, post₂ ++ e' :: pre, ?_, List.mem_append_right _ List.mem_cons_self⟩
    rw [List.append_assoc, List.cons_append]
  · exact .inl ⟨post, pre, rfl, (List.mem_cons.1 hpre).resolve_left hne⟩

/-- What a task was resumed with is what its operation gave when it took effect, no later. -/
theorem Behaves.resumed_performed {t' : Nat} {op : Op} {r : Res op}
    (h : Behaves S may fin s₀ t s (post ++ .resumed i t' op r :: pre)) :
    ∃ t₀, t₀ ≤ t' ∧ Event.performed i t₀ op r ∈ pre := by
  obtain ⟨-, s', hcut⟩ := h.cut
  obtain ⟨-, s'', hb, hready, -⟩ := hcut.inv
  obtain ⟨t₀, ht₀⟩ := performed_of_ready hready
  obtain ⟨post', pre', hpre⟩ := List.append_of_mem ht₀
  rw [hpre] at hb
  exact ⟨t₀, hb.cut.1, ht₀⟩

/-- The next event of a task that waits for an operation is that it takes effect. -/
theorem Legal.of_waiting {s' : σ} {e : Event Op Res Λ α} {op : Op} (h : Legal S may fin s tr s' e) (he : e.task = i)
    (hw : phase i tr = .waiting op) : ∃ t r, e = .performed i t op r := by
  cases e with
  | performed j tj op' r =>
    obtain rfl : j = i := he
    obtain rfl : op = op' := by simpa using hw.symm.trans h.1
    exact ⟨tj, r, rfl⟩
  | spawned j _ _ | resumed j _ _ _ =>
    obtain rfl : j = i := he
    cases hw.symm.trans h.1
  | called j _ _ | finished j _ _ =>
    obtain rfl : j = i := he
    cases hw.symm.trans h.1.phase

/-- The next event of a task whose answer is there is that it goes on with it. -/
theorem Legal.of_ready {s' : σ} {e : Event Op Res Λ α} {op : Op} {r : Res op} (h : Legal S may fin s tr s' e)
    (he : e.task = i) (hr : phase i tr = .ready op r) : ∃ t, e = .resumed i t op r := by
  cases e with
  | resumed j tj op' r' =>
    obtain rfl : j = i := he
    obtain ⟨rfl, hrr⟩ : op = op' ∧ r ≍ r' := by simpa using hr.symm.trans h.1
    obtain rfl := eq_of_heq hrr
    exact ⟨tj, rfl⟩
  | spawned j _ _ | performed j _ _ _ =>
    obtain rfl : j = i := he
    cases hr.symm.trans h.1
  | called j _ _ | finished j _ _ =>
    obtain rfl : j = i := he
    cases hr.symm.trans h.1.phase

/-- An operation that has taken effect has been answered, or its answer is about to be delivered. -/
theorem Behaves.answered {t₀ : Nat} {op : Op} {r : Res op} (h : Behaves S may fin s₀ t s tr)
    (hp : Event.performed i t₀ op r ∈ tr) : (∃ t', ⟨op, r, t'⟩ ∈ hist i tr) ∨ phase i tr = .ready op r := by
  induction h with
  | init => cases hp
  | tick d _ ih => exact ih hp
  | @event s s' tr e hb hlegal ih =>
    rcases List.mem_cons.1 hp with rfl | hp
    · exact .inr (by simp [phase])
    rcases ih hp with ⟨t', hmem⟩ | hready
    · exact .inl ⟨t', mem_hist.2 (List.mem_cons_of_mem _ (mem_hist.1 hmem))⟩
    by_cases he : e.task = i
    · obtain ⟨t', rfl⟩ := hlegal.of_ready he hready
      exact .inl ⟨t', mem_hist.2 List.mem_cons_self⟩
    · exact .inr (by rwa [phase_cons_of_ne he])

/-- A task that has called an operation is waiting for its answer, or has it. -/
theorem Behaves.pending {tc : Nat} {op : Op} (h : Behaves S may fin s₀ t s tr) (hc : Event.called i tc op ∈ tr) :
    (∃ r t', ⟨op, r, t'⟩ ∈ hist i tr) ∨ phase i tr = .waiting op ∨ ∃ r, phase i tr = .ready op r := by
  induction h with
  | init => cases hc
  | tick d _ ih => exact ih hc
  | @event s s' tr e hb hlegal ih =>
    rcases List.mem_cons.1 hc with rfl | hc
    · exact .inr (.inl (by simp [phase]))
    rcases ih hc with ⟨r, t', hmem⟩ | hrest
    · exact .inl ⟨r, t', mem_hist.2 (List.mem_cons_of_mem _ (mem_hist.1 hmem))⟩
    by_cases he : e.task = i
    · rcases hrest with hwait | ⟨r, hready⟩
      · obtain ⟨t', r, rfl⟩ := hlegal.of_waiting he hwait
        exact .inr (.inr ⟨r, by simp [phase]⟩)
      · obtain ⟨t', rfl⟩ := hlegal.of_ready he hready
        exact .inl ⟨r, t', mem_hist.2 List.mem_cons_self⟩
    · rw [phase_cons_of_ne he]
      exact .inr hrest

theorem Behaves.time_le {e : Event Op Res Λ α} (h : Behaves S may fin s₀ t s tr) (he : e ∈ tr) : e.time ≤ t := by
  obtain ⟨post, pre, rfl⟩ := List.append_of_mem he
  exact h.cut.1

/-- When a task goes on, all its operations have been answered. -/
theorem Behaves.turn_answered {t₀ t' : Nat} {op : Op} {r : Res op} (h : Behaves S may fin s₀ t s tr)
    (hturn : Turn i t' tr) (hp : Event.performed i t₀ op r ∈ tr) : ∃ t', ⟨op, r, t'⟩ ∈ hist i tr := by
  rcases h.answered hp with hmem | hready
  · exact hmem
  · cases hturn.phase.symm.trans hready

theorem Behaves.turn_called {t' tc : Nat} {op : Op} (h : Behaves S may fin s₀ t s tr) (hturn : Turn i t' tr)
    (hc : Event.called i tc op ∈ tr) : ∃ r t', ⟨op, r, t'⟩ ∈ hist i tr := by
  rcases h.pending hc with hmem | hwait | ⟨r, hready⟩
  · exact hmem
  · cases hturn.phase.symm.trans hwait
  · cases hturn.phase.symm.trans hready

/-- An operation about to take effect is one the contract allows after the calls answered before it, and
every earlier operation of the task has been answered. -/
theorem Behaves.performing {op : Op} (h : Behaves S may fin s₀ t s tr) (hw : phase i tr = .waiting op) :
    ∃ l, label i tr = some l ∧ may l (hist i tr) op ∧
      ∀ t₀ op' r', Event.performed i t₀ op' r' ∈ tr → ∃ t', ⟨op', r', t'⟩ ∈ hist i tr := by
  induction h with
  | init => cases hw
  | tick d _ ih => exact ih hw
  | @event s s' tr e hb hlegal ih =>
    by_cases he : e.task = i
    · cases e with
      | called j tj op' =>
        obtain rfl : j = i := he
        obtain rfl : op' = op := by simpa [phase] using hw
        obtain ⟨hturn, rfl, l, hl, hmay⟩ := hlegal
        exact ⟨l, hl, hmay, fun t₀ op' r' hp => hb.turn_answered hturn (by simpa using hp)⟩
      | _ => simp_all [phase, Event.task]
    · rw [phase_cons_of_ne he] at hw
      obtain ⟨l, hl, hmay, hans⟩ := ih hw
      rw [label_cons_of_ne he, hist_cons_of_ne he]
      refine ⟨l, hl, hmay, fun t₀ op' r' hp => hans t₀ op' r' ?_⟩
      rcases List.mem_cons.1 hp with rfl | hp
      · exact absurd rfl he
      · exact hp

/-- The run up to an operation that took effect, and what the contract says of it there. -/
theorem Behaves.performed_at {t₀ : Nat} {op : Op} {r : Res op} (h : Behaves S may fin s₀ t s tr)
    (hp : Event.performed i t₀ op r ∈ tr) :
    ∃ post pre s', tr = post ++ .performed i t₀ op r :: pre ∧ Behaves S may fin s₀ t₀ s' pre ∧
      ∃ l, label i tr = some l ∧ may l (hist i pre) op := by
  obtain ⟨post, pre, rfl⟩ := List.append_of_mem hp
  obtain ⟨-, s', hcut⟩ := h.cut
  obtain ⟨-, s'', hb, hphase, -⟩ := hcut.inv
  obtain ⟨l, hl, hmay, -⟩ := hb.performing hphase
  exact ⟨post, pre, s'', rfl, hb, l, h.label_append hl, hmay⟩

theorem Behaves.called_of_performed {t₀ : Nat} {op : Op} {r : Res op} (h : Behaves S may fin s₀ t s tr)
    (hp : Event.performed i t₀ op r ∈ tr) : ∃ tc, Event.called i tc op ∈ tr := by
  obtain ⟨post, pre, rfl⟩ := List.append_of_mem hp
  obtain ⟨-, s', hcut⟩ := h.cut
  obtain ⟨-, s'', -, hphase, -⟩ := hcut.inv
  obtain ⟨tc, htc⟩ := called_of_waiting hphase
  exact ⟨tc, List.mem_append_right _ (List.mem_cons_of_mem _ htc)⟩

/-- An answered call of a task has taken effect. -/
theorem Behaves.performed_of_hist {x : Entry Op Res} (h : Behaves S may fin s₀ t s tr) (hx : x ∈ hist i tr) :
    ∃ t₀, t₀ ≤ x.time ∧ Event.performed i t₀ x.op x.res ∈ tr := by
  obtain ⟨post, pre, rfl⟩ := List.append_of_mem (mem_hist.1 hx)
  obtain ⟨t₀, hle, hp⟩ := h.resumed_performed
  exact ⟨t₀, hle, List.mem_append_right _ (List.mem_cons_of_mem _ hp)⟩

/-- Operation `op` of task `i` takes effect between `w` and `w'`, and no other does. -/
structure Takes (w w' : World Op Res σ Λ α) (i : Nat) (op : Op) (c : S.Choice op) : Prop where
  shared : w'.shared = (S.perform w.clock op c w.shared).1
  clock : w'.clock = w.clock
  trace : ∃ before, w'.trace = .performed i w.clock op (S.perform w.clock op c w.shared).2 :: (before ++ w.trace) ∧
    ∀ e ∈ before, ∀ j t op r, e ≠ .performed j t op r

/-- A step changes the shared state only where an operation takes effect. -/
theorem System.step_shared {w' : World Op Res σ Λ α} {a : Action S} (h : S.step w a = some w') :
    w'.shared = w.shared ∨ ∃ i op c, Takes (S := S) w w' i op c := by
  -- entering a program performs an operation only where its first one is eager
  have henter : ∀ (e : Event Op Res Λ α) i p, (∀ j t op r, e ≠ .performed j t op r) →
      (S.enter { w with trace := e :: w.trace } i p).shared = w.shared ∨
        ∃ j op c, Takes (S := S) w (S.enter { w with trace := e :: w.trace } i p) j op c := by
    intro e i p he
    cases p with
    | ret a => exact .inl rfl
    | call op k =>
      cases heager : S.eager op with
      | none =>
        rw [System.enter_call_none S heager]
        exact .inl rfl
      | some c =>
        rw [System.enter_call_some S heager]
        refine .inr ⟨i, op, c, rfl, rfl, [.called i w.clock op, e], rfl, ?_⟩
        simpa using he
  cases a with
  | tick d =>
    cases h
    exact .inl rfl
  | spawn i l =>
    simp only [System.step] at h
    split at h
    · cases h
      exact henter _ i _ (by simp)
    · cases h
  | perform i c =>
    simp only [System.step] at h
    split at h
    · rename_i op k hi
      cases h
      exact .inr ⟨i, op, c op, rfl, rfl, [], rfl, by simp⟩
    · cases h
  | resume i =>
    simp only [System.step] at h
    split at h
    · cases h
      exact henter _ i _ (by simp)
    · cases h

end

end
end Xahc.Effect

/-
Programs over a state that may panic, and that may also end in a trap, which is no panic: the rules to show that a
program ends without one, in its value or in a trap, the rules for how it leaves the state wherever it ends, and the rules to
show that it ends as a plain program does.
-/
import Xahc.Data.Checked

namespace Xahc.Data

/-- A program over a state of type `σ` that may trap with an `ε`. -/
abbrev Trapping (σ ε α : Type) := ExceptT ε (StateT σ Checked) α

namespace Trapping

variable {σ ε α β : Type}

/-- The program panics. -/
def Panics (x : Trapping σ ε α) (s : σ) : Prop := ∃ p, x.run.run s = .error p

/-- The program ends in a trap, or in a value and a state that are as told. -/
def Ends (x : Trapping σ ε α) (s : σ) (q : α → σ → Prop) : Prop :=
  ∃ r s', x.run.run s = .ok (r, s') ∧ ∀ a, r = .ok a → q a s'

variable {x : Trapping σ ε α} {f : α → Trapping σ ε β} {s : σ} {p : α → σ → Prop} {q : β → σ → Prop}

theorem not_panics {r : Except ε α} {s' : σ} (hrun : x.run.run s = .ok (r, s')) : ¬Panics x s := by
  rintro ⟨e, he⟩
  rw [hrun] at he
  cases he

/-- Where it ends in a value, that one and the state are as told. -/
theorem Ends.value (h : Ends x s p) {a : α} {s' : σ} (hrun : x.run.run s = .ok (.ok a, s')) : p a s' := by
  obtain ⟨r, s'', hx, hp⟩ := h
  rw [hx] at hrun
  cases hrun
  exact hp a rfl

/-! ## Rules -/

theorem ends_pure {a : α} (h : p a s) : Ends (pure a : Trapping σ ε α) s p := ⟨.ok a, s, rfl, fun _ ha => Except.ok.inj ha ▸ h⟩

theorem ends_throw (e : ε) : Ends (throw e : Trapping σ ε α) s p := ⟨.error e, s, rfl, fun _ h => nomatch h⟩

theorem run_bind {a : α} {s' : σ} (hx : x.run.run s = .ok (.ok a, s')) : (x >>= f).run.run s = (f a).run.run s' := by
  show (x.run.run s >>= fun r => (ExceptT.bindCont f r.1).run r.2) = _
  rw [hx]
  rfl

/-- What follows a trap does not run. -/
theorem run_bind_trap {e : ε} {s' : σ} (hx : x.run.run s = .ok (.error e, s')) :
    (x >>= f).run.run s = .ok (.error e, s') := by
  show (x.run.run s >>= fun r => (ExceptT.bindCont f r.1).run r.2) = _
  rw [hx]
  rfl

theorem run_get {f : σ → Trapping σ ε β} : (get >>= f).run.run s = (f s).run.run s := rfl

theorem run_modify {g : σ → σ} {f : PUnit → Trapping σ ε β} : (modify g >>= f).run.run s = (f ⟨⟩).run.run (g s) := rfl

/-- A step that leaves the state alone. -/
theorem run_step {c : Checked α} {a : α} (hc : c = .ok a) : (liftM c >>= f).run.run s = (f a).run.run s := by
  subst hc
  rfl

theorem Ends.bind (h : Ends x s fun a s' => Ends (f a) s' q) : Ends (x >>= f) s q := by
  obtain ⟨r, s', hx, hf⟩ := h
  cases r with
  | error e => exact ⟨.error e, s', run_bind_trap hx, fun _ h => nomatch h⟩
  | ok a =>
    obtain ⟨r, s'', hfa, hq⟩ := hf a rfl
    exact ⟨r, s'', (run_bind hx).trans hfa, hq⟩

theorem ends_ite {c : Prop} [Decidable c] {x y : Trapping σ ε α} (hx : c → Ends x s p) (hy : ¬c → Ends y s p) :
    Ends (if c then x else y) s p := by
  by_cases h : c
  · rw [if_pos h]
    exact hx h
  · rw [if_neg h]
    exact hy h

/-- A step that leaves the state alone and does not panic. -/
theorem ends_step {c : Checked α} {a : α} (hc : c = .ok a) (h : Ends (f a) s q) : Ends (liftM c >>= f) s q := by
  subst hc
  exact h

theorem ends_last {c : Checked α} {a : α} (hc : c = .ok a) (h : p a s) : Ends (liftM c : Trapping σ ε α) s p := by
  subst hc
  exact ends_pure h

theorem ends_get {f : σ → Trapping σ ε β} (h : Ends (f s) s q) : Ends (get >>= f) s q := h

theorem ends_modify {g : σ → σ} {f : PUnit → Trapping σ ε β} (h : Ends (f ⟨⟩) (g s) q) : Ends (modify g >>= f) s q := h

theorem panics_here {c : Checked α} {e : Panic} (hc : c = .error e) : Panics (liftM c >>= f) s := by
  subst hc
  exact ⟨e, rfl⟩

/-- A step that does not panic, before one that does. -/
theorem panics_after {a : α} {s' : σ} (hx : x.run.run s = .ok (.ok a, s')) (h : Panics (f a) s') : Panics (x >>= f) s := by
  obtain ⟨e, he⟩ := h
  exact ⟨e, (run_bind hx).trans he⟩

theorem panics_step {c : Checked α} {a : α} (hc : c = .ok a) (h : Panics (f a) s) : Panics (liftM c >>= f) s := by
  subst hc
  exact h

/-! ## Every end -/

/-- A trap is no value. -/
theorem trap_no_value {e : ε} {t : α → Prop} (a : α) (h : (.error e : Except ε α) = .ok a) : t a := by cases h

/-- Wherever the program ends, in a value or in a trap, its end and the state are as told. -/
def Leaves (x : Trapping σ ε α) (s : σ) (q : Except ε α → σ → Prop) : Prop := ∀ r s', x.run.run s = .ok (r, s') → q r s'

section
variable {r : Except ε α → σ → Prop} {t : Except ε β → σ → Prop}

theorem leaves_pure {a : α} (h : r (.ok a) s) : Leaves (pure a : Trapping σ ε α) s r := by
  intro _ _ hrun
  cases hrun
  exact h

theorem leaves_throw {e : ε} (h : r (.error e) s) : Leaves (throw e : Trapping σ ε α) s r := by
  intro _ _ hrun
  cases hrun
  exact h

theorem Leaves.mono {r' : Except ε α → σ → Prop} (h : Leaves x s r) (himp : ∀ e s', r e s' → r' e s') : Leaves x s r' :=
  fun e s' hrun => himp e s' (h e s' hrun)

/-- A trap is where the whole ends; a value is handed on. -/
theorem Leaves.bind (h : Leaves x s r) (htrap : ∀ e s', r (.error e) s' → t (.error e) s')
    (hvalue : ∀ a s', r (.ok a) s' → Leaves (f a) s' t) : Leaves (x >>= f) s t := by
  intro end' s' hrun
  cases hx : x.run.run s with
  | error p =>
    have hpanic : (x >>= f).run.run s = .error p := by
      show (x.run.run s >>= fun r => (ExceptT.bindCont f r.1).run r.2) = _
      rw [hx]
      rfl
    rw [hpanic] at hrun
    cases hrun
  | ok mid =>
    obtain ⟨e | a, smid⟩ := mid
    · rw [run_bind_trap hx] at hrun
      cases hrun
      exact htrap e _ (h _ _ hx)
    · rw [run_bind hx] at hrun
      exact hvalue a _ (h _ _ hx) _ _ hrun

theorem leaves_ite {c : Prop} [Decidable c] {x y : Trapping σ ε α} (hx : c → Leaves x s r) (hy : ¬c → Leaves y s r) :
    Leaves (if c then x else y) s r := by
  by_cases h : c
  · rw [if_pos h]
    exact hx h
  · rw [if_neg h]
    exact hy h

/-- A step that leaves the state alone and may panic. -/
theorem leaves_step {c : Checked α} (h : ∀ a, c = .ok a → Leaves (f a) s t) : Leaves (liftM c >>= f) s t := by
  cases c with
  | error p =>
    intro _ _ hrun
    cases hrun
  | ok a => exact h a rfl

theorem leaves_last {c : Checked α} (h : ∀ a, c = .ok a → r (.ok a) s) : Leaves (liftM c : Trapping σ ε α) s r := by
  cases c with
  | error p =>
    intro _ _ hrun
    cases hrun
  | ok a => exact leaves_pure (h a rfl)

theorem leaves_get {f : σ → Trapping σ ε β} (h : Leaves (f s) s t) : Leaves (get >>= f) s t := h

theorem leaves_modify {g : σ → σ} {f : PUnit → Trapping σ ε β} (h : Leaves (f ⟨⟩) (g s) t) :
    Leaves (modify g >>= f) s t := h

end

/-! ## Programs that follow a plain one -/

/-- The program ends as the plain one does: in a trap where that one fails, and in a value where that one has one. -/
def Mirrors {δ γ : Type} (x : Trapping σ ε α) (s : σ) (y : Except δ γ) (fails : δ → ε → σ → Prop)
    (q : γ → α → σ → Prop) : Prop :=
  (∃ d e s', y = .error d ∧ x.run.run s = .ok (.error e, s') ∧ fails d e s') ∨
    ∃ c a s', y = .ok c ∧ x.run.run s = .ok (.ok a, s') ∧ q c a s'

section
variable {δ γ κ : Type} {y : Except δ γ} {g : γ → Except δ κ} {fails : δ → ε → σ → Prop} {v : γ → α → σ → Prop}
  {w : κ → β → σ → Prop}

theorem mirrors_ok {c : γ} {a : α} (h : v c a s) : Mirrors (pure a : Trapping σ ε α) s (.ok c) fails v :=
  .inr ⟨c, a, s, rfl, rfl, h⟩

/-- A step the plain program does not take. -/
theorem mirrors_run {a : α} {s' : σ} {z : Except δ κ} (hx : x.run.run s = .ok (.ok a, s'))
    (h : Mirrors (f a) s' z fails w) : Mirrors (x >>= f) s z fails w := by
  rcases h with ⟨d, e, t, hz, hrun, hfail⟩ | ⟨c, b, t, hz, hrun, hw⟩
  · exact .inl ⟨d, e, t, hz, (run_bind hx).trans hrun, hfail⟩
  · exact .inr ⟨c, b, t, hz, (run_bind hx).trans hrun, hw⟩

theorem Mirrors.bind (h : Mirrors x s y fails v) (hf : ∀ c a s', y = .ok c → v c a s' → Mirrors (f a) s' (g c) fails w) :
    Mirrors (x >>= f) s (y >>= g) fails w := by
  rcases h with ⟨d, e, t, rfl, hrun, hfail⟩ | ⟨c, a, t, rfl, hrun, hv⟩
  · exact .inl ⟨d, e, t, rfl, run_bind_trap hrun, hfail⟩
  · exact mirrors_run hrun (hf c a t rfl hv)

theorem mirrors_ite {c c' : Prop} [Decidable c] [Decidable c'] {x x' : Trapping σ ε α} {y y' : Except δ γ} (hc : c ↔ c')
    (hthen : c' → Mirrors x s y fails v) (helse : ¬c' → Mirrors x' s y' fails v) :
    Mirrors (if c then x else x') s (if c' then y else y') fails v := by
  by_cases h : c'
  · rw [if_pos h, if_pos (hc.2 h)]
    exact hthen h
  · rw [if_neg h, if_neg (mt hc.1 h)]
    exact helse h

theorem Mirrors.mono {fails' : δ → ε → σ → Prop} {v' : γ → α → σ → Prop} (h : Mirrors x s y fails v)
    (hfails : ∀ d e s', y = .error d → fails d e s' → fails' d e s') (hv : ∀ c a s', y = .ok c → v c a s' → v' c a s') :
    Mirrors x s y fails' v' := by
  rcases h with ⟨d, e, t, rfl, hrun, hfail⟩ | ⟨c, a, t, rfl, hrun, h⟩
  · exact .inl ⟨d, e, t, rfl, hrun, hfails _ _ _ rfl hfail⟩
  · exact .inr ⟨c, a, t, rfl, hrun, hv _ _ _ rfl h⟩

/-- A first part whose traps mean more for the whole. -/
theorem Mirrors.bind_mono {fails' : δ → ε → σ → Prop} (h : Mirrors x s y fails v)
    (hfails : ∀ d e s', y = .error d → fails d e s' → fails' d e s')
    (hf : ∀ c a s', y = .ok c → v c a s' → Mirrors (f a) s' (g c) fails' w) : Mirrors (x >>= f) s (y >>= g) fails' w :=
  (h.mono hfails fun _ _ _ _ hv => hv).bind hf

end

end Trapping

end Xahc.Data

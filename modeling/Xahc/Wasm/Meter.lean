/-
Runs of one program under two meterings. Nothing but `_g` looks at the crossing counts, so as long as
neither run goes over a limit the two runs agree on everything else.
-/
import Xahc.Wasm.Exec

namespace Xahc.Wasm

section
variable {π σ : Type}

/-! ## Results up to crossing counts -/

/-- The store without the guards' counts. -/
def Store.visible (s : Store σ) : Store σ := { s with guards := fun _ => 0 }

/-- The result without the crossing counts: how the run ends, the stack, the locals and the host's side,
with the emitted blobs and the state written. -/
def Res.visible : Res σ → Res σ
  | .next st s => .next st s.visible
  | .br l args s => .br l args s.visible
  | .stop why s => .stop why s.visible

theorem visible_host {s₁ s₂ : Store σ} (h : s₁.visible = s₂.visible) : s₁.host = s₂.host := by
  show s₁.visible.host = s₂.visible.host
  rw [h]

theorem visible_locals {s₁ s₂ : Store σ} (h : s₁.visible = s₂.visible) : s₁.locals = s₂.locals := by
  show s₁.visible.locals = s₂.visible.locals
  rw [h]

/-- A guard was crossed more than its limit. -/
def Res.violates : Res σ → Bool
  | .stop (.halt (.guardViolation _)) _ => true
  | _ => false

/-- Two results agree unless one of the runs went over a limit. -/
def Agree (r₁ r₂ : Res σ) : Prop := r₁.violates = true ∨ r₂.violates = true ∨ r₁.visible = r₂.visible

theorem Agree.next {s₁ s₂ : Store σ} (h : s₁.visible = s₂.visible) (st : List Value) :
    Agree (.next st s₁) (.next st s₂) := .inr (.inr (congrArg (Res.next st) h))

theorem Agree.br {s₁ s₂ : Store σ} (h : s₁.visible = s₂.visible) (l : Nat) (args : List Value) :
    Agree (.br l args s₁) (.br l args s₂) := .inr (.inr (congrArg (Res.br l args) h))

theorem Agree.stop {s₁ s₂ : Store σ} (h : s₁.visible = s₂.visible) (why : Stop) :
    Agree (.stop why s₁) (.stop why s₂) := .inr (.inr (congrArg (Res.stop why) h))

/-- Two results that agree: a run over its limit, or the same result in stores that look alike. -/
theorem Agree.elim {r₁ r₂ : Res σ} (h : Agree r₁ r₂) {P : Res σ → Res σ → Prop}
    (left : ∀ id s, P (.stop (.halt (.guardViolation id)) s) r₂) (right : ∀ id s, P r₁ (.stop (.halt (.guardViolation id)) s))
    (next : ∀ st s₁ s₂, s₁.visible = s₂.visible → P (.next st s₁) (.next st s₂))
    (br : ∀ l args s₁ s₂, s₁.visible = s₂.visible → P (.br l args s₁) (.br l args s₂))
    (stop : ∀ why s₁ s₂, s₁.visible = s₂.visible → P (.stop why s₁) (.stop why s₂)) : P r₁ r₂ := by
  rcases h with h | h | h
  · cases r₁ with
    | stop why s =>
      match why, h with
      | .halt (.guardViolation id), _ => exact left id s
    | _ => cases h
  · cases r₂ with
    | stop why s =>
      match why, h with
      | .halt (.guardViolation id), _ => exact right id s
    | _ => cases h
  · cases r₁ <;> cases r₂ <;> simp only [Res.visible, Res.next.injEq, Res.br.injEq, Res.stop.injEq, reduceCtorEq] at h
    · obtain ⟨rfl, h⟩ := h
      exact next _ _ _ h
    · obtain ⟨rfl, rfl, h⟩ := h
      exact br _ _ _ _ h
    · obtain ⟨rfl, h⟩ := h
      exact stop _ _ _ h

theorem Agree.andThen {r₁ r₂ : Res σ} (h : Agree r₁ r₂) {f₁ f₂ : List Value → Store σ → Res σ}
    (hf : ∀ st s₁ s₂, s₁.visible = s₂.visible → Agree (f₁ st s₁) (f₂ st s₂)) :
    Agree (r₁.andThen f₁) (r₂.andThen f₂) := by
  refine h.elim (P := fun r₁ r₂ => Agree (r₁.andThen f₁) (r₂.andThen f₂)) ?_ ?_ ?_ ?_ ?_
  · exact fun _ _ => .inl rfl
  · exact fun _ _ => .inr (.inl rfl)
  · exact fun st s₁ s₂ hs => hf st s₁ s₂ hs
  · exact fun l args s₁ s₂ hs => .br hs l args
  · exact fun why s₁ s₂ hs => .stop hs why

theorem Agree.again {r₁ r₂ : Res σ} (h : Agree r₁ r₂) {f₁ f₂ : List Value → Store σ → Res σ}
    (hf : ∀ st s₁ s₂, s₁.visible = s₂.visible → Agree (f₁ st s₁) (f₂ st s₂)) : Agree (r₁.again f₁) (r₂.again f₂) := by
  refine h.elim (P := fun r₁ r₂ => Agree (r₁.again f₁) (r₂.again f₂)) ?_ ?_ ?_ ?_ ?_
  · exact fun _ _ => .inl rfl
  · exact fun _ _ => .inr (.inl rfl)
  · exact fun st s₁ s₂ hs => .next hs st
  · intro l args s₁ s₂ hs
    cases l with
    | zero => exact hf args s₁ s₂ hs
    | succ l => exact .br hs _ args
  · exact fun why s₁ s₂ hs => .stop hs why

theorem Agree.leave {r₁ r₂ : Res σ} (h : Agree r₁ r₂) (n : Nat) (rest : List Value) :
    Agree (r₁.leave n rest) (r₂.leave n rest) := by
  refine h.elim (P := fun r₁ r₂ => Agree (r₁.leave n rest) (r₂.leave n rest)) ?_ ?_ ?_ ?_ ?_
  · exact fun _ _ => .inl rfl
  · exact fun _ _ => .inr (.inl rfl)
  · intro st s₁ s₂ hs
    simp only [Res.leave]
    split
    · exact .next hs _
    · exact .stop hs _
  · intro l args s₁ s₂ hs
    cases l with
    | zero =>
      simp only [Res.leave]
      split
      · exact .next hs _
      · exact .stop hs _
    | succ l => exact .br hs l args
  · exact fun why s₁ s₂ hs => .stop hs why

theorem Agree.restore {r₁ r₂ : Res σ} (h : Agree r₁ r₂) {l₁ l₂ : List Value} (hl : l₁ = l₂) :
    Agree (r₁.restore l₁) (r₂.restore l₂) := by
  subst hl
  have hstore : ∀ {s₁ s₂ : Store σ}, s₁.visible = s₂.visible →
      Store.visible { s₁ with locals := l₁ } = Store.visible { s₂ with locals := l₁ } := by
    intro s₁ s₂ h
    simp only [Store.visible, visible_host h]
  refine h.elim (P := fun r₁ r₂ => Agree (r₁.restore l₁) (r₂.restore l₁)) ?_ ?_ ?_ ?_ ?_
  · exact fun _ _ => .inl rfl
  · exact fun _ _ => .inr (.inl rfl)
  · exact fun st s₁ s₂ hs => .next (hstore hs) st
  · exact fun l args s₁ s₂ hs => .br (hstore hs) l args
  · exact fun why s₁ s₂ hs => .stop hs why

theorem agree_withArgs {n : Nat} {st : List Value} {s₁ s₂ : Store σ} (h : s₁.visible = s₂.visible)
    {k₁ k₂ : List Value → List Value → Res σ} (hk : ∀ args rest, Agree (k₁ args rest) (k₂ args rest)) :
    Agree (withArgs n st s₁ k₁) (withArgs n st s₂ k₂) := by
  unfold withArgs
  split
  · exact hk _ _
  · exact .stop h _

theorem agree_withI32 {st : List Value} {s₁ s₂ : Store σ} (h : s₁.visible = s₂.visible)
    {k₁ k₂ : UInt32 → List Value → Res σ} (hk : ∀ c rest, Agree (k₁ c rest) (k₂ c rest)) :
    Agree (withI32 st s₁ k₁) (withI32 st s₂ k₂) := by
  unfold withI32
  split
  · exact hk _ _
  · exact .stop h _

theorem agree_iterate {b₁ b₂ : List Value → Store σ → Res σ}
    (h : ∀ args s₁ s₂, s₁.visible = s₂.visible → Agree (b₁ args s₁) (b₂ args s₂)) (fuel : Nat) (args : List Value)
    {s₁ s₂ : Store σ} (hs : s₁.visible = s₂.visible) : Agree (iterate b₁ fuel args s₁) (iterate b₂ fuel args s₂) := by
  induction fuel generalizing args s₁ s₂ with
  | zero => exact .stop hs _
  | succ fuel ih =>
    rw [iterate, iterate]
    exact (h args s₁ s₂ hs).again fun args s₁ s₂ hs => ih args hs

/-! ## Bodies -/

theorem agree_jump {C : Ctx π} {label : Nat} {st : List Value} {s₁ s₂ : Store σ} (h : s₁.visible = s₂.visible) :
    Agree (C.jump label st s₁) (C.jump label st s₂) := by
  unfold Ctx.jump
  split
  · exact agree_withArgs h fun args _ => .br h label args
  · exact .stop h _

/-- A crossing answers 1 or goes over the limit, whatever the counts. -/
theorem agree_crossGuard (id maxiter : Value) {s₁ s₂ : Store σ} (h : s₁.visible = s₂.visible) :
    Agree (crossGuard id maxiter s₁) (.next [.i32 1] s₂) := by
  obtain ⟨s', hs', hc | hc⟩ := crossGuard_cases id maxiter s₁
  · rw [hc]
    refine .next ?_ _
    rw [← h, ← hs']
    rfl
  · exact .inl (by rw [hc]; rfl)

theorem agree_crossGuard_both (id maxiter : Value) {s₁ s₂ : Store σ} (h : s₁.visible = s₂.visible) :
    Agree (crossGuard id maxiter s₁) (crossGuard id maxiter s₂) := by
  obtain ⟨s', hs', hc | hc⟩ := crossGuard_cases id maxiter s₂
  · rw [hc]
    refine agree_crossGuard id maxiter ?_
    rw [h, ← hs']
    rfl
  · exact .inr (.inl (by rw [hc]; rfl))

section
variable {H : Host π σ} {call₁ call₂ : Nat → List Value → Store σ → Res σ} {fuel g : Nat}

/-- The functions of two machines agree. -/
def CallsAgree (call₁ call₂ : Nat → List Value → Store σ → Res σ) : Prop :=
  ∀ f args s₁ s₂, s₁.visible = s₂.visible → Agree (call₁ f args s₁) (call₂ f args s₂)

theorem agree_callFunc {m₁ m₂ : Metering} (hcalls : CallsAgree call₁ call₂) (f : Nat) (ty : FuncType) (st : List Value)
    {s₁ s₂ : Store σ} (h : s₁.visible = s₂.visible) :
    Agree (Machine.callFunc (⟨H, call₁, m₁, fuel⟩ : Machine π σ) f ty st s₁)
      (Machine.callFunc (⟨H, call₂, m₂, fuel⟩ : Machine π σ) f ty st s₂) :=
  agree_withArgs h fun args _ => (hcalls f args.reverse s₁ s₂ h).leave _ _

theorem agree_runPlain {m₁ m₂ : Metering} (op : π) (ty : FuncType) (st : List Value)
    {s₁ s₂ : Store σ} (h : s₁.visible = s₂.visible) :
    Agree (Machine.runPlain (⟨H, call₁, m₁, fuel⟩ : Machine π σ) op ty st s₁)
      (Machine.runPlain (⟨H, call₂, m₂, fuel⟩ : Machine π σ) op ty st s₂) := by
  refine agree_withArgs h fun args rest => ?_
  simp only [visible_host h, visible_locals h]
  cases H.plain op args.reverse s₂.host s₂.locals with
  | none => exact .stop h _
  | some r =>
    obtain ⟨results, host, locals⟩ := r
    have hstore : Store.visible { s₁ with host, locals } = Store.visible { s₂ with host, locals } := rfl
    exact (Agree.next hstore results.reverse).leave _ _

/-- A sequence agrees with itself when its instructions do, also with its guard counted already. -/
theorem agree_execSeq {C : Ctx π} {is : List (Instr π)} (hg : C.func g = some guardType)
    (hcall : ∀ id maxiter s, call₁ g [id, maxiter] s = crossGuard id maxiter s)
    (hi : ∀ i ∈ is, ∀ st s₁ s₂, s₁.visible = s₂.visible →
      Agree (exec ⟨H, call₁, .atCall, fuel⟩ C i st s₁) (exec ⟨H, call₂, .atEntry g, fuel⟩ C i st s₂))
    (own : Bool) (st : List Value) {s₁ s₂ : Store σ} (h : s₁.visible = s₂.visible) :
    Agree (execSeq ⟨H, call₁, .atCall, fuel⟩ C false is st s₁) (execSeq ⟨H, call₂, .atEntry g, fuel⟩ C own is st s₂) := by
  induction is generalizing own st s₁ s₂ with
  | nil => exact .next h st
  | cons i is ih =>
    obtain ⟨hi, his⟩ := List.forall_mem_cons.mp hi
    simp only [execSeq, Bool.false_and, Bool.false_eq_true, if_false]
    by_cases hown : (own && Metering.prepaid (.atEntry g) i) = true
    · rw [if_pos hown]
      refine Agree.andThen ?_ fun st s₁ s₂ h => ih his false st h
      -- one run crosses the guard here, the other has been charged for it
      obtain rfl : i = .call g := Instr.of_isCallTo (Bool.and_eq_true_iff.mp hown).2
      rw [exec, hg]
      simp only [Machine.callFunc, passGuard, guardType, List.length_cons, List.length_nil]
      by_cases hlen : 2 ≤ st.length
      · obtain ⟨v, w, rest, rfl⟩ : ∃ v w rest, st = v :: w :: rest := by
          cases st with
          | nil => simp at hlen
          | cons v st =>
            cases st with
            | nil => simp at hlen
            | cons w rest => exact ⟨v, w, rest, rfl⟩
        simp only [withArgs, List.length_cons, List.take, List.drop, List.reverse_cons, List.reverse_nil,
          List.nil_append, List.cons_append, hcall]
        rw [if_pos (by omega), if_pos (by omega)]
        have hleave : Res.next (.i32 1 :: rest) s₂ = (Res.next [.i32 1] s₂).leave 1 rest := rfl
        rw [hleave]
        exact (agree_crossGuard w v h).leave 1 rest
      · rw [withArgs, withArgs, if_neg (by omega), if_neg hlen]
        exact .stop h _
    · rw [if_neg hown]
      exact (hi st s₁ s₂ h).andThen fun st s₁ s₂ h => ih his own st h

theorem agree_iteration {C : Ctx π} {body : List (Instr π)} (hg : C.func g = some guardType)
    (hcall : ∀ id maxiter s, call₁ g [id, maxiter] s = crossGuard id maxiter s)
    (hi : ∀ i ∈ body, ∀ st s₁ s₂, s₁.visible = s₂.visible →
      Agree (exec ⟨H, call₁, .atCall, fuel⟩ C i st s₁) (exec ⟨H, call₂, .atEntry g, fuel⟩ C i st s₂))
    (args : List Value) {s₁ s₂ : Store σ} (h : s₁.visible = s₂.visible) :
    Agree (iteration ⟨H, call₁, .atCall, fuel⟩ C body args s₁) (iteration ⟨H, call₂, .atEntry g, fuel⟩ C body args s₂) := by
  simp only [iteration, Metering.charged]
  cases movedBlock g body with
  | none => exact agree_execSeq hg hcall hi false args h
  | some b =>
    obtain ⟨s', hs', hc | hc⟩ := crossGuard_cases b.id b.maxiter s₂
    · simp only [hc]
      refine agree_execSeq hg hcall hi true args ?_
      rw [h, ← hs']
      rfl
    · simp only [hc]
      exact .inr (.inl rfl)

theorem agree_exec (hcall : ∀ id maxiter s, call₁ g [id, maxiter] s = crossGuard id maxiter s)
    (hcalls : CallsAgree call₁ call₂) (i : Instr π) : ∀ {C : Ctx π}, C.func g = some guardType →
      ∀ st s₁ s₂, s₁.visible = s₂.visible →
        Agree (exec ⟨H, call₁, .atCall, fuel⟩ C i st s₁) (exec ⟨H, call₂, .atEntry g, fuel⟩ C i st s₂) := by
  -- a loop alone is metered differently on the two sides; every other instruction hands on what its parts agree on
  induction i using Instr.induct with
  | plain i hb hl hif =>
    intro C _ st s₁ s₂ h
    cases i with
    | const v =>
      rw [exec, exec]
      exact .next h _
    | drop =>
      rw [exec, exec]
      exact agree_withArgs h fun _ rest => .next h rest
    | call f =>
      rw [exec, exec]
      split
      · exact agree_callFunc hcalls f _ st h
      · exact .stop h _
    | callIndirect table ty =>
      rw [exec, exec]
      refine agree_withI32 h fun i st => ?_
      simp only [visible_host h]
      split
      · split
        · exact agree_callFunc hcalls _ ty st h
        · exact .stop h _
      · exact .stop h _
    | br label =>
      rw [exec, exec]
      exact agree_jump h
    | brIf label =>
      rw [exec, exec]
      refine agree_withI32 h fun c st => ?_
      split
      · exact .next h st
      · exact agree_jump h
    | brTable labels default =>
      rw [exec, exec]
      exact agree_withI32 h fun i st => agree_jump h
    | ret =>
      rw [exec, exec]
      exact agree_jump h
    | unreachable =>
      rw [exec, exec]
      exact .stop h _
    | plain op =>
      rw [exec, exec]
      exact agree_runPlain op _ st h
    | block ty body => exact absurd rfl (hb ty body)
    | loop ty body => exact absurd rfl (hl ty body)
    | ifElse ty consequent alternative => exact absurd rfl (hif ty consequent alternative)
  | block ty body ih =>
    intro C hg st s₁ s₂ h
    rw [exec, exec]
    have hg' : (C.inside ty.results).func g = some guardType := hg
    refine agree_withArgs h fun args rest => Agree.leave ?_ _ _
    exact agree_execSeq hg' hcall (fun i hi => ih i hi hg') false args h
  | loop ty body ih =>
    intro C hg st s₁ s₂ h
    rw [exec_loop, exec_loop]
    have hg' : (C.inside ty.params).func g = some guardType := hg
    refine agree_withArgs h fun args rest => Agree.leave ?_ _ _
    -- here one side meters where the guard is called and the other where the iteration is entered
    exact agree_iterate (fun args s₁ s₂ h => agree_iteration hg' hcall (fun i hi => ih i hi hg') args h) fuel args h
  | ifElse ty consequent alternative ihc iha =>
    intro C hg st s₁ s₂ h
    rw [exec, exec]
    have hg' : (C.inside ty.results).func g = some guardType := hg
    refine agree_withI32 h fun c st => agree_withArgs h fun args rest => Agree.leave ?_ _ _
    split
    · exact agree_execSeq hg' hcall (fun i hi => iha i hi hg') false args h
    · exact agree_execSeq hg' hcall (fun i hi => ihc i hi hg') false args h

end

/-! ## Programs -/

/-- `g` is the imported function `env._g` of the program. -/
def Program.IsGuard (g : Nat) (p : Program π) : Prop := ∃ i, p.imported[g]? = some i ∧ i.isGuard = true

theorem Program.Valid.guard_type {sig : Signature π} {p : Program π} {g : Nat} (h : p.Valid sig) (hg : p.IsGuard g) :
    p.funcType sig g = some guardType := by
  obtain ⟨i, hi, hguard⟩ := hg
  obtain ⟨hlt, -⟩ := List.getElem?_eq_some_iff.mp hi
  rw [Program.funcType, if_pos hlt, h.guards g i hi hguard]

/-- A call of the guard is a crossing, whatever the fuel. -/
theorem invoke_guard {p : Program π} {g : Nat} (hg : p.IsGuard g) (sig : Signature π) (H : Host π σ) (m : Metering)
    (fuel : Nat) (id maxiter : Value) (s : Store σ) :
    p.invoke sig H m fuel g [id, maxiter] s = crossGuard id maxiter s := by
  obtain ⟨i, hi, hguard⟩ := hg
  cases fuel <;> simp [Program.invoke, hi, Host.call, hguard]

theorem agree_hostCall (H : Host π σ) (i : Import) (f : Nat) (args : List Value) {s₁ s₂ : Store σ}
    (h : s₁.visible = s₂.visible) : Agree (H.call i f args s₁) (H.call i f args s₂) := by
  have hstore : ∀ host : σ, Store.visible { s₁ with host } = Store.visible { s₂ with host } := by
    intro host
    simp only [Store.visible, visible_locals h]
  simp only [Host.call, visible_host h]
  split
  · split
    · exact agree_crossGuard_both _ _ h
    · exact .stop h _
  · split
    · exact .next (hstore _) _
    · exact .stop (hstore _) _
    · exact .stop (hstore _) _
    · exact .stop (hstore _) _

/-- Counting guards at calls or as iterations begin makes no other difference than when they go over. -/
theorem agree_invoke {sig : Signature π} {p : Program π} {g : Nat} (hv : p.Valid sig) (hg : p.IsGuard g)
    (H : Host π σ) (fuel : Nat) : CallsAgree (p.invoke sig H .atCall fuel) (p.invoke sig H (.atEntry g) fuel) := by
  induction fuel with
  | zero =>
    intro f args s₁ s₂ h
    simp only [Program.invoke]
    split
    · exact agree_hostCall H _ f args h
    · exact .stop h _
  | succ fuel ih =>
    intro f args s₁ s₂ h
    simp only [Program.invoke]
    split
    · exact agree_hostCall H _ f args h
    · split
      · rename_i lf _
        have hguard : (p.ctx sig lf.type).func g = some guardType := hv.guard_type hg
        have hcall := invoke_guard hg sig H .atCall fuel
        refine Agree.restore ?_ (visible_locals h)
        refine agree_execSeq hguard hcall (fun i _ => agree_exec hcall ih i hguard) false [] ?_
        simp only [Store.visible, visible_host h]
      · exact .stop h _

end

end Xahc.Wasm

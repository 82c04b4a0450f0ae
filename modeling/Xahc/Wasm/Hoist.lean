/-
What `reposition` preserves. The program it emits is valid and runs as the original would if each
moved guard were counted when an iteration of its loop begins; so it preserves the runs of the
original exactly as far as counting there pushes no guard over its limit.
-/
import Xahc.Wasm.Meter

namespace Xahc.Wasm

section
variable {π σ : Type}

/-! ## Loops whose guard can be moved -/

/-- The result of a moved guard is in nobody's way: it is dropped at once, or the code the guard is
moved over leaves the operands as it found them. -/
def GuardBlock.settled (C : Ctx π) (b : GuardBlock π) : Bool := b.dropped || decide (Leaves C b.before [] [])

mutual
/-- Every loop of an instruction whose guard would be moved has it settled. -/
def Instr.settled (g : Nat) (C : Ctx π) : Instr π → Bool
  | .block ty body => seqSettled g (C.inside ty.results) body
  | .loop ty body => (movedBlock g body).all (·.settled (C.inside ty.params)) && seqSettled g (C.inside ty.params) body
  | .ifElse ty consequent alternative =>
    seqSettled g (C.inside ty.results) consequent && seqSettled g (C.inside ty.results) alternative
  | _ => true

/-- Every instruction of the sequence is settled. -/
def seqSettled (g : Nat) (C : Ctx π) : List (Instr π) → Bool
  | [] => true
  | i :: is => i.settled g C && seqSettled g C is
end

/-- Every moved guard of the program is settled. -/
def Program.Settled (sig : Signature π) (g : Nat) (p : Program π) : Prop :=
  ∀ lf ∈ p.funcs, seqSettled g (p.ctx sig lf.type) lf.body = true

theorem seqSettled_iff {g : Nat} {C : Ctx π} {is : List (Instr π)} :
    seqSettled g C is = true ↔ ∀ i ∈ is, i.settled g C = true := by
  induction is with
  | nil => simp [seqSettled]
  | cons i is ih => simp [seqSettled, ih]

theorem repositionInstr_plain {g : Nat} {i : Instr π} (hb : ∀ ty body, i ≠ .block ty body)
    (hl : ∀ ty body, i ≠ .loop ty body) (hi : ∀ ty c a, i ≠ .ifElse ty c a) : repositionInstr g i = i := by
  cases i <;> simp_all [repositionInstr]

theorem GuardBlock.reposition_inPlace (g : Nat) (b : GuardBlock π) :
    (b.reposition g).inPlace g = repositionSeq g (b.inPlace g) := by
  simp only [inPlace, reposition, instrs, trail, repositionSeq_eq_map, List.map_append]
  cases b.dropped <;> simp [repositionInstr]

/-- The body of a loop after the pass. -/
theorem hoisted_body {g : Nat} {body : List (Instr π)} :
    (hoistGuardInSeq g (repositionSeq g body)).2 =
      (movedBlock g body).elim (repositionSeq g body) fun b => (b.reposition g).hoisted g := by
  rw [hoistGuardInSeq_snd, movedBlock_reposition]
  cases movedBlock g body <;> rfl

/-! ## Validity -/

/-- A guard block checks over any operands, which it leaves with its result on top or dropped. -/
theorem checkSeq_instrs {C : Ctx π} {g : Nat} (hg : C.func g = some guardType) (b : GuardBlock π) (o : Operands) :
    checkSeq C (b.instrs g) o =
      if b.id.type = .i32 ∧ b.maxiter.type = .i32 then some (if b.dropped then o else o.push [.i32]) else none := by
  obtain ⟨before, id, maxiter, dropped, after⟩ := b
  cases dropped <;> cases id <;> cases maxiter <;>
    simp [GuardBlock.instrs, GuardBlock.trail, checkSeq, checkInstr, hg, guardType, Value.type, Operands.push, Operands.apply,
      Operands.expectAll, Operands.expect, Operands.pop]

theorem checkSeq_hoisted {C : Ctx π} {g : Nat} (hg : C.func g = some guardType) {b : GuardBlock π}
    (hs : b.settled C = true) (vs : List (Option ValType)) :
    checkSeq C (b.hoisted g) (.reached vs) = checkSeq C (b.inPlace g) (.reached vs) := by
  simp only [GuardBlock.hoisted, GuardBlock.inPlace, checkSeq_append, checkSeq_instrs hg]
  by_cases hty : b.id.type = .i32 ∧ b.maxiter.type = .i32
  · simp only [if_pos hty, Option.bind_some]
    cases hd : b.dropped with
    | true => rfl
    | false =>
      -- the result lies below what `before` works on
      have hleaves : Leaves C b.before [] [] := by simpa [GuardBlock.settled, hd] using hs
      have hbelow : checkSeq C b.before ((Operands.reached vs).push [.i32]) = some ((Operands.reached vs).push [.i32]) :=
        hleaves.below (some .i32 :: vs)
      have hplain : checkSeq C b.before (.reached vs) = some (.reached vs) := hleaves.below vs
      simp only [Bool.false_eq_true, if_false]
      rw [hbelow, hplain]
      rfl
  · simp only [if_neg hty, Option.bind_none]
    exact (Option.bind_fun_none _).symm

theorem GuardBlock.settled_reposition {g : Nat} {C : Ctx π} {b : GuardBlock π}
    (h : ∀ i ∈ b.before, ∀ o, checkInstr C (repositionInstr g i) o = checkInstr C i o) :
    (b.reposition g).settled C = b.settled C := by
  have hleaves : Leaves C (b.reposition g).before [] [] ↔ Leaves C b.before [] [] := by
    simp only [Leaves, GuardBlock.reposition, repositionSeq_eq_map, checkSeq_map h]
  simp only [GuardBlock.settled, hleaves]
  rfl

theorem checkInstr_reposition {g : Nat} (i : Instr π) : ∀ {C : Ctx π}, C.func g = some guardType →
    i.settled g C = true → ∀ o, checkInstr C (repositionInstr g i) o = checkInstr C i o := by
  induction i using Instr.induct with
  | plain i hb hl hi =>
    intro C _ _ o
    rw [repositionInstr_plain hb hl hi]
  | block ty body ih =>
    intro C hg hs o
    rw [Instr.settled, seqSettled_iff] at hs
    have hg' : (C.inside ty.results).func g = some guardType := hg
    have hbody := checkSeq_map fun i hi => ih i hi hg' (hs i hi)
    simp only [repositionInstr, checkInstr, repositionSeq_eq_map, hbody]
  | loop ty body ih =>
    intro C hg hs o
    rw [Instr.settled, Bool.and_eq_true, seqSettled_iff] at hs
    obtain ⟨hmoved, hs⟩ := hs
    have hg' : (C.inside ty.params).func g = some guardType := hg
    have hbody := fun i hi => ih i hi hg' (hs i hi)
    have hseq := checkSeq_map hbody
    -- the body is checked with its inner loops moved, and then the moved guard stands in for the one in place
    have hloop : ∀ vs, checkSeq (C.inside ty.params) (hoistGuardInSeq g (repositionSeq g body)).2 (.reached vs) =
        checkSeq (C.inside ty.params) body (.reached vs) := by
      intro vs
      rw [hoisted_body]
      cases hb : movedBlock g body with
      | none => rw [Option.elim_none, repositionSeq_eq_map, hseq]
      | some b =>
        obtain ⟨heq, -⟩ := movedBlock_eq hb
        have hsettled : (b.reposition g).settled (C.inside ty.params) = true := by
          rw [GuardBlock.settled_reposition fun i hi => hbody i (heq ▸ List.mem_append_left _ hi)]
          simpa [hb] using hmoved
        rw [Option.elim_some, checkSeq_hoisted hg' hsettled, GuardBlock.reposition_inPlace, ← heq,
          repositionSeq_eq_map, hseq]
    simp only [repositionInstr, checkInstr, hloop]
  | ifElse ty consequent alternative ihc iha =>
    intro C hg hs o
    rw [Instr.settled, Bool.and_eq_true, seqSettled_iff, seqSettled_iff] at hs
    have hg' : (C.inside ty.results).func g = some guardType := hg
    have hc := checkSeq_map fun i hi => ihc i hi hg' (hs.1 i hi)
    have ha := checkSeq_map fun i hi => iha i hi hg' (hs.2 i hi)
    simp only [repositionInstr, checkInstr, repositionSeq_eq_map, hc, ha]

theorem funcType_reposition (p : Program π) (sig : Signature π) (g : Nat) :
    (p.reposition g).funcType sig = p.funcType sig := by
  funext f
  simp only [Program.funcType, Program.reposition, List.getElem?_map, Option.map_map]
  rfl

theorem ctx_reposition (p : Program π) (sig : Signature π) (g : Nat) (ty : FuncType) :
    (p.reposition g).ctx sig ty = p.ctx sig ty := by
  rw [Program.ctx, funcType_reposition]
  rfl

theorem Program.Valid.reposition {sig : Signature π} {p : Program π} {g : Nat} (h : p.Valid sig) (hg : p.IsGuard g)
    (hs : p.Settled sig g) : (p.reposition g).Valid sig where
  guards := h.guards
  bodies := fun lf hlf => by
    obtain ⟨lf, hmem, rfl⟩ := List.mem_map.mp hlf
    have hsettled := seqSettled_iff.mp (hs lf hmem)
    have hbody := checkSeq_map (C := p.ctx sig lf.type) fun i hi =>
      checkInstr_reposition i (h.guard_type hg) (hsettled i hi)
    have := h.bodies lf hmem
    rw [ctx_reposition]
    simpa only [LocalFunction.reposition, repositionSeq_eq_map, hbody] using this

/-! ## Runs of the emitted program -/

theorem execSeq_append (M : Machine π σ) (C : Ctx π) (is js : List (Instr π)) (st : List Value) (s : Store σ) :
    execSeq M C false (is ++ js) st s = (execSeq M C false is st s).andThen (execSeq M C false js) := by
  induction is generalizing st s with
  | nil => rfl
  | cons i is ih =>
    have ih' : execSeq M C false (is ++ js) = fun st s => (execSeq M C false is st s).andThen (execSeq M C false js) :=
      funext fun st => funext fun s => ih st s
    simp only [List.cons_append, execSeq, Bool.false_and, Bool.false_eq_true, if_false, andThen_assoc, ih']

/-- Sequences that run alike instruction by instruction run alike. -/
theorem execSeq_map {M M' : Machine π σ} {C : Ctx π} {f : Instr π → Instr π} {is : List (Instr π)}
    (h : ∀ i ∈ is, exec M' C (f i) = exec M C i) : execSeq M' C false (is.map f) = execSeq M C false is := by
  induction is with
  | nil => rfl
  | cons i is ih =>
    obtain ⟨hi, his⟩ := List.forall_mem_cons.mp h
    funext st s
    simp only [List.map_cons, execSeq, Bool.false_and, Bool.false_eq_true, if_false, hi, ih his]

section
variable {H : Host π σ} {call : Nat → List Value → Store σ → Res σ} {fuel g : Nat} {C : Ctx π}

/-- The guard block at the front of a sequence, counted there. -/
theorem execSeq_guard (hg : C.func g = some guardType)
    (hcall : ∀ id maxiter s, call g [id, maxiter] s = crossGuard id maxiter s) (id maxiter : Value)
    (is : List (Instr π)) (st : List Value) (s : Store σ) :
    execSeq ⟨H, call, .atCall, fuel⟩ C false (.const id :: .const maxiter :: .call g :: is) st s =
      (crossGuard id maxiter s).andThen fun _ s => execSeq ⟨H, call, .atCall, fuel⟩ C false is (.i32 1 :: st) s := by
  simp only [execSeq, Bool.false_and, Bool.false_eq_true, if_false, exec, hg, Res.andThen, Machine.callFunc, withArgs,
    guardType, List.length_cons, List.length_nil]
  rw [if_pos (by omega)]
  simp only [List.take, List.drop, List.reverse_cons, List.reverse_nil, List.nil_append, List.cons_append, hcall]
  obtain ⟨s', -, hc | hc⟩ := crossGuard_cases id maxiter s <;> rw [hc] <;> rfl

/-- The guard block where it was, already counted. -/
theorem execSeq_prepaid (id maxiter : Value) (is : List (Instr π)) (st : List Value) (s : Store σ) :
    execSeq ⟨H, call, .atEntry g, fuel⟩ C true (.const id :: .const maxiter :: .call g :: is) st s =
      execSeq ⟨H, call, .atEntry g, fuel⟩ C false is (.i32 1 :: st) s := by
  simp [execSeq, Metering.prepaid, Instr.isCallTo, exec, passGuard, withArgs, Res.andThen]

theorem execSeq_own {pre : List (Instr π)} (h : ∀ i ∈ pre, i.isCallTo g = false) (is : List (Instr π))
    (st : List Value) (s : Store σ) :
    execSeq ⟨H, call, .atEntry g, fuel⟩ C true (pre ++ is) st s =
      (execSeq ⟨H, call, .atEntry g, fuel⟩ C false pre st s).andThen (execSeq ⟨H, call, .atEntry g, fuel⟩ C true is) := by
  induction pre generalizing st s with
  | nil => rfl
  | cons i pre ih =>
    obtain ⟨hi, hpre⟩ := List.forall_mem_cons.mp h
    have ih' : execSeq ⟨H, call, .atEntry g, fuel⟩ C true (pre ++ is) = fun st s =>
        (execSeq ⟨H, call, .atEntry g, fuel⟩ C false pre st s).andThen
          (execSeq ⟨H, call, .atEntry g, fuel⟩ C true is) :=
      funext fun st => funext fun s => ih hpre st s
    simp only [List.cons_append, execSeq, Metering.prepaid, hi, Bool.and_false, Bool.false_eq_true, if_false,
      andThen_assoc, ih']

/-- The code after the guard of a loop: with the guard in front or where it was, its result ends up in
the same place. -/
theorem execSeq_settled {b : GuardBlock π} (hs : b.settled C = true) {is : List (Instr π)} {M : Machine π σ}
    (args : List Value) (s : Store σ) :
    execSeq M C false (b.trail ++ (b.before ++ is)) (.i32 1 :: args) s =
      (execSeq M C false b.before args s).andThen fun st s =>
        execSeq M C false (b.trail ++ is) (.i32 1 :: st) s := by
  unfold GuardBlock.trail
  cases hd : b.dropped with
  | true =>
    simp only [if_true, List.cons_append, List.nil_append, execSeq, Bool.false_and, Bool.false_eq_true, if_false, exec,
      withArgs, List.length_cons, Nat.le_add_left, List.drop, Res.andThen]
    exact execSeq_append ..
  | false =>
    have hleaves : Leaves C b.before [] [] := by simpa [GuardBlock.settled, hd] using hs
    have habove := fun a => execSeq_above M hleaves (a := []) rfl a s
    have hdeep : execSeq M C false b.before (.i32 1 :: args) s = _ := (habove (.i32 1 :: args)).1
    have hflat : execSeq M C false b.before args s = _ := (habove args).1
    simp only [Bool.false_eq_true, if_false, List.nil_append]
    rw [execSeq_append, hdeep, hflat]
    cases hres : execSeq M C false b.before [] s with
    | next st s' =>
      obtain rfl := List.eq_nil_of_length_eq_zero ((habove args).2 st s' hres)
      rfl
    | br l vs s' => rfl
    | stop why s' => rfl

/-- An iteration of a loop after the pass is one of the loop before it, charged as it begins. -/
theorem iteration_reposition (hg : C.func g = some guardType)
    (hcall : ∀ id maxiter s, call g [id, maxiter] s = crossGuard id maxiter s) {body : List (Instr π)}
    (hs : (movedBlock g body).all (·.settled C) = true)
    (hbody : ∀ i ∈ body, exec ⟨H, call, .atCall, fuel⟩ C (repositionInstr g i) = exec ⟨H, call, .atEntry g, fuel⟩ C i) :
    iteration ⟨H, call, .atCall, fuel⟩ C (hoistGuardInSeq g (repositionSeq g body)).2 =
      iteration ⟨H, call, .atEntry g, fuel⟩ C body := by
  funext args s
  rw [hoisted_body]
  cases hb : movedBlock g body with
  | none =>
    simp only [iteration, Metering.charged, hb, Option.elim_none, repositionSeq_eq_map]
    rw [execSeq_map hbody]
  | some b =>
    obtain ⟨heq, hpre⟩ := movedBlock_eq hb
    have hsettled : b.settled C = true := by simpa [hb] using hs
    have hmoved : (b.reposition g).hoisted g = .const b.id :: .const b.maxiter :: .call g ::
        (b.trail ++ (b.before ++ b.after)).map (repositionInstr g) := by
      simp only [GuardBlock.hoisted, GuardBlock.reposition, GuardBlock.instrs, GuardBlock.trail, repositionSeq_eq_map]
      cases b.dropped <;> simp [repositionInstr]
    have hplace : body = b.before ++ .const b.id :: .const b.maxiter :: .call g ::
        (b.trail ++ b.after) := by
      rw [heq, GuardBlock.inPlace, GuardBlock.instrs]
      simp
    have hrest := execSeq_map fun i (hi : i ∈ b.trail ++ (b.before ++ b.after)) =>
      hbody i <| by
        rw [hplace]
        simp only [List.mem_append, List.mem_cons] at hi ⊢
        tauto
    -- the charge comes first on both sides, then the code before the guard, then the rest over the result
    simp only [iteration, Metering.charged, hb, Option.elim_some]
    rw [hmoved, execSeq_guard hg hcall, hrest, hplace]
    congr 1
    funext _ s
    rw [execSeq_own hpre, execSeq_settled hsettled]
    congr 1
    funext st s
    exact (execSeq_prepaid ..).symm

theorem exec_reposition (hcall : ∀ id maxiter s, call g [id, maxiter] s = crossGuard id maxiter s) (i : Instr π) :
    ∀ {C : Ctx π}, C.func g = some guardType → i.settled g C = true →
      exec ⟨H, call, .atCall, fuel⟩ C (repositionInstr g i) = exec ⟨H, call, .atEntry g, fuel⟩ C i := by
  induction i using Instr.induct with
  | plain i hb hl hi =>
    intro C _ _
    rw [repositionInstr_plain hb hl hi]
    funext st s
    cases i <;> simp_all [exec, Machine.callFunc, Machine.runPlain]
  | block ty body ih =>
    intro C hg hs
    rw [Instr.settled, seqSettled_iff] at hs
    have hg' : (C.inside ty.results).func g = some guardType := hg
    have hbody := execSeq_map fun i hi => ih i hi hg' (hs i hi)
    funext st s
    simp only [repositionInstr, exec, repositionSeq_eq_map, hbody]
  | loop ty body ih =>
    intro C hg hs
    rw [Instr.settled, Bool.and_eq_true, seqSettled_iff] at hs
    have hg' : (C.inside ty.params).func g = some guardType := hg
    -- an iteration of the moved body is metered at its call where the other is metered at its entry
    have hbody := iteration_reposition hg' hcall hs.1 fun i hi => ih i hi hg' (hs.2 i hi)
    rw [repositionInstr, exec_loop, exec_loop, hbody]
  | ifElse ty consequent alternative ihc iha =>
    intro C hg hs
    rw [Instr.settled, Bool.and_eq_true, seqSettled_iff, seqSettled_iff] at hs
    have hg' : (C.inside ty.results).func g = some guardType := hg
    have hc := execSeq_map fun i hi => ihc i hi hg' (hs.1 i hi)
    have ha := execSeq_map fun i hi => iha i hi hg' (hs.2 i hi)
    funext st s
    simp only [repositionInstr, exec, repositionSeq_eq_map, hc, ha]

end

/-- The emitted program runs as the original charged as iterations begin. -/
theorem invoke_reposition {sig : Signature π} {p : Program π} {g : Nat} (hv : p.Valid sig) (hg : p.IsGuard g)
    (hs : p.Settled sig g) (H : Host π σ) (fuel : Nat) :
    (p.reposition g).invoke sig H .atCall fuel = p.invoke sig H (.atEntry g) fuel := by
  induction fuel with
  | zero => rfl
  | succ fuel ih =>
    funext f args s
    have himported : (p.reposition g).imported = p.imported := rfl
    simp only [Program.invoke, ih, ctx_reposition, himported]
    cases p.imported[f]? with
    | some i => rfl
    | none =>
      simp only [Program.reposition, List.getElem?_map]
      cases hlf : p.funcs[f - p.imported.length]? with
      | none => rfl
      | some lf =>
        have hsettled := seqSettled_iff.mp (hs lf (List.mem_of_getElem? hlf))
        have hguard : (p.ctx sig lf.type).func g = some guardType := hv.guard_type hg
        have hcall := invoke_guard hg sig H (.atEntry g) fuel
        have hexec : ∀ i ∈ lf.body,
            exec ⟨H, p.invoke sig H (.atEntry g) fuel, .atCall, fuel⟩ (p.ctx sig lf.type) (repositionInstr g i) =
              exec ⟨H, p.invoke sig H (.atEntry g) fuel, .atEntry g, fuel⟩ (p.ctx sig lf.type) i := fun i hi =>
          exec_reposition hcall i hguard (hsettled i hi)
        have hbody := execSeq_map hexec
        simp only [Option.map_some, LocalFunction.reposition, repositionSeq_eq_map, hbody]

/-! ## What the pass preserves -/

/-- No run of `f` on `args` in a fresh context around `host` crosses a guard more often than its limit. -/
def Program.Within (p : Program π) (sig : Signature π) (H : Host π σ) (m : Metering) (f : Nat) (args : List Value)
    (host : σ) : Prop :=
  ∀ fuel, (p.run sig H m fuel f args host).violates = false

/-- If `p` keeps within its guards then so does `p'`, and their runs end alike. -/
def Preserves (sig : Signature π) (p p' : Program π) (H : Host π σ) (f : Nat) (args : List Value) (host : σ) : Prop :=
  p.Within sig H .atCall f args host →
    p'.Within sig H .atCall f args host ∧
      ∀ fuel, (p'.run sig H .atCall fuel f args host).visible = (p.run sig H .atCall fuel f args host).visible

/-- Every guard `reposition` moves in the module is settled. -/
def Module.Settled (sig : Signature π) (m : Module π) : Prop := ∀ g, findG m = some g → m.program.Settled sig g

/-- The guards `reposition` moves counted as iterations begin, all others at their calls. -/
def Module.entryMetering (m : Module π) : Metering := (findG m).elim .atCall .atEntry

/-- `reposition` emits a valid program for a valid one with settled guards, and preserves a run of it exactly
if counting the moved guards as iterations begin takes no guard over a limit it keeps within. -/
theorem reposition_preserves_iff {m : Module π} {sig : Signature π} (hv : m.program.Valid sig) (hs : m.Settled sig) :
    (reposition m).1.Valid sig ∧ ∀ (σ : Type) (H : Host π σ) (f : Nat) (args : List Value) (host : σ),
      Preserves sig m.program (reposition m).1 H f args host ↔
        (m.program.Within sig H .atCall f args host → m.program.Within sig H m.entryMetering f args host) := by
  unfold reposition Module.entryMetering
  cases hfind : findG m with
  | none =>
    refine ⟨hv, fun σ H f args host => ?_⟩
    exact ⟨fun _ h => h, fun _ h => ⟨h, fun _ => rfl⟩⟩
  | some g =>
    have hg : m.program.IsGuard g := findG_isGuard hfind
    have hsettled := hs g hfind
    refine ⟨hv.reposition hg hsettled, fun σ H f args host => ?_⟩
    have hrun : ∀ fuel, (m.program.reposition g).run sig H .atCall fuel f args host =
        m.program.run sig H (.atEntry g) fuel f args host := fun fuel => by
      rw [Program.run, Program.run, invoke_reposition hv hg hsettled]
    constructor
    · intro hpres hwithin fuel
      obtain ⟨hwithin', -⟩ := hpres hwithin
      rw [Option.elim_some, ← hrun fuel]
      exact hwithin' fuel
    · intro hentry hwithin
      have hwithin' := hentry hwithin
      refine ⟨fun fuel => by rw [hrun fuel]; exact hwithin' fuel, fun fuel => ?_⟩
      rw [hrun fuel]
      -- the metered runs agree unless one of them exceeds a guard, and both stay within theirs
      rcases agree_invoke hv hg H fuel f args ⟨host, [], fun _ => 0⟩ ⟨host, [], fun _ => 0⟩ rfl with h | h | h
      · exact absurd h (by rw [← Program.run, hwithin fuel]; simp)
      · have := hwithin' fuel
        rw [Option.elim_some, Program.run] at this
        rw [this] at h
        cases h
      · exact h.symm

end

/-! ## Examples -/

namespace Sample

/-- The plain instructions of the examples. -/
inductive Op
  | localGet (i : Nat)
  | localSet (i : Nat)
  | i32Add
  | i32GeU
  /-- Whether there is more to do, by what the host has left. -/
  | more
  deriving DecidableEq, Repr

/-- Against the imports `_g` and `ledgerSeq`. -/
def sig : Signature Op where
  plain
    | .localGet _ | .more => ⟨[], [.i32]⟩
    | .localSet _ => ⟨[.i32], []⟩
    | .i32Add | .i32GeU => ⟨[.i32, .i32], [.i32]⟩
  imported f := if f = 0 then guardType else ⟨[], [.i64]⟩

/-- A host with the sample's operators, whose guards are always let through. -/
def host : Host Op Unit where
  plain
    | .localGet i, [], h, locals => locals[i]?.map fun v => ([v], h, locals)
    | .localSet i, [v], h, locals => some ([], h, locals.set i v)
    | .i32Add, [.i32 a, .i32 b], h, locals => some ([.i32 (a + b)], h, locals)
    | .i32GeU, [.i32 a, .i32 b], h, locals => some ([.i32 (if b ≤ a then 1 else 0)], h, locals)
    | _, _, _, _ => none
  func _ _ h := .ok [.i64 1000000] h
  table _ _ _ := none

/-- A module that imports `_g` and `ledgerSeq` and exports `hook` with one `i32` local and this body. -/
def hookModule (body : List (Instr Op)) : Module Op where
  imports := [⟨"env", "_g", .func⟩, ⟨"env", "ledger_seq", .func⟩]
  exports := [⟨"hook", .func 2⟩]
  funcs := [⟨"hook", ⟨[.i32], [.i64]⟩, [.i32], body⟩]
  bodies := []

/-- `for (i = 0; i < 1; i++) _g(7, 1);` with the exit test before the guard. -/
def exitFirst : Module Op := hookModule
  [.block ⟨[], []⟩ [.loop ⟨[], []⟩
    [.plain (.localGet 1), .const (.i32 1), .plain .i32GeU, .brIf 1,
     .const (.i32 7), .const (.i32 1), .call 0, .drop,
     .plain (.localGet 1), .const (.i32 1), .plain .i32Add, .plain (.localSet 1), .br 0]],
   .const (.i64 0)]

/-- The result of the guard is branched on, over an `i64` that was pushed before it. -/
def consumed : Module Op := hookModule
  [.block ⟨[], []⟩ [.loop ⟨[], []⟩
    [.call 1, .const (.i32 7), .const (.i32 10), .call 0, .brIf 1, .drop]],
   .const (.i64 0)]

/-- `do { ledger_seq(); _g(7, 10); } while (more());`, a rotated loop with its guard at the bottom. -/
def guardLast : Module Op := hookModule
  [.loop ⟨[], []⟩
    [.call 1, .drop, .const (.i32 7), .const (.i32 10), .call 0, .drop, .plain .more, .brIf 0],
   .const (.i64 0)]

/-- A host that has some rounds left. -/
def countdown : Host Op Nat where
  plain
    | .more, [], n + 1, locals => some ([.i32 1], n, locals)
    | .more, [], 0, locals => some ([.i32 0], 0, locals)
    | _, _, _, _ => none
  func _ _ h := .ok [.i64 1000000] h
  table _ _ _ := none

theorem hookModule_valid {body : List (Instr Op)}
    (h : (checkSeq ((hookModule body).program.ctx sig ⟨[.i32], [.i64]⟩) body (.reached [])).any (·.ends [.i64]) = true) :
    (hookModule body).program.Valid sig where
  guards := fun f i hi hguard => by
    match f with
    | 0 => rfl
    | 1 =>
      obtain rfl : (⟨"env", "ledger_seq", .func⟩ : Import) = i := Option.some.inj hi
      cases hguard
    | f + 2 => cases hi
  bodies := fun lf hlf => by
    obtain rfl := List.mem_singleton.mp hlf
    exact h

end Sample

/-- A guard placed last is moved without harm, and passed once in each of three iterations. -/
theorem reposition_preserves_guardLast :
    (reposition Sample.guardLast).2.repositioned = 1 ∧ (reposition Sample.guardLast).1.Valid Sample.sig ∧
      Preserves Sample.sig Sample.guardLast.program (reposition Sample.guardLast).1 Sample.countdown 2 [.i32 0] 2 := by
  have hsettled : Sample.guardLast.Settled Sample.sig := by
    intro g hg lf hlf
    obtain rfl : 0 = g := Option.some.inj hg
    obtain rfl := List.mem_singleton.mp hlf
    decide
  obtain ⟨hvalid, hruns⟩ := reposition_preserves_iff (Sample.hookModule_valid (by decide)) hsettled
  refine ⟨by decide, hvalid, (hruns Nat Sample.countdown 2 [.i32 0] 2).mpr fun _ fuel => ?_⟩
  match fuel with
  | 0 => rfl
  | 1 => rfl
  | 2 => rfl
  | 3 => rfl
  | fuel + 4 => rfl

/-- The one iteration of `exitFirst` is within the limit of its guard, but the second entry into the loop,
which only tests and leaves, is one too many once the guard is at the head; and `consumed` is valid only
until its guard is moved. -/
theorem reposition_breaks :
    (Sample.exitFirst.program.Valid Sample.sig ∧ (reposition Sample.exitFirst).2.repositioned = 1 ∧
      Sample.exitFirst.program.Within Sample.sig Sample.host .atCall 2 [.i32 0] () ∧
      (Sample.exitFirst.program.run Sample.sig Sample.host .atCall 3 2 [.i32 0] ()).outcome = some (.returned 0) ∧
      ((reposition Sample.exitFirst).1.run Sample.sig Sample.host .atCall 3 2 [.i32 0] ()).outcome =
        some (.guardViolation 7)) ∧
    (Sample.consumed.program.Valid Sample.sig ∧ (reposition Sample.consumed).2.repositioned = 1 ∧
      ¬(reposition Sample.consumed).1.Valid Sample.sig) := by
  refine ⟨⟨Sample.hookModule_valid (by decide), by decide, fun fuel => ?_, rfl, rfl⟩,
    Sample.hookModule_valid (by decide), by decide, fun h => ?_⟩
  · match fuel with
    | 0 => rfl
    | 1 => rfl
    | 2 => rfl
    | fuel + 3 => rfl
  · have := h.bodies _ List.mem_cons_self
    revert this
    decide

end Xahc.Wasm

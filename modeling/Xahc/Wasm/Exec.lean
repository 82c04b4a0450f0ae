/-
Execution of a program the way the simulator runs it: structured bodies over an operand stack, host
functions that may end the run, and `_g`, which counts the crossings of each guard and ends the run
when one goes over its limit.
-/
import Xahc.Wasm.Reposition
import Xahc.Wasm.Typing

namespace Xahc.Wasm

/-! ## States and results -/

/-- `Outcome`. -/
inductive Outcome
  | accept (code : Int64)
  | rollback (code : Int64)
  | returned (code : Int64)
  | guardViolation (id : Int32)
  deriving DecidableEq, Repr

/-- Why a run ends at an instruction. -/
inductive Stop
  | halt (outcome : Outcome)
  | trap
  | timeout
  | stuck
  deriving DecidableEq, Repr

/-- What the run works on: the host's side (transaction, hook state, emitted blobs, memory, globals), the
locals of the current function, and the crossing counts per guard id. -/
structure Store (σ : Type) where
  host : σ
  locals : List Value
  guards : UInt32 → UInt32

/-- The result of running code: fallen through with a stack (from the top), branching out to a label
with its operands, or ended. -/
inductive Res (σ : Type)
  | next (stack : List Value) (s : Store σ)
  | br (label : Nat) (args : List Value) (s : Store σ)
  | stop (why : Stop) (s : Store σ)

section
variable {π σ : Type}

/-- What comes next, if the end is reached. -/
def Res.andThen (r : Res σ) (f : List Value → Store σ → Res σ) : Res σ :=
  match r with
  | .next st s => f st s
  | r => r

/-- Out of a block whose label takes `n` operands, over the stack `rest` it was entered with. -/
def Res.leave (n : Nat) (rest : List Value) : Res σ → Res σ
  | .next st s => if st.length = n then .next (st ++ rest) s else .stop .stuck s
  | .br 0 args s => if args.length = n then .next (args ++ rest) s else .stop .stuck s
  | .br (l + 1) args s => .br l args s
  | .stop why s => .stop why s

/-- Take `n` operands off the stack. -/
def withArgs (n : Nat) (st : List Value) (s : Store σ) (k : List Value → List Value → Res σ) : Res σ :=
  if n ≤ st.length then k (st.take n) (st.drop n) else .stop .stuck s

/-- Take an `i32` off the stack. -/
def withI32 (st : List Value) (s : Store σ) (k : UInt32 → List Value → Res σ) : Res σ :=
  match st with
  | .i32 c :: rest => k c rest
  | _ => .stop .stuck s

/-- Back to the start of a loop, from a branch to its label. -/
def Res.again (f : List Value → Store σ → Res σ) : Res σ → Res σ
  | .br 0 args s => f args s
  | r => r

/-- Run a body until it does not branch back to its own label, `fuel` times at most. -/
def iterate (body : List Value → Store σ → Res σ) : Nat → List Value → Store σ → Res σ
  | 0, _, s => .stop .timeout s
  | fuel + 1, args, s => (body args s).again (iterate body fuel)

/-! ## Guards -/

/-- The 32 bits of an operand; valid code gives `_g` operands of type `i32` only. -/
def Value.word : Value → UInt32
  | .i32 n => n
  | .i64 n => n.toUInt32
  | .f32 bits => bits
  | .f64 bits => bits.toUInt32

/-- `env._g`: one more crossing of guard `id`, too many if there is a limit. -/
def crossGuard (id maxiter : Value) (s : Store σ) : Res σ :=
  let count := s.guards id.word + 1
  let s := { s with guards := Function.update s.guards id.word count }
  if 0 < maxiter.word.toInt32 ∧ maxiter.word < count then .stop (.halt (.guardViolation id.word.toInt32)) s
  else .next [.i32 1] s

/-- A crossing ends the run over the limit and answers 1 otherwise. -/
theorem crossGuard_cases (id maxiter : Value) (s : Store σ) :
    ∃ s' : Store σ, { s' with guards := s.guards } = s ∧
      (crossGuard id maxiter s = .next [.i32 1] s' ∨
        crossGuard id maxiter s = .stop (.halt (.guardViolation id.word.toInt32)) s') := by
  refine ⟨{ s with guards := Function.update s.guards id.word (s.guards id.word + 1) }, rfl, ?_⟩
  simp only [crossGuard]
  split
  · exact .inr rfl
  · exact .inl rfl

/-- When crossings are counted: at the call of the guard, as `_g` does, or, for the loops whose guard
`reposition` would move, as each iteration begins, the guard's own call then passing uncounted. -/
inductive Metering
  | atCall
  | atEntry (g : Nat)

/-- The guard an iteration of a loop with this body is charged for as it begins. -/
def Metering.charged : Metering → List (Instr π) → Option (GuardBlock π)
  | .atCall, _ => none
  | .atEntry g, body => movedBlock g body

/-- The guard of this call was charged at the loop's entry. -/
def Metering.prepaid : Metering → Instr π → Bool
  | .atCall, _ => false
  | .atEntry g, i => i.isCallTo g

/-- A call of the guard that has been counted already. -/
def passGuard (st : List Value) (s : Store σ) : Res σ :=
  withArgs 2 st s fun _ rest => .next (.i32 1 :: rest) s

/-! ## Bodies -/

/-- How a host function ends. -/
inductive Answer (σ : Type)
  | ok (results : List Value) (host : σ)
  | accept (code : Int64) (host : σ)
  | rollback (code : Int64) (host : σ)
  | trap (host : σ)

/-- What a program runs on: its plain instructions, which also see the locals, the host functions, by
index, and the tables. Arguments and results are in declared order. -/
structure Host (π σ : Type) where
  plain : π → List Value → σ → List Value → Option (List Value × σ × List Value)
  func : Nat → List Value → σ → Answer σ
  table : σ → Nat → UInt32 → Option Nat

/-- What a body runs on: the host, the functions it can call, the metering, and the fuel of its loops. -/
structure Machine (π σ : Type) where
  host : Host π σ
  call : Nat → List Value → Store σ → Res σ
  metering : Metering
  fuel : Nat

/-- A branch to `label` takes the operands of the label with it. -/
def Ctx.jump (C : Ctx π) (label : Nat) (st : List Value) (s : Store σ) : Res σ :=
  match C.labels[label]? with
  | some ts => withArgs ts.length st s fun args _ => .br label args s
  | none => .stop .stuck s

/-- A call of function `f` of type `ty`. -/
def Machine.callFunc (M : Machine π σ) (f : Nat) (ty : FuncType) (st : List Value) (s : Store σ) : Res σ :=
  withArgs ty.params.length st s fun args rest => (M.call f args.reverse s).leave ty.results.length rest

/-- An operator of the host's, on the operands its type takes. -/
def Machine.runPlain (M : Machine π σ) (op : π) (ty : FuncType) (st : List Value) (s : Store σ) : Res σ :=
  withArgs ty.params.length st s fun args rest =>
    match M.host.plain op args.reverse s.host s.locals with
    | some (results, host, locals) =>
      (Res.next results.reverse { s with host, locals }).leave ty.results.length rest
    | none => .stop .trap s

mutual
/-- One instruction on a stack of operands. -/
def exec (M : Machine π σ) (C : Ctx π) : Instr π → List Value → Store σ → Res σ
  | .const v, st, s => .next (v :: st) s
  | .drop, st, s => withArgs 1 st s fun _ rest => .next rest s
  | .call f, st, s =>
    match C.func f with
    | some ty => M.callFunc f ty st s
    | none => .stop .stuck s
  | .callIndirect table ty, st, s =>
    withI32 st s fun i st =>
      match M.host.table s.host table i with
      | some f => if C.func f = some ty then M.callFunc f ty st s else .stop .trap s
      | none => .stop .trap s
  | .br label, st, s => C.jump label st s
  | .brIf label, st, s => withI32 st s fun c st => if c = 0 then .next st s else C.jump label st s
  | .brTable labels default, st, s => withI32 st s fun i st => C.jump (labels[i.toNat]?.getD default) st s
  | .ret, st, s => C.jump C.outermost st s
  | .unreachable, _, s => .stop .trap s
  | .block ty body, st, s =>
    withArgs ty.params.length st s fun args rest =>
      (execSeq M (C.inside ty.results) false body args s).leave ty.results.length rest
  | .loop ty body, st, s =>
    withArgs ty.params.length st s fun args rest =>
      (iterate (fun args s =>
        match M.metering.charged body with
        | none => execSeq M (C.inside ty.params) false body args s
        | some b => (crossGuard b.id b.maxiter s).andThen fun _ s => execSeq M (C.inside ty.params) true body args s)
        M.fuel args s).leave ty.results.length rest
  | .ifElse ty consequent alternative, st, s =>
    withI32 st s fun c st =>
      withArgs ty.params.length st s fun args rest =>
        (if c = 0 then execSeq M (C.inside ty.results) false alternative args s
          else execSeq M (C.inside ty.results) false consequent args s).leave ty.results.length rest
  | .plain op, st, s => M.runPlain op (C.plain op) st s

/-- A sequence; with `own`, the next call of the guard at its top level has been counted already. -/
def execSeq (M : Machine π σ) (C : Ctx π) (own : Bool) : List (Instr π) → List Value → Store σ → Res σ
  | [], st, s => .next st s
  | i :: is, st, s =>
    if own && M.metering.prepaid i then (passGuard st s).andThen (execSeq M C false is)
    else (exec M C i st s).andThen (execSeq M C own is)
end

/-- One iteration of a loop. -/
def iteration (M : Machine π σ) (C : Ctx π) (body : List (Instr π)) (args : List Value) (s : Store σ) : Res σ :=
  match M.metering.charged body with
  | none => execSeq M C false body args s
  | some b => (crossGuard b.id b.maxiter s).andThen fun _ s => execSeq M C true body args s

theorem exec_loop (M : Machine π σ) (C : Ctx π) (ty : FuncType) (body : List (Instr π)) :
    exec M C (.loop ty body) = fun st s => withArgs ty.params.length st s fun args rest =>
      (iterate (iteration M (C.inside ty.params) body) M.fuel args s).leave ty.results.length rest := by
  funext st s
  rw [exec]
  rfl

/-! ## Programs -/

/-- The types a program is linked at: those of its plain instructions and of its imports. -/
structure Signature (π : Type) where
  plain : π → FuncType
  imported : Nat → FuncType

/-- The type of a function, imported or defined. -/
def Program.funcType (p : Program π) (sig : Signature π) (f : Nat) : Option FuncType :=
  if f < p.imported.length then some (sig.imported f) else p.funcs[f - p.imported.length]?.map (·.type)

/-- The context of a function body. -/
def Program.ctx (p : Program π) (sig : Signature π) (ty : FuncType) : Ctx π where
  plain := sig.plain
  func := p.funcType sig
  labels := [ty.results]

/-- The type of `_g`. -/
def guardType : FuncType := ⟨[.i32, .i32], [.i32]⟩

/-- A valid program: `env._g` is linked at its own type, and every body checks. -/
structure Program.Valid (sig : Signature π) (p : Program π) : Prop where
  guards : ∀ f i, p.imported[f]? = some i → i.isGuard = true → sig.imported f = guardType
  bodies : ∀ lf ∈ p.funcs, (checkSeq (p.ctx sig lf.type) lf.body (.reached [])).any (·.ends lf.type.results) = true

/-- The value a local starts with. -/
def ValType.zero : ValType → Value
  | .i32 => .i32 0
  | .i64 => .i64 0
  | .f32 => .f32 0
  | .f64 => .f64 0

/-- A call of the imported function `f`. -/
def Host.call (H : Host π σ) (i : Import) (f : Nat) (args : List Value) (s : Store σ) : Res σ :=
  if i.isGuard then
    match args with
    | [id, maxiter] => crossGuard id maxiter s
    | _ => .stop .stuck s
  else
    match H.func f args s.host with
    | .ok results host => .next results.reverse { s with host }
    | .accept code host => .stop (.halt (.accept code)) { s with host }
    | .rollback code host => .stop (.halt (.rollback code)) { s with host }
    | .trap host => .stop .trap { s with host }

/-- Back from a callee to the locals of the caller. -/
def Res.restore (locals : List Value) : Res σ → Res σ
  | .next st s => .next st { s with locals }
  | .br l args s => .br l args { s with locals }
  | .stop why s => .stop why s

/-- A call of function `f`; local calls nest `fuel` deep at most. -/
def Program.invoke (p : Program π) (sig : Signature π) (H : Host π σ) (metering : Metering) :
    Nat → Nat → List Value → Store σ → Res σ
  | 0, f, args, s =>
    match p.imported[f]? with
    | some i => H.call i f args s
    | none => .stop .timeout s
  | fuel + 1, f, args, s =>
    match p.imported[f]? with
    | some i => H.call i f args s
    | none =>
      match p.funcs[f - p.imported.length]? with
      | some lf =>
        (execSeq ⟨H, p.invoke sig H metering fuel, metering, fuel⟩ (p.ctx sig lf.type) false lf.body []
          { s with locals := args ++ lf.locals.map ValType.zero }).restore s.locals
      | none => .stop .stuck s

/-- A run of function `f` (`hook`, called with one argument) from a fresh context. -/
def Program.run (p : Program π) (sig : Signature π) (H : Host π σ) (metering : Metering) (fuel f : Nat)
    (args : List Value) (host : σ) : Res σ :=
  p.invoke sig H metering fuel f args ⟨host, [], fun _ => 0⟩

/-- The outcome `run_inner` reports, if the run has one. -/
def Res.outcome : Res σ → Option Outcome
  | .stop (.halt o) _ => some o
  | .next [.i64 rc] _ | .br 0 [.i64 rc] _ => some (.returned rc.toInt64)
  | _ => none

/-! ## Running over a deeper stack -/

/-- The result with further operands below. -/
def Res.above (b : List Value) : Res σ → Res σ
  | .next st s => .next (st ++ b) s
  | r => r

theorem andThen_assoc (r : Res σ) (f g : List Value → Store σ → Res σ) :
    (r.andThen f).andThen g = r.andThen fun st s => (f st s).andThen g := by
  cases r <;> rfl

theorem leave_above (n : Nat) (rest b : List Value) (r : Res σ) :
    r.leave n (rest ++ b) = (r.leave n rest).above b := by
  cases r with
  | next st s =>
    simp only [Res.leave]
    split <;> simp [Res.above]
  | br l args s =>
    cases l with
    | zero =>
      simp only [Res.leave]
      split <;> simp [Res.above]
    | succ l => rfl
  | stop why s => rfl

/-- Code that leaves a block leaves as many operands as the block has results. -/
theorem leave_next {n : Nat} {rest st' : List Value} {r : Res σ} {s' : Store σ} (h : r.leave n rest = .next st' s') :
    st'.length = n + rest.length := by
  cases r with
  | next st s =>
    simp only [Res.leave] at h
    split at h
    · rename_i hlen
      obtain ⟨rfl, -⟩ := Res.next.inj h
      rw [List.length_append, hlen]
    · cases h
  | br l args s =>
    cases l with
    | zero =>
      simp only [Res.leave] at h
      split at h
      · rename_i hlen
        obtain ⟨rfl, -⟩ := Res.next.inj h
        rw [List.length_append, hlen]
      · cases h
    | succ l => cases h
  | stop why s => cases h

/-- Code that looks at the `n` topmost operands only and replaces them by `k`. -/
structure Framed (f : List Value → Store σ → Res σ) (n k : Nat) : Prop where
  above : ∀ a b s, n ≤ a.length → f (a ++ b) s = (f a s).above b
  length : ∀ a s st' s', n ≤ a.length → f a s = .next st' s' → st'.length + n = a.length + k

theorem withArgs_framed {n k : Nat} {f : List Value → List Value → Store σ → Res σ}
    (habove : ∀ args rest b s, f args (rest ++ b) s = (f args rest s).above b)
    (hlen : ∀ args rest s st' s', f args rest s = .next st' s' → st'.length = k + rest.length) :
    Framed (fun st s => withArgs n st s fun args rest => f args rest s) n k where
  above := fun a b s ha => by
    have hle : n ≤ (a ++ b).length := by rw [List.length_append]; omega
    simp only [withArgs, if_pos ha, if_pos hle, List.take_append_of_le_length ha, List.drop_append_of_le_length ha,
      habove]
  length := fun a s st' s' ha h => by
    simp only [withArgs, if_pos ha] at h
    have := hlen _ _ _ _ _ h
    rw [List.length_drop] at this
    omega

/-- Behind an `i32` operand. -/
theorem withI32_framed {n k : Nat} {f : UInt32 → List Value → Store σ → Res σ} (h : ∀ c, Framed (f c) n k) :
    Framed (fun st s => withI32 st s fun c st => f c st s) (n + 1) k where
  above := fun a b s ha => by
    match a, ha with
    | v :: a, ha =>
      rw [List.length_cons] at ha
      cases v with
      | i32 c => exact (h c).above a b s (by omega)
      | _ => rfl
  length := fun a s st' s' ha hres => by
    match a, ha with
    | v :: a, ha =>
      rw [List.length_cons] at ha
      cases v with
      | i32 c =>
        have := (h c).length a s st' s' (by omega) hres
        rw [List.length_cons]
        omega
      | _ => cases hres

theorem callFunc_framed (M : Machine π σ) (f : Nat) (ty : FuncType) :
    Framed (M.callFunc f ty) ty.params.length ty.results.length :=
  withArgs_framed (fun _ _ _ _ => leave_above ..) fun _ _ _ _ _ h => leave_next h

theorem runPlain_framed (M : Machine π σ) (op : π) (ty : FuncType) :
    Framed (M.runPlain op ty) ty.params.length ty.results.length := by
  refine withArgs_framed (fun args rest b s => ?_) fun args rest s st' s' h => ?_
  · split
    · exact leave_above ..
    · rfl
  · split at h
    · exact leave_next h
    · cases h

theorem jump_above {C : Ctx π} {label : Nat} {ts : List ValType} (hts : C.labels[label]? = some ts) {a : List Value}
    (ha : ts.length ≤ a.length) (b : List Value) (s : Store σ) :
    C.jump label (a ++ b) s = (C.jump label a s).above b := by
  have hle : ts.length ≤ (a ++ b).length := by rw [List.length_append]; omega
  simp only [Ctx.jump, hts, withArgs, if_pos ha, if_pos hle, List.take_append_of_le_length ha]
  rfl

theorem jump_ne_next (C : Ctx π) (label : Nat) (st : List Value) (s : Store σ) (st' : List Value) (s' : Store σ) :
    C.jump label st s ≠ .next st' s' := by
  unfold Ctx.jump withArgs
  split <;> [split; skip] <;> simp

section
variable (M : Machine π σ) {C : Ctx π}

theorem const_framed (v : Value) : Framed (exec M C (.const v : Instr π)) 0 1 where
  above := fun a b s _ => by simp [exec, Res.above]
  length := fun a s st' s' _ hres => by
    rw [exec] at hres
    obtain ⟨rfl, -⟩ := Res.next.inj hres
    rfl

theorem drop_framed : Framed (exec M C (.drop : Instr π)) 1 0 := by
  have : exec M C (.drop : Instr π) = fun st s => withArgs 1 st s fun _ rest => .next rest s := by
    funext st s
    rw [exec]
  rw [this]
  refine withArgs_framed (fun _ _ _ _ => rfl) fun _ _ _ _ _ hres => ?_
  obtain ⟨rfl, -⟩ := Res.next.inj hres
  rw [Nat.zero_add]

theorem call_framed {f : Nat} {ty : FuncType} (hty : C.func f = some ty) :
    Framed (exec M C (.call f : Instr π)) ty.params.length ty.results.length := by
  have : exec M C (.call f) = M.callFunc f ty := by
    funext st s
    rw [exec, hty]
  rw [this]
  exact callFunc_framed M f ty

theorem callIndirect_framed (table : Nat) (ty : FuncType) :
    Framed (exec M C (.callIndirect table ty : Instr π)) (ty.params.length + 1) ty.results.length := by
  have hcall := fun f => callFunc_framed M f ty
  have : exec M C (.callIndirect table ty) = fun st s => withI32 st s fun i st =>
      match M.host.table s.host table i with
      | some f => if C.func f = some ty then M.callFunc f ty st s else .stop .trap s
      | none => .stop .trap s := by
    funext st s
    rw [exec]
  rw [this]
  refine withI32_framed fun c => ⟨fun a b s ha => ?_, fun a s st' s' ha hres => ?_⟩
  · split
    · split
      · exact (hcall _).above a b s ha
      · rfl
    · rfl
  · split at hres
    · split at hres
      · exact (hcall _).length a s st' s' ha hres
      · cases hres
    · cases hres

theorem brIf_framed {label : Nat} {ts : List ValType} (hts : C.labels[label]? = some ts) :
    Framed (exec M C (.brIf label : Instr π)) (ts.length + 1) ts.length := by
  have : exec M C (.brIf label) = fun st s => withI32 st s fun c st =>
      if c = 0 then .next st s else C.jump label st s := by
    funext st s
    rw [exec]
  rw [this]
  refine withI32_framed fun c => ⟨fun a b s ha => ?_, fun a s st' s' ha hres => ?_⟩
  · split
    · rfl
    · exact jump_above hts ha b s
  · split at hres
    · obtain ⟨rfl, -⟩ := Res.next.inj hres
      rfl
    · exact absurd hres (jump_ne_next _ _ _ _ _ _)

theorem block_framed (ty : FuncType) (body : List (Instr π)) :
    Framed (exec M C (.block ty body)) ty.params.length ty.results.length := by
  have : exec M C (.block ty body) = fun st s => withArgs ty.params.length st s fun args rest =>
      (execSeq M (C.inside ty.results) false body args s).leave ty.results.length rest := by
    funext st s
    rw [exec]
  rw [this]
  exact withArgs_framed (fun _ _ _ _ => leave_above ..) fun _ _ _ _ _ hres => leave_next hres

theorem loop_framed (ty : FuncType) (body : List (Instr π)) :
    Framed (exec M C (.loop ty body)) ty.params.length ty.results.length := by
  rw [exec_loop]
  exact withArgs_framed (fun _ _ _ _ => leave_above ..) fun _ _ _ _ _ hres => leave_next hres

theorem ifElse_framed (ty : FuncType) (consequent alternative : List (Instr π)) :
    Framed (exec M C (.ifElse ty consequent alternative)) (ty.params.length + 1) ty.results.length := by
  have : exec M C (.ifElse ty consequent alternative) = fun st s => withI32 st s fun c st =>
      withArgs ty.params.length st s fun args rest =>
        (if c = 0 then execSeq M (C.inside ty.results) false alternative args s
          else execSeq M (C.inside ty.results) false consequent args s).leave ty.results.length rest := by
    funext st s
    rw [exec]
  rw [this]
  exact withI32_framed fun c => withArgs_framed (fun _ _ _ _ => leave_above ..) fun _ _ _ _ _ hres => leave_next hres

theorem plain_framed (op : π) : Framed (exec M C (.plain op)) (C.plain op).params.length (C.plain op).results.length := by
  have : exec M C (.plain op) = M.runPlain op (C.plain op) := by
    funext st s
    rw [exec]
  rw [this]
  exact runPlain_framed M op _

/-- An instruction that validates, with its end reached, looks at the operands it takes only. -/
theorem exec_framed {i : Instr π} {vs vs' : List (Option ValType)}
    (h : checkInstr C i (.reached vs) = some (.reached vs')) :
    ∃ n k, Framed (exec M C i) n k ∧ n ≤ vs.length ∧ vs'.length + n = vs.length + k := by
  cases i with
  | const v =>
    rw [checkInstr] at h
    obtain rfl : vs' = some v.type :: vs := Operands.reached_inj (Option.some.inj h).symm
    exact ⟨0, 1, const_framed M v, by simp, by simp⟩
  | drop =>
    rw [checkInstr] at h
    cases vs with
    | nil => cases h
    | cons t vs =>
      obtain rfl : vs' = vs := Operands.reached_inj (Option.some.inj h).symm
      exact ⟨1, 0, drop_framed M, by simp, by simp⟩
  | call f =>
    rw [checkInstr] at h
    obtain ⟨ty, hty, h⟩ := Option.bind_eq_some_iff.mp h
    have hf := apply_frames h
    exact ⟨_, _, call_framed M hty, hf.before, hf.after⟩
  | callIndirect table ty =>
    rw [checkInstr] at h
    obtain ⟨o₁, h₁, h⟩ := Option.bind_eq_some_iff.mp h
    obtain ⟨vs₁, rfl, hf₁⟩ := expect_frames h₁
    have hf := hf₁.bind (apply_frames h)
    exact ⟨_, _, callIndirect_framed M table ty, hf.before, hf.after⟩
  | brIf label =>
    rw [checkInstr] at h
    obtain ⟨o₁, h₁, h⟩ := Option.bind_eq_some_iff.mp h
    obtain ⟨vs₁, rfl, hf₁⟩ := expect_frames h₁
    obtain ⟨ts, hts, h⟩ := Option.bind_eq_some_iff.mp h
    have hf := hf₁.bind (apply_frames h)
    exact ⟨_, _, brIf_framed M hts, hf.before, hf.after⟩
  | block ty body =>
    rw [checkInstr] at h
    split at h
    · have hf := apply_frames h
      exact ⟨_, _, block_framed M ty body, hf.before, hf.after⟩
    · cases h
  | loop ty body =>
    rw [checkInstr] at h
    split at h
    · have hf := apply_frames h
      exact ⟨_, _, loop_framed M ty body, hf.before, hf.after⟩
    · cases h
  | ifElse ty consequent alternative =>
    rw [checkInstr] at h
    split at h
    · obtain ⟨o₁, h₁, h⟩ := Option.bind_eq_some_iff.mp h
      obtain ⟨vs₁, rfl, hf₁⟩ := expect_frames h₁
      have hf := hf₁.bind (apply_frames h)
      exact ⟨_, _, ifElse_framed M ty consequent alternative, hf.before, hf.after⟩
    · cases h
  | plain op =>
    rw [checkInstr] at h
    have hf := apply_frames h
    exact ⟨_, _, plain_framed M op, hf.before, hf.after⟩
  -- after the others the end is not reached
  | br label => exact absurd rfl (Operands.reached_ne_dead (branch_dead (by rwa [checkInstr] at h)))
  | brTable labels default =>
    rw [checkInstr] at h
    obtain ⟨o₁, -, h⟩ := Option.bind_eq_some_iff.mp h
    split at h
    · exact absurd rfl (Operands.reached_ne_dead (branch_dead h))
    · cases h
  | ret => exact absurd rfl (Operands.reached_ne_dead (branch_dead (by rwa [checkInstr] at h)))
  | unreachable =>
    rw [checkInstr] at h
    exact absurd rfl (Operands.reached_ne_dead (Option.some.inj h).symm)

end

/-- A sequence that validates from `vs` to `vs'` runs the same over a deeper stack. -/
theorem execSeq_above (M : Machine π σ) {C : Ctx π} {is : List (Instr π)} {vs vs' : List (Option ValType)}
    (h : Leaves C is vs vs') {a : List Value} (ha : a.length = vs.length) (b : List Value) (s : Store σ) :
    execSeq M C false is (a ++ b) s = (execSeq M C false is a s).above b ∧
      ∀ st' s', execSeq M C false is a s = .next st' s' → st'.length = vs'.length := by
  induction is generalizing vs a s with
  | nil =>
    obtain rfl : vs = vs' := congrArg Operands.vals (Option.some.inj h)
    refine ⟨by simp [execSeq, Res.above], fun st' s' hres => ?_⟩
    rw [execSeq] at hres
    obtain ⟨rfl, -⟩ := Res.next.inj hres
    exact ha
  | cons i is ih =>
    obtain ⟨ws, hi, h⟩ := Leaves.cons_iff.mp h
    obtain ⟨n, k, hf, hn, hk⟩ := exec_framed M hi
    simp only [execSeq, Bool.false_and, Bool.false_eq_true, if_false]
    rw [hf.above a b s (by omega)]
    cases hres : exec M C i a s with
    | next st₁ s₁ =>
      have hlen := hf.length a s st₁ s₁ (by omega) hres
      exact ih h (by omega) s₁
    | br l args s₁ => exact ⟨rfl, fun _ _ hres => by cases hres⟩
    | stop why s₁ => exact ⟨rfl, fun _ _ hres => by cases hres⟩

end

end Xahc.Wasm

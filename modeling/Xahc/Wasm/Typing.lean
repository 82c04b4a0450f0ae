/-
Validation of structured bodies: the operand types at each instruction, computed forwards, with the
operands of unreachable code left open. A stretch of code that validates from some operands validates
the same over any others below them.
-/
import Xahc.Wasm.Syntax

namespace Xahc.Wasm

section
variable {π : Type}

/-! ## Operands -/

/-- The operand types at a point of the code, from the top, `none` where any will do. An unreachable
point has any further ones below. -/
structure Operands where
  vals : List (Option ValType)
  unreachable : Bool
  deriving DecidableEq, Repr

/-- The operands at a point that is reached. -/
def Operands.reached (vals : List (Option ValType)) : Operands := ⟨vals, false⟩

/-- What follows an unconditional branch. -/
def Operands.dead : Operands := ⟨[], true⟩

/-- The topmost operand; below a point that is not reached there is one of any type. -/
def Operands.pop : Operands → Option (Option ValType × Operands)
  | ⟨t :: ts, u⟩ => some (t, ⟨ts, u⟩)
  | ⟨[], true⟩ => some (none, ⟨[], true⟩)
  | ⟨[], false⟩ => none

/-- Pops an operand of a type. -/
def Operands.expect (t : ValType) (o : Operands) : Option Operands :=
  o.pop.bind fun (t', o') => if t' = none ∨ t' = some t then some o' else none

/-- Pop operands of the types `ts`, the topmost first. -/
def Operands.expectAll : List ValType → Operands → Option Operands
  | [], o => some o
  | t :: ts, o => (o.expect t).bind (expectAll ts)

/-- The operands with results on top. -/
def Operands.push (ts : List ValType) (o : Operands) : Operands := ⟨ts.reverse.map some ++ o.vals, o.unreachable⟩

/-- What an instruction of type `ty` makes of the operands. -/
def Operands.apply (ty : FuncType) (o : Operands) : Option Operands :=
  (o.expectAll ty.params.reverse).map (·.push ty.results)

/-- The operands are exactly `ts`. -/
def Operands.ends (ts : List ValType) (o : Operands) : Bool := (o.expectAll ts.reverse).any (·.vals.isEmpty)

/-! ## Instructions -/

/-- What code is validated against: the types of the plain instructions and of the functions, and the
operand types each label takes, innermost first. -/
structure Ctx (π : Type) where
  plain : π → FuncType
  func : Nat → Option FuncType
  labels : List (List ValType)

/-- The context inside a block whose label takes `ts`. -/
def Ctx.inside (ts : List ValType) (C : Ctx π) : Ctx π := { C with labels := ts :: C.labels }

/-- A branch out of the function. -/
def Ctx.outermost (C : Ctx π) : Nat := C.labels.length - 1

/-- The operands before an unconditional branch to `label`. -/
def Ctx.branch (C : Ctx π) (label : Nat) (o : Operands) : Option Operands :=
  C.labels[label]?.bind fun ts => (o.expectAll ts.reverse).map fun _ => .dead

mutual
/-- The operands after an instruction, where it validates. -/
def checkInstr (C : Ctx π) : Instr π → Operands → Option Operands
  | .const v, o => some (o.push [v.type])
  | .drop, o => o.pop.map Prod.snd
  | .call f, o => (C.func f).bind o.apply
  | .callIndirect _ ty, o => (o.expect .i32).bind (·.apply ty)
  | .br n, o => C.branch n o
  | .brIf n, o => (o.expect .i32).bind fun o => C.labels[n]?.bind fun ts => o.apply ⟨ts, ts⟩
  | .brTable ns d, o => (o.expect .i32).bind fun o => if ∀ n ∈ ns, C.labels[n]? = C.labels[d]? then C.branch d o else none
  | .ret, o => C.branch C.outermost o
  | .unreachable, _ => some .dead
  | .block ty body, o =>
    if (checkSeq (C.inside ty.results) body (.reached (ty.params.reverse.map some))).any (·.ends ty.results)
    then o.apply ty else none
  | .loop ty body, o =>
    if (checkSeq (C.inside ty.params) body (.reached (ty.params.reverse.map some))).any (·.ends ty.results)
    then o.apply ty else none
  | .ifElse ty consequent alternative, o =>
    if (checkSeq (C.inside ty.results) consequent (.reached (ty.params.reverse.map some))).any (·.ends ty.results) ∧
      (checkSeq (C.inside ty.results) alternative (.reached (ty.params.reverse.map some))).any (·.ends ty.results)
    then (o.expect .i32).bind (·.apply ty) else none
  | .plain op, o => o.apply (C.plain op)

/-- The operands after a sequence. -/
def checkSeq (C : Ctx π) : List (Instr π) → Operands → Option Operands
  | [], o => some o
  | i :: is, o => (checkInstr C i o).bind (checkSeq C is)
end

theorem checkSeq_append (C : Ctx π) (is js : List (Instr π)) (o : Operands) :
    checkSeq C (is ++ js) o = (checkSeq C is o).bind (checkSeq C js) := by
  induction is generalizing o with
  | nil => rfl
  | cons i is ih =>
    simp only [List.cons_append, checkSeq]
    cases checkInstr C i o with
    | none => rfl
    | some o' => exact ih o'

/-- The check of a sequence is the check of its instructions. -/
theorem checkSeq_map {C : Ctx π} {f : Instr π → Instr π} {is : List (Instr π)}
    (h : ∀ i ∈ is, ∀ o, checkInstr C (f i) o = checkInstr C i o) (o : Operands) :
    checkSeq C (is.map f) o = checkSeq C is o := by
  induction is generalizing o with
  | nil => rfl
  | cons i is ih =>
    obtain ⟨hi, his⟩ := List.forall_mem_cons.mp h
    simp only [List.map_cons, checkSeq, hi, ih his]

/-! ## Reachability -/

theorem expect_unreachable {t : ValType} {o o' : Operands} (h : o.expect t = some o') :
    o'.unreachable = o.unreachable := by
  obtain ⟨vals, u⟩ := o
  cases vals with
  | nil =>
    cases u with
    | false => cases h
    | true =>
      obtain rfl : Operands.mk [] true = o' := by simpa [Operands.expect, Operands.pop] using h
      rfl
  | cons t' ts =>
    simp only [Operands.expect, Operands.pop, Option.bind_some] at h
    split at h
    · rw [← Option.some.inj h]
    · cases h

theorem expectAll_unreachable {ts : List ValType} {o o' : Operands} (h : o.expectAll ts = some o') :
    o'.unreachable = o.unreachable := by
  induction ts generalizing o with
  | nil => rw [← Option.some.inj h]
  | cons t ts ih =>
    obtain ⟨o₁, h₁, h₂⟩ := Option.bind_eq_some_iff.mp h
    rw [ih h₂, expect_unreachable h₁]

theorem apply_unreachable {ty : FuncType} {o o' : Operands} (h : o.apply ty = some o') :
    o'.unreachable = o.unreachable := by
  obtain ⟨o₁, h₁, rfl⟩ := Option.map_eq_some_iff.mp h
  show o₁.unreachable = o.unreachable
  exact expectAll_unreachable h₁

theorem branch_dead {C : Ctx π} {n : Nat} {o o' : Operands} (h : C.branch n o = some o') : o' = .dead := by
  obtain ⟨ts, -, h⟩ := Option.bind_eq_some_iff.mp h
  obtain ⟨-, -, rfl⟩ := Option.map_eq_some_iff.mp h
  rfl

/-- Code after an unreachable point is unreachable. -/
theorem checkInstr_unreachable {C : Ctx π} {i : Instr π} {o o' : Operands} (h : checkInstr C i o = some o')
    (hu : o.unreachable = true) : o'.unreachable = true := by
  -- a branch makes the rest unreachable, and everything else keeps the flag of its operands
  cases i with
  | const v =>
    rw [checkInstr] at h
    rw [← Option.some.inj h]
    exact hu
  | drop =>
    rw [checkInstr] at h
    obtain ⟨⟨t, o₁⟩, hpop, rfl⟩ := Option.map_eq_some_iff.mp h
    obtain ⟨vals, u⟩ := o
    obtain rfl : u = true := hu
    cases vals <;> simp_all [Operands.pop] <;> simp [← hpop]
  | call f =>
    rw [checkInstr] at h
    obtain ⟨ty, -, h⟩ := Option.bind_eq_some_iff.mp h
    rw [apply_unreachable h, hu]
  | callIndirect t ty =>
    rw [checkInstr] at h
    obtain ⟨o₁, h₁, h⟩ := Option.bind_eq_some_iff.mp h
    rw [apply_unreachable h, expect_unreachable h₁, hu]
  | br n =>
    rw [checkInstr] at h
    rw [branch_dead h]
    rfl
  | brIf n =>
    rw [checkInstr] at h
    obtain ⟨o₁, h₁, h⟩ := Option.bind_eq_some_iff.mp h
    obtain ⟨ts, -, h⟩ := Option.bind_eq_some_iff.mp h
    rw [apply_unreachable h, expect_unreachable h₁, hu]
  | brTable ns d =>
    rw [checkInstr] at h
    obtain ⟨o₁, -, h⟩ := Option.bind_eq_some_iff.mp h
    split at h
    · rw [branch_dead h]
      rfl
    · cases h
  | ret =>
    rw [checkInstr] at h
    rw [branch_dead h]
    rfl
  | unreachable =>
    rw [checkInstr] at h
    rw [← Option.some.inj h]
    rfl
  | block ty body | loop ty body =>
    rw [checkInstr] at h
    split at h
    · rw [apply_unreachable h, hu]
    · cases h
  | ifElse ty consequent alternative =>
    rw [checkInstr] at h
    split at h
    · obtain ⟨o₁, h₁, h⟩ := Option.bind_eq_some_iff.mp h
      rw [apply_unreachable h, expect_unreachable h₁, hu]
    · cases h
  | plain op =>
    rw [checkInstr] at h
    rw [apply_unreachable h, hu]

theorem checkSeq_unreachable {C : Ctx π} {is : List (Instr π)} {o o' : Operands} (h : checkSeq C is o = some o')
    (hu : o.unreachable = true) : o'.unreachable = true := by
  induction is generalizing o with
  | nil =>
    rw [← Option.some.inj h]
    exact hu
  | cons i is ih =>
    obtain ⟨o₁, h₁, h⟩ := Option.bind_eq_some_iff.mp h
    exact ih h (checkInstr_unreachable h₁ hu)

/-! ## Operands below -/

/-- Taking `n` operands and leaving `k`, whatever lies below. -/
structure Frames (f : Operands → Option Operands) (n k : Nat) (vs vs' : List (Option ValType)) : Prop where
  before : n ≤ vs.length
  after : vs'.length + n = vs.length + k
  below : ∀ b, f (.reached (vs ++ b)) = some (.reached (vs' ++ b))

theorem expect_frames {t : ValType} {vs : List (Option ValType)} {o : Operands}
    (h : (Operands.reached vs).expect t = some o) : ∃ vs', o = .reached vs' ∧ Frames (·.expect t) 1 0 vs vs' := by
  cases vs with
  | nil => cases h
  | cons t' vs =>
    simp only [Operands.reached, Operands.expect, Operands.pop, Option.bind_some] at h
    split at h
    · rename_i ht
      refine ⟨vs, (Option.some.inj h).symm, by simp, by simp, fun b => ?_⟩
      simp [Operands.reached, Operands.expect, Operands.pop, ht]
    · cases h

/-- Taking operands, and then going on with what is left. -/
theorem Frames.bind {f f' : Operands → Option Operands} {n n' k : Nat} {vs vs₁ vs' : List (Option ValType)}
    (h : Frames f n 0 vs vs₁) (h' : Frames f' n' k vs₁ vs') :
    Frames (fun o => (f o).bind f') (n' + n) k vs vs' := by
  have hle := h.before
  have hlen := h.after
  have hle' := h'.before
  have hlen' := h'.after
  refine ⟨by omega, by omega, fun b => ?_⟩
  rw [h.below, Option.bind_some, h'.below]

theorem expectAll_frames {ts : List ValType} {vs : List (Option ValType)} {o : Operands}
    (h : (Operands.reached vs).expectAll ts = some o) :
    ∃ vs', o = .reached vs' ∧ Frames (·.expectAll ts) ts.length 0 vs vs' := by
  induction ts generalizing vs with
  | nil => exact ⟨vs, (Option.some.inj h).symm, by simp, by simp, fun b => rfl⟩
  | cons t ts ih =>
    obtain ⟨o₁, h₁, h⟩ := Option.bind_eq_some_iff.mp h
    obtain ⟨vs₁, rfl, hf₁⟩ := expect_frames h₁
    obtain ⟨vs', rfl, hf⟩ := ih h
    exact ⟨vs', rfl, hf₁.bind hf⟩

theorem Operands.reached_inj {vs ws : List (Option ValType)} (h : Operands.reached vs = .reached ws) : vs = ws :=
  congrArg Operands.vals h

theorem apply_frames {ty : FuncType} {vs vs' : List (Option ValType)}
    (h : (Operands.reached vs).apply ty = some (.reached vs')) :
    Frames (·.apply ty) ty.params.length ty.results.length vs vs' := by
  obtain ⟨o₁, h₁, hpush⟩ := Option.map_eq_some_iff.mp h
  obtain ⟨vs₁, rfl, hf⟩ := expectAll_frames h₁
  obtain rfl : ty.results.reverse.map some ++ vs₁ = vs' := Operands.reached_inj hpush
  have hlen := hf.after
  have hle := hf.before
  rw [List.length_reverse] at hlen hle
  refine ⟨hle, ?_, fun b => ?_⟩
  · simp only [List.length_append, List.length_map, List.length_reverse]
    omega
  · rw [Operands.apply, hf.below]
    simp [Operands.push, Operands.reached]

/-- The operands a sequence leaves when it validates from `vs` and its end is reached. -/
def Leaves (C : Ctx π) (is : List (Instr π)) (vs vs' : List (Option ValType)) : Prop :=
  checkSeq C is (.reached vs) = some (.reached vs')

instance (C : Ctx π) (is : List (Instr π)) (vs vs' : List (Option ValType)) : Decidable (Leaves C is vs vs') :=
  inferInstanceAs (Decidable (_ = _))

theorem Operands.reached_ne_dead {vs : List (Option ValType)} {o : Operands} (h : o = .dead) : Operands.reached vs ≠ o := by
  rintro rfl
  cases h

/-- Operands below those an instruction validates from do not matter to it. -/
theorem checkInstr_below {C : Ctx π} {i : Instr π} {vs vs' : List (Option ValType)}
    (h : checkInstr C i (.reached vs) = some (.reached vs')) (b : List (Option ValType)) :
    checkInstr C i (.reached (vs ++ b)) = some (.reached (vs' ++ b)) := by
  -- what is typed on a reachable stack never looks below its operands; what ends in dead code reached no stack
  cases i with
  | const v =>
    rw [checkInstr] at h ⊢
    obtain rfl : vs' = some v.type :: vs := Operands.reached_inj (Option.some.inj h).symm
    rfl
  | drop =>
    rw [checkInstr] at h ⊢
    cases vs with
    | nil => cases h
    | cons t vs =>
      rw [← Operands.reached_inj (Option.some.inj h).symm]
      rfl
  | call f =>
    rw [checkInstr] at h ⊢
    obtain ⟨ty, hty, h⟩ := Option.bind_eq_some_iff.mp h
    rw [hty, Option.bind_some, (apply_frames h).below]
  | callIndirect t ty =>
    rw [checkInstr] at h ⊢
    obtain ⟨o₁, h₁, h⟩ := Option.bind_eq_some_iff.mp h
    obtain ⟨vs₁, rfl, hf₁⟩ := expect_frames h₁
    exact (hf₁.bind (apply_frames h)).below b
  | br n => exact absurd rfl (Operands.reached_ne_dead (branch_dead (by rwa [checkInstr] at h)))
  | brIf n =>
    rw [checkInstr] at h ⊢
    obtain ⟨o₁, h₁, h⟩ := Option.bind_eq_some_iff.mp h
    obtain ⟨vs₁, rfl, hf₁⟩ := expect_frames h₁
    obtain ⟨ts, hts, h⟩ := Option.bind_eq_some_iff.mp h
    rw [hf₁.below, Option.bind_some, hts, Option.bind_some, (apply_frames h).below]
  | brTable ns d =>
    rw [checkInstr] at h
    obtain ⟨o₁, -, h⟩ := Option.bind_eq_some_iff.mp h
    split at h
    · exact absurd rfl (Operands.reached_ne_dead (branch_dead h))
    · cases h
  | ret => exact absurd rfl (Operands.reached_ne_dead (branch_dead (by rwa [checkInstr] at h)))
  | unreachable =>
    rw [checkInstr] at h
    exact absurd rfl (Operands.reached_ne_dead (Option.some.inj h).symm)
  | block ty body | loop ty body =>
    rw [checkInstr] at h ⊢
    split at h
    · rename_i hbody
      rw [if_pos hbody, (apply_frames h).below]
    · cases h
  | ifElse ty consequent alternative =>
    rw [checkInstr] at h ⊢
    split at h
    · rename_i hbody
      obtain ⟨o₁, h₁, h⟩ := Option.bind_eq_some_iff.mp h
      obtain ⟨vs₁, rfl, hf₁⟩ := expect_frames h₁
      rw [if_pos hbody]
      exact (hf₁.bind (apply_frames h)).below b
    · cases h
  | plain op =>
    rw [checkInstr] at h ⊢
    exact (apply_frames h).below b

/-- The first step of a sequence whose end is reached. -/
theorem Leaves.cons_iff {C : Ctx π} {i : Instr π} {is : List (Instr π)} {vs vs' : List (Option ValType)} :
    Leaves C (i :: is) vs vs' ↔ ∃ ws, checkInstr C i (.reached vs) = some (.reached ws) ∧ Leaves C is ws vs' := by
  constructor
  · intro h
    obtain ⟨o, hi, h⟩ := Option.bind_eq_some_iff.mp h
    obtain ⟨ws, u⟩ := o
    cases u with
    | false => exact ⟨ws, hi, h⟩
    | true => cases checkSeq_unreachable h rfl
  · rintro ⟨ws, hi, h⟩
    exact Option.bind_eq_some_iff.mpr ⟨.reached ws, hi, h⟩

theorem Leaves.below {C : Ctx π} {is : List (Instr π)} {vs vs' : List (Option ValType)} (h : Leaves C is vs vs')
    (b : List (Option ValType)) : Leaves C is (vs ++ b) (vs' ++ b) := by
  induction is generalizing vs with
  | nil =>
    obtain rfl : vs = vs' := congrArg Operands.vals (Option.some.inj h)
    rfl
  | cons i is ih =>
    obtain ⟨ws, hi, h⟩ := Leaves.cons_iff.mp h
    exact Leaves.cons_iff.mpr ⟨ws ++ b, checkInstr_below hi b, ih h⟩

end

end Xahc.Wasm

/-
`reposition`, the guard-reposition pass on the structured bodies of a module: each loop whose guard
can be moved gets it at its head. The bytes it emits are left to the encoder.
-/
import Xahc.Wasm.Lint

namespace Xahc.Wasm

section
variable {π : Type}

/-! ## One loop body -/

/-- A guard block in its sequence: the first call of the guard at the top level, the two constants
right before it, and whether a `drop` of its result follows. -/
structure GuardBlock (π : Type) where
  before : List (Instr π)
  id : Value
  maxiter : Value
  dropped : Bool
  after : List (Instr π)

/-- The trailing `drop`, if present. -/
def GuardBlock.trail (b : GuardBlock π) : List (Instr π) := if b.dropped then [.drop] else []

/-- The instructions of the block itself. -/
def GuardBlock.instrs (g : Nat) (b : GuardBlock π) : List (Instr π) :=
  .const b.id :: .const b.maxiter :: .call g :: b.trail

/-- The sequence the block was found in. -/
def GuardBlock.inPlace (g : Nat) (b : GuardBlock π) : List (Instr π) := b.before ++ (b.instrs g ++ b.after)

/-- The sequence with the block drained and inserted again at the front. -/
def GuardBlock.hoisted (g : Nat) (b : GuardBlock π) : List (Instr π) := b.instrs g ++ (b.before ++ b.after)

/-- The first call of the guard with its two constants, and what stands around them. -/
def guardBlock (g : Nat) (instrs : List (Instr π)) : Option (GuardBlock π) :=
  match (instrs.takeWhile fun i => !i.isCallTo g).reverse, instrs.dropWhile fun i => !i.isCallTo g with
  | j :: i :: before, _ :: post =>
    match i.const?, j.const? with
    | some id, some maxiter =>
      let dropped := post.head?.any Instr.isDrop
      some ⟨before.reverse, id, maxiter, dropped, if dropped then post.tail else post⟩
    | _, _ => none
  | _, _ => none

/-- `guardFirstAtTopLevel`: the guard comes before every other branch of the sequence itself. -/
def guardFirstAtTopLevel (g : Nat) : List (Instr π) → Bool
  | [] => false
  | i :: is => if i.isCallTo g then true else if i.isBranch then false else guardFirstAtTopLevel g is

/-- What is done with the guard of a loop. -/
inductive Hoist
  | alreadyHead | moved | noGuard | skip | unverified
  deriving DecidableEq, Repr

/-- `hoistGuardInSeq`. -/
def hoistGuardInSeq (g : Nat) (instrs : List (Instr π)) : Hoist × List (Instr π) :=
  if guardFirstAtTopLevel g instrs then (.alreadyHead, instrs)
  else if !instrs.any (·.isCallTo g) then
    (if seqCallsAnywhere g instrs then .unverified else .noGuard, instrs)
  else
    match guardBlock g instrs with
    | none => (.skip, instrs)
    | some b => if b.before.isEmpty then (.alreadyHead, instrs) else (.moved, b.hoisted g)

/-- The block `hoistGuardInSeq` moves, if it moves one. -/
def movedBlock (g : Nat) (instrs : List (Instr π)) : Option (GuardBlock π) :=
  if guardFirstAtTopLevel g instrs then none
  else (guardBlock g instrs).filter fun b => !b.before.isEmpty

theorem guardBlock_eq {g : Nat} {is : List (Instr π)} {b : GuardBlock π} (h : guardBlock g is = some b) :
    is = b.inPlace g ∧ ∀ i ∈ b.before, i.isCallTo g = false := by
  unfold guardBlock at h
  split at h
  · rename_i j i before c post hpre hpost
    split at h
    · rename_i id maxiter hid hmax
      obtain rfl := Instr.of_const? hid
      obtain rfl := Instr.of_const? hmax
      obtain rfl := Option.some.inj h
      have hcall : c = .call g := by
        have := List.head?_dropWhile_not (fun i : Instr π => !i.isCallTo g) is
        rw [hpost] at this
        exact Instr.of_isCallTo (by simpa using this)
      have hpre' : is.takeWhile (fun i => !i.isCallTo g) = before.reverse ++ [.const id, .const maxiter] := by
        rw [← List.reverse_reverse (is.takeWhile _), hpre]
        simp
      refine ⟨?_, fun i hi => ?_⟩
      -- the sequence up to the call ends in the two constants; behind it a drop may follow
      · have hsplit := List.takeWhile_append_dropWhile (p := fun i : Instr π => !i.isCallTo g) (l := is)
        rw [hpre', hpost, hcall] at hsplit
        rw [← hsplit]
        cases post with
        | nil => simp [GuardBlock.inPlace, GuardBlock.instrs, GuardBlock.trail]
        | cons d post =>
          by_cases hd : d.isDrop = true
          · obtain rfl := Instr.of_isDrop hd
            simp [GuardBlock.inPlace, GuardBlock.instrs, GuardBlock.trail, Instr.isDrop]
          · simp [GuardBlock.inPlace, GuardBlock.instrs, GuardBlock.trail, hd]
      · have hmem : i ∈ is.takeWhile fun i => !i.isCallTo g := by
          rw [hpre']
          exact List.mem_append_left _ hi
        simpa using List.all_eq_true.mp List.all_takeWhile i hmem
    · cases h
  · cases h

/-- A sequence with a guard block calls the guard. -/
theorem guardBlock_any {g : Nat} {is : List (Instr π)} {b : GuardBlock π} (h : guardBlock g is = some b) :
    is.any (·.isCallTo g) = true := by
  obtain ⟨heq, -⟩ := guardBlock_eq h
  refine List.any_eq_true.mpr ⟨.call g, ?_, by simp [Instr.isCallTo]⟩
  simp [heq, GuardBlock.inPlace, GuardBlock.instrs]

theorem movedBlock_eq {g : Nat} {is : List (Instr π)} {b : GuardBlock π} (h : movedBlock g is = some b) :
    is = b.inPlace g ∧ ∀ i ∈ b.before, i.isCallTo g = false := by
  unfold movedBlock at h
  split at h
  · cases h
  · exact guardBlock_eq (Option.mem_filter_iff.mp h).1

/-- What `hoistGuardInSeq` does to the sequence. -/
theorem hoistGuardInSeq_snd (g : Nat) (is : List (Instr π)) :
    (hoistGuardInSeq g is).2 = (movedBlock g is).elim is (·.hoisted g) := by
  unfold hoistGuardInSeq movedBlock
  by_cases hfirst : guardFirstAtTopLevel g is = true
  · simp [hfirst]
  · simp only [hfirst, Bool.false_eq_true, if_false]
    cases hb : guardBlock g is with
    | none => split <;> rfl
    | some b =>
      simp only [guardBlock_any hb, Bool.not_true, Bool.false_eq_true, if_false]
      by_cases he : b.before.isEmpty = true <;> simp [Option.filter, he]

/-- The verdict is Moved exactly where a block is moved. -/
theorem hoist_moved_iff {g : Nat} {is : List (Instr π)} :
    (hoistGuardInSeq g is).1 = .moved ↔ (movedBlock g is).isSome := by
  unfold hoistGuardInSeq movedBlock
  by_cases hfirst : guardFirstAtTopLevel g is = true
  · simp [hfirst]
  · simp only [hfirst, Bool.false_eq_true, if_false]
    cases hb : guardBlock g is with
    | none => split <;> [split; skip] <;> simp
    | some b =>
      simp only [guardBlock_any hb, Bool.not_true, Bool.false_eq_true, if_false]
      by_cases he : b.before.isEmpty = true <;> simp [Option.filter, he]

/-! ## All loops of a body -/

mutual
/-- The pass on an instruction. Sequences live in an arena and a hoist permutes plain instructions and a
call of one sequence, so the order in which the loops are visited does not matter. -/
def repositionInstr (g : Nat) : Instr π → Instr π
  | .block ty body => .block ty (repositionSeq g body)
  | .loop ty body => .loop ty (hoistGuardInSeq g (repositionSeq g body)).2
  | .ifElse ty consequent alternative => .ifElse ty (repositionSeq g consequent) (repositionSeq g alternative)
  | i => i

/-- The instructions of a sequence, with the loops in them repositioned. -/
def repositionSeq (g : Nat) : List (Instr π) → List (Instr π)
  | [] => []
  | i :: is => repositionInstr g i :: repositionSeq g is
end

mutual
/-- The verdicts on the loops of an instruction, in the order of `collectLoops`. -/
def Instr.verdicts (g : Nat) : Instr π → List Hoist
  | .block _ body => seqVerdicts g body
  | .loop _ body => (hoistGuardInSeq g body).1 :: seqVerdicts g body
  | .ifElse _ consequent alternative => seqVerdicts g consequent ++ seqVerdicts g alternative
  | _ => []

/-- The verdicts on the loops of a sequence. -/
def seqVerdicts (g : Nat) : List (Instr π) → List Hoist
  | [] => []
  | i :: is => i.verdicts g ++ seqVerdicts g is
end

theorem repositionSeq_eq_map (g : Nat) (is : List (Instr π)) : repositionSeq g is = is.map (repositionInstr g) := by
  induction is with
  | nil => rfl
  | cons i is ih => rw [repositionSeq, ih, List.map_cons]

@[simp] theorem repositionInstr_isCallTo (g : Nat) (i : Instr π) : (repositionInstr g i).isCallTo g = i.isCallTo g := by
  cases i <;> simp [repositionInstr, Instr.isCallTo]

@[simp] theorem repositionInstr_isBranch (g : Nat) (i : Instr π) : (repositionInstr g i).isBranch = i.isBranch := by
  cases i <;> simp [repositionInstr, Instr.isBranch]

@[simp] theorem repositionInstr_isDrop (g : Nat) (i : Instr π) : (repositionInstr g i).isDrop = i.isDrop := by
  cases i <;> simp [repositionInstr, Instr.isDrop]

@[simp] theorem repositionInstr_const? (g : Nat) (i : Instr π) : (repositionInstr g i).const? = i.const? := by
  cases i <;> simp [repositionInstr, Instr.const?]

/-! A hoist sees the same block whether or not the nested loops have had theirs moved. -/

/-- The block with the pass run on the instructions around it. -/
def GuardBlock.reposition (g : Nat) (b : GuardBlock π) : GuardBlock π :=
  { b with before := repositionSeq g b.before, after := repositionSeq g b.after }

theorem guard_first_reposition (g : Nat) (is : List (Instr π)) :
    guardFirstAtTopLevel g (repositionSeq g is) = guardFirstAtTopLevel g is := by
  induction is with
  | nil => rfl
  | cons i is ih => simp [repositionSeq, guardFirstAtTopLevel, ih]

theorem guardBlock_reposition (g : Nat) (is : List (Instr π)) :
    guardBlock g (repositionSeq g is) = (guardBlock g is).map (·.reposition g) := by
  have hcomp : (fun i : Instr π => !i.isCallTo g) ∘ repositionInstr g = fun i => !i.isCallTo g :=
    funext fun i => by simp
  unfold guardBlock
  rw [repositionSeq_eq_map, List.takeWhile_map, List.dropWhile_map, hcomp, ← List.map_reverse]
  cases (is.takeWhile fun i => !i.isCallTo g).reverse with
  | nil => rfl
  | cons j rest =>
    cases rest with
    | nil => rfl
    | cons i before =>
      cases is.dropWhile fun i => !i.isCallTo g with
      | nil => rfl
      | cons c post =>
        simp only [List.map_cons, repositionInstr_const?]
        cases i.const? with
        | none => rfl
        | some id =>
          cases j.const? with
          | none => rfl
          | some maxiter =>
            have hdrop : (post.map (repositionInstr g)).head?.any Instr.isDrop = post.head?.any Instr.isDrop := by
              cases post <;> simp
            simp only [hdrop, Option.map_some, GuardBlock.reposition, repositionSeq_eq_map, List.map_reverse]
            split <;> simp

theorem movedBlock_reposition (g : Nat) (is : List (Instr π)) :
    movedBlock g (repositionSeq g is) = (movedBlock g is).map (·.reposition g) := by
  unfold movedBlock
  rw [guard_first_reposition, guardBlock_reposition]
  split
  · rfl
  · cases guardBlock g is with
    | none => rfl
    | some b => by_cases hb : b.before = [] <;> simp [Option.filter, GuardBlock.reposition, repositionSeq_eq_map, hb]

/-! ## A module -/

/-- The part of a module that runs: the imported functions, which take the low indices, and the local
ones. -/
structure Program (π : Type) where
  imported : List Import
  funcs : List (LocalFunction π)

/-- The program of a module. -/
def Module.program (m : Module π) : Program π := ⟨m.importedFuncs, m.funcs⟩

/-- How many loops had which verdict. -/
structure Report where
  repositioned : Nat
  alreadyOk : Nat
  unguardedLoops : Nat
  skipped : Nat
  unverified : Nat
  deriving DecidableEq, Repr

/-- The report of the verdicts. -/
def Report.of (verdicts : List Hoist) : Report where
  repositioned := verdicts.count .moved
  alreadyOk := verdicts.count .alreadyHead
  unguardedLoops := verdicts.count .noGuard
  skipped := verdicts.count .skip
  unverified := verdicts.count .unverified

/-- A function with its loops repositioned. -/
def LocalFunction.reposition (g : Nat) (lf : LocalFunction π) : LocalFunction π :=
  { lf with body := repositionSeq g lf.body }

/-- A program with its loops repositioned. -/
def Program.reposition (g : Nat) (p : Program π) : Program π :=
  { p with funcs := p.funcs.map (·.reposition g) }

/-- `reposition`: the program it emits and its report. -/
def reposition (m : Module π) : Program π × Report :=
  match findG m with
  | none => (m.program, .of [])
  | some g => (m.program.reposition g, .of (m.funcs.flatMap fun lf => seqVerdicts g lf.body))

theorem findG_isGuard {m : Module π} {g : Nat} (h : findG m = some g) :
    ∃ i, m.importedFuncs[g]? = some i ∧ i.isGuard = true := by
  obtain ⟨hlt, hguard, -⟩ := List.findIdx?_eq_some_iff_getElem.mp h
  exact ⟨_, List.getElem?_eq_getElem hlt, hguard⟩

end

end Xahc.Wasm

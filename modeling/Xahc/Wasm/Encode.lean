/-
The two readings of one binary module: the operators of each body in byte order, and the structured
instructions built from them. The byte check on the stream and the two checks on the structure agree: where
the first reports no loop, `checkGuards` has no finding and `reposition` moves nothing.
-/
import Xahc.Wasm.Reposition

namespace Xahc.Wasm

section
variable {π : Type}

/-! ## A sequence and its operators -/

/-- A single operator the flat checks do not tell apart from others. -/
def Instr.isOther : Instr π → Bool
  | .const (.i32 _) | .call _ | .block _ _ | .loop _ _ | .ifElse _ _ _ => false
  | _ => true

/-- What follows one of these in its sequence is dead, and the structured reader drops it. -/
def Instr.isExit : Instr π → Bool
  | .br _ | .brTable _ _ | .ret | .unreachable => true
  | _ => false

/-- The structured sequence `is` is read from the operators `ops`, the closing `End` excluded. -/
inductive Encodes : List (Instr π) → List (Operator × Nat) → Prop
  | nil : Encodes [] []
  | nop {is ops} (off : Nat) : Encodes is ops → Encodes is ((.other "Nop", off) :: ops)
  | i32Const {is ops} (n : UInt32) (off : Nat) :
      Encodes is ops → Encodes (.const (.i32 n) :: is) ((.i32Const n.toBitVec.toInt, off) :: ops)
  | call {is ops} (f off : Nat) : Encodes is ops → Encodes (.call f :: is) ((.call f, off) :: ops)
  | other {is ops} (i : Instr π) (debug : String) (off : Nat) :
      i.isOther = true → Encodes is ops → Encodes (i :: is) ((.other debug, off) :: ops)
  | exit (i : Instr π) (debug : String) (off : Nat) (dead : List (Operator × Nat)) :
      i.isExit = true → Encodes [i] ((.other debug, off) :: dead)
  | block {is ops body inner} (ty : FuncType) (debug : String) (off e : Nat) :
      Encodes body inner → Encodes is ops →
        Encodes (.block ty body :: is) ((.other debug, off) :: (inner ++ (.other "End", e) :: ops))
  | loop {is ops body inner} (ty : FuncType) (blockty : String) (off e : Nat) :
      Encodes body inner → Encodes is ops →
        Encodes (.loop ty body :: is) ((.loop blockty, off) :: (inner ++ (.other "End", e) :: ops))
  | ifThen {is ops consequent inner} (ty : FuncType) (debug : String) (off e : Nat) :
      Encodes consequent inner → Encodes is ops →
        Encodes (.ifElse ty consequent [] :: is) ((.other debug, off) :: (inner ++ (.other "End", e) :: ops))
  | ifElse {is ops consequent inner alternative inner'} (ty : FuncType) (debug : String) (off el e : Nat) :
      Encodes consequent inner → Encodes alternative inner' → Encodes is ops →
        Encodes (.ifElse ty consequent alternative :: is)
          ((.other debug, off) :: (inner ++ (.other "Else", el) :: (inner' ++ (.other "End", e) :: ops)))

/-- A binary module: each structured function is read from its code entry. -/
structure Binary (π : Type) extends Module π where
  encoded : List.Forall₂
    (fun lf b => ∃ ops off, Encodes lf.body ops ∧ b.ops = ops ++ [(.other "End", off)]) funcs bodies

/-! ## The loops of a sequence -/

mutual
/-- The bodies of the loops in an instruction, in the order they open. -/
def Instr.loops : Instr π → List (List (Instr π))
  | .block _ body => collectLoops body
  | .loop _ body => body :: collectLoops body
  | .ifElse _ consequent alternative => collectLoops consequent ++ collectLoops alternative
  | _ => []

/-- `collectLoops`: the bodies of the loops of a sequence, at any depth. -/
def collectLoops : List (Instr π) → List (List (Instr π))
  | [] => []
  | i :: is => i.loops ++ collectLoops is
end

theorem loops_of_isOther {i : Instr π} (h : i.isOther = true ∨ i.isExit = true) : i.loops = [] := by
  cases i <;> simp_all [Instr.isOther, Instr.isExit, Instr.loops]

/-- The two calls `firstBranchIsGuard` and the adjacency check ask for at the head of a loop. -/
def GuardedHead (g : Nat) (body : List (Instr π)) : Prop :=
  ∃ id maxiter rest, body = .const (.i32 id) :: .const (.i32 maxiter) :: .call g :: rest

/-! ## From the stream to the structure -/

theorem Adjacent.of_append {g : Nat} {pre ops : List (Operator × Nat)} (h : Adjacent g (pre ++ ops)) : Adjacent g ops := by
  induction pre with
  | nil => exact h
  | cons o pre ih => exact ih h.2

/-- Where the stream of a loop's body starts with the guard, so does the body. -/
theorem Encodes.guardedHead {g : Nat} {body : List (Instr π)} {inner rest : List (Operator × Nat)} {e : Nat}
    (h : Encodes body inner) (hf : Follows g 0 (inner ++ (.other "End", e) :: rest)) : GuardedHead g body := by
  obtain ⟨a, o, b, o', o'', tail, heq⟩ := follows_zero hf
  cases h with
  | i32Const n off h =>
    obtain ⟨-, heq⟩ := List.cons.inj heq
    cases h with
    | i32Const m off' h =>
      obtain ⟨-, heq⟩ := List.cons.inj heq
      cases h with
      | call f off'' h =>
        obtain ⟨hcall, -⟩ := List.cons.inj heq
        obtain ⟨hf, -⟩ := Prod.mk.inj hcall
        obtain rfl := Operator.call.inj hf
        exact ⟨n, m, _, rfl⟩
      | _ => simp at heq
    | _ => simp at heq
  | _ => simp at heq

/-- Every loop of a sequence whose stream is adjacent has the guard at its head. -/
theorem Encodes.loops_guarded {g : Nat} {is : List (Instr π)} {ops : List (Operator × Nat)} (h : Encodes is ops) :
    ∀ tail, Adjacent g (ops ++ tail) → ∀ body ∈ collectLoops is, GuardedHead g body := by
  induction h with
  | nil => simp [collectLoops]
  | nop off _ ih => exact fun tail ha => ih tail ha.2
  | i32Const n off _ ih =>
    intro tail ha
    simpa [collectLoops, Instr.loops] using ih tail ha.2
  | call f off _ ih =>
    intro tail ha
    simpa [collectLoops, Instr.loops] using ih tail ha.2
  | other i debug off hother _ ih =>
    intro tail ha
    rw [collectLoops, loops_of_isOther (Or.inl hother), List.nil_append]
    exact ih tail ha.2
  | exit i debug off dead hexit =>
    intro tail _
    rw [collectLoops, loops_of_isOther (Or.inr hexit)]
    simp [collectLoops]
  | block ty debug off e _ _ ihBody ih =>
    intro tail ha
    rw [List.cons_append, List.append_assoc] at ha
    have ha := ha.2
    rw [collectLoops, Instr.loops, List.forall_mem_append]
    exact ⟨ihBody _ ha, ih tail ha.of_append.2⟩
  | loop ty blockty off e hbody _ ihBody ih =>
    intro tail ha
    -- the loop itself is adjacent, its body and what follows its `End` are adjacent in turn
    rw [List.cons_append, List.append_assoc] at ha
    obtain ⟨hf, ha⟩ := ha
    rw [collectLoops, Instr.loops, List.forall_mem_append, List.forall_mem_cons]
    exact ⟨⟨hbody.guardedHead (hf rfl), ihBody _ ha⟩, ih tail ha.of_append.2⟩
  | ifThen ty debug off e _ _ ihThen ih =>
    intro tail ha
    rw [List.cons_append, List.append_assoc] at ha
    have ha := ha.2
    rw [collectLoops, Instr.loops, List.forall_mem_append, List.forall_mem_append]
    exact ⟨⟨ihThen _ ha, by simp [collectLoops]⟩, ih tail ha.of_append.2⟩
  | ifElse ty debug off el e _ _ _ ihThen ihElse ih =>
    intro tail ha
    rw [List.cons_append, List.append_assoc, List.cons_append, List.append_assoc] at ha
    have ha := ha.2
    rw [collectLoops, Instr.loops, List.forall_mem_append, List.forall_mem_append]
    exact ⟨⟨ihThen _ ha, ihElse _ ha.of_append.2⟩, ih tail ha.of_append.2.of_append.2⟩

/-! ## The checks on the structure -/

theorem GuardedHead.compliant {g : Nat} {body : List (Instr π)} (h : GuardedHead g body) :
    loopGuardPos g body = .compliant := by
  obtain ⟨id, maxiter, rest, rfl⟩ := h
  simp [loopGuardPos, firstBranchIsGuard, firstBranchStep, Instr.isBranch]

theorem GuardedHead.hoist {g : Nat} {body : List (Instr π)} (h : GuardedHead g body) :
    hoistGuardInSeq g body = (.alreadyHead, body) := by
  obtain ⟨id, maxiter, rest, rfl⟩ := h
  simp [hoistGuardInSeq, guardFirstAtTopLevel, Instr.isCallTo, Instr.isBranch]

/-- The walks over an instruction visit its loops in one order. -/
def WalksLoops (g : Nat) (label : String) (i : Instr π) : Prop :=
  walkInstr g label i = i.loops.flatMap (fun body => guardFinding label (loopGuardPos g body)) ∧
    i.verdicts g = i.loops.map fun body => (hoistGuardInSeq g body).1

theorem walks_seq {g : Nat} {label : String} {is : List (Instr π)} (h : ∀ i ∈ is, WalksLoops g label i) :
    walkSeq g label is = (collectLoops is).flatMap (fun body => guardFinding label (loopGuardPos g body)) ∧
      seqVerdicts g is = (collectLoops is).map fun body => (hoistGuardInSeq g body).1 := by
  induction is with
  | nil => exact ⟨rfl, rfl⟩
  | cons i is ih =>
    obtain ⟨⟨hw, hv⟩, his⟩ := List.forall_mem_cons.mp h
    obtain ⟨hws, hvs⟩ := ih his
    rw [walkSeq, seqVerdicts, collectLoops, hw, hv, hws, hvs, List.flatMap_append, List.map_append]
    exact ⟨rfl, rfl⟩

theorem walks_loops (g : Nat) (label : String) (i : Instr π) : WalksLoops g label i := by
  induction i using Instr.induct with
  | plain i hb hl hif =>
    cases i with
    | block ty body => exact absurd rfl (hb ty body)
    | loop ty body => exact absurd rfl (hl ty body)
    | ifElse ty consequent alternative => exact absurd rfl (hif ty consequent alternative)
    | _ => exact ⟨rfl, rfl⟩
  | block ty body ih => exact walks_seq ih
  | loop ty body ih =>
    obtain ⟨hw, hv⟩ := walks_seq ih
    rw [WalksLoops, walkInstr, Instr.verdicts, Instr.loops, hw, hv, List.flatMap_cons, List.map_cons]
    exact ⟨rfl, rfl⟩
  | ifElse ty consequent alternative ihThen ihElse =>
    obtain ⟨hw, hv⟩ := walks_seq ihThen
    obtain ⟨hw', hv'⟩ := walks_seq ihElse
    rw [WalksLoops, walkInstr, Instr.verdicts, Instr.loops, hw, hv, hw', hv', List.flatMap_append, List.map_append]
    exact ⟨rfl, rfl⟩

/-- The pass keeps a body whose loops all have the guard at their heads. -/
theorem repositionSeq_id {g : Nat} {is : List (Instr π)} (hi : ∀ i ∈ is,
    (∀ body ∈ i.loops, GuardedHead g body) → repositionInstr g i = i)
    (h : ∀ body ∈ collectLoops is, GuardedHead g body) : repositionSeq g is = is := by
  induction is with
  | nil => rfl
  | cons i is ih =>
    obtain ⟨hi, his⟩ := List.forall_mem_cons.mp hi
    rw [collectLoops, List.forall_mem_append] at h
    rw [repositionSeq, hi h.1, ih his h.2]

theorem repositionInstr_id {g : Nat} (i : Instr π) :
    (∀ body ∈ i.loops, GuardedHead g body) → repositionInstr g i = i := by
  induction i using Instr.induct with
  | plain i hb hl hif =>
    cases i with
    | block ty body => exact absurd rfl (hb ty body)
    | loop ty body => exact absurd rfl (hl ty body)
    | ifElse ty consequent alternative => exact absurd rfl (hif ty consequent alternative)
    | _ => exact fun _ => rfl
  | block ty body ih =>
    intro h
    rw [repositionInstr, repositionSeq_id ih h]
  | loop ty body ih =>
    intro h
    rw [Instr.loops, List.forall_mem_cons] at h
    rw [repositionInstr, repositionSeq_id ih h.2, h.1.hoist]
  | ifElse ty consequent alternative ihThen ihElse =>
    intro h
    rw [Instr.loops, List.forall_mem_append] at h
    rw [repositionInstr, repositionSeq_id ihThen h.1, repositionSeq_id ihElse h.2]

/-! ## One guard index -/

theorem countP_one_unique {α : Type} {p : α → Bool} {l : List α} (h : l.countP p = 1) {i j : Nat} {a b : α}
    (hi : l[i]? = some a) (hj : l[j]? = some b) (ha : p a = true) (hb : p b = true) : i = j := by
  induction l generalizing i j with
  | nil => simp at hi
  | cons c l ih =>
    -- where the head satisfies `p`, nothing after it does
    have hzero : p c = true → l.countP p = 0 := fun hc => by
      rw [List.countP_cons_of_pos hc] at h
      omega
    have hnone : ∀ {k : Nat} {d : α}, p c = true → l[k]? = some d → p d = true → False := fun hc hk hd => by
      have := List.countP_eq_zero.mp (hzero hc) _ (List.mem_of_getElem? hk)
      exact this hd
    cases i with
    | zero =>
      cases j with
      | zero => rfl
      | succ j =>
        obtain rfl := Option.some.inj hi
        exact (hnone ha hj hb).elim
    | succ i =>
      cases j with
      | zero =>
        obtain rfl := Option.some.inj hj
        exact (hnone hb hi ha).elim
      | succ j =>
        have hc : ¬p c = true := fun hc => hnone hc hi ha
        rw [List.countP_cons_of_neg hc] at h
        rw [ih h hi hj]

/-- With one guard among the imported functions, the byte check and the structured ones look for the same
function. -/
theorem guardIndex_eq_findG {m : Module π} (h : m.importedFuncs.countP Import.isGuard = 1) :
    ∃ g, guardIndex m = some g ∧ findG m = some g := by
  obtain ⟨i, hi, hguard⟩ := List.countP_pos_iff.mp (by omega : 0 < m.importedFuncs.countP Import.isGuard)
  cases hidx : guardIndex m with
  | none =>
    have := guardIndex_none.mp hidx i hi
    rw [hguard] at this
    cases this
  | some g =>
    obtain ⟨j, hj, hjg⟩ := guardIndex_isGuard hidx
    cases hfind : findG m with
    | none =>
      have := List.findIdx?_eq_none_iff.mp hfind i hi
      rw [hguard] at this
      cases this
    | some g' =>
      obtain ⟨k, hk, hkg⟩ := findG_isGuard hfind
      exact ⟨g, rfl, by rw [countP_one_unique h hk hj hkg hjg]⟩

/-! ## Agreement -/

theorem forall₂_exists_right {α β : Type} {R : α → β → Prop} {as : List α} {bs : List β} (h : List.Forall₂ R as bs) :
    ∀ a ∈ as, ∃ b ∈ bs, R a b := by
  induction h with
  | nil => simp
  | cons hab _ ih =>
    intro a ha
    rcases List.mem_cons.mp ha with rfl | ha
    · exact ⟨_, List.mem_cons_self, hab⟩
    · obtain ⟨b, hb, hr⟩ := ih a ha
      exact ⟨b, List.mem_cons_of_mem _ hb, hr⟩

/-- Where the byte check reports no loop, every loop of every structured body has the guard at its head. -/
theorem Binary.loops_guarded (b : Binary π) {g : Nat} (hg : guardIndex b.toModule = some g)
    (hadj : verifyByteAdjacency b.toModule = .ok []) :
    ∀ lf ∈ b.funcs, ∀ body ∈ collectLoops lf.body, GuardedHead g body := by
  intro lf hlf
  obtain ⟨code, hcode, ops, off, henc, hops⟩ := forall₂_exists_right b.encoded lf hlf
  unfold verifyByteAdjacency at hadj
  split at hadj
  · cases hadj
  · rw [hg] at hadj
    obtain ⟨-, fidx, hclean⟩ := overBodies_ok hadj code hcode
    have hwalk : adjacencyWalk g fidx none 0 code.ops = [] :=
      List.eq_nil_iff_forall_not_mem.mpr fun x hx => List.not_mem_nil (hclean x hx)
    have hadjacent := (adjacencyWalk_sound code.ops).1 0 hwalk
    rw [hops] at hadjacent
    exact henc.loops_guarded _ hadjacent

/-- Where the byte check reports no loop, `checkGuards` has no finding and `reposition` moves nothing and
reports every loop as already in order. -/
theorem guard_checkers_agree (b : Binary π) (honce : b.importedFuncs.countP Import.isGuard = 1)
    (hadj : verifyByteAdjacency b.toModule = .ok []) :
    ∃ g n, findG b.toModule = some g ∧ checkGuards b.toModule g = [] ∧
      reposition b.toModule = (b.program,
        { repositioned := 0, alreadyOk := n, unguardedLoops := 0, skipped := 0, unverified := 0 }) := by
  obtain ⟨g, hidx, hfind⟩ := guardIndex_eq_findG honce
  have hloops := b.loops_guarded hidx hadj
  -- every loop starts with its guard, so the pass has one verdict for all of them
  have hverdicts : ∀ v ∈ b.funcs.flatMap fun lf => seqVerdicts g lf.body, v = .alreadyHead := by
    intro v hv
    obtain ⟨lf, hlf, hv⟩ := List.mem_flatMap.mp hv
    rw [(walks_seq fun i _ => walks_loops g lf.label i).2] at hv
    obtain ⟨body, hbody, rfl⟩ := List.mem_map.mp hv
    rw [(hloops lf hlf body hbody).hoist]
  have hcount : ∀ {w : Hoist}, w ≠ .alreadyHead → (b.funcs.flatMap fun lf => seqVerdicts g lf.body).count w = 0 :=
    fun hw => List.count_eq_zero_of_not_mem fun hmem => hw (hverdicts _ hmem)
  refine ⟨g, (b.funcs.flatMap fun lf => seqVerdicts g lf.body).count .alreadyHead, hfind, ?_, ?_⟩
  · refine List.flatMap_eq_nil_iff.mpr fun lf hlf => ?_
    rw [(walks_seq fun i _ => walks_loops g lf.label i).1]
    refine List.flatMap_eq_nil_iff.mpr fun body hbody => ?_
    rw [(hloops lf hlf body hbody).compliant]
    rfl
  · have hfunc : ∀ lf ∈ b.funcs, lf.reposition g = lf := by
      intro lf hlf
      rw [LocalFunction.reposition, repositionSeq_id (fun i _ => repositionInstr_id i) (hloops lf hlf)]
    have hprogram : b.program.reposition g = b.program := by
      show Program.mk b.importedFuncs (b.funcs.map (·.reposition g)) = ⟨b.importedFuncs, b.funcs⟩
      rw [List.map_congr_left hfunc, List.map_id']
    have hreport : Report.of (b.funcs.flatMap fun lf => seqVerdicts g lf.body) =
        ⟨0, (b.funcs.flatMap fun lf => seqVerdicts g lf.body).count .alreadyHead, 0, 0, 0⟩ := by
      rw [Report.of, @hcount .moved nofun, @hcount .noGuard nofun, @hcount .skip nofun, @hcount .unverified nofun]
    unfold reposition
    rw [hfind]
    exact Prod.ext hprogram hreport

end

/-- A loop in a loop, each with its guard, between blocks: what the compiler emits for two nested `for`s. -/
def nestedModule : Module Unit where
  imports := [⟨"env", "_g", .func⟩]
  exports := [⟨"hook", .func 1⟩]
  funcs := [⟨"hook", ⟨[.i32], [.i64]⟩, [],
    [.loop ⟨[], []⟩ [.const (.i32 1), .const (.i32 11), .call 0, .drop,
        .loop ⟨[], []⟩ [.const (.i32 2), .const (.i32 31), .call 0, .drop, .plain (), .brIf 0],
        .plain (), .brIf 0],
      .const (.i64 0)]⟩]
  bodies := [⟨[(.loop "Empty", 51), (.i32Const 1, 53), (.i32Const 11, 55), (.call 0, 57), (.other "Drop", 59),
    (.loop "Empty", 60), (.i32Const 2, 62), (.i32Const 31, 64), (.call 0, 66), (.other "Drop", 68),
    (.other "LocalGet { local_index: 0 }", 69), (.other "BrIf { relative_depth: 0 }", 71), (.other "End", 73),
    (.other "LocalGet { local_index: 0 }", 74), (.other "BrIf { relative_depth: 0 }", 76), (.other "End", 78),
    (.other "I64Const { value: 0 }", 79), (.other "End", 81)], none⟩]

theorem nested_encoded : List.Forall₂
    (fun (lf : LocalFunction Unit) (b : Body) =>
      ∃ ops off, Encodes lf.body ops ∧ b.ops = ops ++ [(Operator.other "End", off)]) nestedModule.funcs nestedModule.bodies := by
  refine .cons ⟨_, 81, .loop _ _ 51 78 (.i32Const 1 53 (.i32Const 11 55 (.call 0 57 (.other _ _ 59 rfl
    (.loop _ _ 60 73 (.i32Const 2 62 (.i32Const 31 64 (.call 0 66 (.other _ _ 68 rfl (.other _ _ 69 rfl
      (.other _ _ 71 rfl .nil))))))
      (.other _ _ 74 rfl (.other _ _ 76 rfl .nil))))))) (.other _ _ 79 rfl .nil), rfl⟩ .nil

/-- The nested module in its encoding. -/
def nestedBinary : Binary Unit := { nestedModule with encoded := nested_encoded }

theorem guard_checkers_agree_nested :
    ∃ g n, findG nestedModule = some g ∧ checkGuards nestedModule g = [] ∧
      reposition nestedModule = (nestedModule.program,
        { repositioned := 0, alreadyOk := n, unguardedLoops := 0, skipped := 0, unverified := 0 }) :=
  guard_checkers_agree nestedBinary (by decide) (by rfl)

end Xahc.Wasm

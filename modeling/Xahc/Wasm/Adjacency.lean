/-
`verifyByteAdjacency` is exact: it reports every loop that is not followed by its guard, once and with
its own offset, and no other loop.
-/
import Xahc.Wasm.Encode

namespace Xahc.Wasm

section
variable {π : Type}

/-! ## Loops without their guard -/

/-- The next three operators are the guard: two constants and the call. -/
def guardNext (g : Nat) : List (Operator × Nat) → Bool
  | (.i32Const _, _) :: (.i32Const _, _) :: (.call f, _) :: _ => f == g
  | _ => false

/-- The offset of the loop that a stream starts with, where the guard does not come next. -/
def unguardedHead (g : Nat) : List (Operator × Nat) → Option Nat
  | (.loop _, off) :: rest => if guardNext g rest then none else some off
  | _ => none

/-- The offsets of the loops of a stream that the guard does not follow, in the stream's order. -/
def unguardedLoops (g : Nat) (ops : List (Operator × Nat)) : List Nat := ops.tails.filterMap (unguardedHead g)

/-- Those of a module, each with the number of its function: the imported ones come first. -/
def Module.unguardedLoops (m : Module π) (g : Nat) : List (Nat × Nat) :=
  (m.bodies.zipIdx m.importedFuncs.length).flatMap fun b => (Wasm.unguardedLoops g b.1.ops).map fun off => (b.2, off)

/-- A loop is among them once for every place of the stream where it stands without its guard. -/
theorem mem_unguardedLoops {g off : Nat} {ops : List (Operator × Nat)} :
    off ∈ unguardedLoops g ops ↔ ∃ pre bt rest, ops = pre ++ (.loop bt, off) :: rest ∧ guardNext g rest = false := by
  unfold unguardedLoops
  rw [List.mem_filterMap]
  constructor
  · rintro ⟨tail, htail, hhead⟩
    obtain ⟨pre, rfl⟩ := (List.mem_tails _ _).1 htail
    unfold unguardedHead at hhead
    split at hhead
    · rename_i bt off' rest
      split_ifs at hhead with hguard
      cases hhead
      exact ⟨pre, bt, rest, rfl, by simpa using hguard⟩
    · cases hhead
  · rintro ⟨pre, bt, rest, rfl, hguard⟩
    refine ⟨(.loop bt, off) :: rest, (List.mem_tails _ _).2 (List.suffix_append pre _), ?_⟩
    simp [unguardedHead, hguard]

theorem unguardedLoops_cons (g : Nat) (o : Operator × Nat) (ops : List (Operator × Nat)) :
    unguardedLoops g (o :: ops) = (unguardedHead g (o :: ops)).toList ++ unguardedLoops g ops := by
  rw [unguardedLoops, List.tails_cons, List.filterMap_cons, ← unguardedLoops]
  cases unguardedHead g (o :: ops) <;> rfl

/-! ## The walk -/

theorem follows_cons {g want : Nat} {op : Operator} {off : Nat} {ops : List (Operator × Nat)} (hwant : want ≤ 2) :
    Follows g want ((op, off) :: ops) ↔ wanted g want op = true ∧ (want < 2 → Follows g (want + 1) ops) := by
  obtain rfl | rfl | rfl : want = 0 ∨ want = 1 ∨ want = 2 := by omega
  all_goals cases op <;> simp [Follows, wanted]

theorem guardNext_iff {g : Nat} {ops : List (Operator × Nat)} : guardNext g ops = true ↔ Follows g 0 ops := by
  constructor
  · intro h
    unfold guardNext at h
    split at h
    · exact eq_of_beq h
    · cases h
  · intro h
    obtain ⟨a, o, b, o', o'', rest, rfl⟩ := follows_zero h
    exact beq_self_eq_true g

theorem unguardedHead_loop {g off : Nat} {op : Operator} {ops : List (Operator × Nat)} (hloop : op.isLoop = true) :
    unguardedHead g ((op, off) :: ops) = if guardNext g ops then none else some off := by
  cases op with
  | loop bt => rfl
  | _ => cases hloop

theorem unguardedHead_other {g off : Nat} {op : Operator} {ops : List (Operator × Nat)} (hloop : op.isLoop = false) :
    unguardedHead g ((op, off) :: ops) = none := by
  cases op with
  | loop bt => cases hloop
  | _ => rfl

/-- A walk under way reports the loop it is checking where the rest of its guard does not come, and then
what a fresh walk reports. -/
theorem adjacencyWalk_reports (g fidx : Nat) (ops : List (Operator × Nat)) :
    (∀ want, (adjacencyWalk g fidx none want ops).map (fun b => (b.func, b.offset)) =
      (unguardedLoops g ops).map fun off => (fidx, off)) ∧
    ∀ off want, want ≤ 2 →
      (Follows g want ops → (adjacencyWalk g fidx (some off) want ops).map (fun b => (b.func, b.offset)) =
        (unguardedLoops g ops).map fun off => (fidx, off)) ∧
      (¬Follows g want ops → (adjacencyWalk g fidx (some off) want ops).map (fun b => (b.func, b.offset)) =
        (fidx, off) :: (unguardedLoops g ops).map fun off => (fidx, off)) := by
  induction ops with
  | nil =>
    refine ⟨fun _ => rfl, fun off want _ => ⟨?_, fun _ => rfl⟩⟩
    intro h
    unfold Follows at h
    split at h <;> simp_all
  | cons o ops ih =>
    obtain ⟨op, opOff⟩ := o
    obtain ⟨ihNone, ihSome⟩ := ih
    -- a loop is checked from its first operator on, whatever was under way before it
    have hloop : op.isLoop = true → (adjacencyWalk g fidx (some opOff) 0 ops).map (fun b => (b.func, b.offset)) =
        (unguardedLoops g ((op, opOff) :: ops)).map fun off => (fidx, off) := by
      intro hloop
      rw [unguardedLoops_cons, unguardedHead_loop hloop]
      by_cases hguard : guardNext g ops = true
      · rw [if_pos hguard, (ihSome opOff 0 (by decide)).1 (guardNext_iff.1 hguard)]
        rfl
      · rw [if_neg hguard, (ihSome opOff 0 (by decide)).2 fun h => hguard (guardNext_iff.2 h)]
        rfl
    have hother : op.isLoop = false → unguardedLoops g ((op, opOff) :: ops) = unguardedLoops g ops := by
      intro hother
      rw [unguardedLoops_cons, unguardedHead_other hother]
      rfl
    constructor
    · intro want
      rw [adjacencyWalk]
      cases hop : op.isLoop with
      | true => simpa [hop] using hloop hop
      | false => simpa [hop, hother hop] using ihNone want
    · intro off want hwant
      rw [follows_cons hwant, adjacencyWalk]
      cases hwanted : wanted g want op with
      | true =>
        have hop := wanted_isLoop hwanted
        by_cases hlt : want < 2
        · simpa [hop, hlt, hother hop] using ihSome off (want + 1) (by omega)
        · simpa [hop, hlt, hother hop] using ihNone want
      | false =>
        refine ⟨fun h => by simp at h, fun _ => ?_⟩
        cases hop : op.isLoop with
        | true => simpa [hop] using hloop hop
        | false => simpa [hop, hother hop] using ihNone want

/-! ## The whole module -/

/-- The raw reader comes to the end of the module. -/
def Module.Readable (m : Module π) : Prop := m.payloadError = none ∧ ∀ b ∈ m.bodies, b.readError = none

/-- A check of every code entry reports what it reports of each, with the number of its function. -/
theorem overBodies_reports {α β : Type} {check : Nat → List (Operator × Nat) → List α} {key : α → β}
    {spec : Nat → List (Operator × Nat) → List β} (h : ∀ fidx ops, (check fidx ops).map key = spec fidx ops) :
    ∀ {bs : List Body} {fidx : Nat} {out : List α}, overBodies check fidx bs = .ok out →
      out.map key = (bs.zipIdx fidx).flatMap fun b => spec b.2 b.1.ops
  | [], fidx, out, hout => by
    cases hout
    rfl
  | b :: bs, fidx, out, hout => by
    rw [overBodies] at hout
    split at hout
    · cases hout
    · cases hrec : overBodies check (fidx + 1) bs with
      | error e =>
        rw [hrec] at hout
        cases hout
      | ok out' =>
        rw [hrec] at hout
        obtain rfl : check fidx b.ops ++ out' = out := Except.ok.inj hout
        rw [List.map_append, h, overBodies_reports h hrec]
        rfl

/-- It succeeds exactly where every entry can be read. -/
theorem overBodies_isOk {α : Type} {check : Nat → List (Operator × Nat) → List α} :
    ∀ {bs : List Body} {fidx : Nat}, (∃ out, overBodies check fidx bs = .ok out) ↔ ∀ b ∈ bs, b.readError = none
  | [], fidx => by simp [overBodies]
  | b :: bs, fidx => by
    rw [overBodies, List.forall_mem_cons]
    cases hread : b.readError with
    | some e => simp
    | none =>
      have ih := @overBodies_isOk _ check bs (fidx + 1)
      rw [← ih]
      cases overBodies check (fidx + 1) bs <;> simp [Except.map]

/-- The check answers for every module that can be read, and reports exactly the loops whose next three
operators are not the guard. -/
theorem verify_byte_adjacency_exact (m : Module π) (honce : m.importedFuncs.countP Import.isGuard = 1) :
    ((∃ bad, verifyByteAdjacency m = .ok bad) ↔ m.Readable) ∧
      ∃ g, m.IsGuardFunc g ∧ ∀ bad, verifyByteAdjacency m = .ok bad →
        bad.map (fun b => (b.func, b.offset)) = m.unguardedLoops g := by
  obtain ⟨g, hidx, -⟩ := guardIndex_eq_findG honce
  unfold verifyByteAdjacency Module.Readable
  cases hpayload : m.payloadError with
  | some e => exact ⟨by simp, g, guardIndex_isGuard hidx, fun bad hbad => nomatch hbad⟩
  | none =>
    rw [hidx]
    refine ⟨overBodies_isOk.trans (by simp), g, guardIndex_isGuard hidx, fun bad hbad => ?_⟩
    exact overBodies_reports (fun fidx ops => (adjacencyWalk_reports g fidx ops).1 0) hbad

end

/-- Two loops of which the inner one stands where the outer one's guard should, and one that ends the body. -/
def misplacedModule : Module Unit where
  imports := [⟨"env", "_g", .func⟩]
  exports := [⟨"hook", .func 1⟩]
  funcs := []
  bodies := [⟨[(.loop "Empty", 51), (.i32Const 1, 53), (.loop "Empty", 55), (.i32Const 2, 57), (.i32Const 31, 59),
    (.call 0, 61), (.other "Drop", 63), (.other "End", 64), (.other "End", 65), (.loop "Empty", 66)], none⟩]

theorem verify_byte_adjacency_exact_misplaced :
    misplacedModule.unguardedLoops 0 = [(1, 51), (1, 66)] ∧
      ((∃ bad, verifyByteAdjacency misplacedModule = .ok bad) ↔ misplacedModule.Readable) ∧
      ∃ g, misplacedModule.IsGuardFunc g ∧ ∀ bad, verifyByteAdjacency misplacedModule = .ok bad →
        bad.map (fun b => (b.func, b.offset)) = misplacedModule.unguardedLoops g :=
  ⟨by decide, verify_byte_adjacency_exact misplacedModule (by decide)⟩

end Xahc.Wasm

/-
The stack budget: frame sizes read off the prologues, a depth-first search of the call graph with a memo table, and
what it finds: recursion where a root leads to a cycle of calls, and otherwise the deepest chain of calls.
-/
import Xahc.Data.Depth
import Xahc.Wasm.Lint

namespace Xahc.Wasm

open Xahc.Data Relation

/-! ## The module as the analysis reads it -/

/-- A global of the module. -/
structure Global where
  type : ValType
  mutable : Bool
  /-- The value, where it is a constant of the module's own. -/
  init : Option Value
  deriving DecidableEq, Repr

/-- A data segment. -/
structure DataSegment where
  /-- The offset, where the segment is active and the offset a constant. -/
  offset : Option Value
  len : Nat
  deriving DecidableEq, Repr

/-- A module with its globals and its static data. -/
structure MemoryModule (π : Type) extends Module π where
  globals : List Global
  data : List DataSegment

/-- What the analysis tells apart among the plain instructions. -/
structure PlainOps (π : Type) where
  /-- The global of a `global.get`. -/
  globalGet : π → Option Nat
  isI32Sub : π → Bool

/-- The value of an `i32` constant, signed. -/
def Value.i32? : Value → Option Int
  | .i32 n => some n.toBitVec.toInt
  | _ => none

section
variable {π : Type}

/-- The mutable `i32` global with the largest constant, and that constant. -/
def stackPointer (globals : List Global) : Option (Nat × Int) :=
  globals.zipIdx.foldl (fun sp g =>
    match g.1.init.bind Value.i32? with
    | some v =>
      if g.1.type = .i32 ∧ g.1.mutable = true ∧ (sp.all fun s => v > s.2) = true then some (g.2, v) else sp
    | none => sp) none

/-- The end of the static data. -/
def dataEnd (data : List DataSegment) : Int :=
  data.foldl (fun dataEnd d =>
    match d.offset.bind Value.i32? with
    | some off => max dataEnd (off + d.len)
    | none => dataEnd) 0

/-- The bytes between the data and the initial stack pointer. -/
def available (spInit dataEnd : Int) : Int := max (spInit - dataEnd) 0

/-! ## Frames and calls -/

/-- What has been seen of a prologue: the stack pointer read, the last constant, and the largest one subtracted. -/
structure Prologue where
  sawSpGet : Bool := false
  lastConst : Int := 0
  candidate : Nat := 0

/-- What an instruction tells about the frame of its function. -/
def prologueStep (ops : PlainOps π) (spId : Nat) (p : Prologue) : Instr π → Prologue
  | .const c =>
    match c.i32? with
    | some n => { p with lastConst := n }
    | none => p
  | .plain op =>
    if ops.globalGet op = some spId then { p with sawSpGet := true }
    else if ops.isI32Sub op ∧ p.sawSpGet ∧ p.lastConst > 0 then
      { p with candidate := max p.candidate p.lastConst.toNat }
    else p
  | _ => p

/-- The bytes a function takes from the stack. -/
def frameSize (ops : PlainOps π) (spId : Nat) (lf : LocalFunction π) : Nat :=
  (lf.body.foldl (prologueStep ops spId) {}).candidate

mutual
/-- The functions an instruction calls. -/
def Instr.calls : Instr π → List Nat
  | .call f => [f]
  | .loop _ body => collectCalls body
  | .block _ body => collectCalls body
  | .ifElse _ consequent alternative => collectCalls consequent ++ collectCalls alternative
  | _ => []

/-- The callees of a sequence, at any depth. -/
def collectCalls : List (Instr π) → List Nat
  | [] => []
  | i :: is => i.calls ++ collectCalls is
end

/-- The local functions under their indices, each with what is read of it. -/
def Module.locals {α : Type} (m : Module π) (read : LocalFunction π → α) : List (Nat × α) :=
  (m.funcs.zipIdx m.importedFuncs.length).map fun f => (f.2, read f.1)

/-- The local function with that index. -/
def Module.localFunc (m : Module π) (f : Nat) : Option (LocalFunction π) :=
  if f < m.importedFuncs.length then none else m.funcs[f - m.importedFuncs.length]?

/-- The exported functions of the names `hook` and `cbak`. -/
def Module.roots (m : Module π) : List Nat :=
  m.exports.filterMap fun e =>
    match e.item with
    | .func fid => if e.name = "hook" ∨ e.name = "cbak" then some fid else none
    | _ => none

end

/-! ## The search -/

/-- `u32::MAX`. -/
def U32_MAX : Nat := 2 ^ 32 - 1

/-- The depths found so far, and whether a call led back to its own chain. -/
structure Search where
  memo : List (Nat × Nat) := []
  recursion : Bool := false

section
variable (frames : List (Nat × Nat)) (edges : List (Nat × List Nat))

/-- The functions that may still be put on the stack. -/
def offStack (onStack : List Nat) : Nat := ((edges.map Prod.fst).filter fun f => decide (f ∉ onStack)).length

variable {edges} in
theorem offStack_lt {f : Nat} {onStack cs : List Nat} (hf : f ∉ onStack) (hcs : edges.lookup f = some cs) :
    offStack edges (f :: onStack) < offStack edges onStack := by
  obtain ⟨before, after, hedges, -⟩ := List.lookup_eq_some_iff.1 hcs
  have hmem : f ∈ edges.map Prod.fst := List.mem_map_of_mem (f := Prod.fst) (a := (f, cs)) (by simp [hedges])
  have hsplit : (edges.map Prod.fst).filter (fun g => decide (g ∉ f :: onStack)) =
      ((edges.map Prod.fst).filter fun g => decide (g ∉ onStack)).filter fun g => decide (g ≠ f) := by
    rw [List.filter_filter]
    congr 1
    funext g
    simp [List.mem_cons, not_or]
  unfold offStack
  rw [hsplit, List.length_filter_lt_length_iff_exists]
  exact ⟨f, List.mem_filter.2 ⟨hmem, by simpa using hf⟩, by simp⟩

mutual
/-- The deepest chain from `f`, which is put on the stack while its callees are searched. -/
def deepestChain (f : Nat) (onStack : List Nat) (s : Search) : Nat × Search :=
  let own := (frames.lookup f).getD 0
  if hf : f ∈ onStack then (own, { s with recursion := true }) -- break the cycle
  else
    match s.memo.lookup f with
    | some v => (v, s)
    | none =>
      let below := match _hcs : edges.lookup f with
        | some cs => deepestCallee cs 0 (f :: onStack) s
        | none => (0, s)
      let total := min U32_MAX (own + below.1)
      (total, { below.2 with memo := (f, total) :: below.2.memo })
termination_by (offStack edges onStack, 0)
decreasing_by exact Prod.Lex.left _ _ (offStack_lt hf _hcs)

/-- The deepest chain from the local functions among the callees. -/
def deepestCallee : List Nat → Nat → List Nat → Search → Nat × Search
  | [], maxChild, _, s => (maxChild, s)
  | c :: cs, maxChild, onStack, s =>
    if (frames.lookup c).isSome then
      let r := deepestChain c onStack s
      deepestCallee cs (max maxChild r.1) onStack r.2
    else deepestCallee cs maxChild onStack s
termination_by cs _ onStack _ => (offStack edges onStack, cs.length)
decreasing_by
  · exact Prod.Lex.right _ (Nat.succ_pos _)
  · exact Prod.Lex.right _ (Nat.lt_succ_self _)
  · exact Prod.Lex.right _ (Nat.lt_succ_self _)
end

/-! ## What the search finds -/

/-- A direct call from a local function to a local function. -/
def Calls (f c : Nat) : Prop := ∃ cs, edges.lookup f = some cs ∧ c ∈ cs ∧ (frames.lookup c).isSome = true

/-- The frame of a function; none for one that is not local. -/
def frameOf (f : Nat) : Nat := (frames.lookup f).getD 0

/-- Every chain of calls from the function ends, and the deepest one is that deep. -/
def Settled (f d : Nat) : Prop :=
  Acc (fun c f => Calls frames edges f c) f ∧ IsDepth (Calls frames edges) (frameOf frames) U32_MAX f d

/-- Unless recursion was found, the memo table holds settled depths. -/
def Search.Sound (s : Search) : Prop :=
  s.recursion = false → ∀ f d, s.memo.lookup f = some d → Settled frames edges f d

/-- What a search from `f` says: recursion exactly where a cycle of calls can be reached, or found before, and
without it the depth of `f`. -/
structure Searched (f : Nat) (s : Search) (r : Nat × Search) : Prop where
  keeps : s.recursion = true → r.2.recursion = true
  cycle : r.2.recursion = true → s.recursion = true ∨ ReachesCycle (Calls frames edges) f
  sound : r.2.Sound frames edges
  settled : r.2.recursion = false → Settled frames edges f r.1

/-- What a search from one after the other of the functions says that pass `P`. -/
structure SearchedAll (P : Nat → Prop) (cs : List Nat) (deepest : Nat) (s : Search) (r : Nat × Search) : Prop where
  keeps : s.recursion = true → r.2.recursion = true
  cycle : r.2.recursion = true → s.recursion = true ∨ ∃ c ∈ cs, P c ∧ ReachesCycle (Calls frames edges) c
  sound : r.2.Sound frames edges
  le : deepest ≤ r.1
  settled : r.2.recursion = false → ∀ c ∈ cs, P c → ∃ d, Settled frames edges c d ∧ d ≤ r.1
  attained : r.2.recursion = false → r.1 = deepest ∨ ∃ c ∈ cs, P c ∧ Settled frames edges c r.1

variable {frames edges} {P : Nat → Prop} {c : Nat} {cs : List Nat} {deepest : Nat} {s : Search} {r first : Nat × Search}

theorem SearchedAll.nil (hs : s.Sound frames edges) : SearchedAll frames edges P [] deepest s (deepest, s) :=
  ⟨id, .inl, hs, le_rfl, fun _ _ hc => absurd hc List.not_mem_nil, fun _ => .inl rfl⟩

theorem SearchedAll.cons (hc : P c) (hfirst : Searched frames edges c s first)
    (hrest : SearchedAll frames edges P cs (max deepest first.1) first.2 r) :
    SearchedAll frames edges P (c :: cs) deepest s r := by
  have hfirst' (h : r.2.recursion = false) : first.2.recursion = false := by
    by_contra hne
    rw [hrest.keeps (Bool.eq_true_of_not_eq_false hne)] at h
    cases h
  refine ⟨fun h => hrest.keeps (hfirst.keeps h), fun h => ?_, hrest.sound, (le_max_left _ _).trans hrest.le,
    fun h => ?_, fun h => ?_⟩
  · rcases hrest.cycle h with h | ⟨c', hc', hcycle⟩
    · rcases hfirst.cycle h with h | h
      · exact .inl h
      · exact .inr ⟨c, List.mem_cons_self, hc, h⟩
    · exact .inr ⟨c', List.mem_cons_of_mem c hc', hcycle⟩
  · refine List.forall_mem_cons.2 ⟨fun _ => ?_, hrest.settled h⟩
    exact ⟨first.1, hfirst.settled (hfirst' h), (le_max_right _ _).trans hrest.le⟩
  · rcases hrest.attained h with hmax | ⟨c', hc', hsettled⟩
    · rcases max_choice deepest first.1 with hchoice | hchoice
      · exact .inl (hmax.trans hchoice)
      · rw [hmax, hchoice]
        exact .inr ⟨c, List.mem_cons_self, hc, hfirst.settled (hfirst' h)⟩
    · exact .inr ⟨c', List.mem_cons_of_mem c hc', hsettled⟩

theorem SearchedAll.skip (hc : ¬P c) (hrest : SearchedAll frames edges P cs deepest s r) :
    SearchedAll frames edges P (c :: cs) deepest s r := by
  refine ⟨hrest.keeps, fun h => ?_, hrest.sound, hrest.le, fun h => ?_, fun h => ?_⟩
  · exact (hrest.cycle h).imp_right fun ⟨c', hc', hcycle⟩ => ⟨c', List.mem_cons_of_mem c hc', hcycle⟩
  · exact List.forall_mem_cons.2 ⟨fun h => absurd h hc, hrest.settled h⟩
  · exact (hrest.attained h).imp_right fun ⟨c', hc', hsettled⟩ => ⟨c', List.mem_cons_of_mem c hc', hsettled⟩

/-- The callees are searched one after the other, on the same stack. -/
theorem searchedAll_of_chain {onStack : List Nat}
    (hchain : ∀ f s, (∀ a ∈ onStack, TransGen (Calls frames edges) a f) → s.Sound frames edges →
      Searched frames edges f s (deepestChain frames edges f onStack s)) :
    ∀ (cs : List Nat) (maxChild : Nat) (s : Search),
      (∀ c ∈ cs, (frames.lookup c).isSome = true → ∀ a ∈ onStack, TransGen (Calls frames edges) a c) →
        s.Sound frames edges → SearchedAll frames edges (fun c => (frames.lookup c).isSome = true) cs maxChild s
          (deepestCallee frames edges cs maxChild onStack s)
  | [], maxChild, s, _, hs => by
    rw [deepestCallee]
    exact .nil hs
  | c :: cs, maxChild, s, hstack, hs => by
    have hstack' := fun c' hc' => hstack c' (List.mem_cons_of_mem c hc')
    rw [deepestCallee]
    split_ifs with hlocal
    · have hfirst := hchain c s (hstack c List.mem_cons_self hlocal) hs
      exact .cons hlocal hfirst (searchedAll_of_chain hchain cs _ _ hstack' hfirst.sound)
    · exact .skip hlocal (searchedAll_of_chain hchain cs maxChild s hstack' hs)

/-- A function whose callees are settled is settled, and nothing was found that it does not lead to. -/
theorem searched_of_callees {f : Nat}
    (hcs : ∀ c, Calls frames edges f c ↔ c ∈ cs ∧ (frames.lookup c).isSome = true)
    (hr : SearchedAll frames edges (fun c => (frames.lookup c).isSome = true) cs 0 s r) : Searched frames edges f s
      (min U32_MAX (frameOf frames f + r.1), { r.2 with memo := (f, min U32_MAX (frameOf frames f + r.1)) :: r.2.memo }) := by
  have hsettled (h : r.2.recursion = false) : Settled frames edges f (min U32_MAX (frameOf frames f + r.1)) := by
    refine ⟨Acc.intro f fun c hc => ?_, isDepth_of_next (fun c hc => ?_) ?_⟩
    · obtain ⟨d, hd, -⟩ := hr.settled h c ((hcs c).1 hc).1 ((hcs c).1 hc).2
      exact hd.1
    · obtain ⟨d, hd, hle⟩ := hr.settled h c ((hcs c).1 hc).1 ((hcs c).1 hc).2
      exact ⟨d, hd.2, hle⟩
    · exact (hr.attained h).imp_right fun ⟨c, hc, hlocal, hd⟩ => ⟨c, (hcs c).2 ⟨hc, hlocal⟩, hd.2⟩
  refine ⟨hr.keeps, fun h => ?_, fun h g d hg => ?_, hsettled⟩
  · exact (hr.cycle h).imp_right fun ⟨c, hc, hlocal, hcycle⟩ => reachesCycle_of_next ((hcs c).2 ⟨hc, hlocal⟩) hcycle
  · rw [List.lookup_cons] at hg
    split at hg
    · rename_i heq
      cases hg
      rw [beq_iff_eq.1 heq]
      exact hsettled h
    · exact hr.sound h g d hg

/-- The search from a function, with the functions on the stack that lead to it. -/
theorem searched_chain (onStack : List Nat) : ∀ (f : Nat) (s : Search),
    (∀ a ∈ onStack, TransGen (Calls frames edges) a f) → s.Sound frames edges →
      Searched frames edges f s (deepestChain frames edges f onStack s) := by
  -- by how many functions are off the stack
  induction hn : offStack edges onStack using Nat.strong_induction_on generalizing onStack with
  | _ n ih =>
    intro f s hstack hs
    rw [deepestChain]
    dsimp only
    split_ifs with hf
    · exact ⟨fun _ => rfl, fun _ => .inr ⟨f, .refl, hstack f hf⟩, (fun h => nomatch h), fun h => nomatch h⟩
    split
    · rename_i v hmemo
      exact ⟨id, .inl, hs, fun h => hs h f v hmemo⟩
    split
    · rename_i cs hcs
      have hcalls (c : Nat) : Calls frames edges f c ↔ c ∈ cs ∧ (frames.lookup c).isSome = true := by
        constructor
        · rintro ⟨cs', hcs', hc⟩
          cases hcs.symm.trans hcs'
          exact hc
        · exact fun hc => ⟨cs, hcs, hc⟩
      refine searched_of_callees hcalls (searchedAll_of_chain ?_ cs 0 s ?_ hs)
      · exact ih _ (hn ▸ offStack_lt hf hcs) _ rfl
      · intro c hc hlocal
        have hcall := (hcalls c).2 ⟨hc, hlocal⟩
        exact List.forall_mem_cons.2 ⟨.single hcall, fun a ha => (hstack a ha).tail hcall⟩
    · rename_i hnone
      have hcalls (c : Nat) : Calls frames edges f c ↔ c ∈ [] ∧ (frames.lookup c).isSome = true := by
        constructor
        · rintro ⟨cs, hcs, -⟩
          cases hnone.symm.trans hcs
        · exact fun hc => absurd hc.1 List.not_mem_nil
      exact searched_of_callees hcalls (r := (0, s)) (.nil hs)

/-! ## From the roots -/

variable (frames edges) in
/-- The deepest chain from the roots, each searched with an empty stack and what the others left. -/
def deepestRoot (roots : List Nat) (deepest : Nat) (s : Search) : Nat × Search :=
  roots.foldl (fun acc r => (max acc.1 (deepestChain frames edges r [] acc.2).1, (deepestChain frames edges r [] acc.2).2))
    (deepest, s)

theorem searchedAll_roots : ∀ (roots : List Nat) (deepest : Nat) (s : Search), s.Sound frames edges →
    SearchedAll frames edges (fun _ => True) roots deepest s (deepestRoot frames edges roots deepest s)
  | [], _, _, hs => .nil hs
  | r :: roots, deepest, s, hs => by
    have hfirst := searched_chain [] r s (fun a ha => absurd ha List.not_mem_nil) hs
    exact .cons trivial hfirst (searchedAll_roots roots _ _ hfirst.sound)

theorem search_sound {roots : List Nat} (hr : deepestRoot frames edges roots 0 {} = r) :
    (r.2.recursion = true ↔ ∃ f ∈ roots, ReachesCycle (Calls frames edges) f) ∧
      (r.2.recursion = false →
        (roots ≠ [] → IsGreatest {d | ∃ f ∈ roots, d ∈ pathWeights (Calls frames edges) (frameOf frames) U32_MAX f} r.1) ∧
          (roots = [] → r.1 = 0)) := by
  have hall : SearchedAll frames edges (fun _ => True) roots 0 {} _ :=
    searchedAll_roots roots 0 {} fun _ f d h => nomatch h
  rw [hr] at hall
  constructor
  · constructor
    · intro h
      rcases hall.cycle h with h | ⟨f, hf, -, hcycle⟩
      · cases h
      · exact ⟨f, hf, hcycle⟩
    · rintro ⟨f, hf, hcycle⟩
      -- without the flag every root has a depth, and a function on a cycle has none
      by_contra h
      obtain ⟨d, hd, -⟩ := hall.settled (Bool.eq_false_of_not_eq_true h) f hf trivial
      exact not_reachesCycle_of_acc hd.1 hcycle
  · intro h
    constructor
    · intro hne
      constructor
      · rcases hall.attained h with hzero | ⟨f, hf, -, hsettled⟩
        · obtain ⟨f, hf⟩ := List.exists_mem_of_ne_nil roots hne
          obtain ⟨d, hd, hle⟩ := hall.settled h f hf trivial
          obtain rfl : d = r.1 := by omega
          exact ⟨f, hf, hd.2.1⟩
        · exact ⟨f, hf, hsettled.2.1⟩
      · rintro d ⟨f, hf, hd⟩
        obtain ⟨d', hd', hle⟩ := hall.settled h f hf trivial
        exact (hd'.2.2 hd).trans hle
    · rintro rfl
      rw [← hr]
      rfl

end

/-! ## The check -/

/-- A finding that does not fail the lint. -/
def Finding.warn (ruleId msg : String) : Finding := ⟨.warn, ruleId, msg⟩

section
variable {π : Type} (ops : PlainOps π) (high : Nat → Int → Option String)

/-- What is said of the deepest chain: `high` is the text where it takes up so much of the stack, in floating point. -/
def budgetFindings (deepest : Nat) (spInit dataEnd : Int) : List Finding :=
  let available := available spInit dataEnd
  if (deepest : Int) > available then
    [.warn "STACK_OVERFLOW" ("stack may overflow: deepest call chain ~" ++ toString deepest ++ " bytes > available stack " ++
      toString available ++ " bytes (sp_init " ++ toString spInit ++ " - data " ++ toString dataEnd ++ ")")]
  else ((high deepest available).map (Finding.warn "STACK_HIGH")).toList

/-- The warning of recursion. -/
def recursionFindings (recursion : Bool) : List Finding :=
  if recursion then
    [.warn "RECURSION"
      "recursion detected in call graph — stack-budget analysis is unbounded; hooks should not recurse"]
  else []

/-- The findings about the stack. -/
def checkStack (m : MemoryModule π) : List Finding :=
  match stackPointer m.globals with
  | none => []
  | some (spId, spInit) =>
    let dataEnd := dataEnd m.data
    if available spInit dataEnd = 0 then []
    else
      let frames := m.locals (frameSize ops spId)
      let edges := m.locals fun lf => collectCalls lf.body
      let found := deepestRoot frames edges m.roots 0 {}
      recursionFindings found.2.recursion ++ budgetFindings high found.1 spInit dataEnd

/-- A direct call from a local function, at any depth in its body, to a local function. -/
def Module.DirectCall (m : Module π) (f c : Nat) : Prop :=
  ∃ lf, m.localFunc f = some lf ∧ seqCallsAnywhere c lf.body = true ∧ (m.localFunc c).isSome = true

/-- The frame of a function, none for an imported one. -/
def Module.frame (m : Module π) (spId f : Nat) : Nat := ((m.localFunc f).map (frameSize ops spId)).getD 0

variable {ops high}

theorem mem_collectCalls_of {c : Nat} : ∀ {is : List (Instr π)}, (∀ i ∈ is, c ∈ i.calls ↔ i.callsAnywhere c = true) →
    (c ∈ collectCalls is ↔ seqCallsAnywhere c is = true)
  | [], _ => by simp [collectCalls, seqCallsAnywhere]
  | i :: is, h => by
    obtain ⟨hi, his⟩ := List.forall_mem_cons.1 h
    rw [collectCalls, seqCallsAnywhere, List.mem_append, Bool.or_eq_true, hi, mem_collectCalls_of his]

theorem mem_calls {c : Nat} (i : Instr π) : c ∈ i.calls ↔ i.callsAnywhere c = true := by
  induction i using Instr.induct with
  | plain i hblock hloop hif =>
    cases i with
    | call f =>
      rw [Instr.calls, Instr.callsAnywhere, List.mem_singleton, beq_iff_eq]
      exact eq_comm
    | block ty body => exact absurd rfl (hblock ty body)
    | loop ty body => exact absurd rfl (hloop ty body)
    | ifElse ty consequent alternative => exact absurd rfl (hif ty consequent alternative)
    | _ => simp [Instr.calls, Instr.callsAnywhere]
  | block ty body ih => exact mem_collectCalls_of ih
  | loop ty body ih => exact mem_collectCalls_of ih
  | ifElse ty consequent alternative ihc iha =>
    rw [Instr.calls, Instr.callsAnywhere, List.mem_append, Bool.or_eq_true, mem_collectCalls_of ihc,
      mem_collectCalls_of iha]

/-- The callees collected are the functions called anywhere in the body. -/
theorem mem_collectCalls {c : Nat} (is : List (Instr π)) : c ∈ collectCalls is ↔ seqCallsAnywhere c is = true :=
  mem_collectCalls_of fun i _ => mem_calls i

theorem lookup_zipIdx {α β : Type} (read : α → β) (f : Nat) : ∀ (l : List α) (n : Nat),
    ((l.zipIdx n).map fun a => (a.2, read a.1)).lookup f = if f < n then none else (l[f - n]?).map read
  | [], n => by simp
  | a :: l, n => by
    rw [List.zipIdx_cons, List.map_cons, List.lookup_cons, lookup_zipIdx read f l (n + 1)]
    by_cases hf : f = n
    · subst hf
      simp
    · rw [beq_eq_false_iff_ne.2 hf]
      dsimp only
      by_cases hlt : f < n
      · rw [if_pos hlt, if_pos (by omega)]
      · rw [if_neg hlt, if_neg (by omega), show f - n = f - (n + 1) + 1 by omega, List.getElem?_cons_succ]

theorem lookup_locals {α : Type} (m : Module π) (read : LocalFunction π → α) (f : Nat) :
    (m.locals read).lookup f = (m.localFunc f).map read := by
  rw [Module.locals, lookup_zipIdx, Module.localFunc]
  split_ifs <;> rfl

theorem calls_iff (m : Module π) (spId : Nat) : Calls (m.locals (frameSize ops spId))
    (m.locals fun lf => collectCalls lf.body) = m.DirectCall := by
  funext f c
  simp only [Calls, Module.DirectCall, lookup_locals, Option.isSome_map, Option.map_eq_some_iff, eq_iff_iff]
  constructor
  · rintro ⟨_, ⟨lf, hlf, rfl⟩, hc, hlocal⟩
    exact ⟨lf, hlf, (mem_collectCalls lf.body).1 hc, hlocal⟩
  · rintro ⟨lf, hlf, hc, hlocal⟩
    exact ⟨_, ⟨lf, hlf, rfl⟩, (mem_collectCalls lf.body).2 hc, hlocal⟩

theorem frameOf_eq (m : Module π) (spId : Nat) : frameOf (m.locals (frameSize ops spId)) = m.frame ops spId := by
  funext f
  rw [frameOf, lookup_locals, Module.frame]

theorem budgetFindings_rule {deepest : Nat} {spInit dataEnd : Int} :
    ∀ x ∈ budgetFindings high deepest spInit dataEnd, x.ruleId ≠ "RECURSION" := by
  unfold budgetFindings
  dsimp only
  split_ifs
  · intro x hx
    rw [List.mem_singleton.1 hx]
    exact (by decide : "STACK_OVERFLOW" ≠ "RECURSION")
  · intro x hx
    rw [Option.mem_toList, Option.map_eq_some_iff] at hx
    obtain ⟨msg, -, rfl⟩ := hx
    exact (by decide : "STACK_HIGH" ≠ "RECURSION")

/-- With a stack pointer and room for a stack, recursion is reported exactly where a root leads to a cycle of calls;
and where none does, the depth that is held against the stack is that of the deepest chain of calls from a root. -/
theorem stack_analysis {m : MemoryModule π} {spId : Nat} {spInit : Int}
    (hsp : stackPointer m.globals = some (spId, spInit)) (hroom : 0 < available spInit (dataEnd m.data)) :
    ((∃ x ∈ checkStack ops high m, x.ruleId = "RECURSION") ↔ ∃ r ∈ m.roots, ReachesCycle m.DirectCall r) ∧
      ((∀ r ∈ m.roots, ¬ReachesCycle m.DirectCall r) → ∃ deepest,
        checkStack ops high m = budgetFindings high deepest spInit (dataEnd m.data) ∧
        (m.roots ≠ [] → IsGreatest {d | ∃ r ∈ m.roots, ∃ p, (r :: p).IsChain m.DirectCall ∧
          d = min U32_MAX ((r :: p).map (m.frame ops spId)).sum} deepest) ∧
        (m.roots = [] → deepest = 0)) := by
  generalize hfound : deepestRoot (m.locals (frameSize ops spId)) (m.locals fun lf => collectCalls lf.body) m.roots 0 {} =
    found
  -- the memoised search decides reachable cycles and, without one, finds the deepest chain
  obtain ⟨hcycle, hdepth⟩ := search_sound hfound
  rw [calls_iff] at hcycle hdepth
  rw [frameOf_eq] at hdepth
  have hcheck : checkStack ops high m =
      recursionFindings found.2.recursion ++ budgetFindings high found.1 spInit (dataEnd m.data) := by
    rw [checkStack, hsp]
    dsimp only
    rw [if_neg hroom.ne', hfound]
  constructor
  · rw [← hcycle, hcheck]
    constructor
    · rintro ⟨x, hx, hrule⟩
      rcases List.mem_append.1 hx with hx | hx
      · by_contra h
        rw [Bool.eq_false_of_not_eq_true h] at hx
        cases hx
      · exact absurd hrule (budgetFindings_rule x hx)
    · intro h
      rw [h]
      exact ⟨_, List.mem_cons_self, rfl⟩
  · intro hacyclic
    have h : found.2.recursion = false := by
      by_contra h
      obtain ⟨r, hr, hreach⟩ := hcycle.1 (Bool.eq_true_of_not_eq_false h)
      exact hacyclic r hr hreach
    refine ⟨found.1, ?_, hdepth h⟩
    rw [hcheck, h]
    rfl

end

namespace Sample

/-- A `global.get`, or a subtraction. -/
def plainOps : PlainOps (Option Nat) := ⟨id, Option.isNone⟩

/-- A `hook` that takes sixteen bytes of a stack of a thousand and twenty-four, and calls itself. -/
def selfCalling : MemoryModule (Option Nat) :=
  { imports := []
    exports := [⟨"hook", .func 0⟩]
    funcs := [⟨"hook", ⟨[.i32], [.i64]⟩, [],
      [.plain (some 0), .const (.i32 16), .plain none, .loop ⟨[], []⟩ [.call 0]]⟩]
    bodies := []
    globals := [⟨.i32, true, some (.i32 1024)⟩]
    data := [] }

end Sample

theorem stack_analysis_selfCalling :
    ∃ x ∈ checkStack Sample.plainOps (fun _ _ => none) Sample.selfCalling, x.ruleId = "RECURSION" :=
  have hsp : stackPointer Sample.selfCalling.globals = some (0, 1024) := by decide
  (stack_analysis hsp (by decide)).1.2 ⟨0, by decide, 0, .refl, .single ⟨_, rfl, by decide, by decide⟩⟩

end Xahc.Wasm

/-
`lint` and the two byte-level checks it runs: what the absence of an Error finding says about a
module, and the one kind of module for which it says less than it should.
-/
import Xahc.Wasm.Syntax

namespace Xahc.Wasm

section
variable {π : Type}

/-! ## Findings -/

/-- How grave a finding is. -/
inductive Level
  | error | warn | info
  deriving DecidableEq, Repr

/-- A finding of the linter. -/
structure Finding where
  level : Level
  ruleId : String
  msg : String
  deriving DecidableEq, Repr

/-- A finding that fails the lint. -/
def Finding.error (ruleId msg : String) : Finding := ⟨.error, ruleId, msg⟩

/-- The functions a hook may export. -/
def ALLOWED_EXPORT_FNS : List String := ["hook", "cbak"]

/-- The host functions a hook may import from `env`. -/
def HOOK_API : List String :=
  ["_g", "accept", "emit", "etxn_burden", "etxn_details", "etxn_fee_base",
   "etxn_generation", "etxn_nonce", "etxn_reserve", "fee_base",
   "float_compare", "float_divide", "float_exponent", "float_exponent_set",
   "float_int", "float_invert", "float_log", "float_mantissa",
   "float_mantissa_set", "float_mulratio", "float_multiply", "float_negate",
   "float_one", "float_root", "float_set", "float_sign", "float_sign_set",
   "float_sto", "float_sto_set", "float_sum",
   "hook_account", "hook_again", "hook_hash", "hook_param", "hook_param_set",
   "hook_pos", "hook_skip",
   "ledger_keylet", "ledger_last_hash", "ledger_last_time", "ledger_nonce",
   "ledger_seq", "meta_slot", "xpop_slot",
   "otxn_burden", "otxn_field", "otxn_field_txt", "otxn_generation", "otxn_id",
   "otxn_param", "otxn_slot", "otxn_type",
   "rollback",
   "slot", "slot_clear", "slot_count", "slot_float", "slot_id", "slot_set",
   "slot_size", "slot_subarray", "slot_subfield", "slot_type",
   "state", "state_foreign", "state_foreign_set", "state_set",
   "sto_emplace", "sto_erase", "sto_subarray", "sto_subfield", "sto_validate",
   "trace", "trace_float", "trace_num", "trace_slot",
   "util_accid", "util_keylet", "util_raddr", "util_sha512h", "util_verify"]

/-! ## The byte-level checks -/

/-- One loop whose guard bytes are not adjacent to its `loop` opcode. -/
structure Misplaced where
  func : Nat
  offset : Nat
  found : String
  deriving DecidableEq, Repr

/-- One `call` to a function the module defines itself. -/
structure IllegalCall where
  func : Nat
  offset : Nat
  callee : Nat
  deriving DecidableEq, Repr

/-- The text `found` quotes an operator by. -/
def Operator.debug : Operator → String
  | .loop bt => "Loop \x7b blockty: " ++ bt ++ " \x7d"
  | .i32Const v => "I32Const \x7b value: " ++ toString v ++ " \x7d"
  | .call f => "Call \x7b function_index: " ++ toString f ++ " \x7d"
  | .other d => d

/-- The index of the last imported function `env._g`: a later duplicate overwrites an earlier one. -/
def guardIndex (m : Module π) : Option Nat :=
  (m.importedFuncs.zipIdx.filter fun p => p.1.isGuard).getLast?.map Prod.snd

/-- The operator opens a loop. -/
def Operator.isLoop : Operator → Bool
  | .loop _ => true
  | _ => false

/-- Whether an operator is the one wanted `want` places after a `loop`. -/
def wanted (g want : Nat) : Operator → Bool
  | .i32Const _ => want == 0 || want == 1
  | .call f => want == 2 && f == g
  | _ => false

/-- The loop over (operator, offset) pairs: `pending` is the `loop` under check and `want` how many of
its three operators have been seen. -/
def adjacencyWalk (g fidx : Nat) : Option Nat → Nat → List (Operator × Nat) → List Misplaced
  | none, _, [] => []
  | some off, _, [] => [⟨fidx, off, "end-of-body"⟩]
  | none, want, (op, off) :: ops =>
    if op.isLoop then adjacencyWalk g fidx (some off) 0 ops else adjacencyWalk g fidx none want ops
  | some loopOff, want, (op, off) :: ops =>
    let ok := wanted g want op
    let bad := if ok then [] else [⟨fidx, loopOff, op.debug⟩]
    let pending := if ok ∧ want < 2 then some loopOff else none
    let want' := if ok ∧ want < 2 then want + 1 else want
    bad ++
      if op.isLoop then adjacencyWalk g fidx (some off) 0 ops else adjacencyWalk g fidx pending want' ops

/-- Run a check on every code entry, failing on the first entry that cannot be read. -/
def overBodies {α : Type} (check : Nat → List (Operator × Nat) → List α) : Nat → List Body → Except String (List α)
  | _, [] => .ok []
  | fidx, b :: bs =>
    match b.readError with
    | some e => .error e
    | none => (overBodies check (fidx + 1) bs).map (check fidx b.ops ++ ·)

/-- The loops that the operators of a guard do not follow at once. -/
def verifyByteAdjacency (m : Module π) : Except String (List Misplaced) :=
  match m.payloadError with
  | some e => .error e
  | none =>
    match guardIndex m with
    | none => .ok []
    | some g => overBodies (fun fidx ops => adjacencyWalk g fidx none 0 ops) m.importedFuncs.length m.bodies

/-- The calls of a body to functions of the module. -/
def userCalls (imported fidx : Nat) (ops : List (Operator × Nat)) : List IllegalCall :=
  ops.filterMap fun
    | (.call f, off) => if f ≥ imported then some ⟨fidx, off, f⟩ else none
    | _ => none

/-- The calls to functions of the module, over all bodies. -/
def verifyNoUserCalls (m : Module π) : Except String (List IllegalCall) :=
  match m.payloadError with
  | some e => .error e
  | none => overBodies (userCalls m.importedFuncs.length) m.importedFuncs.length m.bodies

/-! ## Guards in the structured bodies -/

/-- `findG`: the first imported function `env._g`. -/
def findG (m : Module π) : Option Nat := m.importedFuncs.findIdx? fun i => i.isGuard

mutual
/-- `firstBranchIsGuard`: whether the first guard-relevant instruction on the entry path is the
guard; a leading `block` is entered, nothing else is. -/
def firstBranchIsGuard (g : Nat) : List (Instr π) → Option Bool
  | [] => none
  | i :: is =>
    match firstBranchStep g i with
    | some b => some b
    | none => firstBranchIsGuard g is

/-- What an instruction decides about the first branch: that it is the guard, or that it is not. -/
def firstBranchStep (g : Nat) : Instr π → Option Bool
  | .call f => some (f == g)
  | .block _ body => firstBranchIsGuard g body
  | i => if i.isBranch then some false else none
end

/-- `loopGuardPos`. -/
inductive GuardPos
  | compliant | mispositioned | noGuard
  deriving DecidableEq, Repr

/-- Where the guard stands in a loop. -/
def loopGuardPos (g : Nat) (body : List (Instr π)) : GuardPos :=
  if firstBranchIsGuard g body = some true then .compliant
  else if seqCallsAnywhere g body then .mispositioned
  else .noGuard

/-- The finding of a loop by its guard. -/
def guardFinding (label : String) : GuardPos → List Finding
  | .compliant => []
  | .mispositioned => [.error "GUARD_NOT_FIRST"
      ("guard in `" ++ label ++ "` is not the first instruction in the loop — xahaud requires `_g` to be the first " ++
       "branch in a loop or it rejects the hook (temMALFORMED). `xahc build` repositions it automatically; for a " ++
       "hand-built wasm, put XAHC_GUARD() at the loop head.")]
  | .noGuard => [.error "UNGUARDED_LOOP"
      ("unguarded loop in `" ++ label ++
       "` — add XAHC_GUARD(max) at the top of the loop (xahaud rejects unguarded loops: temMALFORMED)")]

mutual
/-- `walkSeq`. -/
def walkSeq (g : Nat) (label : String) : List (Instr π) → List Finding
  | [] => []
  | i :: is => walkInstr g label i ++ walkSeq g label is

/-- The findings of the loops in an instruction. -/
def walkInstr (g : Nat) (label : String) : Instr π → List Finding
  | .loop _ body => guardFinding label (loopGuardPos g body) ++ walkSeq g label body
  | .block _ body => walkSeq g label body
  | .ifElse _ consequent alternative => walkSeq g label consequent ++ walkSeq g label alternative
  | _ => []
end

/-- The findings of the loops of a module. -/
def checkGuards (m : Module π) (g : Nat) : List Finding :=
  m.funcs.flatMap fun lf => walkSeq g lf.label lf.body

/-! ## The rules -/

/-- Rule 1 on one export. -/
def exportFindings (e : Export) : List Finding :=
  match e.item with
  | .func _ =>
    if e.name ∈ ALLOWED_EXPORT_FNS then []
    else [.error "ILLEGAL_EXPORT"
      ("illegal export `" ++ e.name ++ "` — run `xahc clean` or it will be rejected on-chain")]
  | .memory => []
  | _ => [.error "ILLEGAL_NONFN_EXPORT"
      ("illegal export `" ++ e.name ++ "` (non-function/memory) — will be rejected")]

/-- The module exports a function `hook`. -/
def hasHook (m : Module π) : Bool :=
  m.exports.any fun e => e.name == "hook" && match e.item with | .func _ => true | _ => false

/-- Rule 2 on one import. -/
def importFindings (i : Import) : List Finding :=
  if i.module ≠ "env" then [.error "NON_ENV_IMPORT"
    ("import from `" ++ i.module ++ "` — only `env` (Hook API) imports allowed")]
  else if i.name ∈ HOOK_API then []
  else [.error "UNKNOWN_HOST_IMPORT" ("unknown host import `env." ++ i.name ++ "` — not in the Hook API")]

/-- Rule 3's flag: an `env._g` of any kind sets it. -/
def importsG (m : Module π) : Bool := m.imports.any Import.isGuard

/-- The findings of calls to functions of the module. -/
def callFindings (m : Module π) : List Finding :=
  match verifyNoUserCalls m with
  | .ok bad => bad.map fun b => .error "CALL_USER_FUNCTION"
      ("func[" ++ toString b.func ++ "] at offset " ++ toString b.offset ++ ": calls function " ++
       toString b.callee ++ ", which this module defines itself — a hook may only call imported host functions, " ++
       "so SetHook rejects this with temMALFORMED. Force the helper inline (`static inline " ++
       "__attribute__((always_inline))`); at -Oz clang declines a plain `inline` hint for a large function with " ++
       "more than one call site.")
  | .error e => [.error "CALL_CHECK_UNDECIDABLE"
      ("could not verify calls against the import list, failing closed: " ++ e)]

/-- The findings of loops that do not open with a guard. -/
def adjacencyFindings (m : Module π) : List Finding :=
  match verifyByteAdjacency m with
  | .ok bad => bad.map fun b => .error "GUARD_NOT_ADJACENT"
      ("func[" ++ toString b.func ++ "] loop at offset " ++ toString b.offset ++
       ": the guard is not byte-adjacent to the `loop` opcode (found " ++ b.found ++
       " instead of i32.const/i32.const/call _g) — SetHook rejects this with temMALFORMED. Write the guard as the " ++
       "first statement INSIDE the loop body. See docs/GUARD_PLACEMENT.md.")
  | .error e => [.error "GUARD_ADJACENCY_UNDECIDABLE"
      ("could not verify guard byte-adjacency, failing closed: " ++ e)]

/-- The Error findings of `lint` on a module that parses, in the order they are pushed. Rules 5 and 6
(`checkStack`, `check_semantics`) push warnings and infos only. -/
def lintErrors (m : Module π) : List Finding :=
  m.exports.flatMap exportFindings ++
  (if hasHook m then [] else [.error "NO_HOOK_EXPORT" "no `hook` export — every hook must export `hook`"]) ++
  m.imports.flatMap importFindings ++
  (if importsG m then [] else
    [.error "NO_G_IMPORT" "no `_g` import — hook declares no guards, will be rejected"]) ++
  (match findG m with | some g => checkGuards m g | none => []) ++
  callFindings m ++ adjacencyFindings m

/-! ## What the byte-level checks establish -/

/-- The operators still wanted `want` places after a `loop` are the next ones. -/
def Follows (g : Nat) : Nat → List (Operator × Nat) → Prop
  | 0, (.i32Const _, _) :: ops => Follows g 1 ops
  | 1, (.i32Const _, _) :: ops => Follows g 2 ops
  | 2, (.call f, _) :: _ => f = g
  | _, _ => False

/-- Every `loop` of a stream is followed by two constants and a call to `g`. -/
def Adjacent (g : Nat) : List (Operator × Nat) → Prop
  | [] => True
  | (op, _) :: ops => (op.isLoop = true → Follows g 0 ops) ∧ Adjacent g ops

theorem wanted_isLoop {g want : Nat} {op : Operator} (h : wanted g want op = true) : op.isLoop = false := by
  cases op <;> simp_all [wanted, Operator.isLoop]

/-- A walk that reports nothing has seen what it was waiting for, and every later `loop` guarded. -/
theorem adjacencyWalk_sound {g fidx : Nat} (ops : List (Operator × Nat)) :
    (∀ want, adjacencyWalk g fidx none want ops = [] → Adjacent g ops) ∧
      ∀ off want, want ≤ 2 → adjacencyWalk g fidx (some off) want ops = [] → Follows g want ops ∧ Adjacent g ops := by
  -- two walks at once: outside a loop nothing is wanted, after its header the three operators of the guard are
  induction ops with
  | nil =>
    refine ⟨fun _ _ => trivial, fun off want _ h => ?_⟩
    simp [adjacencyWalk] at h
  | cons o ops ih =>
    obtain ⟨op, off⟩ := o
    obtain ⟨ihNone, ihSome⟩ := ih
    constructor
    · intro want h
      rw [adjacencyWalk] at h
      by_cases hloop : op.isLoop = true
      · rw [if_pos hloop] at h
        obtain ⟨hf, ha⟩ := ihSome off 0 (by decide) h
        exact ⟨fun _ => hf, ha⟩
      · rw [if_neg hloop] at h
        exact ⟨fun h' => absurd h' hloop, ihNone want h⟩
    · intro loopOff want hwant h
      simp only [adjacencyWalk, List.append_eq_nil_iff] at h
      obtain ⟨hok, h⟩ := h
      have hwanted : wanted g want op = true := by
        by_contra hno
        simp [hno] at hok
      have hloop := wanted_isLoop hwanted
      simp only [hwanted, true_and, hloop, Bool.false_eq_true, if_false] at h
      by_cases hlt : want < 2
      · simp only [if_pos hlt] at h
        obtain ⟨hf, ha⟩ := ihSome loopOff (want + 1) (by omega) h
        refine ⟨?_, fun h' => by simp [hloop] at h', ha⟩
        have hcases : want = 0 ∨ want = 1 := by omega
        cases op with
        | i32Const v => rcases hcases with rfl | rfl <;> exact hf
        | call f => rcases hcases with rfl | rfl <;> simp [wanted] at hwanted
        | _ => simp [wanted] at hwanted
      · simp only [if_neg hlt] at h
        refine ⟨?_, fun h' => by simp [hloop] at h', ihNone _ h⟩
        obtain rfl : want = 2 := by omega
        cases op with
        | call f => simpa [wanted, Follows] using hwanted
        | i32Const v => simp [wanted] at hwanted
        | _ => simp [wanted] at hwanted

theorem follows_zero {g : Nat} {ops : List (Operator × Nat)} (h : Follows g 0 ops) :
    ∃ a o b o' o'' rest, ops = (.i32Const a, o) :: (.i32Const b, o') :: (.call g, o'') :: rest := by
  match ops, h with
  | (.i32Const a, o) :: ops, h =>
    match ops, h with
    | (.i32Const b, o') :: ops, h =>
      match ops, h with
      | (.call f, o'') :: rest, h => exact ⟨a, o, b, o', o'', rest, by rw [show f = g from h]⟩

theorem adjacent_split {g : Nat} {ops : List (Operator × Nat)} (h : Adjacent g ops)
    {pre rest : List (Operator × Nat)} {bt : String} {off : Nat} (hs : ops = pre ++ (.loop bt, off) :: rest) :
    Follows g 0 rest := by
  induction pre generalizing ops with
  | nil =>
    subst hs
    exact h.1 rfl
  | cons o pre ih =>
    subst hs
    exact ih h.2 rfl

theorem overBodies_ok {α : Type} {check : Nat → List (Operator × Nat) → List α} {bs : List Body} {fidx : Nat}
    {out : List α} (h : overBodies check fidx bs = .ok out) :
    ∀ b ∈ bs, b.readError = none ∧ ∃ i, ∀ x ∈ check i b.ops, x ∈ out := by
  induction bs generalizing fidx out with
  | nil => simp
  | cons b bs ih =>
    rw [overBodies] at h
    split at h
    · cases h
    · rename_i hread
      cases hrec : overBodies check (fidx + 1) bs with
      | error e => rw [hrec] at h; cases h
      | ok out' =>
        rw [hrec] at h
        obtain rfl : check fidx b.ops ++ out' = out := Except.ok.inj h
        intro b' hb'
        rcases List.mem_cons.mp hb' with rfl | hb'
        · exact ⟨hread, fidx, fun x hx => List.mem_append_left _ hx⟩
        · obtain ⟨hr, i, hi⟩ := ih hrec b' hb'
          exact ⟨hr, i, fun x hx => List.mem_append_right _ (hi x hx)⟩

theorem overBodies_clean {α : Type} {check : Nat → List (Operator × Nat) → List α} {bs : List Body} {fidx : Nat}
    (h : ∀ b ∈ bs, b.readError = none ∧ ∀ i, check i b.ops = []) : overBodies check fidx bs = .ok [] := by
  induction bs generalizing fidx with
  | nil => rfl
  | cons b bs ih =>
    obtain ⟨hread, hcheck⟩ := h b List.mem_cons_self
    rw [overBodies, hread, ih fun b' hb' => h b' (List.mem_cons_of_mem _ hb'), hcheck]
    rfl

theorem userCalls_nil {imported fidx : Nat} {ops : List (Operator × Nat)} :
    userCalls imported fidx ops = [] ↔ ∀ f off, (Operator.call f, off) ∈ ops → f < imported := by
  rw [userCalls, List.filterMap_eq_nil_iff]
  constructor
  · intro h f off hmem
    have := h _ hmem
    by_contra hge
    simp [not_lt.mp hge] at this
  · intro h o ho
    obtain ⟨op, off⟩ := o
    cases op with
    | call f =>
      have := h f off ho
      simp [this]
    | _ => rfl

theorem guardIndex_isGuard {m : Module π} {g : Nat} (h : guardIndex m = some g) : m.IsGuardFunc g := by
  unfold guardIndex at h
  rw [Option.map_eq_some_iff] at h
  obtain ⟨⟨i, n⟩, hlast, rfl⟩ := h
  obtain ⟨hmem, hguard⟩ := List.mem_filter.mp (List.mem_of_getLast? hlast)
  exact ⟨i, by simpa using (List.mem_zipIdx_iff_getElem?.mp hmem), hguard⟩

theorem guardIndex_none {m : Module π} : guardIndex m = none ↔ ∀ i ∈ m.importedFuncs, i.isGuard = false := by
  unfold guardIndex
  rw [Option.map_eq_none_iff, List.getLast?_eq_none_iff, List.filter_eq_nil_iff]
  constructor
  · intro h i hi
    obtain ⟨n, hn⟩ := List.mem_iff_getElem?.mp hi
    have := h (i, n) (List.mem_zipIdx_iff_getElem?.mpr hn)
    simpa using this
  · rintro h ⟨i, n⟩ hmem
    have := h i (List.mem_iff_getElem?.mpr ⟨n, by simpa using List.mem_zipIdx_iff_getElem?.mp hmem⟩)
    simp [this]

/-! ## Soundness -/

/-- What SetHook asks of a module: every `loop` followed by its guard, calls to imports only, `hook`
exported as a function, and no function export besides `hook` and `cbak`. -/
structure HookShape (m : Module π) : Prop where
  loops : ∀ b ∈ m.bodies, ∀ pre bt off rest, b.ops = pre ++ (.loop bt, off) :: rest →
    ∃ x o y o' f o'' rest', rest = (.i32Const x, o) :: (.i32Const y, o') :: (.call f, o'') :: rest' ∧ m.IsGuardFunc f
  calls : ∀ b ∈ m.bodies, ∀ f off, (Operator.call f, off) ∈ b.ops → f < m.importedFuncs.length
  hook : ∃ e ∈ m.exports, e.name = "hook" ∧ ∃ f, e.item = .func f
  exports : ∀ e ∈ m.exports, ∀ f, e.item = .func f → e.name = "hook" ∨ e.name = "cbak"

/-- A module the rules find nothing else wrong with. -/
structure OtherwiseClean (m : Module π) : Prop where
  exports : ∀ e ∈ m.exports, (∃ f, e.item = .func f ∧ e.name ∈ ALLOWED_EXPORT_FNS) ∨ e.item = .memory
  hook : ∃ e ∈ m.exports, e.name = "hook" ∧ ∃ f, e.item = .func f
  imports : ∀ i ∈ m.imports, i.module = "env" ∧ i.name ∈ HOOK_API
  readable : m.payloadError = none ∧ ∀ b ∈ m.bodies, b.readError = none
  calls : ∀ b ∈ m.bodies, ∀ f off, (Operator.call f, off) ∈ b.ops → f < m.importedFuncs.length

/-- The module imports an `env._g`, but none that is a function, and has a loop. -/
structure GuardDisabled (m : Module π) : Prop where
  imported : ∃ i ∈ m.imports, i.isGuard = true
  notFunc : ∀ i ∈ m.imports, i.isGuard = true → i.kind ≠ .func
  loop : ∃ b ∈ m.bodies, ∃ pre bt off rest, b.ops = pre ++ (.loop bt, off) :: rest

theorem exportFindings_nil {e : Export} :
    exportFindings e = [] ↔ (∃ f, e.item = .func f ∧ e.name ∈ ALLOWED_EXPORT_FNS) ∨ e.item = .memory := by
  unfold exportFindings
  cases e.item <;> simp

theorem importFindings_nil {i : Import} : importFindings i = [] ↔ i.module = "env" ∧ i.name ∈ HOOK_API := by
  unfold importFindings
  by_cases hm : i.module = "env" <;> by_cases hn : i.name ∈ HOOK_API <;> simp [hm, hn]

theorem hasHook_iff {m : Module π} :
    hasHook m = true ↔ ∃ e ∈ m.exports, e.name = "hook" ∧ ∃ f, e.item = .func f := by
  unfold hasHook
  rw [List.any_eq_true]
  constructor
  · rintro ⟨e, he, h⟩
    refine ⟨e, he, ?_⟩
    cases hi : e.item <;> simp_all
  · rintro ⟨e, he, hname, f, hf⟩
    exact ⟨e, he, by simp [hname, hf]⟩

theorem callFindings_nil {m : Module π} :
    callFindings m = [] ↔ (m.payloadError = none ∧ ∀ b ∈ m.bodies, b.readError = none) ∧
      ∀ b ∈ m.bodies, ∀ f off, (Operator.call f, off) ∈ b.ops → f < m.importedFuncs.length := by
  unfold callFindings verifyNoUserCalls
  constructor
  · intro h
    split at h
    · rename_i bad hbad
      split at hbad
      · cases hbad
      · rename_i hpay
        obtain rfl := List.map_eq_nil_iff.mp h
        have hall := overBodies_ok hbad
        refine ⟨⟨hpay, fun b hb => (hall b hb).1⟩, fun b hb => ?_⟩
        obtain ⟨-, i, hi⟩ := hall b hb
        exact userCalls_nil.mp (List.eq_nil_iff_forall_not_mem.mpr fun x hx => List.not_mem_nil (hi x hx))
    · cases h
  · rintro ⟨⟨hpay, hread⟩, hcalls⟩
    rw [hpay]
    simp only
    rw [overBodies_clean fun b hb => ⟨hread b hb, fun i => userCalls_nil.mpr (hcalls b hb)⟩]
    rfl

theorem not_isGuard_of_notFunc {m : Module π} (h : ∀ i ∈ m.imports, i.isGuard = true → i.kind ≠ .func) :
    ∀ i ∈ m.importedFuncs, i.isGuard = false := by
  intro i hi
  obtain ⟨hmem, hkind⟩ := List.mem_filter.mp hi
  by_contra hguard
  exact h i hmem (by simpa using hguard) (by simpa using hkind)

/-- With a function import `env._g`, a silent adjacency check has seen every loop guarded. -/
theorem loops_of_adjacent {m : Module π} {g : Nat} (hg : guardIndex m = some g) (h : adjacencyFindings m = []) :
    ∀ b ∈ m.bodies, ∀ pre bt off rest, b.ops = pre ++ (.loop bt, off) :: rest →
      ∃ x o y o' f o'' rest', rest = (.i32Const x, o) :: (.i32Const y, o') :: (.call f, o'') :: rest' ∧
        m.IsGuardFunc f := by
  unfold adjacencyFindings verifyByteAdjacency at h
  intro b hb pre bt off rest hs
  split at h
  · rename_i bad hbad
    obtain rfl := List.map_eq_nil_iff.mp h
    split at hbad
    · cases hbad
    · rw [hg] at hbad
      obtain ⟨-, i, hi⟩ := overBodies_ok hbad b hb
      have hwalk : adjacencyWalk g i none 0 b.ops = [] :=
        List.eq_nil_iff_forall_not_mem.mpr fun x hx => List.not_mem_nil (hi x hx)
      have hadj := (adjacencyWalk_sound b.ops).1 0 hwalk
      obtain ⟨x, o, y, o', o'', rest', hrest⟩ := follows_zero (adjacent_split hadj hs)
      exact ⟨x, o, y, o', g, o'', rest', hrest, guardIndex_isGuard hg⟩
  · cases h

/-- No Error finding, rule by rule. -/
theorem lintErrors_nil {m : Module π} (h : lintErrors m = []) :
    OtherwiseClean m ∧ importsG m = true ∧ adjacencyFindings m = [] := by
  simp only [lintErrors, List.append_eq_nil_iff, List.flatMap_eq_nil_iff] at h
  obtain ⟨⟨⟨⟨⟨⟨hexp, hhook⟩, himp⟩, hg⟩, -⟩, hcall⟩, hadj⟩ := h
  obtain ⟨hread, hcalls⟩ := callFindings_nil.mp hcall
  have hhook' : hasHook m = true := by by_contra hno; simp [hno] at hhook
  have hg' : importsG m = true := by by_contra hno; simp [hno] at hg
  exact ⟨⟨fun e he => exportFindings_nil.mp (hexp e he), hasHook_iff.mp hhook',
    fun i hi => importFindings_nil.mp (himp i hi), hread, hcalls⟩, hg', hadj⟩

/-- With no function import `env._g` the guard rules fall silent. -/
theorem lintErrors_of_disabled {m : Module π} (h : OtherwiseClean m) (hd : GuardDisabled m) : lintErrors m = [] := by
  have hno := not_isGuard_of_notFunc hd.notFunc
  have hfind : findG m = none := List.findIdx?_eq_none_iff.mpr hno
  have hg : importsG m = true := by
    obtain ⟨i, hi, hguard⟩ := hd.imported
    exact List.any_eq_true.mpr ⟨i, hi, hguard⟩
  have hadj : adjacencyFindings m = [] := by
    unfold adjacencyFindings verifyByteAdjacency
    rw [h.readable.1, guardIndex_none.mpr hno]
    rfl
  have hexp : m.exports.flatMap exportFindings = [] :=
    List.flatMap_eq_nil_iff.mpr fun e he => exportFindings_nil.mpr (h.exports e he)
  have himp : m.imports.flatMap importFindings = [] :=
    List.flatMap_eq_nil_iff.mpr fun i hi => importFindings_nil.mpr (h.imports i hi)
  have hcall := callFindings_nil.mpr ⟨h.readable, h.calls⟩
  rw [lintErrors, hexp, himp, hfind, hcall, hadj, if_pos (hasHook_iff.mpr h.hook), if_pos hg]
  rfl

/-- `lint` without an Error finding means what SetHook asks, exactly but for modules it finds nothing
else wrong with that import `env._g` as something other than a function and have a loop. -/
theorem lint_sound_iff (m : Module π) :
    (lintErrors m = [] → HookShape m) ↔ ¬(OtherwiseClean m ∧ GuardDisabled m) := by
  constructor
  · rintro hsound ⟨hclean, hd⟩
    have hshape := hsound (lintErrors_of_disabled hclean hd)
    obtain ⟨b, hb, pre, bt, off, rest, hs⟩ := hd.loop
    obtain ⟨-, -, -, -, f, -, -, -, i, hi, hguard⟩ := hshape.loops b hb pre bt off rest hs
    have := not_isGuard_of_notFunc hd.notFunc i (List.mem_of_getElem? hi)
    rw [hguard] at this
    cases this
  · intro hnot hnil
    obtain ⟨hclean, hg, hadj⟩ := lintErrors_nil hnil
    have hloops : ∀ b ∈ m.bodies, ∀ pre bt off rest, b.ops = pre ++ (.loop bt, off) :: rest →
        ∃ x o y o' f o'' rest', rest = (.i32Const x, o) :: (.i32Const y, o') :: (.call f, o'') :: rest' ∧
          m.IsGuardFunc f := by
      -- the walk after each loop looks for the guard by index, so it needs one that is a function
      cases hidx : guardIndex m with
      | some g => exact loops_of_adjacent hidx hadj
      | none =>
        intro b hb pre bt off rest hs
        have hno := guardIndex_none.mp hidx
        refine absurd ⟨hclean, List.any_eq_true.mp hg, ?_, b, hb, pre, bt, off, rest, hs⟩ hnot
        intro i hi hguard hkind
        have := hno i (List.mem_filter.mpr ⟨hi, by simpa using hkind⟩)
        rw [hguard] at this
        cases this
    refine ⟨hloops, hclean.calls, hclean.hook, fun e he f hf => ?_⟩
    rcases hclean.exports e he with ⟨-, -, hallowed⟩ | hmem
    · simpa [ALLOWED_EXPORT_FNS] using hallowed
    · rw [hf] at hmem
      cases hmem

end

/-- `env._g` imported as a global, and `hook` an unguarded loop: no Error finding. -/
def globalGuardModule : Module Unit where
  imports := [⟨"env", "_g", .global⟩]
  exports := [⟨"hook", .func 0⟩]
  funcs := [⟨"hook", ⟨[.i32], [.i64]⟩, [], [.loop ⟨[], []⟩ [.br 0], .const (.i64 0)]⟩]
  bodies := [⟨[(.loop "Empty", 40), (.other "Br { relative_depth: 0 }", 42), (.other "End", 44),
    (.other "I64Const { value: 0 }", 45), (.other "End", 47)], none⟩]

theorem lint_passes_unguarded_loop :
    lintErrors globalGuardModule = [] ∧ ¬HookShape globalGuardModule := by
  refine ⟨by decide, fun h => ?_⟩
  obtain ⟨_, _, _, _, _, _, _, hrest, -⟩ := h.loops _ List.mem_cons_self [] _ _ _ rfl
  cases hrest

end Xahc.Wasm

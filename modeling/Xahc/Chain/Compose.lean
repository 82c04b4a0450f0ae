/-
`xahc compose`, the composition prover for a chain of hooks on one account: what a hook can do by the
lists of its imports and exports, the namespace an install gives it, the verdict on the chain, and which
chains pass although one hook writes what another reads.
-/
import Xahc.Data.Except
import Xahc.Wasm.Lint
import Mathlib.Data.List.DropRight
import Mathlib.Data.List.Sort

namespace Xahc.Chain

open Xahc.Data Xahc.Wasm

/-! ## The chain file -/

/-- A `[[hook]]` table of a chain file. -/
structure HookSpec where
  wasm : String
  «namespace» : Option String
  namespaceLabel : Option String
  invariants : List String
  deriving DecidableEq, Repr

/-- The parsed chain file. -/
structure ChainSpec where
  hooks : List HookSpec
  deriving DecidableEq, Repr

/-- An error with its contexts, the outermost first. -/
abbrev Failure := List String

/-- A failure gets the message on top of those it has. -/
def context {α : Type} (msg : String) : Except Failure α → Except Failure α
  | .ok a => .ok a
  | .error e => .error (msg :: e)

@[simp] theorem context_eq_ok {α : Type} {msg : String} {x : Except Failure α} {a : α} :
    context msg x = .ok a ↔ x = .ok a := by
  cases x <;> simp [context]

/-- What a run reads and calls outside itself: the file system, the TOML and wasm parsers, the prover's
exit code on a wasm file and an invariant, and SHA-256 in upper-case hex. -/
structure Toolchain (π : Type) where
  readToString : String → Except Failure String
  fromStr : String → Except Failure ChainSpec
  parent : String → Option String
  read : String → Except Failure (List UInt8)
  fromBuffer : List UInt8 → Except Failure (Module π)
  prove : String → String → Except Failure Int
  sha256Hex : String → String

/-- `PathBuf::from(p)` itself where it is absolute, else under `base`. -/
def resolvePath (base p : String) : String :=
  if p.toList.head? = some '/' then p
  else if base.toList = [] then p
  else if base.toList.getLast? = some '/' then base ++ p
  else base ++ "/" ++ p

/-! ## Capabilities -/

/-- What a hook can do to state, by the host functions it imports. -/
structure Caps where
  stateful : Bool
  «foreign» : Bool
  emits : Bool
  dynamic : Bool
  deriving DecidableEq, Repr

section
variable {π : Type}

/-- The module imports the function `env.name`. -/
def importsFn (m : Module π) (name : String) : Bool :=
  m.imports.any fun i => i.module == "env" && i.kind == .func && i.name == name

/-- The module exports a function `name`. -/
def exportsFn (m : Module π) (name : String) : Bool :=
  m.exports.any fun e => (match e.item with | .func _ => true | _ => false) && e.name == name

/-- The capabilities of a parsed module. -/
def Caps.of (m : Module π) : Caps where
  stateful := importsFn m "state_set" || importsFn m "state_foreign_set"
  «foreign» := importsFn m "state_foreign_set"
  emits := importsFn m "emit"
  dynamic := exportsFn m "cbak"

/-- The capabilities of the bytes of a file. -/
def caps (t : Toolchain π) (wasm : List UInt8) : Except Failure Caps := do
  let m ← context "parsing wasm for composition analysis" (t.fromBuffer wasm)
  return Caps.of m

/-! ## Namespaces -/

/-- Unicode `White_Space`, which `str::trim` removes. -/
def isWhitespace (c : Char) : Bool :=
  let n := c.toNat
  (0x09 ≤ n && n ≤ 0x0D) || n == 0x20 || n == 0x85 || n == 0xA0 || n == 0x1680 ||
    (0x2000 ≤ n && n ≤ 0x200A) || n == 0x2028 || n == 0x2029 || n == 0x202F || n == 0x205F || n == 0x3000

/-- `trim_start_matches("0x")`, which removes every leading `0x`. -/
def trimHexPrefix : List Char → List Char
  | '0' :: 'x' :: s => trimHexPrefix s
  | s => s

/-- `char::is_ascii_hexdigit`. -/
def isHexDigit (c : Char) : Bool :=
  ('0' ≤ c && c ≤ '9') || ('a' ≤ c && c ≤ 'f') || ('A' ≤ c && c ≤ 'F')

/-- A namespace given as 64 hex digits, in upper case. -/
def normHexNamespace (s : String) : Except Failure String :=
  let h := trimHexPrefix ((s.toList.dropWhile isWhitespace).rdropWhile isWhitespace)
  if h.length ≠ 64 ∨ !h.all isHexDigit then .error ["namespace must be 64 hex chars (32 bytes)"]
  else .ok (String.ofList (h.map Char.toUpper))

/-- The all-zeros default. -/
def zeroNamespace : String := String.ofList (List.replicate 64 '0')

/-- The namespace a hook runs in: the one given, the hash of its label, or that of the default label. -/
def resolveNamespace (t : Toolchain π) (h : HookSpec) : Except Failure String :=
  match h.namespace, h.namespaceLabel with
  | some _, some _ => .error ["hook `" ++ h.wasm ++ "`: set namespace OR namespace_label, not both"]
  | some ns, none => normHexNamespace ns
  | none, some label => .ok (t.sha256Hex label)
  | none, none => .ok zeroNamespace

/-! ## The report -/

/-- What the prover said of one invariant of one hook. -/
structure InvProof where
  invariant : String
  verdict : String
  exitCode : Int
  deriving DecidableEq, Repr

/-- A hook of the chain as the report lists it. -/
structure HookResult where
  wasm : String
  «namespace» : String
  stateful : Bool
  emits : Bool
  dynamic : Bool
  invariants : List InvProof
  deriving DecidableEq, Repr

/-- The report of a chain. -/
structure ComposeReport where
  chainFile : String
  hooks : List HookResult
  chainInvariants : List String
  composable : Bool
  emitBound : String
  reason : Option String
  caveats : List String
  deriving DecidableEq, Repr

/-- The verdict an exit code of the prover stands for. -/
def verdictOf (code : Int) : String :=
  if code = 0 then "PROVEN" else if code = 2 then "COUNTEREXAMPLE" else if code = 3 then "INCONCLUSIVE" else "ERROR"

/-! ## One hook of the chain -/

/-- The variables of the loop over the hooks. `statefulNs` holds each namespace with the first stateful
hook that uses it. -/
structure Scan where
  hookResults : List HookResult := []
  allProven : Bool := true
  chainInvariants : List String := []
  statefulNs : List (String × String) := []
  interference : Option String := none
  anyDynamicEmit : Bool := false
  anyEmit : Bool := false
  foreignWriters : List String := []

/-- The message of a namespace that two stateful hooks share; `other` came first. -/
def interferenceText (other wasm ns : String) : String :=
  "stateful hooks `" ++ other ++ "` and `" ++ wasm ++ "` share HookNamespace " ++ String.ofList (ns.toList.take 8) ++
  "… — per-hook state proofs do not compose (state can be clobbered). Give them distinct namespaces."

/-- The first stateful hook of a namespace is recorded, every later one is interference. -/
def Scan.noteStateful (s : Scan) (wasm ns : String) : Scan :=
  match s.statefulNs.find? fun e => e.1 == ns with
  -- `get_or_insert`: the first interference is the one reported
  | some (_, other) => { s with interference := s.interference.or (some (interferenceText other wasm ns)) }
  | none => { s with statefulNs := s.statefulNs ++ [(ns, wasm)] }

/-- The prover's exit code for an invariant, with the verdict it stands for. -/
def proveInvariant (t : Toolchain π) (wasmPath inv : String) : Except Failure InvProof := do
  let code ← t.prove wasmPath inv
  return ⟨inv, verdictOf code, code⟩

/-- The flags a hook's capabilities set. -/
def Scan.noteCaps (s : Scan) (wasm : String) (c : Caps) : Scan :=
  { s with
    anyEmit := s.anyEmit || c.emits
    anyDynamicEmit := s.anyDynamicEmit || (c.emits && c.dynamic)
    foreignWriters := if c.foreign then s.foreignWriters ++ [wasm] else s.foreignWriters }

/-- The flags and the result a hook's proofs add. -/
def Scan.noteProofs (s : Scan) (wasm ns : String) (c : Caps) (proofs : List InvProof) : Scan :=
  { s with
    allProven := s.allProven && proofs.all fun p => p.exitCode == 0
    chainInvariants :=
      (proofs.filter fun p => p.exitCode == 0).foldl (fun invs p => invs.insert p.invariant) s.chainInvariants
    hookResults := s.hookResults ++ [⟨wasm, ns, c.stateful, c.emits, c.dynamic, proofs⟩] }

/-- One round of the loop. -/
def scanHook (t : Toolchain π) (base : String) (s : Scan) (h : HookSpec) : Except Failure Scan := do
  let wasmPath := resolvePath base h.wasm
  let bytes ← context ("reading hook wasm " ++ wasmPath) (t.read wasmPath)
  let c ← caps t bytes
  let ns ← resolveNamespace t h
  let s := s.noteCaps h.wasm c
  -- a hook that only reads state is neither looked up nor recorded
  let s := if c.stateful then s.noteStateful h.wasm ns else s
  let proofs ← h.invariants.mapM (proveInvariant t wasmPath)
  return s.noteProofs h.wasm ns c proofs

/-! ## The verdict -/

/-- Whether the chain composes, and why not. -/
def Scan.verdict (s : Scan) : Bool × Option String :=
  if !s.allProven then (false, some "a hook's claimed invariant did not prove — the chain inherits nothing")
  else
    match s.interference with
    | some why => (false, some why)
    | none => (true, none)

/-- What is known about emitted transactions over the chain. -/
def Scan.emitBound (s : Scan) : String :=
  if !s.anyEmit then "none (no hook emits)"
  else if s.anyDynamicEmit then "inconclusive (a hook exports cbak and emits — dynamic re-entry is unmodeled)"
  else "bounded (static per-hook etxn_reserve; chain total ≤ sum)"

/-- The caveat of hooks that write foreign state. -/
def Scan.caveats (s : Scan) : List String :=
  if s.foreignWriters.isEmpty then []
  else ["hook(s) [" ++ ", ".intercalate s.foreignWriters ++ "] use state_foreign_set — cross-account/foreign-namespace " ++
    "writes are NOT modeled by the namespace-distinctness check; co-analyze if any foreign target is another chain " ++
    "hook's (account, namespace)."]

/-- The report after the loop; the invariants of the chain are claimed only where it composes. -/
def Scan.report (s : Scan) (chainFile : String) : ComposeReport where
  chainFile := chainFile
  hooks := s.hookResults
  chainInvariants := if s.verdict.1 then s.chainInvariants.insertionSort (· ≤ ·) else []
  composable := s.verdict.1
  emitBound := s.emitBound
  reason := s.verdict.2
  caveats := s.caveats

/-- The chain a chain file holds. -/
def readChain (t : Toolchain π) (chainFile : String) : Except Failure ChainSpec := do
  let text ← context ("reading chain file " ++ chainFile) (t.readToString chainFile)
  context "parsing chain TOML" (t.fromStr text)

/-- The directory hook paths are relative to. -/
def baseOf (t : Toolchain π) (chainFile : String) : String := (t.parent chainFile).getD "."

/-- The command: the chain is read, and its hooks are scanned in order. -/
def run (t : Toolchain π) (chainFile : String) : Except Failure ComposeReport := do
  let spec ← readChain t chainFile
  if spec.hooks = [] then .error ["chain has no hooks"]
  else do
    let s ← spec.hooks.foldlM (scanHook t (baseOf t chainFile)) {}
    return s.report chainFile

/-! ## What a scan has seen -/

/-- Hook `h` is the module `m`, installed under the namespace `ns`. -/
structure Resolves (t : Toolchain π) (base : String) (h : HookSpec) (m : Module π) (ns : String) : Prop where
  bytes : ∃ bytes, t.read (resolvePath base h.wasm) = .ok bytes ∧ t.fromBuffer bytes = .ok m
  ns : resolveNamespace t h = .ok ns

/-- Every claimed invariant of `h` proves. -/
def Proven (t : Toolchain π) (base : String) (h : HookSpec) : Prop :=
  ∀ inv ∈ h.invariants, t.prove (resolvePath base h.wasm) inv = .ok 0

theorem Resolves.unique {t : Toolchain π} {base : String} {h : HookSpec} {m m' : Module π} {ns ns' : String}
    (hr : Resolves t base h m ns) (hr' : Resolves t base h m' ns') : m = m' ∧ ns = ns' := by
  obtain ⟨⟨b, hb, hm⟩, hns⟩ := hr
  obtain ⟨⟨b', hb', hm'⟩, hns'⟩ := hr'
  obtain rfl := Except.ok.inj (hb.symm.trans hb')
  exact ⟨Except.ok.inj (hm.symm.trans hm'), Except.ok.inj (hns.symm.trans hns')⟩

/-- A hook with what it resolved to. -/
structure Resolved (π : Type) where
  hook : HookSpec
  module : Module π
  ns : String

/-- The hook imports a function that writes state. -/
def Resolved.stateful (x : Resolved π) : Bool := (Caps.of x.module).stateful

/-- The hooks that may write the state of another account or namespace. -/
def foreignWritersOf (hooks : List (Resolved π)) : List String :=
  (hooks.filter fun x => importsFn x.module "state_foreign_set").map fun x => x.hook.wasm

/-- What the loop's variables say after the hooks `done`. -/
structure Scanned (t : Toolchain π) (base : String) (done : List (Resolved π)) (s : Scan) : Prop where
  resolves : ∀ x ∈ done, Resolves t base x.hook x.module x.ns
  proven : s.allProven = true ↔ ∀ x ∈ done, Proven t base x.hook
  recorded : ∀ n, (∃ w, (n, w) ∈ s.statefulNs) ↔ ∃ x ∈ done, x.stateful = true ∧ x.ns = n
  interference : s.interference = none ↔
    done.Pairwise fun x y => x.stateful = true → y.stateful = true → x.ns ≠ y.ns
  foreignWriters : s.foreignWriters = foreignWritersOf done

theorem scanned_nil (t : Toolchain π) (base : String) : Scanned t base [] {} where
  resolves := by simp
  proven := by simp
  recorded := by simp
  interference := by simp
  foreignWriters := rfl

/-- The exit codes of the proofs, in the order of the invariants. -/
theorem mapM_prove {t : Toolchain π} {path : String} :
    ∀ {invs : List String} {proofs : List InvProof}, invs.mapM (proveInvariant t path) = .ok proofs →
      (proofs.all (fun p => p.exitCode == 0) = true ↔ ∀ inv ∈ invs, t.prove path inv = .ok 0)
  | [], proofs, h => by
    rw [List.mapM_nil] at h
    cases h
    simp
  | inv :: invs, proofs, h => by
    rw [List.mapM_cons] at h
    obtain ⟨p, hp, h⟩ := bind_ok.mp h
    obtain ⟨ps, hps, h⟩ := bind_ok.mp h
    obtain ⟨code, hcode, hp⟩ := bind_ok.mp hp
    cases hp
    cases h
    rw [List.all_cons, Bool.and_eq_true, mapM_prove hps, List.forall_mem_cons, hcode]
    simp

/-- The proofs go through where every exit code is 0. -/
theorem mapM_prove_ok {t : Toolchain π} {path : String} :
    ∀ {invs : List String}, (∀ inv ∈ invs, t.prove path inv = .ok 0) →
      ∃ proofs, invs.mapM (proveInvariant t path) = .ok proofs
  | [], _ => ⟨[], rfl⟩
  | inv :: invs, h => by
    obtain ⟨ps, hps⟩ := mapM_prove_ok fun i hi => h i (List.mem_cons_of_mem _ hi)
    have hp : proveInvariant t path inv = .ok ⟨inv, verdictOf 0, 0⟩ := by
      rw [proveInvariant, h inv List.mem_cons_self]
      rfl
    exact ⟨⟨inv, verdictOf 0, 0⟩ :: ps, by rw [List.mapM_cons, hp, hps]; rfl⟩

theorem caps_ok {t : Toolchain π} {wasm : List UInt8} {c : Caps} :
    caps t wasm = .ok c ↔ ∃ m, t.fromBuffer wasm = .ok m ∧ c = Caps.of m := by
  unfold caps
  rw [bind_ok]
  constructor
  · rintro ⟨m, hm, hc⟩
    cases hc
    exact ⟨m, context_eq_ok.mp hm, rfl⟩
  · rintro ⟨m, hm, rfl⟩
    exact ⟨m, context_eq_ok.mpr hm, rfl⟩

/-- The loop's variables after a round on a hook that resolves to `m` and `ns`. -/
def Scan.after (s : Scan) (h : HookSpec) (m : Module π) (ns : String) (proofs : List InvProof) : Scan :=
  let noted := s.noteCaps h.wasm (Caps.of m)
  let noted := if (Caps.of m).stateful then noted.noteStateful h.wasm ns else noted
  noted.noteProofs h.wasm ns (Caps.of m) proofs

/-- A round ends exactly where the hook resolves and each of its invariants gets an exit code. -/
theorem scanHook_ok {t : Toolchain π} {base : String} {s s' : Scan} {h : HookSpec} :
    scanHook t base s h = .ok s' ↔ ∃ m ns proofs, Resolves t base h m ns ∧
      h.invariants.mapM (proveInvariant t (resolvePath base h.wasm)) = .ok proofs ∧ s' = s.after h m ns proofs := by
  unfold scanHook
  constructor
  · intro hs
    obtain ⟨bytes, hb, hs⟩ := bind_ok.mp hs
    obtain ⟨c, hc, hs⟩ := bind_ok.mp hs
    obtain ⟨ns, hns, hs⟩ := bind_ok.mp hs
    obtain ⟨proofs, hproofs, hs⟩ := bind_ok.mp hs
    obtain ⟨m, hm, rfl⟩ := caps_ok.mp hc
    cases hs
    exact ⟨m, ns, proofs, ⟨⟨bytes, context_eq_ok.mp hb, hm⟩, hns⟩, hproofs, rfl⟩
  · rintro ⟨m, ns, proofs, ⟨⟨bytes, hb, hm⟩, hns⟩, hproofs, rfl⟩
    refine bind_ok.mpr ⟨bytes, context_eq_ok.mpr hb, bind_ok.mpr ⟨_, caps_ok.mpr ⟨m, hm, rfl⟩, ?_⟩⟩
    exact bind_ok.mpr ⟨ns, hns, bind_ok.mpr ⟨proofs, hproofs, rfl⟩⟩

/-! What a round changes of each variable the verdict depends on. -/

section
variable (s : Scan) (h : HookSpec) (m : Module π) (ns : String) (proofs : List InvProof)

/-- Recording a namespace changes only the two variables it is about. -/
theorem noteStateful_frame (wasm : String) : (s.noteStateful wasm ns).allProven = s.allProven ∧
    (s.noteStateful wasm ns).foreignWriters = s.foreignWriters := by
  unfold Scan.noteStateful
  split <;> exact ⟨rfl, rfl⟩

theorem after_allProven :
    (s.after h m ns proofs).allProven = (s.allProven && proofs.all fun p => p.exitCode == 0) := by
  unfold Scan.after
  by_cases hst : (Caps.of m).stateful = true
  · simp only [hst, if_true, Scan.noteProofs, (noteStateful_frame _ _ _).1, Scan.noteCaps]
  · simp only [hst, if_false, Scan.noteProofs, Scan.noteCaps, Bool.false_eq_true]

theorem after_foreignWriters : (s.after h m ns proofs).foreignWriters =
    if importsFn m "state_foreign_set" then s.foreignWriters ++ [h.wasm] else s.foreignWriters := by
  unfold Scan.after
  by_cases hst : (Caps.of m).stateful = true
  · simp only [hst, if_true, Scan.noteProofs, (noteStateful_frame _ _ _).2, Scan.noteCaps]
    rfl
  · simp only [hst, if_false, Scan.noteProofs, Scan.noteCaps, Bool.false_eq_true]
    rfl

/-- A hook that is not stateful leaves the recorded namespaces and the interference alone. -/
theorem after_stateless (hs : (Caps.of m).stateful = false) :
    (s.after h m ns proofs).statefulNs = s.statefulNs ∧ (s.after h m ns proofs).interference = s.interference := by
  unfold Scan.after
  rw [hs]
  exact ⟨rfl, rfl⟩

/-- A stateful hook in a recorded namespace is interference. -/
theorem after_recorded (hs : (Caps.of m).stateful = true) (hrec : ∃ w, (ns, w) ∈ s.statefulNs) :
    (s.after h m ns proofs).statefulNs = s.statefulNs ∧ (s.after h m ns proofs).interference ≠ none := by
  have hfind : (s.statefulNs.find? fun e => e.1 == ns).isSome = true := by
    obtain ⟨w, hw⟩ := hrec
    exact List.find?_isSome.mpr ⟨(ns, w), hw, by simp⟩
  obtain ⟨⟨n, other⟩, hother⟩ := Option.isSome_iff_exists.mp hfind
  have hnoted : (s.noteCaps h.wasm (Caps.of m)).statefulNs.find? (fun e => e.1 == ns) = some (n, other) := hother
  unfold Scan.after
  simp only [hs, if_true, Scan.noteStateful, hnoted]
  exact ⟨rfl, by simp [Scan.noteProofs]⟩

/-- A stateful hook in a new namespace is recorded. -/
theorem after_new (hs : (Caps.of m).stateful = true) (hrec : ¬∃ w, (ns, w) ∈ s.statefulNs) :
    (s.after h m ns proofs).statefulNs = s.statefulNs ++ [(ns, h.wasm)] ∧
      (s.after h m ns proofs).interference = s.interference := by
  have hnoted : (s.noteCaps h.wasm (Caps.of m)).statefulNs.find? (fun e => e.1 == ns) = none := by
    rw [List.find?_eq_none]
    rintro ⟨n, w⟩ hw heq
    obtain rfl : n = ns := by simpa using heq
    exact hrec ⟨w, hw⟩
  unfold Scan.after
  simp only [hs, if_true, Scan.noteStateful, hnoted]
  exact ⟨rfl, rfl⟩

end

theorem pairwise_append_one {α : Type} {R : α → α → Prop} {l : List α} {a : α} :
    (l ++ [a]).Pairwise R ↔ l.Pairwise R ∧ ∀ x ∈ l, R x a := by
  simp [List.pairwise_append]

/-- One round keeps what the variables say. -/
theorem scanned_after {t : Toolchain π} {base : String} {done : List (Resolved π)} {s : Scan} {h : HookSpec}
    {m : Module π} {ns : String} {proofs : List InvProof} (hi : Scanned t base done s) (hr : Resolves t base h m ns)
    (hp : h.invariants.mapM (proveInvariant t (resolvePath base h.wasm)) = .ok proofs) :
    Scanned t base (done ++ [⟨h, m, ns⟩]) (s.after h m ns proofs) := by
  have hresolves : ∀ x ∈ done ++ [⟨h, m, ns⟩], Resolves t base x.hook x.module x.ns := by
    intro x hx
    rcases List.mem_append.mp hx with hx | hx
    · exact hi.resolves x hx
    · obtain rfl := List.mem_singleton.mp hx
      exact hr
  have hproven : (s.after h m ns proofs).allProven = true ↔
      ∀ x ∈ done ++ [⟨h, m, ns⟩], Proven t base x.hook := by
    rw [after_allProven, Bool.and_eq_true, hi.proven, mapM_prove hp, List.forall_mem_append, List.forall_mem_singleton]
    rfl
  have hforeign : (s.after h m ns proofs).foreignWriters = foreignWritersOf (done ++ [⟨h, m, ns⟩]) := by
    rw [after_foreignWriters, hi.foreignWriters, foreignWritersOf, foreignWritersOf, List.filter_append, List.map_append]
    by_cases hf : importsFn m "state_foreign_set" = true <;> simp [hf]
  have hmem : ∀ n, (∃ x ∈ done ++ [⟨h, m, ns⟩], x.stateful = true ∧ x.ns = n) ↔
      (∃ x ∈ done, x.stateful = true ∧ x.ns = n) ∨ ((Caps.of m).stateful = true ∧ ns = n) := by
    intro n
    constructor
    · rintro ⟨x, hx, hst, hn⟩
      rcases List.mem_append.mp hx with hx | hx
      · exact Or.inl ⟨x, hx, hst, hn⟩
      · obtain rfl := List.mem_singleton.mp hx
        exact Or.inr ⟨hst, hn⟩
    · rintro (⟨x, hx, hst, hn⟩ | ⟨hst, hn⟩)
      · exact ⟨x, List.mem_append_left _ hx, hst, hn⟩
      · exact ⟨_, List.mem_append_right _ (List.mem_singleton.mpr rfl), hst, hn⟩
  by_cases hst : (Caps.of m).stateful = true
  · by_cases hrec : ∃ w, (ns, w) ∈ s.statefulNs
    -- the namespace has an earlier stateful hook
    · obtain ⟨hns, hint⟩ := after_recorded s h m ns proofs hst hrec
      obtain ⟨x, hx, hxst, hxns⟩ := (hi.recorded ns).mp hrec
      refine ⟨hresolves, hproven, fun n => ?_, iff_of_false hint fun hpair => ?_, hforeign⟩
      · rw [hns, hi.recorded, hmem]
        constructor
        · exact Or.inl
        · rintro (hx | ⟨-, rfl⟩)
          · exact hx
          · exact ⟨x, hx, hxst, hxns⟩
      · exact (pairwise_append_one.mp hpair).2 x hx hxst hst hxns
    -- the first stateful hook of its namespace
    · obtain ⟨hns, hint⟩ := after_new s h m ns proofs hst hrec
      refine ⟨hresolves, hproven, fun n => ?_, ?_, hforeign⟩
      · rw [hmem, ← hi.recorded, hns]
        simp [exists_or, hst, eq_comm]
      · rw [hint, hi.interference, pairwise_append_one]
        refine ⟨fun hpair => ⟨hpair, fun x hx hxst _ hxns => ?_⟩, And.left⟩
        exact hrec ((hi.recorded ns).mpr ⟨x, hx, hxst, hxns⟩)
  -- a hook that writes nothing
  · rw [Bool.not_eq_true] at hst
    obtain ⟨hns, hint⟩ := after_stateless s h m ns proofs hst
    refine ⟨hresolves, hproven, fun n => ?_, ?_, hforeign⟩
    · rw [hmem, hns, hi.recorded, hst]
      simp
    · rw [hint, hi.interference, pairwise_append_one]
      refine ⟨fun hpair => ⟨hpair, fun x _ _ hms _ => ?_⟩, And.left⟩
      rw [Resolved.stateful, hst] at hms
      cases hms

/-- The whole loop: every hook was resolved, and the variables say what they say of all of them. -/
theorem scan_ok {t : Toolchain π} {base : String} :
    ∀ {hooks : List HookSpec} {done : List (Resolved π)} {s s' : Scan}, Scanned t base done s →
      hooks.foldlM (scanHook t base) s = .ok s' →
      ∃ rest, rest.map Resolved.hook = hooks ∧ Scanned t base (done ++ rest) s'
  | [], done, s, s', hi, h => by
    cases h
    exact ⟨[], rfl, by simpa using hi⟩
  | hook :: hooks, done, s, s', hi, h => by
    rw [List.foldlM_cons] at h
    obtain ⟨s₁, hstep, h⟩ := bind_ok.mp h
    obtain ⟨m, ns, proofs, hr, hp, rfl⟩ := scanHook_ok.mp hstep
    obtain ⟨rest, hrest, hi'⟩ := scan_ok (scanned_after hi hr hp) h
    exact ⟨⟨hook, m, ns⟩ :: rest, by simp [hrest], by simpa using hi'⟩

/-- The loop ends where every hook resolves and proves. -/
theorem scan_total {t : Toolchain π} {base : String} :
    ∀ {hooks : List HookSpec} (s : Scan),
      (∀ h ∈ hooks, (∃ m ns, Resolves t base h m ns) ∧ Proven t base h) →
      ∃ s', hooks.foldlM (scanHook t base) s = .ok s'
  | [], s, _ => ⟨s, rfl⟩
  | hook :: hooks, s, h => by
    obtain ⟨⟨m, ns, hr⟩, hproven⟩ := h hook List.mem_cons_self
    obtain ⟨proofs, hproofs⟩ := mapM_prove_ok hproven
    have hstep : scanHook t base s hook = .ok (s.after hook m ns proofs) :=
      scanHook_ok.mpr ⟨m, ns, proofs, hr, hproofs, rfl⟩
    obtain ⟨s', hs'⟩ := scan_total (s.after hook m ns proofs) fun h' hh' => h h' (List.mem_cons_of_mem _ hh')
    exact ⟨s', by rw [List.foldlM_cons, hstep]; exact hs'⟩

/-! ## Which chains pass -/

section
variable (t : Toolchain π) (base : String) (hooks : List HookSpec)

/-- Two hooks at different places of the chain are `m` and `m'`, installed under one namespace. -/
def Share (m m' : Module π) : Prop :=
  ∃ (i j : Nat) (h h' : HookSpec) (ns : String), i ≠ j ∧ hooks[i]? = some h ∧ hooks[j]? = some h' ∧
    Resolves t base h m ns ∧ Resolves t base h' m' ns

/-- No hook of the chain can write another account's or namespace's state. -/
def NoForeignWriter : Prop :=
  ∀ h ∈ hooks, ∀ m ns, Resolves t base h m ns → importsFn m "state_foreign_set" = false

/-- What a composable chain promises: every claimed invariant proves, and no other hook writes the state
a hook reads or writes. -/
structure Noninterfering : Prop where
  proven : ∀ h ∈ hooks, Proven t base h
  separate : ∀ m m', Share t base hooks m m' →
    importsFn m "state" = true ∨ importsFn m "state_set" = true → importsFn m' "state_set" = false

/-- A chain without foreign writers that `run` has nothing against. -/
structure Passes : Prop where
  nonempty : hooks ≠ []
  resolves : ∀ h ∈ hooks, ∃ m ns, Resolves t base h m ns
  proven : ∀ h ∈ hooks, Proven t base h
  local_only : NoForeignWriter t base hooks
  writers : ∀ m m', Share t base hooks m m' → importsFn m "state_set" = true → importsFn m' "state_set" = false

/-- A hook that only reads state is installed under the namespace of one that writes it. -/
def ReaderExposed : Prop :=
  ∃ m m', Share t base hooks m m' ∧ importsFn m "state" = true ∧ importsFn m "state_set" = false ∧
    importsFn m' "state_set" = true

end

/-- The pairs the interference check compares are the pairs of stateful hooks that share a namespace. -/
theorem pairwise_iff_share {t : Toolchain π} {base : String} {rest : List (Resolved π)}
    (hr : ∀ x ∈ rest, Resolves t base x.hook x.module x.ns) :
    (rest.Pairwise fun x y => x.stateful = true → y.stateful = true → x.ns ≠ y.ns) ↔
      ∀ m m', Share t base (rest.map Resolved.hook) m m' → (Caps.of m).stateful = true →
        (Caps.of m').stateful = false := by
  have hat : ∀ {i : Nat} {h : HookSpec}, (rest.map Resolved.hook)[i]? = some h →
      ∃ x, rest[i]? = some x ∧ x.hook = h ∧ Resolves t base h x.module x.ns := by
    intro i h hi
    rw [List.getElem?_map] at hi
    obtain ⟨x, hx, rfl⟩ := Option.map_eq_some_iff.mp hi
    exact ⟨x, hx, rfl, hr x (List.mem_of_getElem? hx)⟩
  constructor
  · rintro hpair m m' ⟨i, j, h, h', ns, hij, hi, hj, hm, hm'⟩ hst
    obtain ⟨x, hx, -, hrx⟩ := hat hi
    obtain ⟨y, hy, -, hry⟩ := hat hj
    obtain ⟨rfl, rfl⟩ := hm.unique hrx
    obtain ⟨rfl, hns⟩ := hm'.unique hry
    obtain ⟨hilt, rfl⟩ := List.getElem?_eq_some_iff.mp hx
    obtain ⟨hjlt, rfl⟩ := List.getElem?_eq_some_iff.mp hy
    rw [Bool.eq_false_iff]
    intro hst'
    -- the pairs of the list are ordered, while sharing goes both ways
    rcases Nat.lt_or_gt_of_ne hij with hlt | hlt
    · exact List.pairwise_iff_getElem.mp hpair i j hilt hjlt hlt hst hst' hns
    · exact List.pairwise_iff_getElem.mp hpair j i hjlt hilt hlt hst' hst hns.symm
  · intro hshare
    refine List.pairwise_iff_getElem.mpr fun i j hi hj hlt hst hst' hns => ?_
    have hx := hr rest[i] (List.getElem_mem hi)
    have hy := hr rest[j] (List.getElem_mem hj)
    have := hshare rest[i].module rest[j].module ⟨i, j, rest[i].hook, rest[j].hook, rest[i].ns, Nat.ne_of_lt hlt,
      by simp [hi], by simp [hj], hx, hns ▸ hy⟩ hst
    rw [Resolved.stateful, this] at hst'
    cases hst'

theorem verdict_true {s : Scan} : s.verdict.1 = true ↔ s.allProven = true ∧ s.interference = none := by
  unfold Scan.verdict
  cases s.allProven <;> cases s.interference <;> simp

/-- Without foreign writers, stateful means importing `stateSet`. -/
theorem stateful_eq {m : Module π} (h : importsFn m "state_foreign_set" = false) :
    (Caps.of m).stateful = importsFn m "state_set" := by
  simp [Caps.of, h]

theorem run_ok {t : Toolchain π} {chainFile : String} {spec : ChainSpec} {report : ComposeReport}
    (hspec : readChain t chainFile = .ok spec) (h : run t chainFile = .ok report) :
    spec.hooks ≠ [] ∧ ∃ rest s, rest.map Resolved.hook = spec.hooks ∧ Scanned t (baseOf t chainFile) rest s ∧
      report = s.report chainFile := by
  unfold run at h
  obtain ⟨spec', hspec', h⟩ := bind_ok.mp h
  obtain rfl := Except.ok.inj (hspec.symm.trans hspec')
  split at h
  · cases h
  · rename_i hne
    obtain ⟨s, hs, h⟩ := bind_ok.mp h
    obtain ⟨rest, hrest, hscanned⟩ := scan_ok (scanned_nil t (baseOf t chainFile)) hs
    cases h
    exact ⟨hne, rest, s, hrest, by simpa using hscanned, rfl⟩

/-- A chain without foreign writers is reported composable exactly when it passes. -/
theorem composable_iff {t : Toolchain π} {chainFile : String} {spec : ChainSpec}
    (hspec : readChain t chainFile = .ok spec)
    (hlocal : NoForeignWriter t (baseOf t chainFile) spec.hooks) :
    (∃ report, run t chainFile = .ok report ∧ report.composable = true) ↔
      Passes t (baseOf t chainFile) spec.hooks := by
  have hstateful : ∀ m m', Share t (baseOf t chainFile) spec.hooks m m' →
      (Caps.of m).stateful = importsFn m "state_set" ∧ (Caps.of m').stateful = importsFn m' "state_set" := by
    rintro m m' ⟨i, j, h, h', ns, -, hi, hj, hm, hm'⟩
    exact ⟨stateful_eq (hlocal h (List.mem_of_getElem? hi) m ns hm),
      stateful_eq (hlocal h' (List.mem_of_getElem? hj) m' ns hm')⟩
  constructor
  · rintro ⟨report, hrun, hcomp⟩
    obtain ⟨hne, rest, s, hrest, hscanned, rfl⟩ := run_ok hspec hrun
    obtain ⟨hproven, hint⟩ := verdict_true.mp hcomp
    have hmem : ∀ h ∈ spec.hooks, ∃ x ∈ rest, x.hook = h := fun h hh => by
      rw [← hrest] at hh
      exact List.mem_map.mp hh
    -- a hook that shares a namespace writes it through state_set alone, since none writes a foreign one
    refine ⟨hne, fun h hh => ?_, fun h hh => ?_, hlocal, fun m m' hshare hset => ?_⟩
    · obtain ⟨x, hx, rfl⟩ := hmem h hh
      exact ⟨x.module, x.ns, hscanned.resolves x hx⟩
    · obtain ⟨x, hx, rfl⟩ := hmem h hh
      exact hscanned.proven.mp hproven x hx
    · obtain ⟨hm, hm'⟩ := hstateful m m' hshare
      rw [← hrest] at hshare
      rw [← hm']
      exact (pairwise_iff_share hscanned.resolves).mp (hscanned.interference.mp hint) m m' hshare (hm.trans hset)
  · intro hp
    obtain ⟨s, hs⟩ := scan_total {} fun h hh => ⟨hp.resolves h hh, hp.proven h hh⟩
    have hrun : run t chainFile = .ok (s.report chainFile) := by
      refine bind_ok.mpr ⟨spec, hspec, ?_⟩
      rw [if_neg hp.nonempty]
      exact bind_ok.mpr ⟨s, hs, rfl⟩
    obtain ⟨rest, hrest, hscanned⟩ := scan_ok (scanned_nil t (baseOf t chainFile)) hs
    rw [List.nil_append] at hscanned
    refine ⟨_, hrun, verdict_true.mpr ⟨hscanned.proven.mpr fun x hx => ?_, hscanned.interference.mpr ?_⟩⟩
    · exact hp.proven x.hook (hrest ▸ List.mem_map_of_mem hx)
    · refine (pairwise_iff_share hscanned.resolves).mpr fun m m' hshare hset => ?_
      rw [hrest] at hshare
      obtain ⟨hm, hm'⟩ := hstateful m m' hshare
      rw [hm']
      exact hp.writers m m' hshare (hm ▸ hset)

/-- A composable report without a caveat has no foreign writer in its chain. -/
theorem caveats_nil_iff {t : Toolchain π} {chainFile : String} {spec : ChainSpec} {report : ComposeReport}
    (hspec : readChain t chainFile = .ok spec) (h : run t chainFile = .ok report) :
    report.caveats = [] ↔ NoForeignWriter t (baseOf t chainFile) spec.hooks := by
  obtain ⟨-, rest, s, hrest, hscanned, rfl⟩ := run_ok hspec h
  have hnil : (s.report chainFile).caveats = [] ↔ s.foreignWriters = [] := by
    show s.caveats = [] ↔ _
    unfold Scan.caveats
    cases s.foreignWriters <;> simp
  rw [hnil, hscanned.foreignWriters, foreignWritersOf, List.map_eq_nil_iff, List.filter_eq_nil_iff, ← hrest]
  constructor
  · intro hall h hh m ns hres
    obtain ⟨x, hx, rfl⟩ := List.mem_map.mp hh
    obtain ⟨rfl, -⟩ := hres.unique (hscanned.resolves x hx)
    exact Bool.eq_false_iff.mpr (hall x hx)
  · intro hno x hx hf
    have := hno x.hook (List.mem_map_of_mem hx) x.module x.ns (hscanned.resolves x hx)
    rw [this] at hf
    cases hf

/-- Composable means noninterfering, exactly but for the chains that pass with a hook that only reads
under the namespace of one that writes. -/
theorem compose_noninterfering_iff (t : Toolchain π) (chainFile : String) (spec : ChainSpec)
    (hspec : readChain t chainFile = .ok spec) :
    (∀ report, run t chainFile = .ok report → report.composable = true →
        NoForeignWriter t (baseOf t chainFile) spec.hooks → Noninterfering t (baseOf t chainFile) spec.hooks) ↔
      ¬(Passes t (baseOf t chainFile) spec.hooks ∧ ReaderExposed t (baseOf t chainFile) spec.hooks) := by
  constructor
  -- such a chain is composable, and the reader's module is not separate from the writer's
  · rintro hsound ⟨hp, m, m', hshare, hreads, -, hwrites⟩
    obtain ⟨report, hrun, hcomp⟩ := (composable_iff hspec hp.local_only).mpr hp
    have := (hsound report hrun hcomp hp.local_only).separate m m' hshare (Or.inl hreads)
    rw [this] at hwrites
    cases hwrites
  · intro hnot report hrun hcomp hlocal
    have hp := (composable_iff hspec hlocal).mp ⟨report, hrun, hcomp⟩
    refine ⟨hp.proven, fun m m' hshare huses => ?_⟩
    by_cases hset : importsFn m "state_set" = true
    · exact hp.writers m m' hshare hset
    · have hreads : importsFn m "state" = true := huses.resolve_right hset
      rw [Bool.eq_false_iff]
      exact fun hwrites => hnot ⟨hp, m, m', hshare, hreads, Bool.eq_false_iff.mpr hset, hwrites⟩

end

/-! ## A chain with an exposed reader -/

namespace Sample

/-- The bytes of a hook without a loop that has one `env` function in its list: `name` with its length. -/
def wasmBytes (importSize : UInt8) (name : List UInt8) : List UInt8 :=
  [0x00, 0x61, 0x73, 0x6D, 0x01, 0x00, 0x00, 0x00] ++
  [0x01, 0x0E, 0x02, 0x60, 0x04, 0x7F, 0x7F, 0x7F, 0x7F, 0x01, 0x7E, 0x60, 0x01, 0x7F, 0x01, 0x7E] ++
  ([0x02, importSize, 0x01, 0x03, 0x65, 0x6E, 0x76] ++ name ++ [0x00, 0x00]) ++
  [0x03, 0x02, 0x01, 0x01] ++ [0x07, 0x08, 0x01, 0x04, 0x68, 0x6F, 0x6F, 0x6B, 0x00, 0x01] ++
  [0x0A, 0x06, 0x01, 0x04, 0x00, 0x42, 0x00, 0x0B]

/-- The bytes of a module that imports `env.state`. -/
def readerBytes : List UInt8 := wasmBytes 0x0D [0x05, 0x73, 0x74, 0x61, 0x74, 0x65]

/-- The bytes of a module that imports `env.state_set`. -/
def writerBytes : List UInt8 := wasmBytes 0x11 [0x09, 0x73, 0x74, 0x61, 0x74, 0x65, 0x5F, 0x73, 0x65, 0x74]

/-- The module those bytes hold; its code starts at `offset`. -/
def hookModule (name : String) (offset : Nat) : Module Unit where
  imports := [⟨"env", name, .func⟩]
  exports := [⟨"hook", .func 1⟩]
  funcs := [⟨"hook", ⟨[.i32], [.i64]⟩, [], [.const (.i64 0)]⟩]
  bodies := [⟨[(.other "I64Const { value: 0 }", offset), (.other "End", offset + 2)], none⟩]

/-- A hook that reads state and writes none. -/
def readerModule : Module Unit := hookModule "state" 58

/-- A hook that writes state. -/
def writerModule : Module Unit := hookModule "state_set" 62

/-- The reader in the default namespace. -/
def reader : HookSpec := ⟨"reader.wasm", none, none, ["termination"]⟩

/-- The writer in the default namespace. -/
def writer : HookSpec := ⟨"writer.wasm", none, none, ["termination"]⟩

/-- The chain file of the two. -/
def chainText : String :=
  "[[hook]]\nwasm = \"reader.wasm\"\ninvariants = [\"termination\"]\n\n" ++
  "[[hook]]\nwasm = \"writer.wasm\"\ninvariants = [\"termination\"]\n"

/-- A directory with the chain and its two hooks, neither of which has a loop. -/
def exposed : Toolchain Unit where
  readToString p := if p = "chain.toml" then .ok chainText else .error ["No such file or directory (os error 2)"]
  fromStr text := if text = chainText then .ok ⟨[reader, writer]⟩ else .error ["TOML parse error"]
  parent p := if p = "chain.toml" then some "" else none
  read p :=
    if p = "reader.wasm" then .ok readerBytes
    else if p = "writer.wasm" then .ok writerBytes
    else .error ["No such file or directory (os error 2)"]
  fromBuffer bytes :=
    if bytes = readerBytes then .ok readerModule
    else if bytes = writerBytes then .ok writerModule
    else .error ["failed to parse WebAssembly module"]
  prove _ inv := if inv = "termination" then .ok 0 else .error ["unknown invariant"]
  sha256Hex _ := zeroNamespace

end Sample

theorem resolves_reader : Resolves Sample.exposed "" Sample.reader Sample.readerModule zeroNamespace :=
  ⟨⟨Sample.readerBytes, rfl, rfl⟩, rfl⟩

theorem resolves_writer : Resolves Sample.exposed "" Sample.writer Sample.writerModule zeroNamespace :=
  ⟨⟨Sample.writerBytes, rfl, rfl⟩, rfl⟩

theorem compose_noninterfering_iff_exposed :
    (∀ report, run Sample.exposed "chain.toml" = .ok report → report.composable = true →
        NoForeignWriter Sample.exposed "" [Sample.reader, Sample.writer] →
        Noninterfering Sample.exposed "" [Sample.reader, Sample.writer]) ↔
      ¬(Passes Sample.exposed "" [Sample.reader, Sample.writer] ∧
        ReaderExposed Sample.exposed "" [Sample.reader, Sample.writer]) :=
  compose_noninterfering_iff Sample.exposed "chain.toml" ⟨[Sample.reader, Sample.writer]⟩ rfl

/-- The reader and the writer both take the default namespace, and the chain is composable. -/
theorem composable_with_exposed_reader :
    ¬∀ report, run Sample.exposed "chain.toml" = .ok report → report.composable = true →
        NoForeignWriter Sample.exposed "" [Sample.reader, Sample.writer] →
        Noninterfering Sample.exposed "" [Sample.reader, Sample.writer] := by
  intro hsound
  have hrun : (run Sample.exposed "chain.toml").toOption.any (·.composable) = true := by decide +kernel
  have hlocal : NoForeignWriter Sample.exposed "" [Sample.reader, Sample.writer] := by
    intro h hh m ns hres
    rcases List.mem_pair.mp hh with rfl | rfl
    · obtain ⟨rfl, -⟩ := hres.unique resolves_reader
      decide
    · obtain ⟨rfl, -⟩ := hres.unique resolves_writer
      decide
  cases hreport : run Sample.exposed "chain.toml" with
  | error e =>
    rw [hreport] at hrun
    cases hrun
  | ok report =>
    rw [hreport] at hrun
    have hsep := (hsound report hreport hrun hlocal).separate Sample.readerModule Sample.writerModule
      ⟨0, 1, Sample.reader, Sample.writer, zeroNamespace, by decide, rfl, rfl, resolves_reader, resolves_writer⟩
      (Or.inl (by decide))
    revert hsep
    decide

end Xahc.Chain

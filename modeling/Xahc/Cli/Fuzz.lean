/-
The fuzzer: a hook is run on inputs drawn near the boundaries of an invariant, each accepted input is judged by an oracle,
and the report says whether one was found that disproves it.
-/
import Xahc.Emit.NativeAmount
import Xahc.Sim.HostRuns
import Xahc.Sim.NoPanic
import Xahc.Sim.Run

namespace Xahc.Cli

open Xahc.Data Xahc.Data.Checked Xahc.Sim

/-! ## Numbers -/

/-- The state of the number generator. -/
structure Rng where
  state : UInt64

/-- The next number, and the state after it. -/
def Rng.next (r : Rng) : UInt64 × Rng :=
  let s := r.state + 0x9E3779B97F4A7C15
  let z := (s ^^^ (s >>> 30)) * 0xBF58476D1CE4E5B9
  let z := (z ^^^ (z >>> 27)) * 0x94D049BB133111EB
  (z ^^^ (z >>> 31), ⟨s⟩)

/-- `u64::MAX`. -/
def u64Max : UInt64 := .ofNat (2 ^ 64 - 1)

/-- `u64::saturating_add`. -/
def saturatingAdd (a b : UInt64) : UInt64 := if a.toNat + b.toNat < 2 ^ 64 then a + b else u64Max

/-- `u64::saturating_sub`. -/
def saturatingSub (a b : UInt64) : UInt64 := if b ≤ a then a - b else 0

/-- `u64::saturating_mul`. -/
def saturatingMul (a b : UInt64) : UInt64 := if a.toNat * b.toNat < 2 ^ 64 then a * b else u64Max

/-- A value near the edges. -/
def genValue (r : Rng) (lim tip : UInt64) : UInt64 × Rng :=
  let (n, r) := r.next
  match (n % 16).toNat with
  | 0 => (0, r)
  | 1 => (1, r)
  | 2 => (saturatingSub lim 1, r)
  | 3 => (lim, r)
  | 4 => (saturatingAdd lim 1, r)
  | 5 => (saturatingMul lim 2, r)
  | 6 => (u64Max, r)
  | 7 => (u64Max - 1, r)
  | 8 => (saturatingSub u64Max tip, r)
  | 9 => (u64Max - saturatingAdd tip 1, r)
  | 10 =>
    let (k, r) := r.next
    (1 <<< (k % 64), r)
  | _ => r.next

/-- As many random bytes. -/
def randomBytes : Nat → Rng → Bytes × Rng
  | 0, r => ([], r)
  | n + 1, r =>
    let (x, r) := r.next
    let (rest, r) := randomBytes n r
    ((x &&& 0xFF).toUInt8 :: rest, r)

theorem randomBytes_length (n : Nat) (r : Rng) : (randomBytes n r).1.length = n := by
  induction n generalizing r with
  | zero => rfl
  | succ n ih => exact congrArg Nat.succ (ih _)

/-! ## Options and reports -/

/-- The options of `fuzz`. -/
structure Opts where
  invariant : String
  runs : UInt64
  seed : UInt64
  lim : UInt64
  tip : UInt64
  dst : Option String

/-- A drawn fixture that was accepted against the invariant. -/
structure Counterexample where
  why : String
  drops : UInt64
  tip : UInt64
  accountIsOwner : Bool
  destinationHex : List Char
  outcome : String

/-- What a campaign found. -/
structure FuzzReport where
  invariant : String
  runs : UInt64
  seed : UInt64
  accepts : Nat := 0
  rollbacks : Nat := 0
  guardViolations : Nat := 0
  returned : Nat := 0
  counterexamples : List Counterexample := []
  exercisedAccept : Bool := false
  applicable : Bool := true
  notes : List String := []

/-- The invariant is disproved: it is applicable, and there is a counterexample. -/
def FuzzReport.disproven (rep : FuzzReport) : Bool := rep.applicable && !rep.counterexamples.isEmpty

/-- The parameters an invariant's oracle takes for granted. -/
def requiredParams (invariant : String) : List String :=
  if invariant = "limit" ∨ invariant = "guardrail" then ["LIM"]
  else if invariant = "overflow" then ["LIM", "TIP"]
  else []

/-- The hook account of the simulator. -/
def OWNER : Octets 20 := Guardrail.AccountID.filled 0xAA

/-- `u64::to_be_bytes`. -/
def u64Be (v : UInt64) : Bytes := natBE 8 v.toNat

/-- The bytes of 40 digits. -/
def parseDst (hex : String) : Checked (Except String (Octets 20)) := do
  let h := utf8 (trim hex.toList)
  if h.length ≠ 40 ∨ ¬h.all (fun x => (byteDigit x).isSome) then return .error "--dst must be a 40-char hex accountID"
  match ← hexBytes h 20 0 with
  | .error _ => .error .unwrap
  | .ok bytes => return .ok (← Host.octets 20 bytes)

/-! ## The oracle -/

/-- Why an accepted input violates the invariant, if it does. -/
def oracle (o : Opts) (drops tip : UInt64) (owner : Bool) (dest : Octets 20) (dst : Option (Octets 20)) : Option String :=
  if o.invariant = "limit" then
    if drops > o.lim then some s!"accepted drops={drops} > LIM={o.lim}" else none
  else if o.invariant = "overflow" then
    let true_sum := drops.toNat + tip.toNat
    if true_sum > o.lim.toNat then some s!"accepted true(drops+tip)={true_sum} > LIM={o.lim} (uint64 wrap bypass)" else none
  else if o.invariant = "authz" then
    if owner then none else some "accepted with origin != owner"
  else if o.invariant = "guardrail" then
    if !owner then none
    else if drops > o.lim then some s!"outgoing accepted drops={drops} > LIM={o.lim}"
    else match dst with
      | none => none
      | some d => if dest ≠ d then some "outgoing accepted to a destination outside the DST lock" else none
  else none

/-! ## One input -/

/-- An input of the fuzzer. -/
structure Draw where
  drops : UInt64
  tip : UInt64
  accountIsOwner : Bool
  destination : Octets 20

/-- The destination: the locked one, or a random one. -/
def drawDestination (dst : Option (Octets 20)) (r : Rng) : Octets 20 × Rng :=
  match dst with
  | none => (Guardrail.AccountID.filled 0, r)
  | some d =>
    let (n, r) := r.next
    if n % 2 = 0 then (d, r) else (⟨(randomBytes 20 r).1, randomBytes_length 20 r⟩, (randomBytes 20 r).2)

/-- Whether the account is the owner; only some invariants ask the generator. -/
def drawOwner (invariant : String) (r : Rng) : Bool × Rng :=
  if invariant = "authz" ∨ invariant = "guardrail" then
    let (n, r) := r.next
    (n % 4 ≠ 0, r)
  else (false, r)

/-- One fixture of a campaign, and the generator after it. -/
@[irreducible] def draw (o : Opts) (dst : Option (Octets 20)) (r : Rng) : Draw × Rng :=
  let drops := genValue r o.lim o.tip
  let runTip := if o.invariant = "overflow" then genValue drops.2 o.lim o.tip else (o.tip, drops.2)
  let owner := drawOwner o.invariant runTip.2
  let destination := drawDestination dst owner.2
  (⟨drops.1 &&& Emit.NATIVE_DROPS_MASK, runTip.1, owner.1, destination.1⟩, destination.2)

/-- The name of a parameter, as bytes. -/
def paramName (name : String) : Bytes := utf8 name.toList

/-- The parameters the fuzzer installs. -/
def installed (o : Opts) (dst : Option (Octets 20)) (d : Draw) (key : Bytes) : Option Bytes :=
  if key = paramName "DST" ∧ dst.isSome then dst.map (·.1)
  else if key = paramName "TIP" ∧ o.invariant = "overflow" then some (u64Be d.tip)
  else if key = paramName "LIM" then some (u64Be o.lim)
  else none

/-- `TxFixture::default()`, but for what the fuzzer sets. -/
def fuzzFixture (o : Opts) (dst : Option (Octets 20)) (d : Draw) : Fixture :=
  { bareFixture with
    drops := d.drops
    account := if d.accountIsOwner then OWNER else Guardrail.AccountID.filled 0x11
    destination := d.destination
    hookParams := installed o dst d }

/-! ## The run -/

/-- What the loop keeps. -/
structure Tally where
  accepts : Nat := 0
  rollbacks : Nat := 0
  guardViolations : Nat := 0
  returned : Nat := 0
  counterexamples : List Counterexample := []
  paramsRead : List Bytes := []
  ownerAccepts : Nat := 0

/-- The counterexample an accepted input is, if it is one. -/
def counterexample (o : Opts) (dst : Option (Octets 20)) (d : Draw) : Option Counterexample :=
  (oracle o d.drops d.tip d.accountIsOwner d.destination dst).map fun why =>
    ⟨why, d.drops, d.tip, d.accountIsOwner, encodeHex d.destination.1, "ACCEPT"⟩

/-- What one input adds. -/
def Tally.note (t : Tally) (o : Opts) (dst : Option (Octets 20)) (d : Draw) (traced : Traced) : Tally :=
  let t := { t with paramsRead := traced.paramsRead ∪ t.paramsRead }
  match traced.outcome with
  | .Accept _ =>
    { t with
      accepts := t.accepts + 1
      ownerAccepts := t.ownerAccepts + (if d.accountIsOwner then 1 else 0)
      counterexamples := t.counterexamples ++ (counterexample o dst d).toList }
  | .Rollback _ => { t with rollbacks := t.rollbacks + 1 }
  | .GuardViolation _ => { t with guardViolations := t.guardViolations + 1 }
  | .Returned _ => { t with returned := t.returned + 1 }

/-- The loop; an error of the simulator ends it. -/
def fuzzLoop (o : Opts) (dst : Option (Octets 20)) (sim : Fixture → Checked (Except String Traced)) :
    Nat → Rng → Tally → Checked (Except String Tally)
  | 0, _, t => return .ok t
  | n + 1, r, t => do
    let next := draw o dst r
    match ← sim (fuzzFixture o dst next.1) with
    | .error e => return .error e
    | .ok traced => fuzzLoop o dst sim n next.2 (t.note o dst next.1 traced)

/-- The invariants the fuzzer has an oracle for. -/
def FUZZ_KNOWN : List String := ["limit", "overflow", "authz", "guardrail"]

/-- The report on a finished loop. -/
def fuzzReport (o : Opts) (t : Tally) : FuzzReport :=
  let missing := (requiredParams o.invariant).filter fun p => paramName p ∉ t.paramsRead
  let applicable := ¬(o.runs > 0 ∧ missing ≠ [])
  let required := "+".intercalate (requiredParams o.invariant)
  let unread := "+".intercalate missing
  let dropped := t.counterexamples.length
  { invariant := o.invariant
    runs := o.runs
    seed := o.seed
    accepts := t.accepts
    rollbacks := t.rollbacks
    guardViolations := t.guardViolations
    returned := t.returned
    counterexamples := if applicable then t.counterexamples else []
    exercisedAccept := t.accepts > 0
    applicable := applicable
    notes :=
      (if applicable then []
        else [s!"NOT APPLICABLE: the `{o.invariant}` oracle assumes a payment-limit hook that reads hook parameter(s) {required}, but this hook never read {unread} in {o.runs} runs. {dropped} counterexample(s) were dropped: they describe that other kind of hook, not a bug in this one."]) ++
      (if o.invariant = "authz" ∧ applicable then
        ["ASSUMPTION: the `authz` oracle assumes only the hook account may cause an ACCEPT. Hooks that accept incoming transactions from anyone by design will show counterexamples that are not bugs."]
        else []) ++
      (if o.invariant = "guardrail" ∧ applicable ∧ t.ownerAccepts = 0 ∧ o.runs > 0 then
        ["VACUOUS: no outgoing (owner) transaction was ever accepted, so the guardrail was never tested on the path it polices. The local sim has no account balance or ledger objects; hooks that check those fail closed here."]
        else []) }

/-- The destination lock of the options, parsed. -/
def fuzzDst (o : Opts) : Checked (Except String (Option (Octets 20))) :=
  match o.dst with
  | none => return .ok none
  | some hex => return (← parseDst hex).map some

/-- `fuzz::run`, given what the simulator makes of a fixture. -/
def fuzzRun (o : Opts) (sim : Fixture → Checked (Except String Traced)) : Checked (Except String FuzzReport) := do
  let known := ", ".intercalate FUZZ_KNOWN
  if o.invariant ∉ FUZZ_KNOWN then
    return .error s!"xahc fuzz supports stateless invariants: {known} (got `{o.invariant}`). For others use `xahc prove`."
  match ← fuzzDst o with
  | .error e => return .error e
  | .ok dst =>
    return (← fuzzLoop o dst sim o.runs.toNat ⟨o.seed ^^^ 0xF1F05EED1234ABCD⟩ {}).map (fuzzReport o)

/-! ## What a fuzzed run saw -/

/-- The inputs, in the order in which they are drawn. -/
def draws (o : Opts) (dst : Option (Octets 20)) : Nat → Rng → List Draw
  | 0, _ => []
  | n + 1, r => (draw o dst r).1 :: draws o dst n (draw o dst r).2

/-- The loop's tally after these inputs and their runs. -/
def Tally.after (t : Tally) (o : Opts) (dst : Option (Octets 20)) (seen : List (Draw × Traced)) : Tally :=
  seen.foldl (fun t p => t.note o dst p.1 p.2) t

theorem draws_succ {o : Opts} {dst : Option (Octets 20)} {n : Nat} {r r' : Rng} {d : Draw} (h : draw o dst r = (d, r')) :
    draws o dst (n + 1) r = d :: draws o dst n r' := by
  rw [draws, h]

theorem draws_length (o : Opts) (dst : Option (Octets 20)) (n : Nat) (r : Rng) : (draws o dst n r).length = n := by
  induction n generalizing r with
  | zero => rfl
  | succ n ih =>
    obtain ⟨⟨d, r'⟩, hd⟩ : ∃ next, draw o dst r = next := ⟨_, rfl⟩
    rw [draws_succ hd, List.length_cons, ih]

/-- One turn of a loop that ends well. -/
theorem fuzzLoop_succ {o : Opts} {dst : Option (Octets 20)} {sim : Fixture → Checked (Except String Traced)} {t' : Tally}
    {n : Nat} {r r' : Rng} {d : Draw} {t : Tally} (hd : draw o dst r = (d, r'))
    (h : fuzzLoop o dst sim (n + 1) r t = .ok (.ok t')) :
    ∃ traced, sim (fuzzFixture o dst d) = .ok (.ok traced) ∧
      fuzzLoop o dst sim n r' (t.note o dst d traced) = .ok (.ok t') := by
  rw [fuzzLoop, hd] at h
  obtain ⟨res, hsim, h⟩ := bind_ok.1 h
  cases res with
  | error e => cases h
  | ok traced => exact ⟨traced, hsim, h⟩

theorem fuzzLoop_ok {o : Opts} {dst : Option (Octets 20)} {sim : Fixture → Checked (Except String Traced)} {t' : Tally}
    {n : Nat} {r : Rng} {t : Tally} (h : fuzzLoop o dst sim n r t = .ok (.ok t')) :
    ∃ seen : List (Draw × Traced), seen.map Prod.fst = draws o dst n r ∧
      (∀ p ∈ seen, sim (fuzzFixture o dst p.1) = .ok (.ok p.2)) ∧ t' = t.after o dst seen := by
  induction n generalizing r t with
  | zero => exact ⟨[], rfl, fun _ hp => absurd hp List.not_mem_nil, (Except.ok.inj (Except.ok.inj h)).symm⟩
  | succ n ih =>
    obtain ⟨⟨d, r'⟩, hd⟩ : ∃ next, draw o dst r = next := ⟨_, rfl⟩
    obtain ⟨traced, hsim, hrest⟩ := fuzzLoop_succ hd h
    obtain ⟨seen, hdraws, hseen, hafter⟩ := ih hrest
    rw [draws_succ hd]
    refine ⟨(d, traced) :: seen, congrArg (List.cons d) hdraws, fun p hp => ?_, hafter⟩
    rcases List.mem_cons.1 hp with rfl | hp
    · exact hsim
    · exact hseen p hp

/-- The loop ends where the simulator has a result for every fixture. -/
theorem fuzzLoop_ends (o : Opts) (dst : Option (Octets 20)) {sim : Fixture → Checked (Except String Traced)}
    (hsim : ∀ tx, ∃ traced, sim tx = .ok (.ok traced)) (n : Nat) (r : Rng) (t : Tally) :
    ∃ t', fuzzLoop o dst sim n r t = .ok (.ok t') := by
  induction n generalizing r t with
  | zero => exact ⟨t, rfl⟩
  | succ n ih =>
    obtain ⟨⟨d, r'⟩, hd⟩ : ∃ next, draw o dst r = next := ⟨_, rfl⟩
    obtain ⟨traced, htraced⟩ := hsim (fuzzFixture o dst d)
    rw [fuzzLoop, hd]
    dsimp only
    rw [htraced, ok_bind]
    exact ih r' _

/-- How many runs were counted. -/
def Tally.counted (t : Tally) : Nat := t.accepts + t.rollbacks + t.guardViolations + t.returned

/-- What one input adds to the counts, the parameters and the counterexamples. -/
theorem note_adds (t : Tally) (o : Opts) (dst : Option (Octets 20)) (d : Draw) (traced : Traced) :
    (t.note o dst d traced).counted = t.counted + 1 ∧
      (t.note o dst d traced).paramsRead = traced.paramsRead ∪ t.paramsRead ∧
      (t.note o dst d traced).counterexamples =
        t.counterexamples ++ (if traced.accepts then (counterexample o dst d).toList else []) := by
  unfold Tally.note Traced.accepts Tally.counted
  cases traced.outcome with
  | Accept code => exact ⟨by dsimp only; omega, rfl, rfl⟩
  | Rollback code => exact ⟨by dsimp only; omega, rfl, (List.append_nil _).symm⟩
  | Returned code => exact ⟨by dsimp only; omega, rfl, (List.append_nil _).symm⟩
  | GuardViolation id => exact ⟨by dsimp only; omega, rfl, (List.append_nil _).symm⟩

theorem after_counted (o : Opts) (dst : Option (Octets 20)) (seen : List (Draw × Traced)) (t : Tally) :
    (t.after o dst seen).counted = t.counted + seen.length := by
  induction seen generalizing t with
  | nil => rfl
  | cons p seen ih =>
    show (Tally.after (t.note o dst p.1 p.2) o dst seen).counted = _
    rw [ih, (note_adds t o dst p.1 p.2).1, List.length_cons]
    omega

/-- Runs that all end in an exit leave nothing but accepts and rollbacks. -/
theorem after_settled (o : Opts) (dst : Option (Octets 20)) (seen : List (Draw × Traced)) (t : Tally)
    (h : ∀ p ∈ seen, ∃ code, p.2.outcome = .Accept code ∨ p.2.outcome = .Rollback code) :
    (t.after o dst seen).guardViolations = t.guardViolations ∧ (t.after o dst seen).returned = t.returned := by
  induction seen generalizing t with
  | nil => exact ⟨rfl, rfl⟩
  | cons p seen ih =>
    obtain ⟨hguard, hreturned⟩ := ih (t.note o dst p.1 p.2) fun q hq => h q (List.mem_cons_of_mem _ hq)
    obtain ⟨code, hout⟩ := h p List.mem_cons_self
    have hnote : (t.note o dst p.1 p.2).guardViolations = t.guardViolations ∧
        (t.note o dst p.1 p.2).returned = t.returned := by
      unfold Tally.note
      rcases hout with hout | hout <;> rw [hout] <;> exact ⟨rfl, rfl⟩
    exact ⟨hguard.trans hnote.1, hreturned.trans hnote.2⟩

theorem mem_after_params {o : Opts} {dst : Option (Octets 20)} {key : Bytes} (seen : List (Draw × Traced)) (t : Tally) :
    key ∈ (t.after o dst seen).paramsRead ↔ key ∈ t.paramsRead ∨ ∃ p ∈ seen, key ∈ p.2.paramsRead := by
  induction seen generalizing t with
  | nil => simp [Tally.after]
  | cons p seen ih =>
    have hrest := ih (t.note o dst p.1 p.2)
    rw [(note_adds t o dst p.1 p.2).2.1, List.mem_union_iff] at hrest
    rw [List.exists_mem_cons_iff]
    show key ∈ (Tally.after (t.note o dst p.1 p.2) o dst seen).paramsRead ↔ _
    rw [hrest]
    tauto

theorem after_counterexamples (o : Opts) (dst : Option (Octets 20)) (seen : List (Draw × Traced)) (t : Tally) :
    (t.after o dst seen).counterexamples = t.counterexamples ++
      seen.flatMap fun p => if p.2.accepts then (counterexample o dst p.1).toList else [] := by
  induction seen generalizing t with
  | nil => simp [Tally.after]
  | cons p seen ih =>
    rw [List.flatMap_cons, ← List.append_assoc, ← (note_adds t o dst p.1 p.2).2.2]
    exact ih (t.note o dst p.1 p.2)

/-- Only these invariants have the owner pay. -/
theorem drawOwner_invariant {invariant : String} {r : Rng} (h : (drawOwner invariant r).1 = true) :
    invariant = "authz" ∨ invariant = "guardrail" := by
  unfold drawOwner at h
  split at h
  · assumption
  · cases h

theorem draw_sane {o : Opts} {dst : Option (Octets 20)} {r r' : Rng} {d : Draw} (h : draw o dst r = (d, r')) :
    d.drops.toNat < 2 ^ 62 ∧ (d.accountIsOwner = true → o.invariant = "authz" ∨ o.invariant = "guardrail") := by
  rw [draw] at h
  obtain ⟨rfl, -⟩ := Prod.mk.inj h
  refine ⟨?_, drawOwner_invariant⟩
  show (_ &&& Emit.NATIVE_DROPS_MASK).toNat < 2 ^ 62
  rw [Emit.mask_drops]
  exact Nat.mod_lt _ (by decide)

theorem draws_sane {o : Opts} {dst : Option (Octets 20)} {n : Nat} {r : Rng} {d : Draw} (h : d ∈ draws o dst n r) :
    d.drops.toNat < 2 ^ 62 ∧ (d.accountIsOwner = true → o.invariant = "authz" ∨ o.invariant = "guardrail") := by
  induction n generalizing r with
  | zero => exact absurd h List.not_mem_nil
  | succ n ih =>
    obtain ⟨⟨d', r'⟩, hd⟩ : ∃ next, draw o dst r = next := ⟨_, rfl⟩
    rw [draws_succ hd] at h
    rcases List.mem_cons.1 h with rfl | h
    · exact draw_sane hd
    · exact ih h

theorem fuzzRun_ok {o : Opts} {sim : Fixture → Checked (Except String Traced)} {rep : FuzzReport}
    (h : fuzzRun o sim = .ok (.ok rep)) : o.invariant ∈ FUZZ_KNOWN ∧ ∃ dst seen, fuzzDst o = .ok (.ok dst) ∧
      seen.map Prod.fst = draws o dst o.runs.toNat ⟨o.seed ^^^ 0xF1F05EED1234ABCD⟩ ∧
      (∀ p ∈ seen, sim (fuzzFixture o dst p.1) = .ok (.ok p.2)) ∧
      rep = fuzzReport o (Tally.after {} o dst seen) := by
  unfold fuzzRun at h
  dsimp only at h
  split at h
  · cases h
  · rename_i hknown
    obtain ⟨res, hdst, h⟩ := bind_ok.1 h
    cases res with
    | error e => cases h
    | ok dst =>
      obtain ⟨res, hloop, h⟩ := bind_ok.1 h
      cases res with
      | error e => cases h
      | ok t =>
        obtain ⟨seen, hdraws, hseen, rfl⟩ := fuzzLoop_ok hloop
        exact ⟨not_not.1 hknown, dst, seen, hdst, hdraws, hseen, (Except.ok.inj (Except.ok.inj h)).symm⟩

theorem fuzzRun_of_loop {o : Opts} {sim : Fixture → Checked (Except String Traced)} {dst : Option (Octets 20)} {t : Tally}
    (hknown : o.invariant ∈ FUZZ_KNOWN) (hdst : fuzzDst o = .ok (.ok dst))
    (hloop : fuzzLoop o dst sim o.runs.toNat ⟨o.seed ^^^ 0xF1F05EED1234ABCD⟩ {} = .ok (.ok t)) :
    fuzzRun o sim = .ok (.ok (fuzzReport o t)) := by
  unfold fuzzRun
  dsimp only
  rw [if_neg (not_not.2 hknown), hdst, ok_bind]
  dsimp only
  rw [hloop]
  rfl

/-! ## What an oracle means -/

/-- The fixture violates the invariant, by what a hook reads of it. -/
def Violates (o : Opts) (dst : Option (Octets 20)) (tx : Fixture) : Prop :=
  let drops := (Guardrail.xahcOtxnDrops tx.otxn).toNat
  (o.invariant = "limit" ∧ o.lim.toNat < drops) ∨
  (o.invariant = "overflow" ∧ ∃ tip, tx.hookParams (paramName "TIP") = some tip ∧ o.lim.toNat < drops + beNat tip) ∨
  (o.invariant = "authz" ∧ tx.account ≠ OWNER) ∨
  (o.invariant = "guardrail" ∧ tx.account = OWNER ∧ (o.lim.toNat < drops ∨ ∃ d, dst = some d ∧ tx.destination ≠ d))

theorem fuzzFixture_drops {o : Opts} {dst : Option (Octets 20)} {d : Draw} (h : d.drops.toNat < 2 ^ 62) :
    Guardrail.xahcOtxnDrops (fuzzFixture o dst d).otxn = (d.drops.toNat : Int) := by
  rw [Guardrail.drops_of_nativeAmount rfl]
  show ((d.drops.toNat % 2 ^ 62 : Nat) : Int) = _
  rw [Nat.mod_eq_of_lt h]

theorem fuzzFixture_account (o : Opts) (dst : Option (Octets 20)) (d : Draw) :
    (fuzzFixture o dst d).account = OWNER ↔ d.accountIsOwner = true := by
  show (if d.accountIsOwner = true then OWNER else _) = OWNER ↔ _
  by_cases h : d.accountIsOwner = true
  · rw [if_pos h]
    exact iff_of_true rfl h
  · rw [if_neg h]
    exact iff_of_false (by decide) h

theorem fuzzFixture_tip {o : Opts} {dst : Option (Octets 20)} {d : Draw} (h : o.invariant = "overflow") :
    (fuzzFixture o dst d).hookParams (paramName "TIP") = some (u64Be d.tip) := by
  show installed o dst d (paramName "TIP") = _
  have hkey : paramName "TIP" ≠ paramName "DST" := by decide
  rw [installed, if_neg fun hdst => hkey hdst.1, if_pos ⟨rfl, h⟩]

theorem beNat_u64Be (v : UInt64) : beNat (u64Be v) = v.toNat := by
  rw [u64Be, beNat_natBE]
  exact Nat.mod_eq_of_lt v.toNat_lt

/-- The oracle speaks of the number that was drawn, the violation of what the hook reads: below `2^62` they agree. -/
theorem oracle_isSome_iff {o : Opts} {dst : Option (Octets 20)} {d : Draw} (h : d.drops.toNat < 2 ^ 62) :
    (oracle o d.drops d.tip d.accountIsOwner d.destination dst).isSome = true ↔ Violates o dst (fuzzFixture o dst d) := by
  unfold Violates
  rw [fuzzFixture_drops h, Int.toNat_natCast, fuzzFixture_account, ne_eq, fuzzFixture_account]
  unfold oracle
  by_cases hlimit : o.invariant = "limit"
  · simp [hlimit, UInt64.lt_iff_toNat_lt]
  by_cases hoverflow : o.invariant = "overflow"
  · simp [hoverflow, fuzzFixture_tip hoverflow, beNat_u64Be]
  by_cases hauthz : o.invariant = "authz"
  · cases hown : d.accountIsOwner <;> simp [hauthz]
  by_cases hguard : o.invariant = "guardrail"
  · have hdest : (fuzzFixture o dst d).destination = d.destination := rfl
    cases hown : d.accountIsOwner
    · simp [hguard]
    · by_cases hover : o.lim < d.drops
      · simp [hguard, hover, UInt64.lt_iff_toNat_lt.1 hover]
      · have hunder : ¬o.lim.toNat < d.drops.toNat := fun hlt => hover (UInt64.lt_iff_toNat_lt.2 hlt)
        cases dst with
        | none => simp [hguard, hover, hunder]
        | some a => by_cases hlock : d.destination = a <;> simp [hguard, hover, hunder, hdest, hlock]
  · simp [hlimit, hoverflow, hauthz, hguard]

/-! ## What a report says -/

/-- `xahc fuzz` on a loaded hook. -/
def fuzz (o : Opts) (env : Env) (h : Loaded) : Checked (Except String FuzzReport) :=
  fuzzRun o fun tx => runTraced { env with tx := tx } h

/-- The fixtures of a run, in order. -/
def fuzzed (o : Opts) (dst : Option (Octets 20)) : List Fixture :=
  (draws o dst o.runs.toNat ⟨o.seed ^^^ 0xF1F05EED1234ABCD⟩).map (fuzzFixture o dst)

theorem fuzzReport_applicable {o : Opts} {t : Tally} :
    (fuzzReport o t).applicable = true ↔
      o.runs.toNat = 0 ∨ ∀ name ∈ requiredParams o.invariant, paramName name ∈ t.paramsRead := by
  show decide (¬(o.runs > 0 ∧ (requiredParams o.invariant).filter (fun p => paramName p ∉ t.paramsRead) ≠ [])) = true ↔ _
  have hruns : o.runs > 0 ↔ o.runs.toNat ≠ 0 := UInt64.lt_iff_toNat_lt.trans Nat.pos_iff_ne_zero
  rw [decide_eq_true_eq, hruns, ne_eq, ne_eq, not_and_or, not_not, not_not, List.filter_eq_nil_iff]
  simp only [decide_eq_true_eq, not_not]

theorem fuzzReport_disproven {o : Opts} {t : Tally} :
    (fuzzReport o t).disproven = true ↔ (fuzzReport o t).applicable = true ∧ t.counterexamples ≠ [] := by
  rw [FuzzReport.disproven, Bool.and_eq_true]
  refine and_congr_right fun happ => ?_
  have hkept : (fuzzReport o t).counterexamples = t.counterexamples := if_pos (of_decide_eq_true happ)
  rw [hkept, Bool.not_eq_true', List.isEmpty_eq_false_iff]

/-- Whether the hook is run on one of the fixtures with this result. -/
def Saw (o : Opts) (env : Env) (h : Loaded) (dst : Option (Octets 20)) (P : Fixture → Traced → Prop) : Prop :=
  ∃ tx ∈ fuzzed o dst, ∃ traced, runTraced { env with tx := tx } h = .ok (.ok traced) ∧ P tx traced

section
variable {o : Opts} {env : Env} {h : Loaded} {dst : Option (Octets 20)} {seen : List (Draw × Traced)}
  (hdraws : seen.map Prod.fst = draws o dst o.runs.toNat ⟨o.seed ^^^ 0xF1F05EED1234ABCD⟩)
  (hseen : ∀ p ∈ seen, runTraced { env with tx := fuzzFixture o dst p.1 } h = .ok (.ok p.2))
include hdraws hseen

/-- What the loop saw is what the hook does on the fixtures. -/
theorem saw_iff {P : Fixture → Traced → Prop} :
    Saw o env h dst P ↔ ∃ p ∈ seen, P (fuzzFixture o dst p.1) p.2 := by
  unfold Saw fuzzed
  rw [← hdraws]
  constructor
  · rintro ⟨tx, htx, traced, hrun, hp⟩
    obtain ⟨d, hd, rfl⟩ := List.mem_map.1 htx
    obtain ⟨p, hmem, rfl⟩ := List.mem_map.1 hd
    rw [hseen p hmem] at hrun
    obtain rfl := Except.ok.inj (Except.ok.inj hrun)
    exact ⟨p, hmem, hp⟩
  · rintro ⟨p, hmem, hp⟩
    exact ⟨_, List.mem_map_of_mem (List.mem_map_of_mem hmem), p.2, hseen p hmem, hp⟩

theorem saw_violation :
    (Tally.after {} o dst seen).counterexamples ≠ [] ↔
      Saw o env h dst fun tx traced => traced.accepts = true ∧ Violates o dst tx := by
  rw [saw_iff hdraws hseen, after_counterexamples, List.nil_append, ne_eq, List.flatMap_eq_nil_iff, not_forall]
  simp only [not_forall, exists_prop]
  refine exists_congr fun p => and_congr_right fun hmem => ?_
  have hdrawn : p.1 ∈ draws o dst o.runs.toNat ⟨o.seed ^^^ 0xF1F05EED1234ABCD⟩ := hdraws ▸ List.mem_map_of_mem hmem
  rw [← oracle_isSome_iff (draws_sane hdrawn).1]
  by_cases hacc : p.2.accepts = true
  · rw [if_pos hacc, and_iff_right hacc, counterexample]
    cases oracle o p.1.drops p.1.tip p.1.accountIsOwner p.1.destination dst <;> simp
  · rw [if_neg hacc]
    exact iff_of_false (not_not.2 rfl) fun hboth => hacc hboth.1

end

/-- Of a hook and options for which the fuzzer ends with a report: every run is counted once, by how it ended. The result
is applicable just where there was no run or every parameter that the oracle takes for granted was asked for in some
run. And the invariant is disproven just where, the result being applicable, the hook accepted some fixture that violates
it. -/
theorem fuzz_disproves {o : Opts} {env : Env} {h : Loaded} {rep : FuzzReport} (hrun : fuzz o env h = .ok (.ok rep)) :
    rep.accepts + rep.rollbacks + rep.guardViolations + rep.returned = o.runs.toNat ∧
    ∃ dst, fuzzDst o = .ok (.ok dst) ∧
      (rep.applicable = true ↔ o.runs.toNat = 0 ∨
        ∀ name ∈ requiredParams o.invariant, Saw o env h dst fun _ traced => paramName name ∈ traced.paramsRead) ∧
      (rep.disproven = true ↔ rep.applicable = true ∧
        Saw o env h dst fun tx traced => traced.accepts = true ∧ Violates o dst tx) := by
  obtain ⟨-, dst, seen, hdst, hdraws, hseen, rfl⟩ := fuzzRun_ok hrun
  refine ⟨?_, dst, hdst, ?_, ?_⟩
  · have hlen : seen.length = o.runs.toNat := by
      rw [← List.length_map Prod.fst, hdraws, draws_length]
    rw [← hlen, ← Nat.zero_add seen.length]
    exact after_counted o dst seen {}
  · rw [fuzzReport_applicable]
    refine or_congr_right (forall₂_congr fun name _ => ?_)
    rw [saw_iff hdraws hseen, mem_after_params]
    exact or_iff_right List.not_mem_nil
  · rw [fuzzReport_disproven, saw_violation hdraws hseen]

/-- A hook that accepts everything. -/
def openHook : Loaded := ⟨none, fun _ => Host.accept 0 0 0⟩

/-- One run for `authz`, whose input is not the owner's. -/
def openOpts : Opts := { invariant := "authz", runs := 1, seed := 1, lim := 10, tip := 0, dst := none }

theorem openHook_accepts (tx : Fixture) :
    runTraced { bareEnv with tx := tx } openHook = .ok (.ok ⟨.Accept 0, [], ∅, []⟩) := rfl

theorem openOpts_draw : (draw openOpts none ⟨openOpts.seed ^^^ 0xF1F05EED1234ABCD⟩).1.accountIsOwner = false := by
  decide +kernel

theorem fuzz_disproves_open : ∃ rep, fuzz openOpts bareEnv openHook = .ok (.ok rep) ∧ rep.disproven = true := by
  obtain ⟨⟨d, r'⟩, hd⟩ : ∃ next, draw openOpts none ⟨openOpts.seed ^^^ 0xF1F05EED1234ABCD⟩ = next := ⟨_, rfl⟩
  have howner := openOpts_draw
  rw [hd] at howner
  have hloop : fuzzLoop openOpts none (fun tx => runTraced { bareEnv with tx := tx } openHook) 1
      ⟨openOpts.seed ^^^ 0xF1F05EED1234ABCD⟩ {} = .ok (.ok (Tally.note {} openOpts none d ⟨.Accept 0, [], ∅, []⟩)) := by
    rw [fuzzLoop, hd]
    rfl
  have hrun := fuzzRun_of_loop (by decide) rfl hloop
  refine ⟨_, hrun, ?_⟩
  obtain ⟨-, dst, hdst, happ, hdis⟩ := fuzz_disproves hrun
  obtain rfl : none = dst := Except.ok.inj (Except.ok.inj hdst)
  have hdraws : draws openOpts none openOpts.runs.toNat ⟨openOpts.seed ^^^ 0xF1F05EED1234ABCD⟩ = [d] := draws_succ (n := 0) hd
  refine hdis.2 ⟨happ.2 (.inr fun _ hname => absurd hname List.not_mem_nil), fuzzFixture openOpts none d, ?_, _,
    openHook_accepts _, rfl, ?_⟩
  · rw [fuzzed, hdraws]
    exact List.mem_singleton_self _
  · exact .inr (.inr (.inl ⟨rfl, fun howns => Bool.false_ne_true (howner ▸ (fuzzFixture_account _ _ _).1 howns)⟩))

end Xahc.Cli

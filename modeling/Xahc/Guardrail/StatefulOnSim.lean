/-
`agent_guardrail_stateful.c` and its refutation twin as their C source runs on the simulator: the run ends in the exit and
leaves the state of the plain Hook at the simulator's ledger.
-/
import Xahc.Guardrail.Budget
import Xahc.Guardrail.OnSim

namespace Xahc.Guardrail

open Xahc.Data Xahc.Data.Trapping Xahc.Sim Xahc.Sim.C

/-- The arrays of `agent_guardrail_stateful.c`, with the one of `xahcOtxnDrops`. -/
inductive StatefulArray
  | origin | me | limKey | limB | plmKey | plmB | perKey | perB | amt | skey | sval | dstKey | allowed | dest
  deriving DecidableEq

instance : Arrays StatefulArray where
  size
    | .origin | .me | .allowed | .dest => 20
    | .sval => 16
    | .limB | .plmB | .perB | .amt => 8
    | .limKey | .plmKey | .perKey | .dstKey => 3
    | .skey => 1

section
variable (env : Env) (fr : Frame StatefulArray)

/-- `PER`, in 8 or 4 bytes. -/
def perSource (badPer : Int) : Host UInt64 := do
  store fr .perKey 0 perKey
  let perLen ← C.hookParam env fr .perB .perKey
  if perLen = 8 then do
    let b ← load fr .perB 0 8
    return be64 b
  else if perLen = 4 then do
    let b ← load fr .perB 0 4
    return be32 b
  else do
    C.rollback fr "bad PER param" badPer
    return 0

/-- The period that `srd` bytes of stored state stand for. -/
def periodSource (corrupt : Int) (now per : UInt64) (srd : Int) : Host Period :=
  if srd = 16 then do
    let start ← load fr .sval 0 8
    let spent ← load fr .sval 8 8
    return if now < be64 start ∨ now - be64 start ≥ per then ⟨now, 0⟩ else ⟨be64 start, be64 spent⟩
  else if srd < 0 then return ⟨now, 0⟩
  else do
    C.rollback fr "corrupt state" corrupt
    return ⟨0, 0⟩

/-- The stored period, read into its array. -/
def readPeriodSource (corrupt : Int) (now per : UInt64) : Host Period := do
  store fr .skey 0 skey
  let srd ← C.state fr .sval .skey
  periodSource fr corrupt now per srd

/-- `hook` up to the commit: the period to store. -/
def statefulChecks (l : StatefulLines) (room : UInt64 → Period → UInt64) : Host Period := do
  policeSource env fr l.notPayment l.accountRead l.incoming .origin .me
  let lim ← paramSource env fr limKey .limB .limKey l.lim
  let plm ← paramSource env fr plmKey .plmB .plmKey l.plm
  let per ← perSource env fr l.badPer
  XAHC_REQUIRE fr (per > 0) "PER must be > 0" l.perZero
  let drops ← C.xahcOtxnDrops env fr .amt
  XAHC_REQUIRE fr (drops ≥ 0) "native amount only" l.native
  XAHC_REQUIRE fr (unsigned drops ≤ lim) "over per-tx spend limit" l.cap
  let now ← Host.ledgerSeq
  let p ← readPeriodSource fr l.corrupt (unsigned now) per
  XAHC_REQUIRE fr (unsigned drops ≤ room plm p) "over period budget" l.budget
  destinationSource env fr 20 l.destRead l.destination .dstKey .allowed .dest
  return ⟨p.periodStart, p.spent + unsigned drops⟩

/-- `hook`: the checks, the commit and the exit. -/
def statefulSource (l : StatefulLines) (room : UInt64 → Period → UInt64) : Host Int := do
  let q ← statefulChecks env fr l room
  store fr .sval 0 (wr64 q.periodStart)
  store fr .sval 8 (wr64 q.spent)
  XAHC_STATE_SET fr .skey .sval l.commit
  XAHC_ACCEPT fr "within policy" l.within
  return 0

end

/-- What `ledger_seq()` answers on the simulator. -/
def simLedger : UInt64 := 1000000

/-! ## Phases -/

section
variable (env : Env) {fr : Frame StatefulArray} {w : View StatefulArray} {m : Machine}

theorem per_mirrors (h : Shows fr messages w m) (badPer : Int) :
    Mirrors (perSource env fr badPer) m (decodePerAt badPer (env.tx.install.hookParam 8 perKey))
      (Stopped (w.ask perKey).asked w.state) fun v a m' =>
        a = v ∧ ∃ w', Shows fr messages w' m' ∧ w'.asked = (w.ask perKey).asked ∧ w'.state = w.state ∧
          w'.crossed = w.crossed := by
  obtain ⟨m₁, hstore, h₁⟩ := init_run h .perKey perKey (le_refl 3)
  obtain ⟨m₂, hparam, h₂⟩ := hookParam_run env h₁ .perB (View.hold_self ..) rfl
  have hsize : Arrays.size StatefulArray.perB = 8 := rfl
  rw [hsize] at hparam h₂
  refine mirrors_run hstore (mirrors_run hparam ?_)
  have hbuf {n : Nat} (hn : n ≤ 8) (hrc : (env.tx.install.hookParam 8 perKey).rc = n) :
      (env.tx.install.hookParam 8 perKey).buf.length = n := by
    obtain ⟨b, hb, hlen⟩ := (readInto_rc_eq hn).1 hrc
    rw [Install.hookParam, hb, readInto_fits (by omega), hlen]
  refine mirrors_ite Iff.rfl (fun hrc => ?_) fun _ => mirrors_ite Iff.rfl (fun hrc => ?_) fun _ => ?_
  · exact mirrors_run (load_all h₂ (View.hold_self ..) (hbuf (le_refl 8) hrc)) (mirrors_ok ⟨rfl, _, h₂, rfl, rfl, rfl⟩)
  · exact mirrors_run (load_all h₂ (View.hold_self ..) (hbuf (by decide) hrc)) (mirrors_ok ⟨rfl, _, h₂, rfl, rfl, rfl⟩)
  · exact rollback_bind_mirrors h₂ (by decide)

/-- The first half of a stored period, and its second. -/
theorem period_halves {b : Bytes} (h : b.length = 16) :
    Period.decode b = ⟨be64 (region b 0 8), be64 (region b 8 8)⟩ := by
  have hfirst : be64 b = be64 (region b 0 8) := by
    have hlen : (region b 0 8).length = 8 := region_length (by omega)
    rw [← be64_append hlen (b.drop 8), region, List.drop_zero, List.take_append_drop]
  have hsecond : b.drop 8 = region b 8 8 := by
    rw [region, List.take_of_length_le]
    rw [List.length_drop]
    omega
  rw [Period.decode, hsecond, hfirst]

theorem period_mirrors (h : Shows fr messages w m) {st : HookState} (hst : w.state = st) (corrupt : Int) (now per : UInt64) :
    Mirrors (readPeriodSource fr corrupt now per) m
      (readPeriodAt corrupt st now per) (Stopped w.asked w.state) fun p a m' =>
        a = p ∧ ∃ w', Shows fr messages w' m' ∧ w'.asked = w.asked ∧ w'.state = w.state ∧ w'.crossed = w.crossed ∧
          w'.held .skey = skey := by
  subst hst
  obtain ⟨m₁, hstore, h₁⟩ := init_run h .skey skey (le_refl 1)
  obtain ⟨m₂, hstate, h₂⟩ := state_run h₁ .sval (View.hold_self ..) rfl
  have hsize : Arrays.size StatefulArray.sval = 16 := rfl
  rw [hsize, View.hold_state] at hstate h₂
  refine mirrors_run hstore (mirrors_run hstate ?_)
  have hskey : (w.hold .skey skey |>.hold .sval (readInto 16 (w.state skey)).buf).held .skey = skey := by
    rw [View.hold_other _ (by decide), View.hold_self]
  refine mirrors_ite Iff.rfl (fun hrc => ?_) fun _ => mirrors_ite Iff.rfl (fun _ => ?_) fun _ => ?_
  · obtain ⟨b, hb, hlen⟩ := (readInto_rc_eq (le_refl 16)).1 hrc
    have hread : (readInto 16 (w.state skey)).buf = b := by
      rw [hb, readInto_fits hlen.le]
    simp only [hread] at h₂ hskey
    have hheld : ((w.hold .skey skey).hold .sval b).held .sval = b := View.hold_self ..
    have hstart := load_run h₂ .sval 0 8 (by rw [hheld]; omega)
    have hspent := load_run h₂ .sval 8 8 (by rw [hheld]; omega)
    rw [hheld] at hstart hspent
    refine mirrors_run hstart (mirrors_run hspent (mirrors_ok ⟨?_, _, h₂, rfl, rfl, rfl, hskey⟩))
    show _ = (Period.decode (readInto 16 (w.state skey)).buf).roll now per
    rw [hread, period_halves hlen]
    rfl
  · exact mirrors_ok ⟨rfl, _, h₂, rfl, rfl, rfl, hskey⟩
  · exact rollback_bind_mirrors h₂ (by decide)

/-! ## The whole source -/

theorem statefulChecks_mirrors (l : StatefulLines) (room : UInt64 → Period → UInt64) {st : HookState}
    (h : Shows fr messages (fresh st) m) :
    Mirrors (statefulChecks env fr l room) m (hookChecksAt l room env.tx.install env.tx.otxn simLedger st)
      (Finished env.tx.install env.tx.otxn st) fun q a m' =>
        a = q ∧ ∃ w, Shows fr messages w m' ∧ limKey ∈ w.asked ∧ w.state = st ∧ w.held .skey = skey := by
  rw [hookChecksAt, readPolicyAt, readPerAt]
  simp only [readAmountAt, bind_assoc, pure_bind]
  -- line by line: where a line ends the run it ends the model, and the view says what was asked and held so far
  have hpolice := police_mirrors env h l.notPayment l.accountRead l.incoming (by decide : StatefulArray.origin ≠ .me)
    rfl rfl
  refine hpolice.bind_mono (fun _ _ _ hy hstop => ⟨[], hstop, iff_of_false List.not_mem_nil (not_outgoing_of_error hy)⟩) ?_
  rintro _ _ m₁ hy ⟨w₁, h₁, hasked₁, hst₁, hguard₁⟩
  have hout := policeAt_ok.1 hy
  have hmem₁ : limKey ∈ (w₁.ask limKey).asked := List.mem_insert_self
  have hlim := param_mirrors env h₁ limKey .limB .limKey rfl rfl l.lim
  refine hlim.bind_mono (fun _ _ _ _ => finished_of_outgoing hout hmem₁ hst₁) ?_
  rintro lim _ m₂ - ⟨rfl, w₂, h₂, hasked₂, hst₂, hcrossed₂⟩
  have hmem₂ : limKey ∈ (w₂.ask plmKey).asked := List.mem_insert_of_mem (hasked₂ ▸ hmem₁)
  have hstate₂ : w₂.state = st := hst₂.trans hst₁
  have hplm := param_mirrors env h₂ plmKey .plmB .plmKey rfl rfl l.plm
  refine hplm.bind_mono (fun _ _ _ _ => finished_of_outgoing hout hmem₂ hstate₂) ?_
  rintro plm _ m₃ - ⟨rfl, w₃, h₃, hasked₃, hst₃, hcrossed₃⟩
  have hmem₃ : limKey ∈ (w₃.ask perKey).asked := List.mem_insert_of_mem (hasked₃ ▸ hmem₂)
  have hstate₃ : w₃.state = st := hst₃.trans hstate₂
  refine (per_mirrors env h₃ l.badPer).bind_mono (fun _ _ _ _ => finished_of_outgoing hout hmem₃ hstate₃) ?_
  rintro _ per m₄ - ⟨rfl, w₄, h₄, hasked₄, hst₄, hcrossed₄⟩
  have hmem₄ : limKey ∈ w₄.asked := hasked₄ ▸ hmem₃
  have hstate₄ : w₄.state = st := hst₄.trans hstate₃
  refine (require_mirrors h₄ (by decide)).bind_mono (fun _ _ _ _ => finished_of_outgoing hout hmem₄ hstate₄) ?_
  rintro _ _ m₅ - h₅
  obtain ⟨m₆, hdrops, _, h₆⟩ := drops_run env h₅ .amt rfl
  refine mirrors_run hdrops ?_
  refine (require_mirrors h₆ (by decide)).bind_mono (fun _ _ _ _ => finished_of_outgoing hout hmem₄ hstate₄) ?_
  rintro _ _ m₇ hpos h₇
  rw [require_ok, decide_eq_true_eq] at hpos
  rw [unsigned_of_nonneg hpos]
  refine (require_mirrors h₇ (by decide)).bind_mono (fun _ _ _ _ => finished_of_outgoing hout hmem₄ hstate₄) ?_
  rintro _ _ m₈ - h₈
  refine mirrors_run (rfl : Host.ledgerSeq.run.run m₈ = .ok (.ok 1000000, m₈)) ?_
  have hperiod := period_mirrors h₈ hstate₄ l.corrupt simLedger per
  refine hperiod.bind_mono (fun _ _ _ _ => finished_of_outgoing hout hmem₄ hstate₄) ?_
  rintro p _ m₉ - ⟨rfl, w₉, h₉, hasked₉, hst₉, hcrossed₉, hskey₉⟩
  have hmem₉ : limKey ∈ w₉.asked := hasked₉ ▸ hmem₄
  have hstate₉ : w₉.state = st := hst₉.trans hstate₄
  refine (require_mirrors h₉ (by decide)).bind_mono (fun _ _ _ _ => finished_of_outgoing hout hmem₉ hstate₉) ?_
  rintro _ _ m₁₀ - h₁₀
  -- no line before the loop over the destination crossed its guard
  have hguard : w₉.crossed (guardId 2) = 0 := by
    rw [hcrossed₉, View.hold_crossed, hcrossed₄, hcrossed₃, hcrossed₂, hguard₁]
  have hdest := destination_mirrors (k := StatefulArray.dstKey) env h₁₀ (le_refl 20) l.destRead l.destination
    (by decide : StatefulArray.dest ≠ .allowed) rfl rfl rfl hguard
  have hmem₁₀ : limKey ∈ (w₉.ask dstKey).asked := List.mem_insert_of_mem hmem₉
  refine hdest.bind_mono (fun _ _ _ _ => finished_of_outgoing hout hmem₁₀ hstate₉) ?_
  rintro _ _ m₁₁ - ⟨w₁₁, h₁₁, hasked₁₁, hst₁₁, hheld₁₁⟩
  refine mirrors_ok ⟨rfl, w₁₁, h₁₁, hasked₁₁ ▸ hmem₁₀, hst₁₁.trans hstate₉, ?_⟩
  rw [hheld₁₁ .skey (by decide) (by decide) (by decide), hskey₉]

/-- The commit stores the period under its key, and does not fail. -/
theorem commit_run (h : Shows fr messages w m) (hskey : w.held .skey = skey) (q : Period) :
    ∃ m₁ m₂ m₃, (store fr .sval 0 (wr64 q.periodStart)).run.run m = .ok (.ok (), m₁) ∧
      (store fr .sval 8 (wr64 q.spent)).run.run m₁ = .ok (.ok (), m₂) ∧
      ∀ line, (XAHC_STATE_SET fr .skey .sval line).run.run m₂ = .ok (.ok (), m₃) ∧
        ∃ w', Shows fr messages w' m₃ ∧ w'.asked = w.asked ∧ w'.state = w.state.set skey q.encode := by
  obtain ⟨m₁, hfirst, h₁⟩ := init_run h .sval (wr64 q.periodStart) (by rw [wr64_length]; decide)
  have hstart : (w.hold .sval (wr64 q.periodStart)).held .sval = wr64 q.periodStart := View.hold_self ..
  obtain ⟨m₂, hsecond, h₂⟩ := store_run h₁ .sval 8 (wr64 q.spent) (by rw [hstart]; rfl)
    (by rw [wr64_length]; decide)
  rw [hstart] at h₂
  have hval : ((w.hold .sval (wr64 q.periodStart)).hold .sval ((wr64 q.periodStart).take 8 ++ wr64 q.spent)).held .sval =
      q.encode := View.hold_self ..
  have hkey : ((w.hold .sval (wr64 q.periodStart)).hold .sval ((wr64 q.periodStart).take 8 ++ wr64 q.spent)).held .skey =
      skey := by
    rw [View.hold_other _ (by decide), View.hold_other _ (by decide), hskey]
  obtain ⟨m₃, hset, h₃⟩ := stateSet_run h₂ hval hkey (Period.encode_length q) rfl
  refine ⟨m₁, m₂, m₃, hfirst, hsecond, fun line => ⟨?_, _, h₃, rfl, rfl⟩⟩
  exact run_bind hset

/-- The run ends in the exit of the plain body, and leaves its state. -/
theorem statefulSource_run (l : StatefulLines) (room : UInt64 → Period → UInt64) {st : HookState}
    (h : Shows fr messages (fresh st) m) :
    ∃ m' asked, (statefulSource env fr l room).run.run m = .ok (.error .halt, m') ∧
      Stopped asked (statefulHook l room env.tx.install env.tx.otxn simLedger st).2
        (statefulHook l room env.tx.install env.tx.otxn simLedger st).1 .halt m' := by
  unfold statefulHook
  rcases statefulChecks_mirrors env l room h with ⟨d, e, m', hd, hrun, asked, hstop, -⟩ |
      ⟨_, q, m₀, hq, hrun, rfl, w₀, h₀, -, hst, hskey⟩
  · rw [hd]
    have hhalt := hstop.halt
    subst hhalt
    exact ⟨m', asked, run_bind_trap hrun, hstop⟩
  · rw [hq]
    obtain ⟨m₁, m₂, m₃, hfirst, hsecond, hset⟩ := commit_run h₀ hskey q
    obtain ⟨hset, w₃, h₃, -, hst₃⟩ := hset l.commit
    have haccept : Mirrors (XAHC_ACCEPT fr "within policy" l.within >>= fun _ => (pure 0 : Host Int)) m₃
        (.error (.accept "within policy" l.within)) (Stopped w₃.asked w₃.state) fun (_ : Unit) _ _ => False :=
      accept_mirrors h₃ (by decide)
    rcases haccept with ⟨_, e, m', hd, haccept, hstop⟩ | ⟨_, _, _, _, _, hfalse⟩
    · have hhalt := hstop.halt
      subst hhalt
      cases hd
      refine ⟨m', w₃.asked, ?_, ?_⟩
      · rw [statefulSource, run_bind hrun, run_bind hfirst, run_bind hsecond, run_bind hset]
        exact haccept
      · rw [hst₃, hst] at hstop
        exact hstop
    · exact hfalse.elim

end

/-- `hook` of `agent_guardrail_stateful.c`. -/
def agentGuardrailStatefulSource (env : Env) (fr : Frame StatefulArray) : Host Int :=
  statefulSource env fr agentGuardrailStatefulLines remaining

/-- Whatever the fixture, the installed parameters, the state and the bytes in memory, `agent_guardrail_stateful.c` run on
the simulator halts in the exit of the plain Hook at the simulator's ledger and leaves exactly its state: no guard is
overrun, no read is out of bounds, nothing else is stored and nothing is emitted. -/
theorem agent_guardrail_stateful_on_sim (env : Env) {fr : Frame StatefulArray} {mem : LinearMemory}
    (hfits : fr.Fits messages mem.bytes.length) (state : AList fun _ : Bytes => Bytes) :
    ∃ m', (agentGuardrailStatefulSource env fr).run.run (started state mem) = .ok (.error .halt, m') ∧
      m'.ctx.outcome = some (Exit.outcome (hook env.tx.install env.tx.otxn simLedger state.lookup).1) ∧
      m'.hookState = (hook env.tx.install env.tx.otxn simLedger state.lookup).2 ∧ m'.ctx.emitted = [] := by
  obtain ⟨m', asked, hrun, hstop⟩ := statefulSource_run env agentGuardrailStatefulLines remaining
    (started_shows state hfits)
  rw [← hook_eq_statefulHook] at hstop
  exact ⟨m', hrun, hstop.outcome, hstop.state, hstop.emitted⟩

/-- The arrays and the messages of a build one after the other, from the 16th byte on. -/
def statefulFrame : Frame StatefulArray where
  ptr
    | .origin => 512 | .me => 532 | .limKey => 552 | .limB => 555 | .plmKey => 563 | .plmB => 566 | .perKey => 574
    | .perB => 577 | .amt => 585 | .skey => 593 | .sval => 594 | .dstKey => 610 | .allowed => 613 | .dest => 633
  lit msg := 16 + 32 * messages.idxOf msg

theorem statefulFrame_fits : statefulFrame.Fits messages 1024 where
  inside v := by cases v <;> decide
  small v := by cases v <;> decide
  apart v w h := by cases v <;> cases w <;> first | exact absurd rfl h | decide
  messages := by decide

/-- A payment of 5 drops by the account itself, with a `LIM` of 5, a `PLM` of 8 and a `PER` of 10. -/
def budgetEnv : Env := { payEnv with tx := { payEnv.tx with hookParams := smallInstall.params } }

theorem agent_guardrail_stateful_on_sim_spends : ∃ m',
    (agentGuardrailStatefulSource budgetEnv statefulFrame).run.run
        (started ∅ ⟨List.replicate 1024 0, by rw [List.length_replicate]; decide⟩) = .ok (.error .halt, m') ∧
      m'.ctx.outcome = some (.Accept 165) ∧ m'.hookState skey = some (Period.encode ⟨1000000, 5⟩) := by
  have hfits : statefulFrame.Fits messages (List.replicate 1024 (0 : UInt8)).length := by
    rw [List.length_replicate]
    exact statefulFrame_fits
  obtain ⟨m', hrun, hout, hstate, -⟩ := @agent_guardrail_stateful_on_sim budgetEnv statefulFrame
    ⟨List.replicate 1024 0, by rw [List.length_replicate]; decide⟩ hfits ∅
  let empty : HookState := fun key => (∅ : AList fun _ : Bytes => Bytes).lookup key
  have hspends : Spends budgetEnv.tx.install budgetEnv.tx.otxn simLedger empty ⟨5, 8, 10⟩ 5 ⟨simLedger, 0⟩ :=
    ⟨⟨rfl, rfl⟩, smallInstall_installed, by decide, by decide, rfl, by decide, fun d hd => by cases (show none = some d from hd)⟩
  rw [hook_spends hspends] at hout hstate
  have hset : m'.hookState = empty.set skey (Period.encode ⟨1000000, 5⟩) := hstate
  exact ⟨m', hrun, hout, by rw [hset, HookState.set_self]⟩

end Xahc.Guardrail

/-
The fuzzer on `agentGuardrail.c`: the oracle for guardrails finds nothing against it, whatever the seed, and the oracles for
hooks that cap every payment do not apply to it.
-/
import Xahc.Cli.Fuzz
import Xahc.Guardrail.OnSim

namespace Xahc.Cli

open Xahc.Data Xahc.Data.Checked Xahc.Sim Xahc.Guardrail

/-- `agentGuardrail.c` as a build lays it out. -/
def agentLoaded (fr : Frame AgentArray) (mem : LinearMemory) : Loaded := ⟨some mem, fun env => agentGuardrailSource env fr⟩

/-- The run of one fixture: it ends in an exit, accepts what the policy allows, and asks for `LIM` only on payments of its
own account. -/
theorem agentLoaded_run (env : Env) {fr : Frame AgentArray} {mem : LinearMemory} (hfits : fr.Fits messages mem.bytes.length) :
    ∃ traced, runTraced env (agentLoaded fr mem) = .ok (.ok traced) ∧
      (∃ code, traced.outcome = .Accept code ∨ traced.outcome = .Rollback code) ∧
      (traced.accepts = true → PassedThrough env.tx.install env.tx.otxn ∨
        ∃ limit amount, Allowed (fun drops limit => drops ≤ limit) 20 env.tx.install env.tx.otxn limit amount) ∧
      (limKey ∈ traced.paramsRead ↔ Outgoing env.tx.install env.tx.otxn) := by
  obtain ⟨m', hrun, asked, hstop, hasked⟩ := agentSource_run env agentGuardrailLines (fun drops limit => drops ≤ limit)
    (le_refl 20) (started_shows ∅ hfits)
  refine ⟨_, runTraced_halted hrun hstop.simError hstop.outcome, ?_, ?_, ?_⟩
  · cases agentHook agentGuardrailLines (fun drops limit => decide (drops ≤ limit)) 20 env.tx.install env.tx.otxn with
    | accept reason line => exact ⟨_, .inl rfl⟩
    | rollback reason line => exact ⟨_, .inr rfl⟩
  · rw [← agentHook_accepts (l := agentGuardrailLines) (le_refl 20)]
    cases agentHook agentGuardrailLines (fun drops limit => decide (drops ≤ limit)) 20 env.tx.install env.tx.otxn with
    | accept reason line => exact fun _ => rfl
    | rollback reason line => exact fun hfalse => absurd hfalse Bool.false_ne_true
  · rw [← hasked, ← hstop.asked]
    rfl

section
variable {o : Opts} {dst : Option (Octets 20)} {d : Draw}

theorem fuzzFixture_outgoing :
    Outgoing (fuzzFixture o dst d).install (fuzzFixture o dst d).otxn ↔ d.accountIsOwner = true := by
  rw [← fuzzFixture_account o dst d]
  constructor
  · exact fun hout => Subtype.ext (Option.some.inj hout.2)
  · exact fun hown => ⟨rfl, congrArg (fun a : Octets 20 => some a.1) hown⟩

theorem fuzzFixture_lim (o : Opts) (dst : Option (Octets 20)) (d : Draw) :
    (fuzzFixture o dst d).hookParams limKey = some (u64Be o.lim) := by
  show installed o dst d (paramName "LIM") = _
  have hdst : paramName "LIM" ≠ paramName "DST" := by decide
  have htip : paramName "LIM" ≠ paramName "TIP" := by decide
  rw [installed, if_neg fun h => hdst h.1, if_neg fun h => htip h.1, if_pos rfl]

theorem fuzzFixture_dst {a : Octets 20} : (fuzzFixture o (some a) d).hookParams dstKey = some a.1 := by
  show installed o (some a) d (paramName "DST") = _
  rw [installed, if_pos ⟨rfl, rfl⟩]
  rfl

/-- What the guardrail accepts is no violation, by what the fuzzer installs. -/
theorem accepted_conforms (hguardrail : o.invariant = "guardrail")
    (hacc : PassedThrough (fuzzFixture o dst d).install (fuzzFixture o dst d).otxn ∨
      ∃ limit amount, Allowed (fun drops limit => drops ≤ limit) 20 (fuzzFixture o dst d).install
        (fuzzFixture o dst d).otxn limit amount) : ¬Violates o dst (fuzzFixture o dst d) := by
  unfold Violates
  rw [hguardrail]
  rintro (⟨hinv, -⟩ | ⟨hinv, -⟩ | ⟨hinv, -⟩ | ⟨-, hown, hviol⟩)
  · exact absurd hinv (by decide)
  · exact absurd hinv (by decide)
  · exact absurd hinv (by decide)
  have hout : Outgoing (fuzzFixture o dst d).install (fuzzFixture o dst d).otxn :=
    fuzzFixture_outgoing.2 ((fuzzFixture_account o dst d).1 hown)
  rcases hacc with (htt | ⟨b, hb, -, hne⟩) | ⟨limit, amount, hallowed⟩
  · exact htt hout.1
  · exact hne (Option.some.inj (hb.symm.trans hout.2))
  obtain ⟨b, hb, hlen, hlimit⟩ := hallowed.lim
  obtain rfl : u64Be o.lim = b := Option.some.inj ((fuzzFixture_lim o dst d).symm.trans hb)
  have hlim : limit.toNat = o.lim.toNat := by rw [← hlimit, be64_toNat hlen, beNat_u64Be]
  have hcap : amount.toNat ≤ limit.toNat := UInt64.le_iff_toNat_le.1 (of_decide_eq_true hallowed.cap)
  rcases hviol with hover | ⟨a, rfl, hdest⟩
  · rw [hallowed.native, Int.toNat_natCast] at hover
    omega
  · have hfield := destinationUpTo_all.1 hallowed.destination a.1 (fuzzFixture_dst (o := o) (d := d)) a.2
    exact hdest (Subtype.ext (Option.some.inj hfield))

end

section
variable {o : Opts} (env : Env) {fr : Frame AgentArray} {mem : LinearMemory} {dst : Option (Octets 20)}
  (hfits : fr.Fits messages mem.bytes.length)
include hfits

/-- The fuzzer ends, and every run it saw is one of `agentLoaded_run`. -/
theorem fuzz_agent (hknown : o.invariant ∈ FUZZ_KNOWN) (hdst : fuzzDst o = .ok (.ok dst)) :
    ∃ seen : List (Draw × Traced), fuzz o env (agentLoaded fr mem) = .ok (.ok (fuzzReport o (Tally.after {} o dst seen))) ∧
      seen.map Prod.fst = draws o dst o.runs.toNat ⟨o.seed ^^^ 0xF1F05EED1234ABCD⟩ ∧
      ∀ p ∈ seen, runTraced { env with tx := fuzzFixture o dst p.1 } (agentLoaded fr mem) = .ok (.ok p.2) := by
  have hsim : ∀ tx, ∃ traced, runTraced { env with tx := tx } (agentLoaded fr mem) = .ok (.ok traced) := fun tx =>
    have ⟨traced, hrun, _⟩ := agentLoaded_run { env with tx := tx } hfits
    ⟨traced, hrun⟩
  obtain ⟨t, hloop⟩ := fuzzLoop_ends o dst hsim o.runs.toNat ⟨o.seed ^^^ 0xF1F05EED1234ABCD⟩ {}
  obtain ⟨seen, hdraws, hseen, rfl⟩ := fuzzLoop_ok hloop
  exact ⟨seen, fuzzRun_of_loop hknown hdst hloop, hdraws, hseen⟩

/-- Fuzzed for `guardrail`, `agentGuardrail.c` is never disproven: whatever the seed, the number of runs, the limit and the
lock, the fuzzer ends, every run was an accept or a rollback, no accepted input violates the invariant, and there is no
counterexample. -/
theorem agent_guardrail_fuzzed (hguardrail : o.invariant = "guardrail") (hdst : fuzzDst o = .ok (.ok dst)) :
    ∃ rep, fuzz o env (agentLoaded fr mem) = .ok (.ok rep) ∧ rep.disproven = false ∧ rep.counterexamples = [] ∧
      (¬Saw o env (agentLoaded fr mem) dst fun tx traced => traced.accepts = true ∧ Violates o dst tx) ∧
      rep.accepts + rep.rollbacks = o.runs.toNat := by
  obtain ⟨seen, hfuzz, hdraws, hseen⟩ := fuzz_agent env hfits (hguardrail ▸ by decide) hdst
  -- every run ends by itself, and what it accepts conforms
  have hruns : ∀ p ∈ seen, (∃ code, p.2.outcome = .Accept code ∨ p.2.outcome = .Rollback code) ∧
      (p.2.accepts = true → ¬Violates o dst (fuzzFixture o dst p.1)) := by
    intro p hp
    obtain ⟨traced, hrun, hexit, hacc, -⟩ := agentLoaded_run { env with tx := fuzzFixture o dst p.1 } hfits
    rw [hseen p hp] at hrun
    obtain rfl := Except.ok.inj (Except.ok.inj hrun)
    exact ⟨hexit, fun h => accepted_conforms hguardrail (hacc h)⟩
  have hnone : ¬Saw o env (agentLoaded fr mem) dst fun tx traced => traced.accepts = true ∧ Violates o dst tx := by
    rw [saw_iff hdraws hseen]
    rintro ⟨p, hp, hacc, hviol⟩
    exact (hruns p hp).2 hacc hviol
  have hempty : (Tally.after {} o dst seen).counterexamples = [] := by
    by_contra hne
    exact hnone ((saw_violation hdraws hseen).1 hne)
  refine ⟨_, hfuzz, ?_, ?_, hnone, ?_⟩
  · rw [← Bool.not_eq_true, fuzzReport_disproven, hempty]
    exact fun h => h.2 rfl
  · unfold fuzzReport
    dsimp only
    rw [hempty, ite_self]
  · obtain ⟨hguard, hreturned⟩ := after_settled o dst seen {} fun p hp => (hruns p hp).1
    have hcounted := after_counted o dst seen {}
    have hlen : seen.length = o.runs.toNat := by
      rw [← List.length_map Prod.fst, hdraws, draws_length]
    rw [Tally.counted, hguard, hreturned, hlen] at hcounted
    exact hcounted.trans (Nat.zero_add _)

/-- The oracles for hooks that cap every payment do not apply to it: they have the hook account receive, and then the
guardrail never asks for `LIM`. -/
theorem agent_guardrail_not_applicable (hcaps : o.invariant = "limit" ∨ o.invariant = "overflow")
    (hdst : fuzzDst o = .ok (.ok dst)) (hpos : 0 < o.runs.toNat) :
    ∃ rep, fuzz o env (agentLoaded fr mem) = .ok (.ok rep) ∧ rep.applicable = false ∧ rep.disproven = false := by
  have hknown : o.invariant ∈ FUZZ_KNOWN := by rcases hcaps with h | h <;> rw [h] <;> decide
  obtain ⟨seen, hfuzz, hdraws, hseen⟩ := fuzz_agent env hfits hknown hdst
  have hlim : "LIM" ∈ requiredParams o.invariant := by rcases hcaps with h | h <;> rw [h] <;> decide
  have happ : (fuzzReport o (Tally.after {} o dst seen)).applicable = false := by
    rw [← Bool.not_eq_true, fuzzReport_applicable]
    rintro (hzero | hall)
    · omega
    rcases (mem_after_params seen {}).1 (hall "LIM" hlim) with hnil | ⟨p, hp, hmem⟩
    · exact absurd hnil List.not_mem_nil
    obtain ⟨traced, hrun, -, -, hasked⟩ := agentLoaded_run { env with tx := fuzzFixture o dst p.1 } hfits
    rw [hseen p hp] at hrun
    obtain rfl := Except.ok.inj (Except.ok.inj hrun)
    have hdrawn : p.1 ∈ draws o dst o.runs.toNat ⟨o.seed ^^^ 0xF1F05EED1234ABCD⟩ := hdraws ▸ List.mem_map_of_mem hp
    rcases (draws_sane hdrawn).2 (fuzzFixture_outgoing.1 (hasked.1 hmem)) with h | h <;>
      rcases hcaps with hcap | hcap <;> exact absurd (h.symm.trans hcap) (by decide)
  refine ⟨_, hfuzz, happ, ?_⟩
  rw [FuzzReport.disproven, happ, Bool.false_and]

end

/-- A hundred runs against a limit of 10 drops. -/
def capOpts (invariant : String) : Opts := { invariant, runs := 100, seed := 7, lim := 10, tip := 0, dst := none }

/-- A memory the arrays of `agent_guardrail.c` fit in. -/
def agentMemory : LinearMemory := ⟨List.replicate 1024 0, by rw [List.length_replicate]; decide⟩

theorem agentMemory_fits : agentFrame.Fits messages agentMemory.bytes.length := by
  rw [agentMemory, List.length_replicate]
  exact agentFrame_fits

theorem agent_guardrail_fuzzed_hundred :
    ∃ rep, fuzz (capOpts "guardrail") bareEnv (agentLoaded agentFrame agentMemory) = .ok (.ok rep) ∧
      rep.disproven = false ∧ rep.counterexamples = [] ∧
      (¬Saw (capOpts "guardrail") bareEnv (agentLoaded agentFrame agentMemory) none fun tx traced =>
        traced.accepts = true ∧ Violates (capOpts "guardrail") none tx) ∧ rep.accepts + rep.rollbacks = 100 :=
  agent_guardrail_fuzzed (o := capOpts "guardrail") bareEnv agentMemory_fits rfl rfl

theorem agent_guardrail_not_applicable_hundred :
    ∃ rep, fuzz (capOpts "limit") bareEnv (agentLoaded agentFrame agentMemory) = .ok (.ok rep) ∧
      rep.applicable = false ∧ rep.disproven = false :=
  agent_guardrail_not_applicable (o := capOpts "limit") bareEnv agentMemory_fits (.inl rfl) rfl (by decide)

end Xahc.Cli

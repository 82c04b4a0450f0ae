/-
A whole run on the simulator: a loaded hook is called once, on no state, and the run's outcome is the one that a host call
recorded or, without one, what the hook returned.
-/
import Xahc.Sim.HostCalls

namespace Xahc.Sim

open Xahc.Data Xahc.Data.Checked

/-- A hook as it was loaded: its memory, and what its export does. -/
structure Loaded where
  mem : Option LinearMemory
  hook : Env → Host Int

/-- The outcome of a run, what it emitted, the state it left and the parameters it asked for. -/
structure Traced where
  outcome : Outcome
  emitted : List Bytes
  state : AList fun _ : Bytes => Bytes
  paramsRead : List Bytes

/-- The run accepted. -/
def Traced.accepts (traced : Traced) : Bool :=
  match traced.outcome with
  | .Accept _ => true
  | _ => false

/-- The message of a trap that nothing accounts for. -/
def notModelledMessage : String :=
  "hook trapped without accept/rollback — likely a host fn this local sim doesn't model; run `xahc verify` for the full-fidelity xahau-mcp VM"

/-- A run that has its outcome. -/
def Machine.traced (m : Machine) (outcome : Outcome) : Traced :=
  ⟨outcome, m.ctx.emitted, m.ctx.state, m.ctx.paramsRead⟩

/-- What a finished call comes to. An error of the simulator goes before any outcome. -/
def Machine.report (m : Machine) (call : Except Trap Int) : Except String Traced :=
  match m.ctx.simError, m.ctx.outcome, call with
  | some message, _, _ => .error message
  | none, some outcome, _ => .ok (m.traced outcome)
  | none, none, .ok rc => .ok (m.traced (.Returned (.ofInt rc)))
  | none, none, .error _ => .error notModelledMessage

/-- `run_traced`: the run from the hook's fresh memory, as it is reported. -/
def runTraced (env : Env) (h : Loaded) : Checked (Except String Traced) := do
  let (call, m) ← (h.hook env).run.run { mem := h.mem }
  return m.report call

/-- A run that ended in a recorded outcome. -/
theorem runTraced_halted {env : Env} {h : Loaded} {e : Trap} {m : Machine} {outcome : Outcome}
    (hrun : (h.hook env).run.run { mem := h.mem } = .ok (.error e, m)) (herror : m.ctx.simError = none)
    (houtcome : m.ctx.outcome = some outcome) : runTraced env h = .ok (.ok (m.traced outcome)) := by
  rw [runTraced, hrun, ok_bind]
  show Except.ok (m.report (.error e)) = _
  simp only [Machine.report, herror, houtcome]

end Xahc.Sim

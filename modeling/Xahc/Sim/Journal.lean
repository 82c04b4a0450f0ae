/-
What a run leaves behind: the state, the emitted transactions and the asked parameters are those that its recording calls
say, in their order, whatever other calls it makes and whatever it does with its memory in between.
-/
import Xahc.Sim.HostRuns

namespace Xahc.Sim

open Xahc.Data Xahc.Data.Checked Xahc.Data.Trapping
open Guardrail (readInto)

/-! ## The ledger of a run -/

/-- The state of a hook, the transactions it emitted, and the names of the parameters it asked for. -/
structure Ledger where
  state : Bytes → Option Bytes
  emitted : List Bytes
  asked : List Bytes

namespace Ledger

/-- The ledger of a fresh run. -/
def empty : Ledger := ⟨fun _ => none, [], []⟩

/-- The ledger after a call, made with `mem` as the hook's memory. -/
def after (l : Ledger) (mem : Bytes) : HostCall → Ledger
  | .stateSet rptr rlen kptr klen =>
    let key := region mem (usize kptr) (usize klen)
    let val := region mem (usize rptr) (usize rlen)
    { l with state := Function.update l.state key (some val) }
  | .emit _ _ rptr rlen => { l with emitted := l.emitted ++ [region mem (usize rptr) (usize rlen)] }
  | .hookParam _ _ rptr rlen => { l with asked := l.asked.insert (region mem (usize rptr) (usize (max rlen 0))) }
  | _ => l

/-- The ledger after the calls of a journal. -/
def replay (journal : List (Bytes × HostCall)) : Ledger := journal.foldl (fun l entry => l.after entry.1 entry.2) empty

theorem after_of_not_records {l : Ledger} {mem : Bytes} {c : HostCall} (hc : ¬c.Records) : l.after mem c = l := by
  cases c with
  | stateSet => exact absurd trivial hc
  | emit => exact absurd trivial hc
  | hookParam => exact absurd trivial hc
  | _ => rfl

end Ledger

namespace Machine

/-- The ledger of a machine. -/
def ledger (m : Machine) : Ledger := ⟨m.hookState, m.ctx.emitted, m.ctx.paramsRead⟩

/-- The bytes of the hook's memory. -/
def memory (m : Machine) : Bytes := m.mem.elim [] (·.bytes)

theorem hookState_withState (m : Machine) (key val : Bytes) :
    (m.withState key val).hookState = Function.update m.hookState key (some val) := by
  funext k
  show (m.ctx.state.insert key val).lookup k = _
  by_cases h : k = key
  · rw [h, AList.lookup_insert, Function.update_self]
  · rw [AList.lookup_insert_ne h, Function.update_of_ne h]
    rfl

end Machine

/-! ## Runs -/

section
variable {env : Env} {c : HostCall} {m m' : Machine}

/-- One call. -/
theorem Did.ledger {r : Except Trap Int} (h : Did env c m r m') {code : Int} (hr : r = .ok code) :
    m'.ledger = m.ledger.after m.memory c := by
  induction h with
  | trapped e => cases hr
  | looked hc code => exact (Ledger.after_of_not_records hc).symm
  | wrote hc hmem hptr hroom hin => exact (Ledger.after_of_not_records hc).symm
  | @asked _ _ rptr rlen m _ _ mem hmem h ih =>
    have hmemory : m.memory = mem.bytes := by rw [Machine.memory, hmem, Option.elim_some]
    rw [ih hr, hmemory]
    rfl
  | @stored rptr rlen kptr klen m mem hmem hval hkey =>
    have hmemory : m.memory = mem.bytes := by rw [Machine.memory, hmem, Option.elim_some]
    rw [Machine.ledger, Machine.hookState_withState, hmemory]
    rfl
  | @emitted wp wl rptr rlen m mem hmem hblob =>
    have hmemory : m.memory = mem.bytes := by rw [Machine.memory, hmem, Option.elim_some]
    rw [hmemory]
    rfl
  | slotted hc hcall => exact (Ledger.after_of_not_records hc).symm
  | crossed hcase hguards => rfl
  | exited hc out => cases hr
  | unmodeled message => cases hr

/-- The states a run reaches, with the journal of the calls it made: each with the memory it was made with. -/
inductive Logs (env : Env) : Machine → List (Bytes × HostCall) → Prop
  | start (mem : Option LinearMemory) : Logs env { mem } []
  | hook {m : Machine} {journal : List (Bytes × HostCall)} (mem : Option LinearMemory) :
    Logs env m journal → Logs env { m with mem } journal
  | call {m m' : Machine} {journal : List (Bytes × HostCall)} {code : Int} (c : HostCall) :
    Logs env m journal → (c.run env).run.run m = .ok (.ok code, m') → Logs env m' (journal ++ [(m.memory, c)])

theorem Logs.reaches {journal : List (Bytes × HostCall)} (h : Logs env m journal) : Reaches env m := by
  induction h with
  | start mem => exact .start mem
  | hook mem _ ih => exact .hook mem ih
  | call c _ hrun ih => exact .call c ih hrun

theorem ledger_of_logs {journal : List (Bytes × HostCall)} (h : Logs env m journal) : m.ledger = Ledger.replay journal := by
  induction h with
  | start mem => rfl
  | hook mem _ ih => exact ih
  | @call m m' journal code c hlogs hrun ih =>
    rw [(did_run env (kept_of_reaches hlogs.reaches) c _ _ hrun).ledger rfl, ih, Ledger.replay, Ledger.replay,
      List.foldl_append]
    rfl

end

/-- The range lies in the memory. -/
def Within (mem : Bytes) (ptr len : Int32) : Prop := 0 ≤ len.toInt ∧ usize ptr + usize len ≤ mem.length

/-- In every state a run reaches, the hook's state, its emitted transactions and the asked parameters are what its `stateSet`,
`emit` and `hookParam` calls add up to, and a `state` call answers from them: with the value last set under the key's bytes, in full, or with the code
for a value that is too long for the buffer or was never set. -/
theorem state_reads_journal (env : Env) {m : Machine} {journal : List (Bytes × HostCall)} (h : Logs env m journal) :
    m.ledger = Ledger.replay journal ∧
    ∀ mem wptr wlen kptr klen, m.mem = some mem → Within mem.bytes kptr klen → Within mem.bytes wptr wlen →
      let key := region mem.bytes (usize kptr) (usize klen)
      let answer := readInto (usize wlen) ((Ledger.replay journal).state key)
      ∃ mem', (HostCall.run env (.state wptr wlen kptr klen)).run.run m =
          .ok (.ok answer.rc, { m with mem := some mem' }) ∧
        mem'.bytes = splice mem.bytes (usize wptr) answer.buf := by
  have hledger := ledger_of_logs h
  refine ⟨hledger, fun mem wptr wlen kptr klen hmem hkey hbuf => ?_⟩
  have hstate (key : Bytes) : m.hookState key = (Ledger.replay journal).state key := by rw [← hledger]; rfl
  have hroom (v : Option Bytes) : usize wptr + (readInto (usize wlen) v).buf.length ≤ mem.bytes.length := by
    have hle : (readInto (usize wlen) v).buf.length ≤ usize wlen := by
      cases v with
      | none => exact Nat.zero_le _
      | some b =>
        rw [readInto]
        split
        · exact Nat.zero_le _
        · rename_i hfits
          exact Nat.not_lt.1 hfits
    exact (Nat.add_le_add_left hle _).trans hbuf.2
  exact ⟨_, Host.state_reads hmem hkey.1 hkey.2 rfl (hstate _) (hroom _), rfl⟩

/-- The value 0xAA is set under the key 0x01 and read back beside it. -/
theorem state_reads_journal_written : ∃ m m' : Machine,
    (HostCall.run bareEnv (.stateSet 1 1 0 1)).run.run { mem := some ⟨[0x01, 0xAA, 0, 0], by decide⟩ } = .ok (.ok 1, m) ∧
    (HostCall.run bareEnv (.state 2 2 0 1)).run.run m = .ok (.ok 1, m') ∧ m'.memory = [0x01, 0xAA, 0xAA, 0] := by
  have hset : (HostCall.run bareEnv (.stateSet 1 1 0 1)).run.run { mem := some ⟨[0x01, 0xAA, 0, 0], by decide⟩ } =
      .ok (.ok 1, ({ mem := some ⟨[0x01, 0xAA, 0, 0], by decide⟩ } : Machine).withState [0x01] [0xAA]) := rfl
  have hlogs := Logs.call _ ((.start (some ⟨[0x01, 0xAA, 0, 0], by decide⟩) : Logs bareEnv _ _)) hset
  obtain ⟨-, hreads⟩ := state_reads_journal bareEnv hlogs
  obtain ⟨mem', hrun, hmem'⟩ := hreads _ 2 2 0 1 rfl ⟨by decide, by decide⟩ ⟨by decide, by decide⟩
  exact ⟨_, _, hset, hrun, hmem'⟩

end Xahc.Sim

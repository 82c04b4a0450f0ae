/-
Who removes a binding from the replay store: in every run in which no call deletes a key after the expiry of
its own binding, a live binding is only removed by the call that bound it. A late delete removes the binding
of another call.
-/
import Xahc.Facilitator.Memory
import Xahc.Facilitator.Redis

namespace Xahc.Facilitator

open Xahc.Data Xahc.Effect

/-- Bindings have owners in every run, in memory and on Redis, in which every delete comes before the expiry
of the binding that the deleting call took itself. -/
theorem binding_ownership (env : Env) (maxEntries : Nat) :
    (∀ w w' a, (inMemory env).Reach (.new maxEntries) w → (inMemory env).step w a = some w' →
      Lease.DropsInTime ((memoryLeasing env).leases w'.trace) → (memoryLeasing env).Ownership w w') ∧
    (∀ w w' a, (onRedis env maxEntries).Reach ∅ w → (onRedis env maxEntries).step w a = some w' →
      Lease.DropsInTime ((redisLeasing env maxEntries).leases w'.trace) →
        (redisLeasing env maxEntries).Ownership w w') := by
  constructor
  · intro w w' a hw hstep hdrops
    exact Leasing.ownership (obeys_code env) (funext fun _ => rfl) memory_isProper memory_isHeld hw hstep hdrops
  · intro w w' a hw hstep hdrops
    refine Leasing.ownership obeys_onRedis ?_ (fun _ _ _ _ _ _ _ => trivial) redis_isHeld hw hstep hdrops
    funext key
    show (if IsReceiptKey key then none else (AList.lookup key (∅ : Db)).map Prod.snd) = none
    simp

/-! ## A delete in time, and a late one -/

namespace Sample

/-- The submit fails at once. -/
def promptFailure : List (Action (inMemory env)) :=
  upToSubmit env 0 blob1 ledger100 ++ [.perform 0 (nodeAnswer ledger100 (.error malformed))]

/-- The submit fails when the binding has expired and another call has reserved its key. -/
def lateFailure : List (Action (inMemory env)) :=
  upToSubmit env 0 blob1 ledger100 ++ [.tick 340000] ++ upToSubmit env 1 blob3 ledger190 ++
    [.perform 0 (nodeAnswer ledger190 (.error malformed))]

/-- A reservation on a Redis at its cap, rolled back: the clock, `SET NX`, `DBSIZE` and, next, `DEL`. -/
def rollback : List (Action (onRedis env 1)) :=
  [.spawn 0 (.reserve ⟨replayKeyFor tx1, isBinding_replayKeyFor tx1⟩ 340000), .resume 0, .perform 0 delivered, .resume 0,
    .perform 0 delivered, .resume 0]
where
  delivered : (c : Cmd) → CmdChoice c
    | .now => ()
    | .node op => answer ledger100 (.error malformed) op
    | .setNX .. | .setPX .. | .dbsize | .del _ | .exists _ | .get _ => (.delivered, 1)

end Sample

open Sample

theorem binding_ownership_prompt :
    (memoryLeasing env).Ownership ((inMemory env).play (.new 100000) promptFailure)
      ((inMemory env).play (.new 100000) (promptFailure ++ [.resume 0])) ∧
    (redisLeasing env 1).Ownership ((onRedis env 1).play ∅ rollback)
      ((onRedis env 1).play ∅ (rollback ++ [.perform 0 rollback.delivered])) :=
  ⟨(binding_ownership env 100000).1 _ _ (.resume 0) (System.reach_play ..) ((inMemory env).step_play (by decide +kernel))
      (by decide +kernel),
    (binding_ownership env 1).2 _ _ (.perform 0 rollback.delivered) (System.reach_play ..)
      ((onRedis env 1).step_play (by decide +kernel)) (by decide +kernel)⟩

/-- The first call's release removes the second call's binding, 340 seconds before its expiry. -/
theorem late_release_removes :
    ¬∀ w w' a, (inMemory env).Reach (.new 100000) w → (inMemory env).step w a = some w' →
      (memoryLeasing env).Ownership w w' := by
  intro h
  have hrun : ((inMemory env).runActions (lateFailure ++ [.resume 0]) (.init (.new 100000))).isSome = true ∧
      (memoryLeasing env).view ((inMemory env).play (.new 100000) lateFailure).shared (replayKeyFor tx1) = some 680000 ∧
      (memoryLeasing env).time ((inMemory env).play (.new 100000) lateFailure).clock < 680000 ∧
      (memoryLeasing env).view ((inMemory env).play (.new 100000) (lateFailure ++ [.resume 0])).shared
        (replayKeyFor tx1) = none ∧
      ((inMemory env).play (.new 100000) (lateFailure ++ [.resume 0])).trace.head?.map Event.task = some 0 ∧
      Lease.writer (replayKeyFor tx1) ((memoryLeasing env).leases ((inMemory env).play (.new 100000) lateFailure).trace) =
        some 1 := by
    decide +kernel
  obtain ⟨hfollowed, hlive, hclock, hgone, hhead, hwriter⟩ := hrun
  have howner := h _ _ (.resume 0) ((inMemory env).reach_play (.new 100000) lateFailure) ((inMemory env).step_play hfollowed)
  obtain ⟨i, op, c, htakes, hbound⟩ := howner.removed _ _ hlive hclock hgone
  obtain ⟨before, htrace, -⟩ := htakes.trace
  rw [htrace] at hhead
  cases hhead
  cases hwriter.symm.trans hbound

end Xahc.Facilitator

/-
Programs that read a memory at addresses they were given: a log of what they checked and of what they read, the
programs whose every read was checked before, and the rules to show that a program is one.
-/
import Xahc.Data.Checked

namespace Xahc.Data

/-- A linear memory: no more bytes than 32 bits address. -/
structure LinearMemory where
  bytes : Bytes
  length_le : bytes.length ≤ 2 ^ 32

/-- A range that was found to lie inside the memory, or one that was read. -/
inductive Event where
  | checked (ptr len : Nat)
  | read (ptr len : Nat)
  deriving DecidableEq, Repr

/-- A program that may panic and keeps a log, the latest event first. -/
abbrev Access (α : Type) := StateT (List Event) Checked α

namespace Access

variable {α β : Type}

/-! ## Operations -/

/-- Whether a range sticks out of the memory; where it does not, that is on record. -/
def notInBounds (mem : Bytes) (ptr len : UInt32) : Access Bool := fun log =>
  if mem.length ≤ ptr.toNat then .ok (true, log)
  else do
    let stop ← Checked.add 64 ptr.toNat len.toNat
    if mem.length < stop then .ok (true, log) else .ok (false, .checked ptr.toNat len.toNat :: log)

/-- The range `mem[ptr..ptr + len]`. -/
def read (mem : Bytes) (ptr len : Nat) : Access Bytes := fun log => do
  let stop ← Checked.add 64 ptr len
  let bytes ← Checked.slice mem ptr stop
  .ok (bytes, .read ptr len :: log)

/-- The byte `mem[i]`. -/
def readByte (mem : Bytes) (i : Nat) : Access UInt8 := fun log => do
  let b ← Checked.index mem i
  .ok (b, .read i 1 :: log)

/-- Checked addition, with the log left as it is. -/
def add (w a b : Nat) : Access Nat := fun log => do
  let sum ← Checked.add w a b
  .ok (sum, log)

/-- The bytes of a range. -/
def range (mem : Bytes) (ptr len : Nat) : Bytes := (mem.drop ptr).take len

theorem range_length {mem : Bytes} {ptr len : Nat} (h : ptr + len ≤ mem.length) : (range mem ptr len).length = len := by
  rw [range, List.length_take, List.length_drop]
  omega

/-! ## Reads that were checked -/

/-- Every check passed, and every read lies in a range that had passed one before. -/
def Covered (size : Nat) : List Event → Prop
  | [] => True
  | .checked p n :: log => (p < size ∧ p + n ≤ size) ∧ Covered size log
  | .read p n :: log => (∃ q k, Event.checked q k ∈ log ∧ q ≤ p ∧ p + n ≤ q + k) ∧ Covered size log

theorem covered_nil (size : Nat) : Covered size [] := trivial

theorem Covered.checked_inside {size p n : Nat} {log : List Event} (h : Covered size log) (hmem : .checked p n ∈ log) :
    p < size ∧ p + n ≤ size := by
  induction log with
  | nil => cases hmem
  | cons e log ih =>
    cases e with
    | checked q k =>
      rcases List.mem_cons.1 hmem with heq | hmem
      · cases heq
        exact h.1
      · exact ih h.2 hmem
    | read q k =>
      rcases List.mem_cons.1 hmem with heq | hmem
      · cases heq
      · exact ih h.2 hmem

/-- What was read lies inside the memory. -/
theorem Covered.read_inside {size p n : Nat} {log : List Event} (h : Covered size log) (hmem : .read p n ∈ log) :
    p + n ≤ size := by
  induction log with
  | nil => cases hmem
  | cons e log ih =>
    cases e with
    | checked q k =>
      rcases List.mem_cons.1 hmem with heq | hmem
      · cases heq
      · exact ih h.2 hmem
    | read q k =>
      rcases List.mem_cons.1 hmem with heq | hmem
      · cases heq
        obtain ⟨q, k, hq, -, hle⟩ := h.1
        exact hle.trans (h.2.checked_inside hq).2
      · exact ih h.2 hmem

/-! ## Rules -/

/-- The program does not panic, its reads are checked, and it ends as told. -/
def Runs (mem : Bytes) (x : Access α) (log : List Event) (Q : α → List Event → Prop) : Prop :=
  ∃ a log', x log = .ok (a, log') ∧ Covered mem.length log' ∧ Q a log'

variable {mem : Bytes} {log : List Event} {Q : α → List Event → Prop}

theorem runs_pure {a : α} (hlog : Covered mem.length log) (h : Q a log) : Runs mem (pure a) log Q :=
  ⟨a, log, rfl, hlog, h⟩

theorem Runs.bind {x : Access α} {f : α → Access β} {Q : β → List Event → Prop}
    (h : Runs mem x log fun a log' => Covered mem.length log' → Runs mem (f a) log' Q) : Runs mem (x >>= f) log Q := by
  obtain ⟨a, log', hx, hlog, hf⟩ := h
  obtain ⟨b, log'', hb, hrest⟩ := hf hlog
  refine ⟨b, log'', ?_, hrest⟩
  show x log >>= (fun r => f r.1 r.2) = _
  rw [hx]
  exact hb

theorem Runs.mono {x : Access α} {Q' : α → List Event → Prop} (h : Runs mem x log Q) (himp : ∀ a log', Q a log' → Q' a log') :
    Runs mem x log Q' := by
  obtain ⟨a, log', hx, hlog, hQ⟩ := h
  exact ⟨a, log', hx, hlog, himp a log' hQ⟩

/-- A refusal, or the rest of the program. -/
theorem runs_refuse {c : Prop} [Decidable c] {r : α} {y : Access α} (hlog : Covered mem.length log) (hr : c → Q r log)
    (hy : ¬c → Runs mem y log Q) : Runs mem (if c then pure r else y) log Q := by
  by_cases h : c
  · rw [if_pos h]
    exact runs_pure hlog (hr h)
  · rw [if_neg h]
    exact hy h

theorem notInBounds_eq (mem : Bytes) (ptr len : UInt32) (log : List Event) :
    notInBounds mem ptr len log =
      if ptr.toNat < mem.length ∧ ptr.toNat + len.toNat ≤ mem.length then
        .ok (false, .checked ptr.toNat len.toNat :: log)
      else .ok (true, log) := by
  have hp := ptr.toNat_lt
  have hn := len.toNat_lt
  rw [notInBounds, Checked.add_ok (by omega)]
  by_cases hstart : mem.length ≤ ptr.toNat
  · rw [if_pos hstart, if_neg (fun h => absurd h.1 (not_lt.2 hstart))]
  rw [if_neg hstart]
  by_cases hstop : mem.length < ptr.toNat + len.toNat
  · rw [if_neg (fun h => absurd h.2 (not_le.2 hstop))]
    exact if_pos hstop
  · rw [if_pos ⟨not_le.1 hstart, not_lt.1 hstop⟩]
    exact if_neg hstop

/-- A refusal where a range sticks out, or the rest of the program with the check on record. -/
theorem runs_inside {ptr len : UInt32} {r : α} {y : Access α} (hlog : Covered mem.length log)
    (hr : ¬(ptr.toNat < mem.length ∧ ptr.toNat + len.toNat ≤ mem.length) → Q r log)
    (hy : ptr.toNat < mem.length ∧ ptr.toNat + len.toNat ≤ mem.length →
      Covered mem.length (.checked ptr.toNat len.toNat :: log) →
      Runs mem y (.checked ptr.toNat len.toNat :: log) Q) :
    Runs mem (notInBounds mem ptr len >>= fun out => if out then pure r else y) log Q := by
  refine Runs.bind ?_
  by_cases h : ptr.toNat < mem.length ∧ ptr.toNat + len.toNat ≤ mem.length
  · exact ⟨false, _, (notInBounds_eq ..).trans (if_pos h), ⟨h, hlog⟩, hy h⟩
  · exact ⟨true, _, (notInBounds_eq ..).trans (if_neg h), hlog, fun hlog => runs_pure hlog (hr h)⟩

theorem runs_add {w a b : Nat} {Q : Nat → List Event → Prop} (hlog : Covered mem.length log) (hfits : a + b < 2 ^ w)
    (h : Q (a + b) log) : Runs mem (add w a b) log Q :=
  ⟨a + b, log, by rw [add, Checked.add_ok hfits]; rfl, hlog, h⟩

theorem runs_read {ptr len q k : Nat} {Q : Bytes → List Event → Prop} (hlog : Covered mem.length log)
    (hmem : mem.length ≤ 2 ^ 32) (hchecked : .checked q k ∈ log) (hq : q ≤ ptr) (hk : ptr + len ≤ q + k)
    (h : Q (range mem ptr len) (.read ptr len :: log)) : Runs mem (read mem ptr len) log Q := by
  have hle := hk.trans (hlog.checked_inside hchecked).2
  have hcovered : Covered mem.length (.read ptr len :: log) := ⟨⟨q, k, hchecked, hq, hk⟩, hlog⟩
  refine ⟨_, _, ?_, hcovered, h⟩
  rw [read, Checked.add_ok (lt_of_le_of_lt hle (lt_of_le_of_lt hmem (by decide))), Checked.ok_bind,
    Checked.slice_ok (Nat.le_add_right _ _) hle, Checked.ok_bind, Nat.add_sub_cancel_left]
  rfl

theorem runs_readByte {i q k : Nat} {Q : UInt8 → List Event → Prop} (hlog : Covered mem.length log)
    (hchecked : .checked q k ∈ log) (hq : q ≤ i) (hk : i + 1 ≤ q + k) (h : ∀ b, mem[i]? = some b → Q b (.read i 1 :: log)) :
    Runs mem (readByte mem i) log Q := by
  have hlt : i < mem.length := hk.trans (hlog.checked_inside hchecked).2
  have hget := List.getElem?_eq_getElem hlt
  have hcovered : Covered mem.length (.read i 1 :: log) := ⟨⟨q, k, hchecked, hq, hk⟩, hlog⟩
  refine ⟨_, _, ?_, hcovered, h _ hget⟩
  rw [readByte, Checked.index_ok hget, Checked.ok_bind]

end Access

end Xahc.Data

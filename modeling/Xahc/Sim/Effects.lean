/-
What a host call does to the machine it runs on, said once for every call and every way it ends: it looks, it fills the
buffer it was handed, or it touches the one part of the run that is its own.
-/
import Xahc.Data.Region
import Xahc.Sim.NoPanic

namespace Xahc.Sim

open Xahc.Data Xahc.Data.Checked Xahc.Data.Trapping

/-! ## What a call may do -/

/-- The buffer a call may fill: where it starts, and how many bytes it holds. -/
def HostCall.buffer : HostCall → Nat × Nat
  | .otxnField wptr wlen _ | .hookAccount wptr wlen | .hookParam wptr wlen _ _ | .state wptr wlen _ _ =>
    (usize wptr, usize wlen)
  | .etxnDetails ptr len => (usize ptr, usize (max len 0))
  | .otxnId wp _ _ | .utilSha512h wp _ _ _ => (wp.toUInt32.toNat, 32)
  | .utilKeylet wp _ _ _ _ _ _ _ _ => (wp.toUInt32.toNat, 34)
  | .otxnParam wp wl _ _ | .slot wp wl _ => (wp.toUInt32.toNat, wl.toUInt32.toNat)
  | _ => (0, 0)

/-- The calls that end the hook by themselves. -/
def HostCall.Exits : HostCall → Prop
  | .accept .. | .rollback .. => True
  | _ => False

/-- The calls that leave something behind for the end of the run: on the ledger, or among the asked parameters. -/
def HostCall.Records : HostCall → Prop
  | .stateSet .. | .emit .. | .hookParam .. => True
  | _ => False

/-- The note of an asked parameter. -/
def Host.noted (m : Machine) (key : Bytes) : Machine :=
  { m with ctx := { m.ctx with paramsRead := m.ctx.paramsRead.insert key } }

/-- The run with a value under a key of its state. -/
def Machine.withState (m : Machine) (key val : Bytes) : Machine :=
  { m with ctx := { m.ctx with state := m.ctx.state.insert key val } }

/-- The run with one more transaction emitted. -/
def Machine.withEmitted (m : Machine) (blob : Bytes) : Machine :=
  { m with ctx := { m.ctx with emitted := m.ctx.emitted ++ [blob] } }

/-- What a call that ends in `r` may have done. -/
inductive Did (env : Env) : HostCall → Machine → Except Trap Int → Machine → Prop
  | trapped {c : HostCall} {m : Machine} (e : Trap) : Did env c m (.error e) m
  /-- It has looked at the run, and at the memory. -/
  | looked {c : HostCall} {m : Machine} (hc : ¬c.Records) (code : Int) : Did env c m (.ok code) m
  /-- It has filled its buffer from the start, and answers how far. -/
  | wrote {c : HostCall} {m : Machine} {mem : LinearMemory} {ptr : Nat} {bytes : Bytes} (hc : ¬c.Records)
      (hmem : m.mem = some mem) (hptr : c.buffer.1 = ptr) (hroom : bytes.length ≤ c.buffer.2) (hin : ptr + bytes.length ≤ mem.bytes.length) :
      Did env c m (.ok bytes.length) { m with mem := some (Host.overwritten mem ptr bytes hin) }
  /-- It has noted the parameter it was asked for, and gone on as a call that fills the same buffer. -/
  | asked {wptr wlen rptr rlen : Int32} {m m' : Machine} {r : Except Trap Int} {mem : LinearMemory} (hmem : m.mem = some mem)
      (h : Did env (.hookAccount wptr wlen)
        (Host.noted m (region mem.bytes (usize rptr) (usize (max rlen 0)))) r m') :
      Did env (.hookParam wptr wlen rptr rlen) m r m'
  | stored {rptr rlen kptr klen : Int32} {m : Machine} {mem : LinearMemory} (hmem : m.mem = some mem)
      (hval : 0 ≤ rlen.toInt ∧ usize rptr + usize rlen ≤ mem.bytes.length)
      (hkey : 0 ≤ klen.toInt ∧ usize kptr + usize klen ≤ mem.bytes.length) :
      Did env (.stateSet rptr rlen kptr klen) m (.ok rlen.toInt)
        (m.withState (region mem.bytes (usize kptr) (usize klen)) (region mem.bytes (usize rptr) (usize rlen)))
  | emitted {wp wl rptr rlen : Int32} {m : Machine} {mem : LinearMemory} (hmem : m.mem = some mem)
      (hblob : 0 ≤ rlen.toInt ∧ usize rptr + usize rlen ≤ mem.bytes.length) :
      Did env (.emit wp wl rptr rlen) m (.ok rlen.toInt)
        (m.withEmitted (region mem.bytes (usize rptr) (usize rlen)))
  | slotted {c : HostCall} {m : Machine} {call : Call} {code : Int} {slots : Slots} (hc : ¬c.Records)
      (h : host env.tx.toTxFixture m.ctx.slots call = .ok (code, slots)) :
      Did env c m (.ok code) { m with ctx := { m.ctx with slots } }
  | crossed {id max : Int32} {m : Machine} {guards : GuardCtx} {r : Except Trap Int} (hr : r = .ok 1 ∨ r = .error .halt)
      (hguards : guards = (Sim._g m.ctx.toGuardCtx id max).1) :
      Did env (._g id max) m r { m with ctx := { m.ctx with toGuardCtx := guards } }
  | exited {c : HostCall} {m : Machine} (hc : c.Exits) (out : Outcome) :
      Did env c m (.error .halt) { m with ctx := { m.ctx with outcome := some out } }
  | unmodeled {c : HostCall} {m : Machine} (message : String) :
      Did env c m (.error (.notModeled message)) { m with ctx := { m.ctx with simError := some message } }

namespace Host

/-! ## Steps -/

section
variable {β : Type} {m : Machine} {q : Except Trap β → Machine → Prop}

theorem leaves_memOf {f : LinearMemory → Host β} (hnone : q (.error .noMemory) m)
    (h : ∀ mem, m.mem = some mem → Leaves (f mem) m q) : Leaves (memOf >>= f) m q := by
  refine Leaves.bind (r := fun r m' => m' = m ∧ ((∃ mem, r = .ok mem ∧ m.mem = some mem) ∨ r = .error .noMemory)) ?_ ?_ ?_
  · rw [memOf]
    apply leaves_get
    cases hmem : m.mem with
    | none => exact leaves_throw ⟨rfl, .inr rfl⟩
    | some mem => exact leaves_pure ⟨rfl, .inl ⟨mem, rfl, rfl⟩⟩
  · rintro e _ ⟨rfl, ⟨_, he, -⟩ | he⟩
    · cases he
    · cases he
      exact hnone
  · rintro mem _ ⟨rfl, ⟨_, he, hmem⟩ | he⟩
    · cases he
      exact h mem hmem
    · cases he

theorem leaves_memRead {ptr len : Nat} {f : Bytes → Host β} (htrap : ∀ e, q (.error e) m)
    (h : ∀ mem, m.mem = some mem → ptr + len ≤ mem.bytes.length → Leaves (f (region mem.bytes ptr len)) m q) :
    Leaves (memRead ptr len >>= f) m q := by
  refine Leaves.bind (r := fun r m' => m' = m ∧ ∀ b, r = .ok b →
    ∃ mem, m.mem = some mem ∧ ptr + len ≤ mem.bytes.length ∧ b = region mem.bytes ptr len) ?_ ?_ ?_
  · rw [memRead]
    refine leaves_memOf ⟨rfl, trap_no_value⟩ fun mem hmem => ?_
    apply leaves_ite
    · intro hin
      exact leaves_pure ⟨rfl, fun b hb => ⟨mem, hmem, hin, (Except.ok.inj hb).symm⟩⟩
    · intro _
      exact leaves_throw ⟨rfl, trap_no_value⟩
  · rintro e _ ⟨rfl, -⟩
    exact htrap e
  · rintro b _ ⟨rfl, hb⟩
    obtain ⟨mem, hmem, hin, rfl⟩ := hb b rfl
    exact h mem hmem hin

theorem leaves_memWrite {ptr : Nat} {bytes : Bytes} {f : Unit → Host β} (htrap : ∀ e, q (.error e) m)
    (h : ∀ mem (hin : ptr + bytes.length ≤ mem.bytes.length), m.mem = some mem →
      Leaves (f ()) { m with mem := some (overwritten mem ptr bytes hin) } q) :
    Leaves (memWrite ptr bytes >>= f) m q := by
  refine Leaves.bind (r := fun r m' => ((∃ e, r = .error e) ∧ m' = m) ∨ (r = .ok () ∧
    ∃ mem, ∃ hin : ptr + bytes.length ≤ mem.bytes.length, m.mem = some mem ∧
      m' = { m with mem := some (overwritten mem ptr bytes hin) })) ?_ ?_ ?_
  · rw [memWrite]
    refine leaves_memOf (.inl ⟨⟨_, rfl⟩, rfl⟩) fun mem hmem => ?_
    by_cases hin : ptr + bytes.length ≤ mem.bytes.length
    · rw [dif_pos hin]
      rintro _ _ hrun
      cases hrun
      exact .inr ⟨rfl, mem, hin, hmem, rfl⟩
    · rw [dif_neg hin]
      exact leaves_throw (.inl ⟨⟨_, rfl⟩, rfl⟩)
  · rintro e _ (⟨⟨_, he⟩, rfl⟩ | ⟨he, -⟩)
    · exact htrap e
    · cases he
  · rintro _ _ (⟨⟨_, he⟩, -⟩ | ⟨-, mem, hin, hmem, rfl⟩)
    · cases he
    · exact h mem hin hmem

theorem leaves_oob {ptr len : UInt32} {f : Bool → Host β} (hnone : q (.error .noMemory) m)
    (h : ∀ mem, m.mem = some mem → Leaves (f (Sim.oob mem.bytes ptr len)) m q) : Leaves (oob ptr len >>= f) m q := by
  have hptr := ptr.toNat_lt
  have hlen := len.toNat_lt
  refine Leaves.bind (r := fun r m' => m' = m ∧ ((∃ mem, m.mem = some mem ∧ r = .ok (Sim.oob mem.bytes ptr len)) ∨
    r = .error .noMemory)) ?_ ?_ ?_
  · rw [oob]
    refine leaves_memOf ⟨rfl, .inr rfl⟩ fun mem hmem => ?_
    apply leaves_ite
    · intro hstart
      refine leaves_pure ⟨rfl, .inl ⟨mem, hmem, ?_⟩⟩
      rw [Sim.oob, decide_eq_true hstart, Bool.true_or]
    · intro hstart
      apply leaves_step
      intro sum hsum
      obtain rfl : ptr.toNat + len.toNat = sum := Except.ok.inj ((add_ok (by omega)).symm.trans hsum)
      refine leaves_pure ⟨rfl, .inl ⟨mem, hmem, ?_⟩⟩
      rw [Sim.oob, decide_eq_false hstart, Bool.false_or]
  · rintro e _ ⟨rfl, ⟨_, _, he⟩ | he⟩
    · cases he
    · cases he
      exact hnone
  · rintro out _ ⟨rfl, ⟨mem, hmem, he⟩ | he⟩
    · cases he
      exact h mem hmem
    · cases he

theorem leaves_readMem {ptr len : UInt32} {f : Bytes → Host β} (htrap : ∀ e, q (.error e) m)
    (h : ∀ mem, m.mem = some mem → (Sim.readMem mem.bytes ptr len).length = len.toNat →
      Leaves (f (Sim.readMem mem.bytes ptr len)) m q) : Leaves (readMem ptr len >>= f) m q := by
  refine Leaves.bind (r := fun r m' => m' = m ∧ ∀ b, r = .ok b → ∃ mem, m.mem = some mem ∧
    b = Sim.readMem mem.bytes ptr len ∧ b.length = len.toNat) ?_ ?_ ?_
  · rw [readMem]
    refine leaves_memOf ⟨rfl, trap_no_value⟩ fun _ _ => ?_
    apply leaves_step
    intro v hv
    have hlen := len.toNat_lt
    obtain rfl : List.replicate len.toNat 0 = v := Except.ok.inj ((vec_ok (by omega)).symm.trans hv)
    rw [List.length_replicate, ← bind_pure (memRead _ _)]
    refine leaves_memRead (fun _ => ⟨rfl, trap_no_value⟩) fun mem hmem hin => ?_
    refine leaves_pure ⟨rfl, fun b hb => ⟨mem, hmem, (Except.ok.inj hb).symm, ?_⟩⟩
    rw [← Except.ok.inj hb, region_length hin]
  · rintro e _ ⟨rfl, -⟩
    exact htrap e
  · rintro b _ ⟨rfl, hb⟩
    obtain ⟨mem, hmem, rfl, hlen⟩ := hb b rfl
    exact h mem hmem hlen

end

/-! ## Calls -/

section
variable {m : Machine} {c : HostCall} (env : Env)

/-- A refusal, or the rest of the call. -/
theorem did_unless (hc : ¬c.Records) {p : Prop} [Decidable p] {code : Int} {y : Host Int} (hy : ¬p → Leaves y m (Did env c m)) :
    Leaves (if p then pure code else y) m (Did env c m) :=
  leaves_ite (fun _ => leaves_pure (.looked hc _)) hy

/-- A refusal where the range sticks out of the memory, or the rest of the call. -/
theorem did_inside (hc : ¬c.Records) {ptr len : UInt32} {code : Int} {y : Host Int}
    (hy : ∀ mem, m.mem = some mem → Sim.oob mem.bytes ptr len = false → Leaves y m (Did env c m)) :
    Leaves (oob ptr len >>= fun out => if out then pure code else y) m (Did env c m) := by
  refine leaves_oob (.trapped _) fun mem hmem => ?_
  apply leaves_ite
  · intro _
    exact leaves_pure (.looked hc _)
  · intro hout
    exact hy mem hmem (Bool.eq_false_iff.2 hout)

theorem did_copyOut (hc : ¬c.Records) {wptr wlen : Int32} (hbuffer : c.buffer = (usize wptr, usize wlen)) (bytes : Bytes) :
    Leaves (copyOut wptr wlen bytes) m (Did env c m) := by
  unfold copyOut
  apply did_unless env hc
  intro hfits
  refine leaves_memWrite (fun _ => .trapped _) fun mem hin hmem => leaves_pure (.wrote hc hmem (by rw [hbuffer]) ?_ hin)
  rw [hbuffer]
  exact Nat.not_lt.1 hfits

/-- The bytes that fit the buffer and the memory are copied. -/
theorem copyOut_run {wptr wlen : Int32} {bytes : Bytes} {mem : LinearMemory} (hmem : m.mem = some mem)
    (hfits : bytes.length ≤ usize wlen) (hin : usize wptr + bytes.length ≤ mem.bytes.length) :
    (copyOut wptr wlen bytes).run.run m =
      .ok (.ok bytes.length, { m with mem := some (overwritten mem (usize wptr) bytes hin) }) := by
  have hwrite : (memWrite (usize wptr) bytes).run.run m =
      .ok (.ok (), { m with mem := some (overwritten mem (usize wptr) bytes hin) }) := by
    unfold memWrite
    rw [run_bind (memOf_run hmem), dif_pos hin]
    rfl
  unfold copyOut
  rw [if_neg (Nat.not_lt.2 hfits), run_bind hwrite]
  rfl

theorem did_writeAndReturn (hc : ¬c.Records) {ptr dstLen : UInt32} {src : Bytes} (hptr : c.buffer.1 = ptr.toNat)
    (hroom : dstLen.toNat ≤ c.buffer.2) : Leaves (writeAndReturn ptr dstLen src) m (Did env c m) := by
  have hlt := ptr.toNat_lt
  have hlen := dstLen.toNat_lt
  unfold writeAndReturn
  refine leaves_memOf (.trapped _) fun _ _ => ?_
  apply leaves_step
  intro _ _
  apply did_unless env hc
  intro _
  apply leaves_step
  intro part hpart
  have hpartlen : part.length = min src.length dstLen.toNat := by
    rw [slice_ok (Nat.zero_le _) (Nat.min_le_left _ _)] at hpart
    rw [← Except.ok.inj hpart, List.length_take, List.drop_zero]
    omega
  refine leaves_memWrite (fun _ => .trapped _) fun mem hin hmem => leaves_pure ?_
  rw [← hpartlen]
  exact .wrote hc hmem hptr (by rw [hpartlen]; omega) hin

theorem did_writeOrInt64 (hc : ¬c.Records) {wptr wlen : UInt32} {data : Bytes} {isAccount : Bool} (hptr : c.buffer.1 = wptr.toNat)
    (hroom : wlen.toNat ≤ c.buffer.2) : Leaves (writeOrInt64 wptr wlen data isAccount) m (Did env c m) := by
  unfold writeOrInt64
  apply did_unless env hc
  intro _
  apply did_unless env hc
  intro _
  apply did_unless env hc
  intro _
  apply did_unless env hc
  intro _
  exact did_writeAndReturn env hc hptr hroom

theorem did_notModeled (message : String) : Leaves (notModeled message) m (Did env c m) :=
  leaves_modify (leaves_throw (.unmodeled message))

theorem did_exit (hc : c.Exits) (p l : Int32) (outcome : Outcome) : Leaves (exit p l outcome) m (Did env c m) := by
  unfold exit
  refine Leaves.bind (r := fun _ m' => m' = m) ?_ ?_ ?_
  · unfold reasonOutOfBounds
    dsimp only
    apply leaves_ite
    · intro _
      exact leaves_pure rfl
    intro _
    refine leaves_memOf rfl fun _ _ => ?_
    apply leaves_ite
    · intro _
      exact leaves_pure rfl
    · intro _
      exact leaves_step fun _ _ => leaves_pure rfl
  · rintro e _ rfl
    exact .trapped _
  · rintro out _ rfl
    exact leaves_modify (leaves_throw (.exited hc _))

theorem did_g (id max : Int32) : Leaves (_g env id max) m (Did env (._g id max) m) := by
  unfold _g
  apply leaves_get
  apply leaves_step
  intro _ _
  have hcases : (Sim._g m.ctx.toGuardCtx id max).2 = .ok 1 ∨ (Sim._g m.ctx.toGuardCtx id max).2 = .error .halt := by
    unfold Sim._g
    dsimp only
    split
    · exact .inr rfl
    · exact .inl rfl
  obtain ⟨guards, hg⟩ : ∃ guards, guards = Sim._g m.ctx.toGuardCtx id max := ⟨_, rfl⟩
  rw [← hg] at hcases ⊢
  obtain ⟨guards, r⟩ := guards
  apply leaves_modify
  rcases hcases with rfl | rfl
  · exact leaves_pure (.crossed (.inl rfl) (congrArg Prod.fst hg))
  · exact leaves_throw (.crossed (.inr rfl) (congrArg Prod.fst hg))

theorem did_otxnField (wptr wlen fid : Int32) :
    Leaves (otxnField env wptr wlen fid) m (Did env (.otxnField wptr wlen fid) m) := by
  unfold otxnField
  dsimp only
  cases env.tx.fields fid.toUInt32 with
  | some bytes => exact did_copyOut env id rfl _
  | none =>
    apply leaves_ite
    · intro _
      apply leaves_step
      intro _ _
      exact did_copyOut env id rfl _
    intro _
    apply leaves_ite
    · intro _
      exact did_copyOut env id rfl _
    intro _
    apply leaves_ite
    · intro _
      exact did_copyOut env id rfl _
    · intro _
      exact leaves_pure (.looked id _)

theorem did_otxnId (wp wl flags : Int32) : Leaves (otxnId env wp wl flags) m (Did env (.otxnId wp wl flags) m) := by
  unfold otxnId
  apply did_unless env id
  intro _
  apply did_inside env id
  intro _ _ _
  apply did_inside env id
  intro _ _ _
  exact did_writeAndReturn env id rfl le_rfl

theorem did_otxnParam (wp wl rp rl : Int32) :
    Leaves (otxnParam env wp wl rp rl) m (Did env (.otxnParam wp wl rp rl) m) := by
  unfold otxnParam
  apply did_inside env id
  intro _ _ _
  apply did_inside env id
  intro _ _ _
  refine leaves_readMem (fun _ => .trapped _) fun mem _ _ => ?_
  apply did_unless env id
  intro _
  apply did_unless env id
  intro _
  cases env.tx.otxnParams.find? (·.1 = Sim.readMem mem.bytes rp.toUInt32 rl.toUInt32) with
  | none => exact leaves_pure (.looked id _)
  | some param =>
    apply did_unless env id
    intro _
    apply did_unless env id
    intro _
    exact did_writeAndReturn env id rfl le_rfl

/-- A buffer that could be made is not of a length below zero. -/
theorem nonneg_of_vec {x : Int32} {v : Bytes} (h : vec (usize x) = .ok v) : 0 ≤ x.toInt ∧ v.length = usize x := by
  by_cases hneg : x < 0
  · rw [buffer_panics hneg] at h
    cases h
  · have hpos := nonneg_of_not_neg hneg
    rw [buffer_ok hpos] at h
    obtain rfl := Except.ok.inj h
    exact ⟨hpos, List.length_replicate⟩

theorem did_hookParam (wptr wlen rptr rlen : Int32) :
    Leaves (hookParam env wptr wlen rptr rlen) m (Did env (.hookParam wptr wlen rptr rlen) m) := by
  unfold hookParam
  refine leaves_memOf (.trapped _) fun _ _ => ?_
  apply leaves_step
  intro key hkey
  rw [(nonneg_of_vec hkey).2]
  refine leaves_memRead (fun _ => .trapped _) fun mem hmem _ => ?_
  apply leaves_modify
  refine Leaves.mono ?_ fun _ _ h => .asked hmem h
  cases env.tx.hookParams (region mem.bytes (usize rptr) (usize (max rlen 0))) with
  | some val => exact did_copyOut env id rfl _
  | none => exact leaves_pure (.looked id _)

theorem did_stateSet (rptr rlen kptr klen : Int32) :
    Leaves (stateSet rptr rlen kptr klen) m (Did env (.stateSet rptr rlen kptr klen) m) := by
  unfold stateSet
  refine leaves_memOf (.trapped _) fun _ _ => ?_
  apply leaves_step
  intro val hval
  apply leaves_step
  intro key hkey
  obtain ⟨hrpos, hvallen⟩ := nonneg_of_vec hval
  obtain ⟨hkpos, hkeylen⟩ := nonneg_of_vec hkey
  rw [hvallen, hkeylen]
  refine leaves_memRead (fun _ => .trapped _) fun mem hmem hin => ?_
  refine leaves_memRead (fun _ => .trapped _) fun mem' hmem' hin' => ?_
  obtain rfl : mem = mem' := Option.some.inj (hmem.symm.trans hmem')
  exact leaves_modify (leaves_pure (.stored hmem ⟨hrpos, hin⟩ ⟨hkpos, hin'⟩))

theorem did_state (wptr wlen kptr klen : Int32) :
    Leaves (state wptr wlen kptr klen) m (Did env (.state wptr wlen kptr klen) m) := by
  unfold state
  refine leaves_memOf (.trapped _) fun _ _ => ?_
  apply leaves_step
  intro _ _
  refine leaves_memRead (fun _ => .trapped _) fun mem _ _ => ?_
  apply leaves_get
  cases m.ctx.state.lookup _ with
  | some val => exact did_copyOut env id rfl _
  | none => exact leaves_pure (.looked id _)

theorem did_emit (wp wl rptr rlen : Int32) : Leaves (emit wp wl rptr rlen) m (Did env (.emit wp wl rptr rlen) m) := by
  unfold emit
  refine leaves_memOf (.trapped _) fun _ _ => ?_
  apply leaves_step
  intro blob hblob
  obtain ⟨hpos, hlen⟩ := nonneg_of_vec hblob
  rw [hlen]
  refine leaves_memRead (fun _ => .trapped _) fun mem hmem hin => ?_
  exact leaves_modify (leaves_pure (.emitted hmem ⟨hpos, hin⟩))

theorem did_etxnDetails (ptr len : Int32) : Leaves (etxnDetails ptr len) m (Did env (.etxnDetails ptr len) m) := by
  unfold etxnDetails
  refine leaves_memOf (.trapped _) fun _ _ => ?_
  apply leaves_step
  intro zeros hzeros
  obtain ⟨hpos, hlen⟩ := nonneg_of_vec hzeros
  refine leaves_memWrite (fun _ => .trapped _) fun mem hin hmem => ?_
  have hle : usize (min 116 (max len 0)) ≤ usize (max len 0) := by
    have hmax := max_zero_nonneg len
    rw [usize_of_nonneg hpos, usize_of_nonneg hmax]
    have hmin : (min 116 (max len 0)).toInt ≤ (max len 0).toInt := by
      show (if (116 : Int32) ≤ max len 0 then 116 else max len 0).toInt ≤ (max len 0).toInt
      by_cases h : (116 : Int32) ≤ max len 0
      · rw [if_pos h]
        exact Int32.le_iff_toInt_le.1 h
      · rw [if_neg h]
    omega
  refine leaves_pure ?_
  rw [← hlen]
  exact Did.wrote (c := .etxnDetails ptr len) id hmem rfl (hlen.trans_le hle) hin

theorem did_utilKeylet (wp wl kt a b k d e f : Int32) :
    Leaves (utilKeylet env wp wl kt a b k d e f) m (Did env (.utilKeylet wp wl kt a b k d e f) m) := by
  unfold utilKeylet
  refine leaves_memOf (.trapped _) fun mem _ => ?_
  apply leaves_step
  rintro ⟨out, _⟩ _
  cases out with
  | Keylet ty key => exact did_writeAndReturn env id rfl le_rfl
  | Code code => exact leaves_pure (.looked id _)
  | NotModeled t => exact did_notModeled env _

theorem did_utilSha512h (wp wl rp rl : Int32) :
    Leaves (utilSha512h env wp wl rp rl) m (Did env (.utilSha512h wp wl rp rl) m) := by
  unfold utilSha512h
  apply did_unless env id
  intro _
  apply did_inside env id
  intro _ _ _
  apply did_inside env id
  intro _ _ _
  refine leaves_readMem (fun _ => .trapped _) fun _ _ _ => ?_
  exact did_writeAndReturn env id rfl le_rfl

theorem did_utilVerify (dp dl sp sl kp kl : Int32) :
    Leaves (utilVerify env dp dl sp sl kp kl) m (Did env (.utilVerify dp dl sp sl kp kl) m) := by
  unfold utilVerify
  apply did_inside env id
  intro _ _ _
  apply did_inside env id
  intro _ _ _
  apply did_inside env id
  intro _ _ _
  apply did_unless env id
  intro _
  apply did_unless env id
  intro _
  apply did_unless env id
  intro _
  refine leaves_readMem (fun _ => .trapped _) fun _ _ _ => ?_
  apply leaves_step
  intro _ _
  apply did_unless env id
  intro _
  refine leaves_readMem (fun _ => .trapped _) fun _ _ _ => ?_
  refine leaves_readMem (fun _ => .trapped _) fun _ _ _ => ?_
  apply leaves_step
  intro _ _
  exact leaves_pure (.looked id _)

theorem did_stoSubfield (rp rl fid : Int32) :
    Leaves (stoSubfield env rp rl fid) m (Did env (.stoSubfield rp rl fid) m) := by
  unfold stoSubfield
  apply did_inside env id
  intro _ _ _
  refine leaves_readMem (fun _ => .trapped _) fun _ _ _ => ?_
  exact leaves_step fun _ _ => leaves_last fun _ _ => .looked id _

theorem did_stoSubarray (rp rl idx : Int32) :
    Leaves (stoSubarray env rp rl idx) m (Did env (.stoSubarray rp rl idx) m) := by
  unfold stoSubarray
  apply did_inside env id
  intro _ _ _
  refine leaves_readMem (fun _ => .trapped _) fun _ _ _ => ?_
  exact leaves_step fun _ _ => leaves_last fun _ _ => .looked id _

end

/-! ## Slot calls -/

section
variable {m : Machine} {c : HostCall} (env : Env) (h : Kept m)
include h

theorem did_filled (hc : ¬c.Records) {into : UInt32} {x : Checked (Except String (Except Int SlotEntry))}
    {entry : Except String (Except Int SlotEntry)} (hx : x = .ok entry)
    (hhost : ∃ call, Sim.fill into.toNat m.ctx.slots entry = host env.tx.toTxFixture m.ctx.slots call) :
    Leaves (filled into x) m (Did env c m) := by
  obtain ⟨call, hcall⟩ := hhost
  unfold filled
  apply leaves_get
  subst hx
  apply leaves_step
  rintro _ ⟨⟩
  apply leaves_step
  intro r hr
  obtain rfl : Sim.fill into.toNat m.ctx.slots entry = r :=
    Except.ok.inj ((Words.fill_ok h.tracked.counter_le _ _).symm.trans hr)
  rw [hcall]
  cases hend : host env.tx.toTxFixture m.ctx.slots call with
  | error message => exact did_notModeled env message
  | ok r => exact leaves_modify (leaves_pure (.slotted hc hend))

theorem did_slotSet (rp rl slotInto : Int32) :
    Leaves (slotSet env rp rl slotInto) m (Did env (.slotSet rp rl slotInto) m) := by
  unfold slotSet
  apply did_inside env id
  intro mem hmem hin
  refine leaves_readMem (fun _ => .trapped _) fun mem' hmem' _ => ?_
  obtain rfl : mem = mem' := Option.some.inj (hmem.symm.trans hmem')
  apply leaves_get
  exact did_filled env h id (Words.slotSetEntry_ok env.tx.fits hin _)
    ⟨.slotSet mem.bytes rp.toUInt32 rl.toUInt32 slotInto.toUInt32, rfl⟩

theorem did_slotSubarray (parent idx newSlot : Int32) :
    Leaves (slotSubarray parent idx newSlot) m (Did env (.slotSubarray parent idx newSlot) m) := by
  unfold slotSubarray
  apply leaves_get
  exact did_filled env h id (Words.slotSubarrayEntry_ok h.within _ _ _)
    ⟨.slotSubarray parent.toUInt32 idx.toUInt32 newSlot.toUInt32, rfl⟩

theorem did_slotSubfield (parent fieldId newSlot : Int32) :
    Leaves (slotSubfield parent fieldId newSlot) m (Did env (.slotSubfield parent fieldId newSlot) m) := by
  unfold slotSubfield
  apply leaves_get
  exact did_filled env h id (Words.slotSubfieldEntry_ok h.within _ _ _)
    ⟨.slotSubfield parent.toUInt32 fieldId.toUInt32 newSlot.toUInt32, rfl⟩

theorem did_metaSlot (slotInto : Int32) : Leaves (metaSlot env slotInto) m (Did env (.metaSlot slotInto) m) := by
  unfold metaSlot
  apply leaves_get
  exact did_filled env h id rfl ⟨.metaSlot slotInto.toUInt32, rfl⟩

omit h in
theorem did_slotClear (slotNo : Int32) : Leaves (slotClear slotNo) m (Did env (.slotClear slotNo) m) := by
  unfold slotClear
  apply leaves_get
  have hcall : host env.tx.toTxFixture m.ctx.slots (.slotClear slotNo.toUInt32) =
    .ok (Sim.slotClear slotNo.toUInt32.toNat m.ctx.slots) := rfl
  exact leaves_modify (leaves_pure (.slotted id hcall))

omit h in
theorem did_slotBytes (wp wl slotNo : Int32) :
    Leaves (slotBytes wp.toUInt32 wl.toUInt32 slotNo.toUInt32) m (Did env (.slot wp wl slotNo) m) := by
  unfold slotBytes
  apply leaves_get
  cases m.ctx.slots.map.lookup slotNo.toUInt32.toNat with
  | none => exact leaves_pure (.looked id _)
  | some e => exact leaves_step fun _ _ => did_writeOrInt64 env id rfl le_rfl

omit h in
theorem did_slot (wp wl slotNo : Int32) : Leaves (slot wp wl slotNo) m (Did env (.slot wp wl slotNo) m) := by
  unfold slot
  apply leaves_ite
  · intro _
    apply did_unless env id
    intro _
    exact did_slotBytes env _ _ _
  · intro _
    apply did_inside env id
    intro _ _ _
    apply did_unless env id
    intro _
    exact did_slotBytes env _ _ _

omit h in
theorem did_slotCount (slotNo : Int32) : Leaves (slotCount slotNo) m (Did env (.slotCount slotNo) m) := by
  unfold slotCount
  apply leaves_get
  apply leaves_step
  intro r _
  cases r with
  | error message => exact did_notModeled env message
  | ok n => exact leaves_pure (.looked id _)

end

end Host

/-- Every call, however it ends. -/
theorem did_run (env : Env) {m : Machine} (h : Kept m) (c : HostCall) : Leaves (c.run env) m (Did env c m) := by
  cases c with
  | _g id max => exact Host.did_g env id max
  | accept p l code => exact Host.did_exit env (c := .accept p l code) trivial p l _
  | rollback p l code => exact Host.did_exit env (c := .rollback p l code) trivial p l _
  | otxnField wptr wlen fid => exact Host.did_otxnField env wptr wlen fid
  | hookAccount wptr wlen => exact Host.did_copyOut env id rfl _
  | hookParam wptr wlen rptr rlen => exact Host.did_hookParam env wptr wlen rptr rlen
  | stateSet rptr rlen kptr klen => exact Host.did_stateSet env rptr rlen kptr klen
  | state wptr wlen kptr klen => exact Host.did_state env wptr wlen kptr klen
  | emit wp wl rptr rlen => exact Host.did_emit env wp wl rptr rlen
  | etxnDetails ptr len => exact Host.did_etxnDetails env ptr len
  | otxnId wp wl flags => exact Host.did_otxnId env wp wl flags
  | otxnParam wp wl rp rl => exact Host.did_otxnParam env wp wl rp rl
  | slot wp wl slotNo => exact Host.did_slot env wp wl slotNo
  | slotClear slotNo => exact Host.did_slotClear env slotNo
  | slotCount slotNo => exact Host.did_slotCount env slotNo
  | slotSize slotNo => exact leaves_get (leaves_last fun _ _ => .looked id _)
  | slotSet rp rl slotInto => exact Host.did_slotSet env h rp rl slotInto
  | slotSubarray parent idx newSlot => exact Host.did_slotSubarray env h parent idx newSlot
  | slotSubfield parent fieldId newSlot => exact Host.did_slotSubfield env h parent fieldId newSlot
  | slotType slotNo flags => exact leaves_get (leaves_last fun _ _ => .looked id _)
  | metaSlot slotInto => exact Host.did_metaSlot env h slotInto
  | stoSubfield rp rl fid => exact Host.did_stoSubfield env rp rl fid
  | stoSubarray rp rl idx => exact Host.did_stoSubarray env rp rl idx
  | utilKeylet wp wl kt a b c d e f => exact Host.did_utilKeylet env wp wl kt a b c d e f
  | utilSha512h wp wl rp rl => exact Host.did_utilSha512h env wp wl rp rl
  | utilVerify dp dl sp sl kp kl => exact Host.did_utilVerify env dp dl sp sl kp kl
  | _ => exact leaves_pure (.looked id _)

/-! ## What follows for every call -/

section
variable {env : Env} {c : HostCall} {m m' : Machine} {r : Except Trap Int}

/-- The memory keeps its size, and only the bytes of the buffer that the answer counts may differ. -/
theorem Did.memory (h : Did env c m r m') {mem : LinearMemory} (hmem : m.mem = some mem) :
    ∃ mem', m'.mem = some mem' ∧ mem'.bytes.length = mem.bytes.length ∧
      ∀ i, (∀ code, r = .ok code → ¬(c.buffer.1 ≤ i ∧ i < c.buffer.1 + min code.toNat c.buffer.2)) →
        mem'.bytes[i]? = mem.bytes[i]? := by
  induction h with
  | @wrote c m mem₀ ptr bytes hc hmem₀ hptr hroom hin =>
    obtain rfl : mem₀ = mem := Option.some.inj (hmem₀.symm.trans hmem)
    refine ⟨_, rfl, splice_length hin, fun i hi => ?_⟩
    have hout := hi _ rfl
    rw [hptr, Int.toNat_natCast, Nat.min_eq_left hroom] at hout
    exact (getElem?_splice hin i).trans (if_neg hout)
  | asked _ h ih => exact ih hmem
  | _ => exact ⟨mem, hmem, rfl, fun _ _ => rfl⟩

theorem refused_slots {s s' : Slots} {call : Call} {code : Int} {tx : TxFixture} (h : Sane s)
    (hcall : host tx s call = .ok (code, s')) (hneg : code < 0) : s' = s := by
  rcases host_cases hcall with ⟨-, same⟩ | ⟨n, -, rfl, -⟩ | ⟨into, e, hf, eq⟩
  · exact same
  · omega
  · obtain ⟨hinto, room⟩ := filling_checked hf
    have := place_code (e := e) h.tracked hinto room
    rw [← eq] at this
    simp only at this
    omega

/-- A call that is refused leaves everything as it was, but for the note of the parameter it asked for. -/
theorem Did.refused (h : Did env c m r m') (hkept : Kept m) {code : Int} (hr : r = .ok code) (hneg : code < 0) :
    m' = { m with ctx := { m.ctx with paramsRead := m'.ctx.paramsRead } } := by
  induction h with
  | trapped e => rfl
  | looked hc code => rfl
  | wrote hc hmem hptr hroom hin =>
    have hcode := Except.ok.inj hr
    omega
  | asked _ h ih => exact ih hkept hr
  | stored hmem hval hkey =>
    have hcode := Except.ok.inj hr
    omega
  | emitted hmem hblob =>
    have hcode := Except.ok.inj hr
    omega
  | slotted hc hcall =>
    obtain rfl := Except.ok.inj hr
    rw [refused_slots hkept hcall hneg]
  | crossed hcase =>
    rcases hcase with hcase | hcase
    · have hcode := Except.ok.inj (hcase.symm.trans hr)
      omega
    · cases hcase.symm.trans hr
  | exited hc out => cases hr
  | unmodeled message => cases hr

end

/-- Whatever a hook calls and however the call ends, the memory keeps its size, a call that traps or is refused writes
nothing, and one that answers `n` has written to no byte but the first `n` of the buffer it was handed. -/
theorem writes_within_buffer (env : Env) {m m' : Machine} (h : Reaches env m) (c : HostCall) {r : Except Trap Int}
    (hrun : (c.run env).run.run m = .ok (r, m')) {mem : LinearMemory} (hmem : m.mem = some mem) :
    ∃ mem', m'.mem = some mem' ∧ mem'.bytes.length = mem.bytes.length ∧
      ∀ i, (∀ code, r = .ok code → ¬(c.buffer.1 ≤ i ∧ i < c.buffer.1 + min code.toNat c.buffer.2)) →
        mem'.bytes[i]? = mem.bytes[i]? :=
  (did_run env (kept_of_reaches h) c r m' hrun).memory hmem

theorem writes_within_buffer_account : ∃ m' mem',
    (HostCall.run bareEnv (.hookAccount 8 20)).run.run freshMachine = .ok (.ok 20, m') ∧ m'.mem = some mem' ∧
      ∀ i, ¬(8 ≤ i ∧ i < 28) → mem'.bytes[i]? = (List.replicate 65536 0)[i]? := by
  have hin : 8 + (List.replicate 20 (0xAA : UInt8)).length ≤ (List.replicate 65536 (0 : UInt8)).length := by
    rw [List.length_replicate, List.length_replicate]
    decide
  have hrun := @Host.copyOut_run freshMachine 8 20 _ _ rfl (le_refl _) hin
  obtain ⟨mem', hmem', -, hsame⟩ := writes_within_buffer bareEnv (.start _) (.hookAccount 8 20) hrun rfl
  refine ⟨_, mem', hrun, hmem', fun i hi => hsame i ?_⟩
  intro code hcode
  rwa [← Except.ok.inj hcode]

/-- A host call that is refused with a negative code changes neither the hook's memory nor anything of the run, its
guards, state, emitted transactions and slots included; only the note of an asked parameter may be new. -/
theorem refused_call_changes_nothing (env : Env) {m m' : Machine} (h : Reaches env m) (c : HostCall) {code : Int}
    (hrun : (c.run env).run.run m = .ok (.ok code, m')) (hneg : code < 0) :
    m' = { m with ctx := { m.ctx with paramsRead := m'.ctx.paramsRead } } :=
  (did_run env (kept_of_reaches h) c _ m' hrun).refused (kept_of_reaches h) rfl hneg

theorem refused_call_changes_nothing_param : ∃ m',
    (HostCall.run bareEnv (.hookParam 0 8 0 3)).run.run { mem := some ⟨[0x4C, 0x49, 0x4D], by decide⟩ } =
      .ok (.ok rc.DOESNT_EXIST, m') ∧
    m'.ctx.paramsRead = [[0x4C, 0x49, 0x4D]] ∧
    m' = { ctx := { ({} : Ctx) with paramsRead := m'.ctx.paramsRead }, mem := some ⟨[0x4C, 0x49, 0x4D], by decide⟩ } :=
  ⟨_, rfl, rfl, refused_call_changes_nothing bareEnv (.start _) (.hookParam 0 8 0 3) rfl (by decide)⟩

end Xahc.Sim

/-
The guardrail Hooks as their C sources run on the simulator's host functions and linear memory: every run ends in the
exit and leaves the state that the plain bodies say, whatever the fixture, the parameters and the state.
-/
import Xahc.Guardrail.Twins
import Xahc.Sim.CView

namespace Xahc.Guardrail

open Xahc.Data Xahc.Data.Trapping Xahc.Sim Xahc.Sim.C

/-! ## Parts of both sources -/

section
variable {L : Type} [DecidableEq L] [Arrays L] (env : Env) (fr : Frame L)

/-- `if (cond) XAHC_ACCEPT(msg);` -/
def acceptIf (cond : Prop) [Decidable cond] (msg : String) (line : Int) : Host Unit :=
  if cond then XAHC_ACCEPT fr msg line else pure ()

/-- From the entry guard to the test for an outgoing payment. -/
def policeSource (notPayment accountRead incoming : Int) (origin me : L) : Host Unit := do
  XAHC_HOOK_ENTRY env 0
  let tt ← Host.otxnType env
  acceptIf fr (tt ≠ ttPAYMENT) "not a payment" notPayment
  XAHC_OTXN_ACCOUNT env fr origin accountRead
  let _ ← C.hookAccount fr me
  let outgoing ← sameBytesLoop env fr 1 20 origin me true (List.range 20)
  acceptIf fr (!outgoing) "incoming" incoming

/-- A required parameter of 8 bytes, as a number. -/
def paramSource (key : Bytes) (out k : L) (line : Int) : Host UInt64 := do
  store fr k 0 key
  XAHC_HOOK_PARAM_REQUIRE env fr out k 8 line
  let b ← load fr out 0 8
  return be64 b

/-- `(uint64_t)drops`. -/
def unsigned (drops : Int) : UInt64 := .ofInt drops

/-- The destination lock. -/
def destinationSource (n : Nat) (destRead destination : Int) (k allowed dest : L) : Host Unit := do
  store fr k 0 dstKey
  let rc ← C.hookParam env fr allowed k
  if rc = 20 then do
    XAHC_OTXN_DESTINATION env fr dest destRead
    let ok ← sameBytesLoop env fr 2 20 dest allowed true (List.range n)
    XAHC_REQUIRE fr ok "destination not in policy" destination
  else pure ()

/-! ## What the parts do -/

/-- The messages of both Hooks. -/
def messages : List String :=
  ["not a payment", "otxn account read", "incoming", "missing hook param", "bad PER param", "PER must be > 0",
   "native amount only", "over per-tx spend limit", "corrupt state", "over period budget", "otxn dest read",
   "destination not in policy", "within policy"]

variable {fr : Frame L} {w : View L} {m : Machine}

theorem acceptIf_mirrors (h : Shows fr messages w m) {msg : String} (hmsg : msg ∈ messages) {cond : Prop} [Decidable cond]
    {line : Int} {β γ : Type} {f : Unit → Host β} {y : Except Exit γ} {q : γ → β → Machine → Prop}
    (hf : ¬cond → Mirrors (f ()) m y (Stopped w.asked w.state) q) :
    Mirrors (acceptIf fr cond msg line >>= f) m (if cond then .error (.accept msg line) else y)
      (Stopped w.asked w.state) q := by
  unfold acceptIf
  by_cases hc : cond
  · rw [if_pos hc, if_pos hc]
    exact accept_mirrors h hmsg
  · rw [if_neg hc, if_neg hc]
    exact mirrors_run rfl (hf hc)

/-- A view of a run that has crossed no guard and asked no parameter. -/
def fresh (st : HookState) : View L := { state := st }

theorem guardId_ne {i j : Nat} (hi : i < 3) (hj : j < 3) (h : i ≠ j) : guardId i ≠ guardId j := by
  interval_cases i <;> interval_cases j <;> first | exact absurd rfl h | decide

/-- The loop that compares two arrays of 20 bytes, or the start of them. -/
theorem sameBytesLoop_sameBytes (h : Shows fr messages w m) {counter n : Nat} (hn : n ≤ 20) {a b : L} {x y : Bytes}
    (ha : w.held a = x) (hb : w.held b = y) (hx : x.length = 20) (hy : y.length = 20)
    (hfirst : w.crossed (guardId counter) = 0) :
    ∃ m', (sameBytesLoop env fr counter 20 a b true (List.range n)).run.run m = .ok (.ok (sameBytes n x y), m') ∧
      Shows fr messages (w.cross (guardId counter) n) m' := by
  have hin : ∀ i ∈ List.range n, i < (w.held a).length ∧ i < (w.held b).length := by
    intro i hi
    have := List.mem_range.1 hi
    rw [ha, hb, hx, hy]
    omega
  have hroom : w.crossed (guardId counter) + (List.range n).length ≤ 20 + 1 := by
    rw [hfirst, List.length_range]
    omega
  obtain ⟨m', hrun, h'⟩ := sameBytesLoop_run env (by decide) (List.range n) true h hin hroom
  rw [ha, hb] at hrun
  rw [List.length_range] at h'
  exact ⟨m', hrun, h'⟩

omit [DecidableEq L] [Arrays L] in
/-- After the entry the guards of the loops are yet to cross. -/
theorem entered_crossed (st : HookState) {i : Nat} (hi : i < 3) (hpos : i ≠ 0) :
    ((fresh st : View L).cross (guardId 0) 1).crossed (guardId i) = 0 := by
  rw [View.cross_other _ (guardId_ne hi (by decide) hpos)]
  rfl

/-- The police phase, on its own arrays. The loop of the destination lock has its guard yet to cross. -/
theorem police_mirrors {st : HookState} (h : Shows fr messages (fresh st) m) (notPayment accountRead incoming : Int)
    {origin me : L} (hne : origin ≠ me) (horigin : Arrays.size origin = 20) (hme : Arrays.size me = 20) :
    Mirrors (policeSource env fr notPayment accountRead incoming origin me) m
      (policeAt notPayment accountRead incoming env.tx.install env.tx.otxn) (Stopped [] st) fun _ _ m' =>
        ∃ w', Shows fr messages w' m' ∧ w'.asked = [] ∧ w'.state = st ∧ w'.crossed (guardId 2) = 0 := by
  obtain ⟨m₁, hentry, h₁⟩ := entry_run env h (rfl : (fresh st).crossed (guardId 0) = 0)
  have hread := otxn_account_mirrors env h₁ (by decide) origin accountRead
  rw [horigin] at hread
  refine mirrors_run hentry ?_
  refine mirrors_run (rfl : (Host.otxnType env).run.run m₁ = .ok (.ok env.tx.tt.toInt, m₁)) ?_
  refine acceptIf_mirrors h₁ (by decide) fun _ => hread.bind fun _ _ m₂ hrc h₂ => ?_
  rw [require_ok, decide_eq_true_eq] at hrc
  obtain ⟨b, hb, hlen⟩ := (readInto_rc_eq (le_refl 20)).1 hrc
  have hbuf : (env.tx.otxn.otxnField 20 sfAccount).buf = b := by
    rw [Otxn.otxnField, hb, readInto_fits hlen.le]
  simp only [hbuf] at h₂ ⊢
  obtain ⟨m₃, haccount, h₃⟩ := hookAccount_run env h₂ hme.ge
  have horiginHeld : (View.hold (((fresh st).cross (guardId 0) 1).hold origin b) me env.tx.install.me.1).held origin = b := by
    rw [View.hold_other _ hne, View.hold_self]
  obtain ⟨m₄, hloop, h₄⟩ := sameBytesLoop_sameBytes env h₃ (le_refl 20) horiginHeld (View.hold_self ..) hlen
    env.tx.install.me.2 (entered_crossed st (by decide : 1 < 3) (by decide))
  refine mirrors_run haccount (mirrors_run hloop ?_)
  rw [← bind_pure (acceptIf fr _ _ _)]
  refine acceptIf_mirrors h₄ (by decide) fun _ => mirrors_ok ⟨_, h₄, rfl, rfl, ?_⟩
  rw [View.cross_other _ (guardId_ne (by decide) (by decide) (by decide))]
  exact entered_crossed (L := L) st (by decide : 2 < 3) (by decide)

theorem param_mirrors (h : Shows fr messages w m) (key : Bytes) (out k : L) (hout : Arrays.size out = 8)
    (hk : key.length = Arrays.size k) (line : Int) :
    Mirrors (paramSource env fr key out k line) m (dropsParam env.tx.install key line)
      (Stopped (w.ask key).asked w.state) fun v a m' =>
        a = v ∧ ∃ w', Shows fr messages w' m' ∧ w'.asked = (w.ask key).asked ∧ w'.state = w.state ∧
          w'.crossed = w.crossed := by
  obtain ⟨m₁, hstore, h₁⟩ := init_run h k key hk.le
  have hparam := param_require_mirrors env h₁ (by decide) out (View.hold_self ..) hk line
  rw [hout] at hparam
  refine mirrors_run hstore (hparam.bind fun _ _ m₂ hrc h₂ => ?_)
  rw [require_ok, decide_eq_true_eq] at hrc
  obtain ⟨b, hb, hlen⟩ := (readInto_rc_eq (le_refl 8)).1 hrc
  have hbuf : (env.tx.install.hookParam 8 key).buf = b := by
    rw [Install.hookParam, hb, readInto_fits hlen.le]
  simp only [hbuf] at h₂ ⊢
  have hheld : (((w.hold k key).ask key).hold out b).held out = b := View.hold_self ..
  exact mirrors_run (load_all h₂ hheld hlen) (mirrors_ok ⟨rfl, _, h₂, rfl, rfl, rfl⟩)

/-- `(uint64_t)drops` of drops that are not negative. -/
theorem unsigned_of_nonneg {drops : Int} (h : 0 ≤ drops) : unsigned drops = UInt64.ofNat drops.toNat := by
  obtain ⟨n, rfl⟩ := Int.eq_ofNat_of_zero_le h
  apply UInt64.toNat_inj.1
  rw [unsigned, UInt64.ofInt, Int.toNat_natCast, UInt64.toNat_ofNat', UInt64.toNat_ofNat']
  omega

/-- The destination lock, on its own arrays. -/
theorem destination_mirrors (h : Shows fr messages w m) {n : Nat} (hn : n ≤ 20) (destRead destination : Int)
    {k allowed dest : L} (hne : dest ≠ allowed) (hk : Arrays.size k = 3) (hallowed : Arrays.size allowed = 20)
    (hdest : Arrays.size dest = 20) (hguard : w.crossed (guardId 2) = 0) :
    Mirrors (destinationSource env fr n destRead destination k allowed dest) m
      (checkDestinationAt n destRead destination env.tx.install env.tx.otxn) (Stopped (w.ask dstKey).asked w.state)
      fun _ _ m' => ∃ w', Shows fr messages w' m' ∧ w'.asked = (w.ask dstKey).asked ∧ w'.state = w.state ∧
        ∀ v, v ≠ k → v ≠ allowed → v ≠ dest → w'.held v = w.held v := by
  have hkey : dstKey.length = Arrays.size k := hk.symm
  obtain ⟨m₁, hstore, h₁⟩ := init_run h k dstKey hkey.le
  obtain ⟨m₂, hparam, h₂⟩ := hookParam_run env h₁ allowed (View.hold_self ..) hkey
  rw [hallowed] at hparam h₂
  -- the destination is looked at only where the parameter DST has 20 bytes
  refine mirrors_run hstore (mirrors_run hparam (mirrors_ite Iff.rfl (fun hrc => ?_) fun _ => ?_))
  · obtain ⟨a, ha, halen⟩ := (readInto_rc_eq (le_refl 20)).1 hrc
    have habuf : (env.tx.install.hookParam 20 dstKey).buf = a := by
      rw [Install.hookParam, ha, readInto_fits halen.le]
    have hread := otxn_destination_mirrors env h₂ (by decide) dest destRead
    rw [hdest] at hread
    refine hread.bind fun _ _ m₃ hdrc h₃ => ?_
    rw [require_ok, decide_eq_true_eq] at hdrc
    obtain ⟨b, hb, hblen⟩ := (readInto_rc_eq (le_refl 20)).1 hdrc
    have hbbuf : (env.tx.otxn.otxnField 20 sfDestination).buf = b := by
      rw [Otxn.otxnField, hb, readInto_fits hblen.le]
    simp only [habuf, hbbuf] at h₃ ⊢
    have hheld : ((((w.hold k dstKey).ask dstKey).hold allowed a).hold dest b).held allowed = a := by
      rw [View.hold_other _ hne.symm, View.hold_self]
    obtain ⟨m₄, hloop, h₄⟩ := sameBytesLoop_sameBytes env h₃ hn (View.hold_self ..) hheld hblen halen hguard
    refine mirrors_run hloop ((require_mirrors h₄ (by decide)).mono (fun _ _ _ _ hstop => hstop) fun _ _ m' _ h' => ?_)
    refine ⟨_, h', rfl, rfl, fun v hvk hva hvd => ?_⟩
    rw [View.cross_held, View.hold_other _ hvd, View.hold_other _ hva, View.ask_held, View.hold_other _ hvk]
  · refine mirrors_ok ⟨_, h₂, rfl, rfl, fun v hvk hva _ => ?_⟩
    rw [View.hold_other _ hva, View.ask_held, View.hold_other _ hvk]

end

/-! ## The stateless Hook -/

/-- The arrays of `agentGuardrail.c`, with the one of `xahcOtxnDrops`. -/
inductive AgentArray
  | origin | me | limKey | lim | amt | dstKey | allowed | dest
  deriving DecidableEq

instance : Arrays AgentArray where
  size
    | .origin | .me | .allowed | .dest => 20
    | .lim | .amt => 8
    | .limKey | .dstKey => 3

/-- `hook` of the stateless source, with the lines, the comparison and the loop of a twin. -/
def agentSource (env : Env) (fr : Frame AgentArray) (l : Lines) (under : UInt64 → UInt64 → Bool) (n : Nat) : Host Int := do
  policeSource env fr l.notPayment l.accountRead l.incoming .origin .me
  let limit ← paramSource env fr limKey .lim .limKey l.lim
  let drops ← C.xahcOtxnDrops env fr .amt
  XAHC_REQUIRE fr (drops ≥ 0) "native amount only" l.native
  XAHC_REQUIRE fr (under (unsigned drops) limit) "over per-tx spend limit" l.cap
  destinationSource env fr n l.destRead l.destination .dstKey .allowed .dest
  XAHC_ACCEPT fr "within policy" l.within
  return 0

/-- The run was ended so, and has asked for `LIM` just where the payment is an outgoing one. -/
def Finished (i : Install) (tx : Otxn) (st : HookState) (d : Exit) (e : Trap) (m : Machine) : Prop :=
  ∃ asked, Stopped asked st d e m ∧ (limKey ∈ asked ↔ Outgoing i tx)

theorem not_outgoing_of_error {j k l : Int} {i : Install} {tx : Otxn} {d : Exit} (h : policeAt j k l i tx = .error d) :
    ¬Outgoing i tx := by
  intro hout
  rw [policeAt_ok (u := ()).2 hout] at h
  cases h

/-- Where the parameters of the first ones are in the list, an exit past the police phase finishes the run. -/
theorem finished_of_outgoing {i : Install} {tx : Otxn} {st : HookState} {d : Exit} {e : Trap} {m : Machine} {asked : List Bytes}
    {st' : HookState} (hout : Outgoing i tx) (hasked : limKey ∈ asked) (hst : st' = st) (h : Stopped asked st' d e m) :
    Finished i tx st d e m := by
  subst hst
  exact ⟨asked, h, iff_of_true hasked hout⟩

theorem agentSource_mirrors (env : Env) {fr : Frame AgentArray} (l : Lines) (under : UInt64 → UInt64 → Bool) {n : Nat}
    (hn : n ≤ 20) {st : HookState} {m : Machine} (h : Shows fr messages (fresh st) m) :
    Mirrors (agentSource env fr l under n) m
      (agentChecks l under n env.tx.install env.tx.otxn >>= fun _ => .error (.accept "within policy" l.within))
      (Finished env.tx.install env.tx.otxn st) fun (_ : Unit) _ _ => False := by
  rw [agentChecks]
  simp only [bind_assoc]
  have hpolice := police_mirrors env h l.notPayment l.accountRead l.incoming (by decide : AgentArray.origin ≠ .me) rfl rfl
  refine hpolice.bind_mono (fun _ _ _ hy hstop => ⟨[], hstop, iff_of_false List.not_mem_nil (not_outgoing_of_error hy)⟩) ?_
  rintro _ _ m₁ hy ⟨w₁, h₁, hasked₁, hst₁, hguard₁⟩
  have hout := policeAt_ok.1 hy
  have hmem₁ : limKey ∈ (w₁.ask limKey).asked := List.mem_insert_self
  have hlim := param_mirrors env h₁ limKey .lim .limKey rfl rfl l.lim
  refine hlim.bind_mono (fun _ _ _ _ => finished_of_outgoing hout hmem₁ hst₁) ?_
  rintro limit _ m₂ - ⟨rfl, w₂, h₂, hasked₂, hst₂, hcrossed₂⟩
  have hmem₂ : limKey ∈ w₂.asked := hasked₂ ▸ hmem₁
  have hst : w₂.state = st := hst₂.trans hst₁
  obtain ⟨m₃, hdrops, _, h₃⟩ := drops_run env h₂ .amt rfl
  refine mirrors_run hdrops ?_
  refine (require_mirrors h₃ (by decide)).bind_mono (fun _ _ _ _ => finished_of_outgoing hout hmem₂ hst) ?_
  rintro _ _ m₄ hpos h₄
  rw [require_ok, decide_eq_true_eq] at hpos
  rw [unsigned_of_nonneg hpos]
  refine (require_mirrors h₄ (by decide)).bind_mono (fun _ _ _ _ => finished_of_outgoing hout hmem₂ hst) ?_
  rintro _ _ m₅ - h₅
  have hguard₅ : w₂.crossed (guardId 2) = 0 := by rw [hcrossed₂, hguard₁]
  have hmem₅ : limKey ∈ (w₂.ask dstKey).asked := List.mem_insert_of_mem hmem₂
  have hdest := destination_mirrors (k := AgentArray.dstKey) env h₅ hn l.destRead l.destination
    (by decide : AgentArray.dest ≠ .allowed) rfl rfl rfl hguard₅
  refine hdest.bind_mono (fun _ _ _ _ => finished_of_outgoing hout hmem₅ hst) ?_
  rintro _ _ m₆ - ⟨w₆, h₆, hasked₆, hst₆, -⟩
  refine (accept_mirrors h₆ (by decide)).mono (fun _ _ _ _ => ?_) fun _ _ _ _ => id
  exact finished_of_outgoing hout (hasked₆ ▸ hmem₅) (hst₆.trans hst)

/-- The machine of a run that finds this state and this memory. -/
def started (state : AList fun _ : Bytes => Bytes) (mem : LinearMemory) : Machine := { ctx := { state }, mem := some mem }

theorem started_shows {L : Type} [DecidableEq L] [Arrays L] {fr : Frame L} {mem : LinearMemory}
    (state : AList fun _ : Bytes => Bytes) (hfits : fr.Fits messages mem.bytes.length) :
    Shows fr messages (fresh state.lookup) (started state mem) :=
  ⟨⟨mem, rfl, hfits, fun _ => ⟨Nat.zero_le _, rfl⟩⟩, fun _ => rfl, rfl, rfl, rfl, rfl⟩

/-- The run ends in the exit that the plain body gives. -/
theorem agentSource_run (env : Env) {fr : Frame AgentArray} (l : Lines) (under : UInt64 → UInt64 → Bool) {n : Nat}
    (hn : n ≤ 20) {st : HookState} {m : Machine} (h : Shows fr messages (fresh st) m) :
    ∃ m', (agentSource env fr l under n).run.run m = .ok (.error .halt, m') ∧
      Finished env.tx.install env.tx.otxn st (agentHook l under n env.tx.install env.tx.otxn) .halt m' := by
  unfold agentHook
  rcases agentSource_mirrors env l under hn h with ⟨d, e, m', hd, hrun, hfin⟩ | ⟨_, _, _, _, _, hfalse⟩
  · have hexit : exitOf (.accept "within policy" l.within) (agentChecks l under n env.tx.install env.tx.otxn) = d := by
      cases hc : agentChecks l under n env.tx.install env.tx.otxn <;> rw [hc] at hd <;> exact Except.error.inj hd
    have hhalt : e = .halt := by
      obtain ⟨_, hstop, -⟩ := hfin
      exact hstop.halt
    rw [hexit]
    exact ⟨m', hhalt ▸ hrun, hhalt ▸ hfin⟩
  · exact hfalse.elim

/-- `hook` of `agent_guardrail.c`. -/
def agentGuardrailSource (env : Env) (fr : Frame AgentArray) : Host Int :=
  agentSource env fr agentGuardrailLines (fun drops limit => drops ≤ limit) 20

/-- Whatever the fixture, the installed parameters, the state and the bytes in memory, `agentGuardrail.c` run on the
simulator halts by itself: it accepts what is no payment of its account and the native payments within `LIM` to the
locked destination, rolls back everything else, writes no state and emits nothing. -/
theorem agent_guardrail_on_sim (env : Env) {fr : Frame AgentArray} {mem : LinearMemory}
    (hfits : fr.Fits messages mem.bytes.length) (state : AList fun _ : Bytes => Bytes) :
    ∃ m' line, (agentGuardrailSource env fr).run.run (started state mem) = .ok (.error .halt, m') ∧
      m'.hookState = state.lookup ∧ m'.ctx.emitted = [] ∧
      (m'.ctx.outcome = some (.Accept line) ∧
          (PassedThrough env.tx.install env.tx.otxn ∨
            ∃ limit amount, Allowed (fun drops limit => drops ≤ limit) 20 env.tx.install env.tx.otxn limit amount) ∨
        m'.ctx.outcome = some (.Rollback line) ∧
          ¬(PassedThrough env.tx.install env.tx.otxn ∨
            ∃ limit amount, Allowed (fun drops limit => drops ≤ limit) 20 env.tx.install env.tx.otxn limit amount)) := by
  obtain ⟨m', hrun, asked, hstop, -⟩ := agentSource_run env agentGuardrailLines (fun drops limit => drops ≤ limit)
    (le_refl 20) (started_shows state hfits)
  rw [← agentHook_accepts (l := agentGuardrailLines) (le_refl 20)]
  have hout := hstop.outcome
  cases hexit : agentHook agentGuardrailLines (fun drops limit => decide (drops ≤ limit)) 20 env.tx.install env.tx.otxn with
  | accept reason line =>
    rw [hexit] at hout
    exact ⟨m', .ofInt line, hrun, hstop.state, hstop.emitted, .inl ⟨hout, rfl⟩⟩
  | rollback reason line =>
    rw [hexit] at hout
    exact ⟨m', .ofInt line, hrun, hstop.state, hstop.emitted, .inr ⟨hout, Bool.false_ne_true⟩⟩

/-- The arrays and the messages of a build one after the other, from the 16th byte on. -/
def agentFrame : Frame AgentArray where
  ptr
    | .origin => 512 | .me => 532 | .limKey => 552 | .lim => 555 | .amt => 563 | .dstKey => 571 | .allowed => 574
    | .dest => 594
  lit msg := 16 + 32 * messages.idxOf msg

theorem agentFrame_fits : agentFrame.Fits messages 1024 where
  inside v := by cases v <;> decide
  small v := by cases v <;> decide
  apart v w h := by cases v <;> cases w <;> first | exact absurd rfl h | decide
  messages := by decide

/-- A payment of 5 drops by the account itself, where `LIM` is 10. -/
def payEnv : Env :=
  { bareEnv with
    tx := { bareEnv.tx with
      account := Guardrail.AccountID.filled 0xAA
      drops := 5
      hookParams := fun key => if key = limKey then some (wr64 10) else none } }

theorem payEnv_allowed : Allowed (fun drops limit => drops ≤ limit) 20 payEnv.tx.install payEnv.tx.otxn 10 5 where
  outgoing := ⟨rfl, rfl⟩
  lim := ⟨wr64 10, rfl, rfl, be64_wr64 10⟩
  native := by decide
  cap := by decide
  destination := fun d hd => by cases (show none = some d from hd)

theorem agent_guardrail_on_sim_pays : ∃ m' line,
    (agentGuardrailSource payEnv agentFrame).run.run
        (started ∅ ⟨List.replicate 1024 0, by rw [List.length_replicate]; decide⟩) = .ok (.error .halt, m') ∧
      m'.ctx.outcome = some (.Accept line) := by
  have hfits : agentFrame.Fits messages (List.replicate 1024 (0 : UInt8)).length := by
    rw [List.length_replicate]
    exact agentFrame_fits
  obtain ⟨m', line, hrun, -, -, ⟨hout, -⟩ | ⟨-, hnot⟩⟩ := @agent_guardrail_on_sim payEnv agentFrame
    ⟨List.replicate 1024 0, by rw [List.length_replicate]; decide⟩ hfits ∅
  · exact ⟨m', line, hrun, hout⟩
  · exact absurd (.inr ⟨10, 5, payEnv_allowed⟩) hnot

end Xahc.Guardrail

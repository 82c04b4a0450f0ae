/-
`agent_guardrail_stateful.c`: the period-budget guardrail Hook, phase by phase as `hook` runs, and
what an accepted outgoing payment went through.
-/
import Xahc.Data.Except
import Xahc.Guardrail.Host

namespace Xahc.Guardrail

open Xahc.Data

/-! ## Installation and state -/

/-- What the SetHook fixes: the hooked account and the install-time parameters. -/
structure Install where
  me : AccountID
  params : Bytes → Option Bytes

/-- The Hook's own state namespace. -/
abbrev HookState := Bytes → Option Bytes

/-- The state with one value more. -/
def HookState.set (st : HookState) (key val : Bytes) : HookState :=
  fun k => if k = key then some val else st k

@[simp] theorem HookState.set_self (st : HookState) (k v : Bytes) : st.set k v k = some v := if_pos rfl

/-- `{ 'L', 'I', 'M' }` and its siblings. -/
def limKey : Bytes := [0x4C, 0x49, 0x4D]

/-- `{ 'P', 'L', 'M' }`. -/
def plmKey : Bytes := [0x50, 0x4C, 0x4D]

/-- `{ 'P', 'E', 'R' }`. -/
def perKey : Bytes := [0x50, 0x45, 0x52]

/-- `{ 'D', 'S', 'T' }`. -/
def dstKey : Bytes := [0x44, 0x53, 0x54]
/-- The budget slot. -/
def skey : Bytes := [0x01]

/-- `hook_param` into a buffer of `wlen` bytes. -/
def Install.hookParam (i : Install) (wlen : Nat) (key : Bytes) : HostRead := readInto wlen (i.params key)

/-! ## Exits -/

/-- How a run of the Hook ends: `accept` or `rollback`, with its reason and source line. -/
inductive Exit
  | accept (reason : String) (line : Int)
  | rollback (reason : String) (line : Int)
  deriving DecidableEq, Repr

/-- The run accepts. -/
def Exit.accepts : Exit → Bool
  | .accept .. => true
  | .rollback .. => false

/-- `XAHC_REQUIRE`. -/
def require (cond : Bool) (msg : String) (line : Int) : Except Exit Unit :=
  if cond then .ok () else .error (.rollback msg line)

@[simp] theorem require_ok {c : Bool} {msg : String} {line : Int} {u : Unit} :
    require c msg line = .ok u ↔ c = true := by
  unfold require
  split <;> simp_all

/-! ## The phases of `hook` -/

/-- The type of a payment. -/
def ttPAYMENT : Int := 0

/-- The byte loops of the Hook: compare two 20-byte buffers index by index. Its guard budgets 21
crossings of a body that runs 20 times. -/
def sameAccount (a b : Bytes) : Bool :=
  (List.range 20).foldl (fun ok i => if a.getD i 0 != b.getD i 0 then false else ok) true

/-- Lines 54–67: everything but an outgoing payment is passed through. -/
def police (i : Install) (tx : Otxn) : Except Exit Unit :=
  if tx.tt ≠ ttPAYMENT then .error (.accept "not a payment" 55)
  else do
    let origin := tx.otxnField 20 sfAccount
    require (origin.rc = 20) "otxn account read" 59
    if !sameAccount origin.buf i.me.1 then .error (.accept "incoming" 67) else .ok ()

/-- The three required parameters. -/
structure Policy where
  lim : UInt64
  plm : UInt64
  per : UInt64
  deriving DecidableEq, Repr

/-- `XAHC_HOOK_PARAM_REQUIRE` on an 8-byte drops parameter. -/
def dropsParam (i : Install) (key : Bytes) (line : Int) : Except Exit UInt64 := do
  let r := i.hookParam 8 key
  require (r.rc = 8) "missing hook param" line
  return be64 r.buf

/-- `PER` in 8 or 4 bytes. -/
def decodePer (r : HostRead) : Except Exit UInt64 :=
  if r.rc = 8 then .ok (be64 r.buf)
  else if r.rc = 4 then .ok (be32 r.buf)
  else .error (.rollback "bad PER param" 94)

/-- Lines 83–97. -/
def readPer (i : Install) : Except Exit UInt64 := do
  let per ← decodePer (i.hookParam 8 perKey)
  require (per > 0) "PER must be > 0" 97
  return per

/-- Lines 71–97. -/
def readPolicy (i : Install) : Except Exit Policy := do
  let lim ← dropsParam i limKey 74
  let plm ← dropsParam i plmKey 80
  let per ← readPer i
  return ⟨lim, plm, per⟩

/-- Lines 99–105: the native amount, under the per-transaction cap. -/
def readAmount (tx : Otxn) (lim : UInt64) : Except Exit UInt64 := do
  let drops := xahcOtxnDrops tx
  require (drops ≥ 0) "native amount only" 101
  let amount := UInt64.ofNat drops.toNat
  require (amount ≤ lim) "over per-tx spend limit" 105
  return amount

/-- The running period as the Hook keeps it. -/
structure Period where
  periodStart : UInt64
  spent : UInt64
  deriving DecidableEq, Repr

/-- The 16-byte layout of the budget slot. -/
def Period.encode (p : Period) : Bytes := wr64 p.periodStart ++ wr64 p.spent

/-- The period that 16 bytes store. -/
def Period.decode (sval : Bytes) : Period := ⟨be64 sval, be64 (sval.drop 8)⟩

@[simp] theorem Period.decode_encode (q : Period) : Period.decode q.encode = q := by
  have tail : (q.encode).drop 8 = wr64 q.spent := rfl
  rw [Period.decode, tail, Period.encode, be64_append (wr64_length _), be64_wr64, be64_wr64]

@[simp] theorem Period.encode_length (q : Period) : q.encode.length = 16 := rfl

/-- A new period opens where the stored one has elapsed, or lies in the future. -/
def Period.roll (p : Period) (now per : UInt64) : Period :=
  if now < p.periodStart ∨ now - p.periodStart ≥ per then ⟨now, 0⟩ else p

/-- Lines 110–135: the stored period. Every negative code, not only an absent key, opens a fresh one. -/
def readPeriod (st : HookState) (now per : UInt64) : Except Exit Period :=
  let srd := readInto 16 (st skey)
  if srd.rc = 16 then .ok ((Period.decode srd.buf).roll now per)
  else if srd.rc < 0 then .ok ⟨now, 0⟩
  else .error (.rollback "corrupt state" 133)

/-- Line 141: the headroom of the period. -/
def remaining (plm : UInt64) (p : Period) : UInt64 := if p.spent ≤ plm then plm - p.spent else 0

/-- Lines 144–156: the destination lock, in force only where `DST` reads as 20 bytes. -/
def checkDestination (i : Install) (tx : Otxn) : Except Exit Unit :=
  let allowed := i.hookParam 20 dstKey
  if allowed.rc = 20 then do
    let dest := tx.otxnField 20 sfDestination
    require (dest.rc = 20) "otxn dest read" 149
    require (sameAccount dest.buf allowed.buf) "destination not in policy" 155
  else .ok ()

/-- The checks of `hook` in order; what passes them all is the period to store. -/
def hookChecks (i : Install) (tx : Otxn) (now : UInt64) (st : HookState) : Except Exit Period := do
  police i tx
  let pol ← readPolicy i
  let amount ← readAmount tx pol.lim
  let p ← readPeriod st now pol.per
  require (amount ≤ remaining pol.plm p) "over period budget" 142
  checkDestination i tx
  return ⟨p.periodStart, p.spent + amount⟩

/-- `hook` on one transaction at `ledger_seq() = now`: its exit, and the state it leaves. The host's
`stateSet` stores what it is given, so the commit of line 163 never rolls back. -/
def hook (i : Install) (tx : Otxn) (now : UInt64) (st : HookState) : Exit × HookState :=
  match hookChecks i tx now st with
  | .error e => (e, st)
  | .ok p => (.accept "within policy" 165, st.set skey p.encode)

/-! ## What each phase establishes -/

theorem sameAccount_fold (a b : Bytes) (l : List Nat) (ok : Bool) :
    l.foldl (fun ok i => if a.getD i 0 != b.getD i 0 then false else ok) ok =
      (ok && l.all fun i => a.getD i 0 == b.getD i 0) := by
  induction l generalizing ok with
  | nil => simp
  | cons i l ih =>
    rw [List.foldl_cons, ih, List.all_cons]
    by_cases h : a.getD i 0 = b.getD i 0
    · rw [h]; simp
    · rw [if_pos (bne_iff_ne.mpr h), beq_false_of_ne h]; simp

theorem sameAccount_iff {a b : Bytes} (ha : a.length = 20) (hb : b.length = 20) :
    sameAccount a b = true ↔ a = b := by
  unfold sameAccount
  rw [sameAccount_fold, Bool.true_and, List.all_eq_true]
  constructor
  · intro h
    apply List.ext_getElem (ha.trans hb.symm)
    intro i hi hi'
    have := h i (List.mem_range.mpr (ha ▸ hi))
    simpa [List.getElem?_eq_getElem hi, List.getElem?_eq_getElem hi'] using this
  · rintro rfl i _
    simp

/-- An outgoing payment of the hooked account. -/
def Outgoing (i : Install) (tx : Otxn) : Prop :=
  tx.tt = ttPAYMENT ∧ tx.field sfAccount = some i.me.1

theorem police_ok {i : Install} {tx : Otxn} {u : Unit} : police i tx = .ok u ↔ Outgoing i tx := by
  unfold police Outgoing
  split
  · rename_i h
    simp [h]
  · rename_i h
    simp only [bind_ok, require_ok, decide_eq_true_eq, exists_const]
    constructor
    · rintro ⟨hrc, hsame⟩
      obtain ⟨b, hb, hlen⟩ := (readInto_rc_eq (le_refl 20)).mp hrc
      rw [Otxn.otxnField, hb, readInto_fits (by omega)] at hsame
      split at hsame
      · simp at hsame
      · rename_i hs
        have := (sameAccount_iff hlen i.me.2).mp (by simpa using hs)
        exact ⟨not_not.mp h, by rw [hb, this]⟩
    · rintro ⟨-, hacc⟩
      have hlen := i.me.2
      rw [Otxn.otxnField, hacc, readInto_fits (by omega)]
      exact ⟨by simp [hlen], by simp [(sameAccount_iff hlen hlen).mpr rfl]⟩

theorem dropsParam_ok {i : Install} {key : Bytes} {line : Int} {v : UInt64} :
    dropsParam i key line = .ok v ↔ ∃ b, i.params key = some b ∧ b.length = 8 ∧ be64 b = v := by
  simp only [dropsParam, bind_ok, require_ok, decide_eq_true_eq, exists_const, pure, Except.pure,
    Except.ok.injEq]
  constructor
  · rintro ⟨hrc, rfl⟩
    obtain ⟨b, hb, hlen⟩ := (readInto_rc_eq (le_refl 8)).mp hrc
    exact ⟨b, hb, hlen, by rw [Install.hookParam, hb, readInto_fits (by omega)]⟩
  · rintro ⟨b, hb, hlen, rfl⟩
    rw [Install.hookParam, hb, readInto_fits (by omega)]
    exact ⟨by simp [hlen], rfl⟩

/-- `PER` as the Hook decodes it: 8 or 4 bytes. -/
def PerBytes (b : Bytes) (v : UInt64) : Prop :=
  b.length = 8 ∧ be64 b = v ∨ b.length = 4 ∧ be32 b = v

theorem decodePer_ok {i : Install} {v : UInt64} :
    decodePer (i.hookParam 8 perKey) = .ok v ↔ ∃ b, i.params perKey = some b ∧ PerBytes b v := by
  unfold decodePer
  constructor
  · intro h
    split at h
    · rename_i hrc
      obtain ⟨b, hb, hlen⟩ := (readInto_rc_eq (le_refl 8)).mp hrc
      rw [Install.hookParam, hb, readInto_fits (by omega)] at h
      exact ⟨b, hb, Or.inl ⟨hlen, by simpa using h⟩⟩
    split at h
    · rename_i hrc
      obtain ⟨b, hb, hlen⟩ := (readInto_rc_eq (n := 4) (by decide)).mp hrc
      rw [Install.hookParam, hb, readInto_fits (by omega)] at h
      exact ⟨b, hb, Or.inr ⟨hlen, by simpa using h⟩⟩
    · cases h
  · rintro ⟨b, hb, ⟨hlen, rfl⟩ | ⟨hlen, rfl⟩⟩ <;>
      rw [Install.hookParam, hb, readInto_fits (by omega)] <;>
      simp [hlen]

theorem readPer_ok {i : Install} {v : UInt64} :
    readPer i = .ok v ↔ ∃ b, i.params perKey = some b ∧ PerBytes b v ∧ 0 < v := by
  simp only [readPer, bind_ok, decodePer_ok, require_ok, decide_eq_true_eq, exists_const, pure, Except.pure,
    Except.ok.injEq]
  constructor
  · rintro ⟨_, ⟨b, hb, hv⟩, hpos, rfl⟩
    exact ⟨b, hb, hv, hpos⟩
  · rintro ⟨b, hb, hv, hpos⟩
    exact ⟨v, ⟨b, hb, hv⟩, hpos, rfl⟩

/-- The parameters that install a policy. -/
structure Installed (i : Install) (pol : Policy) : Prop where
  lim : ∃ b, i.params limKey = some b ∧ b.length = 8 ∧ be64 b = pol.lim
  plm : ∃ b, i.params plmKey = some b ∧ b.length = 8 ∧ be64 b = pol.plm
  per : ∃ b, i.params perKey = some b ∧ PerBytes b pol.per ∧ 0 < pol.per

theorem readPolicy_ok {i : Install} {pol : Policy} : readPolicy i = .ok pol ↔ Installed i pol := by
  simp only [readPolicy, bind_ok, dropsParam_ok, readPer_ok, pure, Except.pure, Except.ok.injEq]
  constructor
  · rintro ⟨lim, hlim, plm, hplm, per, hper, rfl⟩
    exact ⟨hlim, hplm, hper⟩
  · rintro ⟨hlim, hplm, hper⟩
    exact ⟨_, hlim, _, hplm, _, hper, rfl⟩

theorem readAmount_ok {tx : Otxn} {lim amount : UInt64} :
    readAmount tx lim = .ok amount ↔ xahcOtxnDrops tx = (amount.toNat : Int) ∧ amount ≤ lim := by
  simp only [readAmount, bind_ok, require_ok, decide_eq_true_eq, exists_const, pure, Except.pure,
    Except.ok.injEq]
  constructor
  · rintro ⟨hpos, hlim, rfl⟩
    refine ⟨?_, hlim⟩
    obtain ⟨b, hb, hlen, hnat⟩ := native_of_drops hpos
    rw [drops_of_native hb hlen hnat]
    have : beNat b % 2 ^ 62 < 2 ^ 64 := (Nat.mod_lt _ (by decide)).trans (by decide)
    rw [Int.toNat_natCast, UInt64.toNat_ofNat_of_lt' this]
  · rintro ⟨hdrops, hlim⟩
    rw [hdrops, Int.toNat_natCast, UInt64.ofNat_toNat]
    exact ⟨by omega, hlim, rfl⟩

/-- The stored values from which the Hook opens a fresh period: none, or one too long to read. -/
def Unread (v : Option Bytes) : Prop := v = none ∨ ∃ b, v = some b ∧ 16 < b.length

theorem readPeriod_ok {st : HookState} {now per : UInt64} {p : Period} :
    readPeriod st now per = .ok p ↔
      (∃ b, st skey = some b ∧ b.length = 16 ∧ p = (Period.decode b).roll now per) ∨
        (Unread (st skey) ∧ p = ⟨now, 0⟩) := by
  unfold readPeriod Unread
  rw [← readInto_rc_neg]
  simp only
  constructor
  · intro h
    split at h
    · rename_i hrc
      obtain ⟨b, hb, hlen⟩ := (readInto_rc_eq (le_refl 16)).mp hrc
      rw [hb, readInto_fits (by omega)] at h
      exact Or.inl ⟨b, hb, hlen, by simpa using h.symm⟩
    split at h
    · rename_i hneg
      exact Or.inr ⟨hneg, by simpa using h.symm⟩
    · cases h
  · rintro (⟨b, hb, hlen, rfl⟩ | ⟨hneg, rfl⟩)
    · rw [hb, readInto_fits (by omega)]
      simp [hlen]
    · rw [if_neg (by omega), if_pos hneg]

/-- The destination lock as the Hook enforces it. -/
def DestinationOk (i : Install) (tx : Otxn) : Prop :=
  ∀ d, i.params dstKey = some d → d.length = 20 → tx.field sfDestination = some d

theorem checkDestination_ok {i : Install} {tx : Otxn} {u : Unit} :
    checkDestination i tx = .ok u ↔ DestinationOk i tx := by
  unfold checkDestination DestinationOk
  simp only
  split
  · rename_i hrc
    obtain ⟨d, hd, hlen⟩ := (readInto_rc_eq (le_refl 20)).mp hrc
    rw [Install.hookParam, hd, readInto_fits (by omega)]
    simp only [bind_ok, require_ok, decide_eq_true_eq, exists_const, Option.some.injEq, forall_eq', hlen,
      forall_const]
    constructor
    · rintro ⟨hdest, hsame⟩
      obtain ⟨b, hb, hblen⟩ := (readInto_rc_eq (le_refl 20)).mp hdest
      rw [Otxn.otxnField, hb, readInto_fits (by omega)] at hsame
      rw [hb, (sameAccount_iff hblen hlen).mp hsame]
    · intro hb
      rw [Otxn.otxnField, hb, readInto_fits (by omega)]
      exact ⟨by simp [hlen], (sameAccount_iff hlen hlen).mpr rfl⟩
  · rename_i hrc
    simp only [true_iff]
    intro d hd hlen
    exact absurd ((readInto_rc_eq (le_refl 20)).mpr ⟨d, hd, hlen⟩) hrc

/-! ## What an accepted payment went through -/

/-- An outgoing payment of `amount` spent under policy `pol` from period `p`. -/
structure Spends (i : Install) (tx : Otxn) (now : UInt64) (st : HookState) (pol : Policy) (amount : UInt64)
    (p : Period) : Prop where
  outgoing : Outgoing i tx
  installed : Installed i pol
  native : xahcOtxnDrops tx = (amount.toNat : Int)
  cap : amount ≤ pol.lim
  period : readPeriod st now pol.per = .ok p
  room : amount ≤ remaining pol.plm p
  destination : DestinationOk i tx

theorem hookChecks_ok {i : Install} {tx : Otxn} {now : UInt64} {st : HookState} {q : Period} :
    hookChecks i tx now st = .ok q ↔
      ∃ pol amount p, Spends i tx now st pol amount p ∧ q = ⟨p.periodStart, p.spent + amount⟩ := by
  simp only [hookChecks, bind_ok, police_ok, readPolicy_ok, readAmount_ok, checkDestination_ok, require_ok,
    decide_eq_true_eq, exists_const, pure, Except.pure, Except.ok.injEq]
  constructor
  · rintro ⟨hout, pol, hpol, amount, ⟨hnat, hcap⟩, p, hper, hroom, hdest, rfl⟩
    exact ⟨pol, amount, p, ⟨hout, hpol, hnat, hcap, hper, hroom, hdest⟩, rfl⟩
  · rintro ⟨pol, amount, p, h, rfl⟩
    exact ⟨h.outgoing, pol, h.installed, amount, ⟨h.native, h.cap⟩, p, h.period, h.room, h.destination, rfl⟩

theorem require_error {c : Bool} {msg : String} {line : Int} {e : Exit} (h : require c msg line = .error e) :
    e.accepts = false := by
  unfold require at h
  split at h
  · cases h
  · cases h; rfl

theorem readPolicy_error {i : Install} {e : Exit} (h : readPolicy i = .error e) : e.accepts = false := by
  have drops : ∀ {key line}, dropsParam i key line = .error e → e.accepts = false := by
    intro key line h
    rcases bind_error h with h | ⟨_, -, h⟩
    · exact require_error h
    · cases h
  rcases bind_error h with h | ⟨_, -, h⟩
  · exact drops h
  rcases bind_error h with h | ⟨_, -, h⟩
  · exact drops h
  rcases bind_error h with h | ⟨_, -, h⟩
  · rcases bind_error h with h | ⟨_, -, h⟩
    · unfold decodePer at h
      split at h
      · cases h
      split at h
      · cases h
      · cases h; rfl
    · rcases bind_error h with h | ⟨_, -, h⟩
      · exact require_error h
      · cases h
  · cases h

theorem readAmount_error {tx : Otxn} {lim : UInt64} {e : Exit} (h : readAmount tx lim = .error e) :
    e.accepts = false := by
  rcases bind_error h with h | ⟨_, -, h⟩
  · exact require_error h
  rcases bind_error h with h | ⟨_, -, h⟩
  · exact require_error h
  · cases h

theorem readPeriod_error {st : HookState} {now per : UInt64} {e : Exit} (h : readPeriod st now per = .error e) :
    e.accepts = false := by
  unfold readPeriod at h
  simp only at h
  split at h
  · cases h
  split at h
  · cases h
  · cases h; rfl

theorem checkDestination_error {i : Install} {tx : Otxn} {e : Exit} (h : checkDestination i tx = .error e) :
    e.accepts = false := by
  unfold checkDestination at h
  simp only at h
  split at h
  · rcases bind_error h with h | ⟨_, -, h⟩ <;> exact require_error h
  · cases h

/-- Past the police phase, every check that fails rolls back. -/
theorem hookChecks_error {i : Install} {tx : Otxn} {now : UInt64} {st : HookState} {e : Exit}
    (hout : Outgoing i tx) (h : hookChecks i tx now st = .error e) : e.accepts = false := by
  rcases bind_error h with h | ⟨_, -, h⟩
  · rw [police_ok (u := ()).mpr hout] at h; cases h
  rcases bind_error h with h | ⟨_, -, h⟩
  · exact readPolicy_error h
  rcases bind_error h with h | ⟨_, -, h⟩
  · exact readAmount_error h
  rcases bind_error h with h | ⟨_, -, h⟩
  · exact readPeriod_error h
  rcases bind_error h with h | ⟨_, -, h⟩
  · exact require_error h
  rcases bind_error h with h | ⟨_, -, h⟩
  · exact checkDestination_error h
  · cases h

/-- The Hook accepts an outgoing payment exactly when it spends, and then stores what it spent. -/
theorem hook_accepts_iff {i : Install} {tx : Otxn} {now : UInt64} {st : HookState} (hout : Outgoing i tx) :
    (hook i tx now st).1.accepts = true ↔ ∃ pol amount p, Spends i tx now st pol amount p := by
  unfold hook
  cases hc : hookChecks i tx now st with
  | error e =>
    simp only [hookChecks_error hout hc, Bool.false_eq_true, false_iff]
    rintro ⟨pol, amount, p, hs⟩
    rw [hookChecks_ok.mpr ⟨pol, amount, p, hs, rfl⟩] at hc
    cases hc
  | ok q =>
    obtain ⟨pol, amount, p, hs, -⟩ := hookChecks_ok.mp hc
    exact ⟨fun _ => ⟨pol, amount, p, hs⟩, fun _ => rfl⟩

theorem hook_spends {i : Install} {tx : Otxn} {now : UInt64} {st : HookState} {pol : Policy} {amount : UInt64}
    {p : Period} (h : Spends i tx now st pol amount p) :
    hook i tx now st =
      (.accept "within policy" 165, st.set skey (Period.encode ⟨p.periodStart, p.spent + amount⟩)) := by
  rw [hook, hookChecks_ok.mpr ⟨pol, amount, p, h, rfl⟩]

/-- A run that does not end in line 165 leaves the state alone. -/
theorem hook_state_of_not_spends {i : Install} {tx : Otxn} {now : UInt64} {st : HookState}
    (h : ¬∃ pol amount p, Spends i tx now st pol amount p) : (hook i tx now st).2 = st := by
  unfold hook
  cases hc : hookChecks i tx now st with
  | error e => rfl
  | ok q =>
    obtain ⟨pol, amount, p, hs, -⟩ := hookChecks_ok.mp hc
    exact absurd ⟨pol, amount, p, hs⟩ h

end Xahc.Guardrail

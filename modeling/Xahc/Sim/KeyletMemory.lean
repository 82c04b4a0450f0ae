/-
Every call of `utilKeylet` ends without a panic, reads nothing that was not checked, and, where its key is a hash,
hashes the arguments its words stand for.
-/
import Xahc.Sim.KeyletPreimage

namespace Xahc.Sim

open Xahc.Data Xahc.Data.Access

section
variable {mem : Bytes} {log : List Event} {a b c d e f : UInt32} {Q : KeyletOut → Prop}

/-! ## Reads -/

theorem octets_of_inside {n : Nat} {p : UInt32} (h : p.toNat + n ≤ mem.length) :
    octets mem n p = some ⟨range mem p.toNat n, range_length h⟩ :=
  dif_pos (range_length h)

/-- A read of a fixed number of bytes that were checked. -/
theorem runs_octets {n : Nat} {p : UInt32} {Q : Bytes → List Event → Prop} (hmem : mem.length ≤ 2 ^ 32)
    (hlog : Covered mem.length log) (hchecked : .checked p.toNat n ∈ log)
    (h : ∀ x, octets mem n p = some x → Q x.1 (.read p.toNat n :: log)) :
    Runs mem (Access.read mem p.toNat n) log Q :=
  runs_read hlog hmem hchecked le_rfl le_rfl (h _ (octets_of_inside (hlog.checked_inside hchecked).2))

theorem runs_long {hi lo : UInt32} {Q : Nat → List Event → Prop} (hlog : Covered mem.length log)
    (h : hi.toNat * 2 ^ 32 + lo.toNat < 2 ^ 64 → Q (hi.toNat * 2 ^ 32 + lo.toNat) log) : Runs mem (long hi lo) log Q := by
  have hhi := hi.toNat_lt
  have hlo := lo.toNat_lt
  have hfits : hi.toNat * 2 ^ 32 + lo.toNat < 2 ^ 64 := by omega
  exact runs_add hlog hfits (h hfits)

theorem runs_sequence {p n : UInt32} {Q : Except KeyletOut Bytes → List Event → Prop} (hmem : mem.length ≤ 2 ^ 32)
    (hlog : Covered mem.length log) (hcode : ∀ code log', Q (.error (.Code code)) log')
    (h : ∀ s log', (∀ ev ∈ log, ev ∈ log') → sequenceArg mem p n = some s → Q (.ok s.bytes) log') :
    Runs mem (sequence mem p n) log Q := by
  rw [sequence]
  apply runs_refuse hlog
  · intro hn
    exact h (.number p) log (fun ev hev => hev) (if_pos hn)
  intro hn
  apply runs_refuse hlog
  · intro _
    exact hcode _ _
  intro h32
  obtain rfl : n = 32 := not_not.1 h32
  apply runs_inside hlog
  · intro _
    exact hcode _ _
  intro _ hlog
  apply Runs.bind
  apply runs_octets (n := 32) hmem hlog (by simp)
  intro x hx hlog
  refine runs_pure hlog (h (.key x) _ (fun ev hev => ?_) ?_)
  · simp [hev]
  · rw [sequenceArg, if_neg hn, hx]
    rfl

/-! ## Refusals -/

theorem runs_unless {p : Prop} [Decidable p] {code : Int} {y : Access KeyletOut} (hlog : Covered mem.length log)
    (hcode : ∀ code, Q (.Code code)) (hy : ¬p → Runs mem y log fun out _ => Q out) :
    Runs mem (if p then pure (.Code code) else y) log fun out _ => Q out :=
  runs_refuse hlog (fun _ => hcode code) hy

theorem runs_within {p n : UInt32} {code : Int} {y : Access KeyletOut} (hlog : Covered mem.length log)
    (hcode : ∀ code, Q (.Code code)) (hy : Covered mem.length (.checked p.toNat n.toNat :: log) →
      Runs mem y (.checked p.toNat n.toNat :: log) fun out _ => Q out) :
    Runs mem (notInBounds mem p n >>= fun out => if out then pure (.Code code) else y) log fun out _ => Q out :=
  runs_inside hlog (fun _ => hcode code) fun _ => hy

/-! ## The arms -/

theorem oob_iff {p n : UInt32} :
    oob mem p n = true ↔ ¬(p.toNat < mem.length ∧ p.toNat + n.toNat ≤ mem.length) := by
  rw [oob, Bool.or_eq_true, decide_eq_true_eq, decide_eq_true_eq, not_and_or, not_lt, not_le]

/-- What a call for a trust line comes to. -/
def lineKeylet (mem : Bytes) (a b c d e f : UInt32) : KeyletOut :=
  if a = 0 ∨ b = 0 ∨ c = 0 ∨ d = 0 ∨ e = 0 ∨ f = 0 then IA
  else if oob mem a b ∨ oob mem c d ∨ oob mem e f then OOB
  else if b ≠ 20 ∨ d ≠ 20 then IA
  else match parseCurrency (range mem e.toNat f.toNat) with
    | none => IA
    | some cur =>
      let ends := minmax (range mem a.toNat 20) (range mem c.toNat 20)
      .Keylet LT_RIPPLE_STATE (.indexHash NS_TRUST_LINE [ends.1, ends.2, cur])

theorem lineKeylet_swap (mem : Bytes) (a b c d e f : UInt32) :
    lineKeylet mem a b c d e f = lineKeylet mem c d a b e f := by
  rw [lineKeylet, lineKeylet, minmax_comm]
  refine if_congr (by tauto) rfl (if_congr (by tauto) rfl (if_congr or_comm rfl rfl))

variable (hmem : mem.length ≤ 2 ^ 32) (hlog : Covered mem.length log) (hcode : ∀ code, Q (.Code code))
include hmem hlog hcode

theorem runs_keyletId {key : Bytes → KeyletOut} (hkey : ∀ x, octets mem 32 a = some x → Q (key x.1)) :
    Runs mem (keyletId mem a b c d e f key) log fun out _ => Q out := by
  rw [keyletId]
  apply runs_unless hlog hcode
  intro _
  apply runs_within hlog hcode
  intro hlog
  apply runs_unless hlog hcode
  intro hb
  obtain rfl : b = 32 := not_not.1 hb
  apply Runs.bind
  apply runs_octets (n := 32) hmem hlog (by simp)
  intro x hx hlog
  exact runs_pure hlog (hkey x hx)

theorem runs_keyletAccount {key : Bytes → KeyletOut} (hkey : ∀ x, octets mem 20 a = some x → Q (key x.1)) :
    Runs mem (keyletAccount mem a b c d e f key) log fun out _ => Q out := by
  rw [keyletAccount]
  apply runs_unless hlog hcode
  intro _
  apply runs_within hlog hcode
  intro hlog
  apply runs_unless hlog hcode
  intro hb
  obtain rfl : b = 20 := not_not.1 hb
  apply Runs.bind
  apply runs_octets (n := 20) hmem hlog (by simp)
  intro x hx hlog
  exact runs_pure hlog (hkey x hx)

theorem runs_keyletSequenced {key : Bytes → Bytes → KeyletOut}
    (hkey : ∀ x s, octets mem 20 a = some x → sequenceArg mem c d = some s → Q (key x.1 s.bytes)) :
    Runs mem (keyletSequenced mem a b c d e f key) log fun out _ => Q out := by
  rw [keyletSequenced]
  apply runs_unless hlog hcode
  intro _
  apply runs_within hlog hcode
  intro hlog
  apply runs_unless hlog hcode
  intro hb
  obtain rfl : b = 20 := not_not.1 hb
  apply Runs.bind
  apply runs_octets (n := 20) hmem hlog (by simp)
  intro x hx hlog
  apply Runs.bind
  apply runs_sequence hmem hlog
  · intro code _ hlog
    exact runs_pure hlog (hcode code)
  · intro s _ _ hs hlog
    exact runs_pure hlog (hkey x s hx hs)

theorem runs_keyletCron {rules : KeyletRules}
    (hkey : ∀ x, octets mem 20 a = some x → Q (.Keylet LT_CRON (.splice (.indexHash NS_CRON []) (be32 c)
      (.indexHash NS_CRON [be32 c, x.1])))) :
    Runs mem (keyletCron mem a b c d e f rules) log fun out _ => Q out := by
  rw [keyletCron]
  apply runs_unless hlog hcode
  intro _
  apply runs_unless hlog hcode
  intro _
  apply runs_within hlog hcode
  intro hlog
  apply runs_unless hlog hcode
  intro hb
  obtain rfl : b = 20 := not_not.1 hb
  apply Runs.bind
  apply runs_octets (n := 20) hmem hlog (by simp)
  intro x hx hlog
  exact runs_pure hlog (hkey x hx)

theorem runs_keyletQuality (hkey : ∀ key, Q (.Keylet LT_DIR_NODE (.raw key))) :
    Runs mem (keyletQuality mem a b c d e f) log fun out _ => Q out := by
  rw [keyletQuality]
  apply runs_unless hlog hcode
  intro _
  apply runs_within hlog hcode
  intro hlog
  apply runs_unless hlog hcode
  intro hb
  obtain rfl : b = 34 := not_not.1 hb
  -- the one range that is checked covers the bytes and the rest, which are read one after another
  have hchecked : .checked a.toNat 34 ∈ Event.checked a.toNat (34 : UInt32).toNat :: log := by simp
  have hin := hlog.checked_inside hchecked
  apply Runs.bind
  apply runs_readByte hlog hchecked le_rfl (by omega)
  intro _ _ hlog
  apply runs_unless hlog hcode
  intro _
  apply Runs.bind
  apply runs_add hlog (by omega)
  intro hlog
  apply Runs.bind
  apply runs_readByte hlog (List.mem_cons_of_mem _ hchecked) (by omega) (by omega)
  intro _ _ hlog
  apply runs_unless hlog hcode
  intro _
  apply Runs.bind
  apply runs_add hlog (by omega)
  intro hlog
  apply Runs.bind
  apply runs_read hlog hmem (List.mem_cons_of_mem _ (List.mem_cons_of_mem _ hchecked)) (by omega) (by omega)
  intro hlog
  apply Runs.bind
  apply runs_long hlog
  intro _ hlog
  exact runs_pure hlog (hkey _)

theorem runs_keyletPage (hraw : ∀ key, Q (.Keylet LT_DIR_NODE (.raw key)))
    (hkey : ∀ x, octets mem 32 a = some x → Q (.Keylet LT_DIR_NODE
      (.indexHash NS_DIR_NODE [x.1, natBE 8 (UInt64.ofNat (c.toNat * 2 ^ 32 + d.toNat)).toNat]))) :
    Runs mem (keyletPage mem a b c d e f) log fun out _ => Q out := by
  rw [keyletPage]
  apply runs_unless hlog hcode
  intro _
  apply runs_within hlog hcode
  intro hlog
  apply runs_unless hlog hcode
  intro hb
  obtain rfl : b = 32 := not_not.1 hb
  apply Runs.bind
  apply runs_octets (n := 32) hmem hlog (by simp)
  intro x hx hlog
  apply Runs.bind
  apply runs_long hlog
  intro hfits hlog
  apply runs_refuse hlog
  · intro _
    exact hraw _
  intro _
  have hq := hkey x hx
  rw [UInt64.toNat_ofNat_of_lt' hfits] at hq
  exact runs_pure hlog hq

theorem runs_keyletHookState (hkey : ∀ x y z, octets mem 20 a = some x → octets mem 32 c = some y →
      octets mem 32 e = some z → Q (.Keylet LT_HOOK_STATE (.indexHash NS_HOOK_STATE [x.1, y.1, z.1]))) :
    Runs mem (keyletHookState mem a b c d e f) log fun out _ => Q out := by
  rw [keyletHookState]
  apply runs_unless hlog hcode
  intro _
  apply runs_within hlog hcode
  intro hlog
  apply runs_within hlog hcode
  intro hlog
  apply runs_within hlog hcode
  intro hlog
  apply runs_unless hlog hcode
  intro h
  obtain ⟨rfl, rfl, rfl⟩ : b = 20 ∧ d = 32 ∧ f = 32 := by simpa only [not_or, not_not] using h
  apply Runs.bind
  apply runs_octets (n := 20) hmem hlog (by simp)
  intro x hx hlog
  apply Runs.bind
  apply runs_octets (n := 32) hmem hlog (by simp)
  intro y hy hlog
  apply Runs.bind
  apply runs_octets (n := 32) hmem hlog (by simp)
  intro z hz hlog
  exact runs_pure hlog (hkey x y z hx hy hz)

theorem runs_keyletHookStateDir {rules : KeyletRules} (hkey : ∀ x y, octets mem 20 a = some x →
      octets mem 32 c = some y → Q (.Keylet LT_DIR_NODE (.indexHash NS_HOOK_STATE_DIR [x.1, y.1]))) :
    Runs mem (keyletHookStateDir mem a b c d e f rules) log fun out _ => Q out := by
  rw [keyletHookStateDir]
  apply runs_unless hlog hcode
  intro _
  apply runs_unless hlog hcode
  intro _
  apply runs_within hlog hcode
  intro hlog
  apply runs_within hlog hcode
  intro hlog
  apply runs_unless hlog hcode
  intro h
  obtain ⟨rfl, rfl⟩ : b = 20 ∧ d = 32 := by simpa only [not_or, not_not] using h
  apply Runs.bind
  apply runs_octets (n := 20) hmem hlog (by simp)
  intro x hx hlog
  apply Runs.bind
  apply runs_octets (n := 32) hmem hlog (by simp)
  intro y hy hlog
  exact runs_pure hlog (hkey x y hx hy)

theorem runs_keyletDepositPreauth (hkey : ∀ x y, octets mem 20 a = some x → octets mem 20 c = some y →
      Q (.Keylet LT_DEPOSIT_PREAUTH (.indexHash NS_DEPOSIT_PREAUTH [x.1, y.1]))) :
    Runs mem (keyletDepositPreauth mem a b c d e f) log fun out _ => Q out := by
  rw [keyletDepositPreauth]
  apply runs_unless hlog hcode
  intro _
  apply runs_within hlog hcode
  intro hlog
  apply runs_within hlog hcode
  intro hlog
  apply runs_unless hlog hcode
  intro h
  obtain ⟨rfl, rfl⟩ : b = 20 ∧ d = 20 := by simpa only [not_or, not_not] using h
  apply Runs.bind
  apply runs_octets (n := 20) hmem hlog (by simp)
  intro x hx hlog
  apply Runs.bind
  apply runs_octets (n := 20) hmem hlog (by simp)
  intro y hy hlog
  exact runs_pure hlog (hkey x y hx hy)

theorem runs_keyletPaychan (hkey : ∀ x y s, octets mem 20 a = some x → octets mem 20 c = some y →
      sequenceArg mem e f = some s → Q (.Keylet LT_PAYCHAN (.indexHash NS_PAYMENT_CHANNEL [x.1, y.1, s.bytes]))) :
    Runs mem (keyletPaychan mem a b c d e f) log fun out _ => Q out := by
  rw [keyletPaychan]
  apply runs_unless hlog hcode
  intro _
  apply runs_within hlog hcode
  intro hlog
  apply runs_within hlog hcode
  intro hlog
  apply runs_unless hlog hcode
  intro h
  obtain ⟨rfl, rfl⟩ : b = 20 ∧ d = 20 := by simpa only [not_or, not_not] using h
  apply Runs.bind
  apply runs_sequence hmem hlog
  · intro code _ hlog
    exact runs_pure hlog (hcode code)
  intro s log' hsub hs hlog
  apply Runs.bind
  apply runs_octets (n := 20) hmem hlog (hsub _ (by simp))
  intro x hx hlog
  apply Runs.bind
  apply runs_octets (n := 20) hmem hlog (List.mem_cons_of_mem _ (hsub _ (by simp)))
  intro y hy hlog
  exact runs_pure hlog (hkey x y s hx hy hs)

omit hcode in
/-- The call for a trust line, but for the record of what it read. -/
theorem runs_keyletLine : Runs mem (keyletLine mem a b c d e f) log fun out _ => out = lineKeylet mem a b c d e f := by
  rw [keyletLine, lineKeylet]
  apply runs_refuse hlog
  · intro hzero
    rw [if_pos hzero]
  intro hzero
  rw [if_neg hzero]
  apply runs_inside hlog
  · intro hout
    rw [if_pos (.inl (oob_iff.2 hout))]
  intro hab hlog
  apply runs_inside hlog
  · intro hout
    rw [if_pos (.inr (.inl (oob_iff.2 hout)))]
  intro hcd hlog
  apply runs_inside hlog
  · intro hout
    rw [if_pos (.inr (.inr (oob_iff.2 hout)))]
  intro hef hlog
  -- all three ranges were checked before any is read
  have hin : ¬(oob mem a b ∨ oob mem c d ∨ oob mem e f) := by
    simp only [oob_iff, not_or, not_not]
    exact ⟨hab, hcd, hef⟩
  rw [if_neg hin]
  apply runs_refuse hlog
  · intro hlen
    rw [if_pos hlen]
  intro hlen
  rw [if_neg hlen]
  obtain ⟨rfl, rfl⟩ : b = 20 ∧ d = 20 := by simpa only [not_or, not_not] using hlen
  apply Runs.bind
  apply runs_read hlog hmem List.mem_cons_self le_rfl le_rfl
  intro hlog
  cases hcur : parseCurrency (range mem e.toNat f.toNat) with
  | none => exact runs_pure hlog rfl
  | some cur =>
    apply Runs.bind
    apply runs_read hlog hmem (q := a.toNat) (k := 20) (by simp) le_rfl le_rfl
    intro hlog
    apply Runs.bind
    apply runs_read hlog hmem (q := c.toNat) (k := 20) (by simp) le_rfl le_rfl
    intro hlog
    exact runs_pure hlog rfl

end

/-! ## The call -/

section
variable {mem : Bytes} {kt a b c d e f : UInt32}

/-- A line's keylet is that of its accounts and its currency. -/
theorem lineKeylet_cases (mem : Bytes) (a b c d e f : UInt32) :
    (∃ code, lineKeylet mem a b c d e f = .Code code) ∨
      ∃ x y cur, octets mem 20 a = some x ∧ octets mem 20 c = some y ∧ currencyArg mem e f = some cur ∧
        lineKeylet mem a b c d e f = .Keylet LT_RIPPLE_STATE (.indexHash NS_TRUST_LINE
          [(minmax x.1 y.1).1, (minmax x.1 y.1).2, cur.1]) := by
  rw [lineKeylet]
  by_cases hzero : a = 0 ∨ b = 0 ∨ c = 0 ∨ d = 0 ∨ e = 0 ∨ f = 0
  · exact .inl ⟨_, if_pos hzero⟩
  rw [if_neg hzero]
  by_cases hout : oob mem a b ∨ oob mem c d ∨ oob mem e f
  · exact .inl ⟨_, if_pos hout⟩
  rw [if_neg hout]
  by_cases hlen : b ≠ 20 ∨ d ≠ 20
  · exact .inl ⟨_, if_pos hlen⟩
  rw [if_neg hlen]
  obtain ⟨rfl, rfl⟩ : b = 20 ∧ d = 20 := by simpa only [not_or, not_not] using hlen
  simp only [oob_iff, not_or, not_not] at hout
  obtain ⟨⟨-, ha⟩, ⟨-, hc⟩, -⟩ := hout
  cases hcur : parseCurrency (range mem e.toNat f.toNat) with
  | none => exact .inl ⟨_, rfl⟩
  | some cur =>
    have hlen := parseCurrency_length hcur
    refine .inr ⟨_, _, ⟨cur, hlen⟩, octets_of_inside ha, octets_of_inside hc, ?_, rfl⟩
    rw [currencyArg, hcur]
    exact dif_pos hlen

/-- A keylet whose key is a hash is that of its type and of the arguments the words stand for. -/
def Meant (mem : Bytes) (kt a b c d e f : UInt32) : KeyletOut → Prop
  | .Keylet ty key => key.preimage.isSome → ∃ (t : KeyletType) (x : Args t), kt.toNat = t.code ∧
      arguments mem t a b c d e f = some x ∧ ty = t.entry ∧ key = Subject.key ⟨t, x⟩
  | _ => True

theorem runs_keyletSingleton {log : List Event} {Q : KeyletOut → Prop} {ty space : Nat} (hlog : Covered mem.length log)
    (hcode : ∀ code, Q (.Code code)) (hkey : Q (.Keylet ty (.indexHash space []))) :
    Runs mem (keyletSingleton a b c d e f ty space) log fun out _ => Q out :=
  runs_unless hlog hcode fun _ => runs_pure hlog hkey

theorem runs_keyletSkip {log : List Event} (h : kt.toNat = KeyletType.SKIP.code) (hlog : Covered mem.length log) :
    Runs mem (keyletSkip a b c d e f) log fun out _ => Meant mem kt a b c d e f out := by
  rw [keyletSkip]
  apply runs_unless hlog fun _ => trivial
  intro _
  apply runs_refuse hlog
  · intro hb _
    exact ⟨.SKIP, none, h, by rw [arguments, if_pos hb], rfl, rfl⟩
  intro hb
  exact runs_pure hlog fun _ => ⟨.SKIP, some (a >>> 16), h, by rw [arguments, if_neg hb], rfl, rfl⟩

/-- Whatever the type and the words, the call ends, its reads are checked, and its keylet is the one that is meant. -/
theorem runs_utilKeylet {log : List Event} (hmem : mem.length ≤ 2 ^ 32) (hlog : Covered mem.length log)
    (kt a b c d e f : UInt32) (rules : KeyletRules) :
    Runs mem (utilKeylet mem kt a b c d e f rules) log fun out _ => Meant mem kt a b c d e f out := by
  -- a code stands for no object, and neither does a key that is taken as it is
  have hcode : ∀ code, Meant mem kt a b c d e f (.Code code) := fun _ => trivial
  have hraw : ∀ ty key, Meant mem kt a b c d e f (.Keylet ty (.raw key)) := fun _ _ h => nomatch h
  rw [utilKeylet]
  split
  -- one goal for each type, in the order of the match in util_keylet
  next => exact runs_keyletQuality hmem hlog hcode (hraw _)
  next => exact runs_keyletId hmem hlog hcode fun _ _ => hraw _ _
  next h => exact runs_keyletId hmem hlog hcode fun x hx _ => ⟨.EMITTED_TXN, x, h, hx, rfl, rfl⟩
  next h => exact runs_keyletId hmem hlog hcode fun x hx _ => ⟨.HOOK_DEFINITION, x, h, hx, rfl, rfl⟩
  next => exact runs_keyletId hmem hlog hcode fun _ _ => hraw _ _
  next => exact runs_pure hlog trivial
  next h => exact runs_keyletAccount hmem hlog hcode fun x hx _ => ⟨.HOOK, x, h, hx, rfl, rfl⟩
  next h => exact runs_keyletAccount hmem hlog hcode fun x hx _ => ⟨.SIGNERS, x, h, hx, rfl, rfl⟩
  next h => exact runs_keyletAccount hmem hlog hcode fun x hx _ => ⟨.OWNER_DIR, x, h, hx, rfl, rfl⟩
  next h => exact runs_keyletAccount hmem hlog hcode fun x hx _ => ⟨.ACCOUNT, x, h, hx, rfl, rfl⟩
  next => exact runs_pure hlog trivial
  next => exact runs_pure hlog trivial
  next => exact runs_pure hlog trivial
  next h =>
    refine runs_keyletSequenced hmem hlog hcode fun x s hx hs _ => ⟨.CHECK, (x, s), h, ?_, rfl, rfl⟩
    rw [arguments, hx, hs]
    rfl
  next h =>
    refine runs_keyletSequenced hmem hlog hcode fun x s hx hs _ => ⟨.ESCROW, (x, s), h, ?_, rfl, rfl⟩
    rw [arguments, hx, hs]
    rfl
  next h =>
    refine runs_keyletSequenced hmem hlog hcode fun x s hx hs _ => ⟨.NFT_OFFER, (x, s), h, ?_, rfl, rfl⟩
    rw [arguments, hx, hs]
    rfl
  next h =>
    refine runs_keyletSequenced hmem hlog hcode fun x s hx hs _ => ⟨.OFFER, (x, s), h, ?_, rfl, rfl⟩
    rw [arguments, hx, hs]
    rfl
  next h =>
    refine runs_keyletCron hmem hlog hcode fun x hx _ => ⟨.CRON, (x, c), h, ?_, rfl, rfl⟩
    rw [arguments, hx]
    rfl
  next h =>
    refine runs_keyletPage hmem hlog hcode (hraw _) fun x hx _ => ⟨.PAGE, (x, _), h, ?_, rfl, rfl⟩
    rw [arguments, hx]
    rfl
  next h =>
    refine runs_keyletHookState hmem hlog hcode fun x y z hx hy hz _ => ⟨.HOOK_STATE, (x, y, z), h, ?_, rfl, rfl⟩
    rw [arguments, hx, hy, hz]
    rfl
  next h =>
    refine runs_keyletHookStateDir hmem hlog hcode fun x y hx hy _ => ⟨.HOOK_STATE_DIR, (x, y), h, ?_, rfl, rfl⟩
    rw [arguments, hx, hy]
    rfl
  next h => exact runs_keyletSkip h hlog
  next h => exact runs_keyletSingleton hlog hcode fun _ => ⟨.AMENDMENTS, (), h, rfl, rfl, rfl⟩
  next h => exact runs_keyletSingleton hlog hcode fun _ => ⟨.FEES, (), h, rfl, rfl, rfl⟩
  next h => exact runs_keyletSingleton hlog hcode fun _ => ⟨.NEGATIVE_UNL, (), h, rfl, rfl, rfl⟩
  next h => exact runs_keyletSingleton hlog hcode fun _ => ⟨.EMITTED_DIR, (), h, rfl, rfl, rfl⟩
  next h =>
    -- the two accounts of a line are sorted first, so its outcome is read off case by case
    refine (runs_keyletLine hmem hlog).mono fun out _ hout => ?_
    rcases lineKeylet_cases mem a b c d e f with ⟨code, hc⟩ | ⟨x, y, cur, hx, hy, hcur, hk⟩
    · rw [hout, hc]
      exact hcode code
    · rw [hout, hk]
      refine fun _ => ⟨.LINE, (s(x, y), cur), h, ?_, rfl, rfl⟩
      rw [arguments, hx, hy, hcur]
      rfl
  next h =>
    refine runs_keyletDepositPreauth hmem hlog hcode fun x y hx hy _ => ⟨.DEPOSIT_PREAUTH, (x, y), h, ?_, rfl, rfl⟩
    rw [arguments, hx, hy]
    rfl
  next h =>
    refine runs_keyletPaychan hmem hlog hcode fun x y s hx hy hs _ => ⟨.PAYCHAN, (x, y, s), h, ?_, rfl, rfl⟩
    rw [arguments, hx, hy, hs]
    rfl
  next => exact runs_pure hlog trivial

end

/-- The call as it is registered, up to the writing of a keylet: the range to write to is checked first. -/
def utilKeyletCall (mem : Bytes) (wp wl kt a b c d e f : UInt32) (rules : KeyletRules) : Access KeyletOut := do
  if ← notInBounds mem wp wl then return OOB
  if wl < 34 then return .Code rc.TOO_SMALL
  utilKeylet mem kt a b c d e f rules

theorem runs_utilKeyletCall {mem : Bytes} (hmem : mem.length ≤ 2 ^ 32) (wp wl kt a b c d e f : UInt32)
    (rules : KeyletRules) :
    Runs mem (utilKeyletCall mem wp wl kt a b c d e f rules) [] fun out _ =>
      ∀ ty key, out = .Keylet ty key → wp.toNat + 34 ≤ mem.length := by
  have hcode : ∀ code, ∀ ty key, KeyletOut.Code code = .Keylet ty key → wp.toNat + 34 ≤ mem.length :=
    fun _ _ _ h => nomatch h
  rw [utilKeyletCall]
  apply runs_inside (covered_nil _)
  · intro _
    exact hcode _
  intro hin hlog
  apply runs_unless hlog hcode
  intro hwl
  refine (runs_utilKeylet hmem hlog kt a b c d e f rules).mono fun _ _ _ _ _ _ => ?_
  have hlen := UInt32.le_iff_toNat_le.1 (UInt32.not_lt.1 hwl)
  exact (Nat.add_le_add_left hlen _).trans hin.2

/-- Whatever its memory and its words, a call ends without a panic, every range it read had been checked, lies inside
the memory, and so does what it writes. -/
theorem util_keylet_reads_checked (mem : LinearMemory) (wp wl kt a b c d e f : UInt32) (rules : KeyletRules) :
    (∃ out log, utilKeylet mem.bytes kt a b c d e f rules [] = .ok (out, log) ∧ Covered mem.bytes.length log ∧
      ∀ p n, .read p n ∈ log → p + n ≤ mem.bytes.length) ∧
    ∃ out log, utilKeyletCall mem.bytes wp wl kt a b c d e f rules [] = .ok (out, log) ∧
      Covered mem.bytes.length log ∧ (∀ p n, .read p n ∈ log → p + n ≤ mem.bytes.length) ∧
      ∀ ty key, out = .Keylet ty key → wp.toNat + 34 ≤ mem.bytes.length := by
  constructor
  · obtain ⟨out, log, hrun, hlog, -⟩ := runs_utilKeylet mem.length_le (covered_nil _) kt a b c d e f rules
    exact ⟨out, log, hrun, hlog, fun p n => hlog.read_inside⟩
  · obtain ⟨out, log, hrun, hlog, hout⟩ := runs_utilKeyletCall mem.length_le wp wl kt a b c d e f rules
    exact ⟨out, log, hrun, hlog, fun p n => hlog.read_inside, hout⟩

/-! ## Preimages -/

/-- A call with its argument words and the memory they point into. -/
structure KeyletCall where
  mem : LinearMemory
  kt : UInt32
  a : UInt32
  b : UInt32
  c : UInt32
  d : UInt32
  e : UInt32
  f : UInt32
  rules : KeyletRules := {}

namespace KeyletCall

/-- What the call gives. -/
def out (k : KeyletCall) : Checked KeyletOut :=
  Prod.fst <$> utilKeylet k.mem.bytes k.kt k.a k.b k.c k.d k.e k.f k.rules []

/-- The call succeeds, and its key is derived from the hash of a namespace and bytes. -/
def Hashes (k : KeyletCall) (p : Nat × Bytes) : Prop := ∃ ty key, k.out = .ok (.Keylet ty key) ∧ key.preimage = some p

/-- The call has a type and logical arguments. -/
def About (k : KeyletCall) (s : Subject) : Prop :=
  k.kt.toNat = s.1.code ∧ arguments k.mem.bytes s.1 k.a k.b k.c k.d k.e k.f = some s.2

/-- The call with its first two ranges exchanged. -/
def swapped (k : KeyletCall) : KeyletCall := { k with a := k.c, b := k.d, c := k.a, d := k.b }

theorem out_meant (k : KeyletCall) : ∃ out, k.out = .ok out ∧ Meant k.mem.bytes k.kt k.a k.b k.c k.d k.e k.f out := by
  obtain ⟨out, log, hrun, -, hm⟩ := runs_utilKeylet k.mem.length_le (covered_nil _) k.kt k.a k.b k.c k.d k.e k.f k.rules
  exact ⟨out, by rw [KeyletCall.out, hrun]; rfl, hm⟩

/-- What is hashed belongs to what the call is about. -/
theorem Hashes.about {k : KeyletCall} {p : Nat × Bytes} (h : k.Hashes p) :
    ∃ s, k.About s ∧ p = s.preimage ∧ k.out = .ok (.Keylet s.1.entry s.key) := by
  obtain ⟨ty, key, hout, hp⟩ := h
  obtain ⟨out, hout', hm⟩ := k.out_meant
  obtain rfl : .Keylet ty key = out := Except.ok.inj (hout.symm.trans hout')
  obtain ⟨t, x, ht, hx, rfl, rfl⟩ := hm (by rw [hp]; rfl)
  rw [Subject.key_preimage] at hp
  exact ⟨⟨t, x⟩, ⟨ht, hx⟩, (Option.some.inj hp).symm, hout⟩

theorem out_line (k : KeyletCall) (h : k.kt = 9) :
    k.out = .ok (lineKeylet k.mem.bytes k.a k.b k.c k.d k.e k.f) := by
  obtain ⟨out, log, hrun, -, rfl⟩ := runs_keyletLine (a := k.a) (b := k.b) (c := k.c) (d := k.d) (e := k.e) (f := k.f)
    k.mem.length_le (covered_nil _)
  rw [KeyletCall.out, h]
  show Prod.fst <$> keyletLine k.mem.bytes k.a k.b k.c k.d k.e k.f [] = _
  rw [hrun]
  rfl

end KeyletCall

/-- Two calls whose keys hash the same are of one type and about the same arguments, and calls about the same have the
same keylet; a trust line is the same from either end. -/
theorem keylet_preimages_tell_arguments :
    (∀ (k k' : KeyletCall) (p p' : Nat × Bytes), k.Hashes p → k'.Hashes p' → ∃ s s', k.About s ∧ k'.About s' ∧
      (p = p' → k.kt = k'.kt ∧ s = s') ∧ (s = s' → k.out = k'.out)) ∧
    ∀ k : KeyletCall, k.kt = 9 → k.swapped.out = k.out := by
  constructor
  · intro k k' p p' hk hk'
    obtain ⟨s, habout, rfl, hout⟩ := hk.about
    obtain ⟨s', habout', rfl, hout'⟩ := hk'.about
    refine ⟨s, s', habout, habout', fun hp => ?_, ?_⟩
    · obtain rfl := Subject.preimage_injective hp
      exact ⟨UInt32.toNat_inj.1 (habout.1.trans habout'.1.symm), rfl⟩
    · rintro rfl
      exact hout.trans hout'.symm
  · intro k hk
    rw [k.out_line hk, k.swapped.out_line hk, lineKeylet_swap]
    rfl

/-- A call on a memory of sevens. -/
def sevens (kt a b c d e f : UInt32) : KeyletCall := ⟨⟨List.replicate 61 7, by decide⟩, kt, a, b, c, d, e, f, {}⟩

/-- The account keylet asked for at two addresses that hold the same account, and a trust line from both ends. -/
theorem keylet_preimages_tell_arguments_account :
    (∃ s, (sevens 3 1 20 0 0 0 0).About s ∧ (sevens 3 2 20 0 0 0 0).About s) ∧
      (sevens 3 1 20 0 0 0 0).out = (sevens 3 2 20 0 0 0 0).out ∧
      (sevens 9 21 20 1 20 41 20).out = (sevens 9 1 20 21 20 41 20).out := by
  obtain ⟨htell, hline⟩ := keylet_preimages_tell_arguments
  have hfirst : (sevens 3 1 20 0 0 0 0).Hashes (NS_ACCOUNT, List.replicate 20 7) := ⟨_, _, rfl, rfl⟩
  have hsecond : (sevens 3 2 20 0 0 0 0).Hashes (NS_ACCOUNT, List.replicate 20 7) := ⟨_, _, rfl, rfl⟩
  obtain ⟨s, s', habout, habout', hsame, hout⟩ := htell _ _ _ _ hfirst hsecond
  obtain ⟨-, rfl⟩ := hsame rfl
  exact ⟨⟨s, habout, habout'⟩, hout rfl, hline (sevens 9 1 20 21 20 41 20) rfl⟩

end Xahc.Sim

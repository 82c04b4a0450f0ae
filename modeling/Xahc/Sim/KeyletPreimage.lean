/-
What a hash-derived keylet is the keylet of: its type and its logical arguments, the bytes that are hashed for it, and
that these tell type and arguments. Over it, the arguments that the six words of a call stand for.
-/
import Mathlib.Data.Sym.Sym2
import Xahc.Sim.Keylet

namespace Xahc.Sim

open Xahc.Data Xahc.Data.Access

/-! ## Types -/

/-- The types whose keys are hashes, by the names the calls have for them. -/
inductive KeyletType where
  | HOOK | HOOK_STATE | ACCOUNT | AMENDMENTS | SKIP | FEES | NEGATIVE_UNL | LINE | OFFER | EMITTED_DIR | SIGNERS | CHECK
  | DEPOSIT_PREAUTH | OWNER_DIR | PAGE | ESCROW | PAYCHAN | EMITTED_TXN | NFT_OFFER | HOOK_DEFINITION | HOOK_STATE_DIR
  | CRON
  deriving DecidableEq, Repr

namespace KeyletType

/-- The namespace a type's preimages start with. -/
def space : KeyletType → Nat
  | HOOK => NS_HOOK
  | HOOK_STATE => NS_HOOK_STATE
  | ACCOUNT => NS_ACCOUNT
  | AMENDMENTS => NS_AMENDMENTS
  | SKIP => NS_SKIP_LIST
  | FEES => NS_FEE_SETTINGS
  | NEGATIVE_UNL => NS_NEGATIVE_UNL
  | LINE => NS_TRUST_LINE
  | OFFER => NS_OFFER
  | EMITTED_DIR => NS_EMITTED_DIR
  | SIGNERS => NS_SIGNER_LIST
  | CHECK => NS_CHECK
  | DEPOSIT_PREAUTH => NS_DEPOSIT_PREAUTH
  | OWNER_DIR => NS_OWNER_DIR
  | PAGE => NS_DIR_NODE
  | ESCROW => NS_ESCROW
  | PAYCHAN => NS_PAYMENT_CHANNEL
  | EMITTED_TXN => NS_EMITTED_TXN
  | NFT_OFFER => NS_NFTOKEN_OFFER
  | HOOK_DEFINITION => NS_HOOK_DEFINITION
  | HOOK_STATE_DIR => NS_HOOK_STATE_DIR
  | CRON => NS_CRON

/-- The type of the entries a keylet is of. -/
def entry : KeyletType → Nat
  | HOOK => LT_HOOK
  | HOOK_STATE => LT_HOOK_STATE
  | ACCOUNT => LT_ACCOUNT_ROOT
  | AMENDMENTS => LT_AMENDMENTS
  | SKIP => LT_LEDGER_HASHES
  | FEES => LT_FEE_SETTINGS
  | NEGATIVE_UNL => LT_NEGATIVE_UNL
  | LINE => LT_RIPPLE_STATE
  | OFFER => LT_OFFER
  | SIGNERS => LT_SIGNER_LIST
  | CHECK => LT_CHECK
  | DEPOSIT_PREAUTH => LT_DEPOSIT_PREAUTH
  | EMITTED_DIR | OWNER_DIR | PAGE | HOOK_STATE_DIR => LT_DIR_NODE
  | ESCROW => LT_ESCROW
  | PAYCHAN => LT_PAYCHAN
  | EMITTED_TXN => LT_EMITTED_TXN
  | NFT_OFFER => LT_NFTOKEN_OFFER
  | HOOK_DEFINITION => LT_HOOK_DEFINITION
  | CRON => LT_CRON

/-- No two types share a namespace. -/
theorem space_injective : Function.Injective space := by
  intro t t' h
  cases t <;> cases t' <;> first | rfl | exact absurd h (by decide)

end KeyletType

/-! ## Logical arguments -/

/-- A byte string of `n` bytes. -/
abbrev Octets (n : Nat) := {b : Bytes // b.length = n}

/-- The number an object was created under, or the key that stands for one. -/
inductive Sequence where
  | number (seq : UInt32)
  | key (key : Octets 32)

/-- The bytes of a sequence. -/
def Sequence.bytes : Sequence → Bytes
  | .number n => be32 n
  | .key k => k.1

/-- The arguments of a type. A trust line has two accounts in no order, the ledger hashes are those of a group of ledgers
or the recent ones, and a page of a directory has an index other than the root's. -/
abbrev Args : KeyletType → Type
  | .HOOK | .ACCOUNT | .SIGNERS | .OWNER_DIR => Octets 20
  | .EMITTED_TXN | .HOOK_DEFINITION => Octets 32
  | .AMENDMENTS | .FEES | .NEGATIVE_UNL | .EMITTED_DIR => Unit
  | .OFFER | .CHECK | .ESCROW | .NFT_OFFER => Octets 20 × Sequence
  | .CRON => Octets 20 × UInt32
  | .PAGE => Octets 32 × UInt64
  | .HOOK_STATE => Octets 20 × Octets 32 × Octets 32
  | .HOOK_STATE_DIR => Octets 20 × Octets 32
  | .SKIP => Option UInt32
  | .LINE => Sym2 (Octets 20) × Octets 20
  | .DEPOSIT_PREAUTH => Octets 20 × Octets 20
  | .PAYCHAN => Octets 20 × Octets 20 × Sequence

/-- Two byte strings, the lower one first. -/
def minmax (x y : Bytes) : Bytes × Bytes := if y < x then (y, x) else (x, y)

theorem minmax_comm (x y : Bytes) : minmax x y = minmax y x := by
  rw [minmax, minmax]
  by_cases hxy : x < y
  · rw [if_neg (List.lt_asymm hxy), if_pos hxy]
  by_cases hyx : y < x
  · rw [if_pos hyx, if_neg hxy]
  · obtain rfl : x = y := List.le_antisymm hyx hxy
    rfl

theorem minmax_cases (x y : Bytes) : minmax x y = (x, y) ∨ minmax x y = (y, x) := by
  rw [minmax]
  by_cases h : y < x
  · exact .inr (if_pos h)
  · exact .inl (if_neg h)

/-- The two accounts of a line, as they are hashed. -/
def endpoints : Sym2 (Octets 20) → List Bytes :=
  Sym2.lift ⟨fun x y => [(minmax x y).1, (minmax x y).2], fun x y => by simp only [minmax_comm x.1 y.1]⟩

/-- The parts that are hashed after the namespace. -/
def layout : (t : KeyletType) → Args t → List Bytes
  | .HOOK, x | .ACCOUNT, x | .OWNER_DIR, x => [x.1]
  | .SIGNERS, x => [x.1, be32 0]
  | .EMITTED_TXN, x | .HOOK_DEFINITION, x => [x.1]
  | .AMENDMENTS, _ | .FEES, _ | .NEGATIVE_UNL, _ | .EMITTED_DIR, _ => []
  | .OFFER, x | .CHECK, x | .ESCROW, x | .NFT_OFFER, x => [x.1.1, x.2.bytes]
  | .CRON, x => [be32 x.2, x.1.1]
  | .PAGE, x => [x.1.1, natBE 8 x.2.toNat]
  | .HOOK_STATE, x => [x.1.1, x.2.1.1, x.2.2.1]
  | .HOOK_STATE_DIR, x | .DEPOSIT_PREAUTH, x => [x.1.1, x.2.1]
  | .SKIP, x => x.elim [] fun group => [be32 group]
  | .LINE, x => endpoints x.1 ++ [x.2.1]
  | .PAYCHAN, x => [x.1.1, x.2.1.1, x.2.2.bytes]

/-! ## Preimages tell their arguments -/

section
variable {α : Type} {n : Nat} {f : α → Bytes}

theorem octets_append {x y : Octets n} {s s' : Bytes} (h : x.1 ++ s = y.1 ++ s') : x = y ∧ s = s' := by
  obtain ⟨hxy, hs⟩ := List.append_inj h (x.2.trans y.2.symm)
  exact ⟨Subtype.ext hxy, hs⟩

theorem append_injective (hf : Function.Injective f) :
    Function.Injective fun x : Octets n × α => x.1.1 ++ f x.2 := by
  intro x y h
  obtain ⟨hfst, hsnd⟩ := octets_append h
  exact Prod.ext hfst (hf hsnd)

theorem suffix_injective (hf : Function.Injective f) (s : Bytes) : Function.Injective fun x => f x ++ s := by
  intro x y h
  exact hf (List.append_cancel_right h)

theorem natBE_inj {w v v' : Nat} (hv : v < 256 ^ w) (hv' : v' < 256 ^ w) (h : natBE w v = natBE w v') : v = v' := by
  have hval := congrArg beNat h
  rwa [beNat_natBE, beNat_natBE, Nat.mod_eq_of_lt hv, Nat.mod_eq_of_lt hv'] at hval

theorem be32_injective : Function.Injective be32 := fun v v' h =>
  UInt32.toNat_inj.1 (natBE_inj v.toNat_lt v'.toNat_lt h)

theorem be64_injective : Function.Injective fun v : UInt64 => natBE 8 v.toNat := fun v v' h =>
  UInt64.toNat_inj.1 (natBE_inj v.toNat_lt v'.toNat_lt h)

theorem Sequence.bytes_injective : Function.Injective Sequence.bytes := by
  intro s s' h
  have hlen := congrArg List.length h
  cases s with
  | number m =>
    cases s' with
    | number m' => exact congrArg Sequence.number (be32_injective h)
    | key k' =>
      rw [Sequence.bytes, Sequence.bytes, be32, natBE_length, k'.2] at hlen
      exact absurd hlen (by decide)
  | key k =>
    cases s' with
    | number m' =>
      rw [Sequence.bytes, Sequence.bytes, be32, natBE_length, k.2] at hlen
      exact absurd hlen (by decide)
    | key k' => exact congrArg Sequence.key (Subtype.ext h)

/-- The two accounts are hashed one after the other, in some order. -/
theorem endpoints_flatten (p : Sym2 (Octets 20)) :
    ∃ lo hi : Octets 20, p = s(lo, hi) ∧ (endpoints p).flatten = lo.1 ++ hi.1 := by
  induction p using Sym2.ind with
  | _ x y =>
    rcases minmax_cases x.1 y.1 with hm | hm
    · exact ⟨x, y, rfl, by simp [endpoints, hm]⟩
    · exact ⟨y, x, Sym2.eq_swap, by simp [endpoints, hm]⟩

theorem line_injective :
    Function.Injective fun x : Sym2 (Octets 20) × Octets 20 => (endpoints x.1 ++ [x.2.1]).flatten := by
  rintro ⟨p, c⟩ ⟨p', c'⟩ h
  obtain ⟨lo, hi, rfl, hb⟩ := endpoints_flatten p
  obtain ⟨lo', hi', rfl, hb'⟩ := endpoints_flatten p'
  simp only [List.flatten_append, hb, hb', List.append_assoc] at h
  obtain ⟨hlo, hrest⟩ := octets_append h
  obtain ⟨hhi, hcur⟩ := octets_append hrest
  have hc := suffix_injective Subtype.val_injective [] hcur
  rw [hlo, hhi, hc]

theorem group_injective :
    Function.Injective fun x : Option UInt32 => (x.elim [] fun group => [be32 group]).flatten := by
  intro x y h
  cases x with
  | none =>
    cases y with
    | none => rfl
    | some v => exact absurd (congrArg List.length h) (by simp [be32])
  | some v =>
    cases y with
    | none => exact absurd (congrArg List.length h) (by simp [be32])
    | some w => exact congrArg some (suffix_injective be32_injective [] h)

end

/-- The bytes of a type tell its arguments. -/
theorem layout_injective (t : KeyletType) : Function.Injective fun x => (layout t x).flatten := by
  have account {n : Nat} : Function.Injective fun x : Octets n => x.1 ++ [] :=
    suffix_injective Subtype.val_injective []
  have sequence : Function.Injective fun s : Sequence => s.bytes ++ [] := suffix_injective Sequence.bytes_injective []
  cases t with
  | HOOK | ACCOUNT | OWNER_DIR | EMITTED_TXN | HOOK_DEFINITION => exact account
  | SIGNERS => exact suffix_injective Subtype.val_injective _
  | AMENDMENTS | FEES | NEGATIVE_UNL | EMITTED_DIR => exact fun _ _ _ => rfl
  | OFFER | CHECK | ESCROW | NFT_OFFER => exact append_injective sequence
  | CRON =>
    intro x y h
    obtain ⟨htime, hid⟩ := List.append_inj h rfl
    exact Prod.ext (account hid) (be32_injective htime)
  | PAGE => exact append_injective (suffix_injective be64_injective [])
  | HOOK_STATE => exact append_injective (append_injective account)
  | HOOK_STATE_DIR | DEPOSIT_PREAUTH => exact append_injective account
  | SKIP => exact group_injective
  | LINE => exact line_injective
  | PAYCHAN => exact append_injective (append_injective sequence)

/-- A type and its arguments. -/
abbrev Subject := (t : KeyletType) × Args t

namespace Subject

/-- The namespace and the bytes that are hashed for a subject. -/
def preimage (s : Subject) : Nat × Bytes := (s.1.space, (layout s.1 s.2).flatten)

/-- The key of a subject; only that of a timer is more than a hash. -/
def key (s : Subject) : Key :=
  let hashed := Key.indexHash s.1.space (layout s.1 s.2)
  match s with
  | ⟨.CRON, x⟩ => .splice (.indexHash NS_CRON []) (be32 x.2) hashed
  | _ => hashed

theorem key_preimage (s : Subject) : s.key.preimage = some s.preimage := by
  obtain ⟨t, x⟩ := s
  cases t <;> rfl

theorem preimage_injective : Function.Injective preimage := by
  rintro ⟨t, x⟩ ⟨t', x'⟩ h
  obtain rfl : t = t' := KeyletType.space_injective (congrArg Prod.fst h)
  exact congrArg (Sigma.mk t) (layout_injective t (congrArg Prod.snd h))

end Subject

/-! ## What a call is about -/

/-- The number of a type in a call. -/
def KeyletType.code : KeyletType → Nat
  | HOOK => 1
  | HOOK_STATE => 2
  | ACCOUNT => 3
  | AMENDMENTS => 4
  | SKIP => 6
  | FEES => 7
  | NEGATIVE_UNL => 8
  | LINE => 9
  | OFFER => 10
  | EMITTED_DIR => 12
  | SIGNERS => 14
  | CHECK => 15
  | DEPOSIT_PREAUTH => 16
  | OWNER_DIR => 18
  | PAGE => 19
  | ESCROW => 20
  | PAYCHAN => 21
  | EMITTED_TXN => 22
  | NFT_OFFER => 23
  | HOOK_DEFINITION => 24
  | HOOK_STATE_DIR => 25
  | CRON => 26

section
variable (mem : Bytes)

/-- The bytes, if there are `n`. -/
def fixed (n : Nat) (b : Bytes) : Option (Octets n) := if h : b.length = n then some ⟨b, h⟩ else none

/-- The `n` bytes at an address. -/
def octets (n : Nat) (p : UInt32) : Option (Octets n) := fixed n (range mem p.toNat n)

/-- A number where no length is given, else the key it points at. -/
def sequenceArg (p n : UInt32) : Option Sequence :=
  if n = 0 then some (.number p) else (octets mem 32 p).map .key

theorem parseCurrency_length {b cur : Bytes} (h : parseCurrency b = some cur) : cur.length = 20 := by
  rw [parseCurrency] at h
  by_cases h20 : b.length = 20
  · rw [if_pos h20] at h
    rwa [← Option.some.inj h]
  by_cases h3 : b.length = 3
  · rw [if_neg h20, if_pos h3] at h
    by_cases hall : b.all currencyChar
    · rw [if_pos hall] at h
      rw [← Option.some.inj h, List.length_append, List.length_append, List.length_replicate, List.length_replicate, h3]
    · rw [if_neg hall] at h
      cases h
  · rw [if_neg h20, if_neg h3] at h
    cases h

/-- The canonical form of a currency. -/
def currencyArg (p n : UInt32) : Option (Octets 20) := (parseCurrency (range mem p.toNat n.toNat)).bind (fixed 20)

/-- The logical arguments that the words of a call stand for. -/
def arguments (t : KeyletType) (a b c d e f : UInt32) : Option (Args t) :=
  match t with
  | .HOOK | .ACCOUNT | .SIGNERS | .OWNER_DIR => octets mem 20 a
  | .EMITTED_TXN | .HOOK_DEFINITION => octets mem 32 a
  | .AMENDMENTS | .FEES | .NEGATIVE_UNL | .EMITTED_DIR => some ()
  | .OFFER | .CHECK | .ESCROW | .NFT_OFFER => do some (← octets mem 20 a, ← sequenceArg mem c d)
  | .CRON => do some (← octets mem 20 a, c)
  | .PAGE => do some (← octets mem 32 a, .ofNat (c.toNat * 2 ^ 32 + d.toNat))
  | .HOOK_STATE => do some (← octets mem 20 a, ← octets mem 32 c, ← octets mem 32 e)
  | .HOOK_STATE_DIR => do some (← octets mem 20 a, ← octets mem 32 c)
  | .DEPOSIT_PREAUTH => do some (← octets mem 20 a, ← octets mem 20 c)
  | .SKIP => some (if b = 0 then none else some (a >>> 16))
  | .LINE => do some (s(← octets mem 20 a, ← octets mem 20 c), ← currencyArg mem e f)
  | .PAYCHAN => do some (← octets mem 20 a, ← octets mem 20 c, ← sequenceArg mem e f)

end

end Xahc.Sim

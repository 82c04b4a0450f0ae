/-
From an intent to the decisions of a hook: what `agentGuardrail.c` lets out of an account when it is installed by the
transaction that the author makes.
-/
import Xahc.Cli.Author
import Xahc.Guardrail.Twins

namespace Xahc.Cli

open Xahc.Data Xahc.Chain Xahc.Guardrail

section
variable {toLowercase : List Char → List Char} {intent : String}

theorem extractDrops_lt {d : Nat} (h : extractDrops toLowercase intent = some d) : d < 2 ^ 64 := by
  obtain ⟨f, unit, -, hdrops⟩ := extractDrops_iff.1 h
  obtain ⟨-, rfl⟩ := toDrops_eq_some.1 hdrops
  exact lt_of_le_of_lt (min_le_right _ _) (by decide)

theorem extractDest_decodes {hex : List Char} (h : extractDest intent = some hex) :
    ∃ dst, decodeHex hex = some dst ∧ dst.length = 20 := by
  obtain ⟨tok, -, htok⟩ := List.exists_of_findSome?_eq_some h
  dsimp only at htok
  split_ifs at htok with hhex
  cases htok
  obtain ⟨dst, -, hupper, hlen⟩ := decodeHex_pairs (by rw [hhex.1]) hhex.2
  rw [hhex.1] at hlen
  exact ⟨dst, hupper, by omega⟩

/-- An amount is read by the hook as it was written by the author. -/
theorem paramBytes_drops {d : Nat} (h : extractDrops toLowercase intent = some d) :
    ∃ b, paramBytes toLowercase intent .Drops = some b ∧ b.length = 8 ∧ (be64 b).toNat = d := by
  refine ⟨natBE 8 d, ?_, natBE_length 8 d, ?_⟩
  · rw [paramBytes, paramValue, h, Option.map_some, Option.bind_some, decodeHex_encodeHex]
  · rw [be64_toNat (natBE_length 8 d), beNat_natBE]
    exact Nat.mod_eq_of_lt (extractDrops_lt h)

end

theorem guardrail_archetype {arch : Archetype} (hlisted : arch ∈ CATALOG) (hname : arch.name = "agent-guardrail") :
    arch.params = [⟨"LIM", .Drops, true⟩, ⟨"DST", .DestAddr, false⟩] := by
  have hall : ∀ a ∈ CATALOG, a.name = "agent-guardrail" → a.params = [⟨"LIM", .Drops, true⟩, ⟨"DST", .DestAddr, false⟩] := by
    decide +kernel
  exact hall arch hlisted hname

/-- Installed by the transaction of the author, the guardrail fires on payments, and of the payments of its account it accepts
exactly the native ones within the amount that was read in the intent, to the account in the intent where there is one. -/
theorem authored_guardrail {π : Type} {toLowercase : List Char → List Char} {t : Toolchain π} {checkout : Checkout}
    {o : AuthorOpts} {report : AuthorReport} (h : author toLowercase t checkout o = .ok report)
    (hname : report.archetype = "agent-guardrail") {tx : SetHook} (htx : report.installTx = some tx) (me : AccountID) :
    ∃ d, extractDrops toLowercase o.intent = some d ∧ (∀ n < 256, fires tx.HookOn n = true ↔ n = 0) ∧
      ∀ otxn, (agentGuardrail ⟨me, tx.hookParam⟩ otxn).accepts = true ↔ PassedThrough ⟨me, tx.hookParam⟩ otxn ∨
        Outgoing ⟨me, tx.hookParam⟩ otxn ∧ ∃ amount : Nat, xahcOtxnDrops otxn = amount ∧ amount ≤ d ∧
          ∀ hex, extractDest o.intent = some hex → ∃ dst, decodeHex hex = some dst ∧ otxn.field sfDestination = some dst := by
  obtain ⟨arch, src, bytes, -, -, hcertifies⟩ := author_ok h
  have hcarries := hcertifies.carries tx htx
  have hparams := guardrail_archetype hcertifies.best.listed (hcertifies.archetype.symm.trans hname)
  -- the limit is required, so the intent has one
  obtain ⟨hlim, hrequired⟩ := hcarries.params ⟨"LIM", .Drops, true⟩ (by rw [hparams]; exact List.mem_cons_self)
  obtain ⟨hdst, -⟩ := hcarries.params ⟨"DST", .DestAddr, false⟩
    (by rw [hparams]; exact List.mem_cons_of_mem _ List.mem_cons_self)
  replace hlim : tx.hookParam limKey = paramBytes toLowercase o.intent .Drops := hlim
  replace hdst : tx.hookParam dstKey = paramBytes toLowercase o.intent .DestAddr := hdst
  obtain ⟨d, hd⟩ : ∃ d, extractDrops toLowercase o.intent = some d := by
    cases hnone : extractDrops toLowercase o.intent with
    | some d => exact ⟨d, rfl⟩
    | none => simp [paramBytes, paramValue, hnone] at hrequired
  obtain ⟨lim, hlimbytes, hlimlen, hlimval⟩ := paramBytes_drops hd
  refine ⟨d, hd, hcarries.fires, fun otxn => ?_⟩
  rw [agentGuardrail, agentHook_accepts (le_refl 20)]
  refine or_congr_right ⟨?_, ?_⟩
  · rintro ⟨limit, amount, hout, ⟨b, hb, -, rfl⟩, hnative, hcap, hdest⟩
    obtain rfl : lim = b := Option.some.inj (hlimbytes.symm.trans (hlim.symm.trans hb))
    refine ⟨hout, amount.toNat, hnative, hlimval ▸ UInt64.le_iff_toNat_le.1 (by simpa using hcap), fun hex hhex => ?_⟩
    obtain ⟨dst, hdec, hlen⟩ := extractDest_decodes hhex
    have hinstalled : tx.hookParam dstKey = some dst := by rw [hdst, paramBytes, paramValue, hhex, Option.bind_some, hdec]
    exact ⟨dst, hdec, destinationUpTo_all.1 hdest dst hinstalled hlen⟩
  · rintro ⟨hout, amount, hnative, hcap, hdest⟩
    have hlt : amount < 2 ^ 64 := lt_of_le_of_lt hcap (extractDrops_lt hd)
    have hamount : (UInt64.ofNat amount).toNat = amount := by rw [UInt64.toNat_ofNat', Nat.mod_eq_of_lt hlt]
    refine ⟨be64 lim, .ofNat amount, hout, ⟨lim, hlim.trans hlimbytes, hlimlen, rfl⟩, by rw [hamount]; exact hnative, ?_, ?_⟩
    · simpa [UInt64.le_iff_toNat_le, hamount, hlimval] using hcap
    · refine destinationUpTo_all.2 fun dst hinstalled hlen => ?_
      have hfrom : paramBytes toLowercase o.intent .DestAddr = some dst := hdst.symm.trans hinstalled
      obtain ⟨hex, hhex, hdec⟩ := Option.bind_eq_some_iff.1 hfrom
      obtain ⟨dst', hdec', hfield⟩ := hdest hex hhex
      rw [hfield, ← hdec', hdec]

namespace Sample

/-- A hook that imports its guard and accepts nothing. -/
def built : Bytes := Chain.Sample.wasmBytes 0x0A [0x02, 0x5F, 0x67]

/-- A prover that gives exit code 0, on a machine with no other file. -/
def toolchain : Toolchain Unit where
  readToString _ := .error ["No such file or directory (os error 2)"]
  fromStr _ := .error ["TOML parse error"]
  parent _ := none
  read _ := .error ["No such file or directory (os error 2)"]
  fromBuffer bytes := if bytes = built then .ok (Chain.Sample.hookModule "_g" 55) else .error ["failed to parse WebAssembly module"]
  prove _ inv := if inv = "guardrail" then .ok 0 else .error ["unknown invariant"]
  sha256Hex _ := zeroNamespace

/-- A checkout with the one source. -/
def checkout : Checkout where
  hooks src := if src = "agent_guardrail.c" then some [] else none
  build _ := .ok built
  register _ _ := .ok ()

/-- An intent with an amount and an account. -/
def guardrailOpts : AuthorOpts :=
  { intent := "Agent guardrail: 5 XAH, lock to 000102030405060708090a0b0c0d0e0f10111213"
    account := some "rHb9CJAWyB4rj91VRWn96DkukG4bwdtyTh"
    network := "testnet" }

/-- The transaction of a run. -/
def installed (r : Except Failure AuthorReport) : Option SetHook := r.toOption.bind AuthorReport.installTx

end Sample

open Sample

theorem authored_guardrail_five :
    ∃ tx, installed (author (List.map Char.toLower) toolchain checkout guardrailOpts) = some tx ∧
      ∃ d, extractDrops (List.map Char.toLower) guardrailOpts.intent = some d ∧
        (∀ n < 256, fires tx.HookOn n = true ↔ n = 0) ∧
        ∀ otxn, (agentGuardrail ⟨.filled 7, tx.hookParam⟩ otxn).accepts = true ↔
          PassedThrough ⟨.filled 7, tx.hookParam⟩ otxn ∨
          Outgoing ⟨.filled 7, tx.hookParam⟩ otxn ∧ ∃ amount : Nat, xahcOtxnDrops otxn = amount ∧ amount ≤ d ∧
            ∀ hex, extractDest guardrailOpts.intent = some hex →
              ∃ dst, decodeHex hex = some dst ∧ otxn.field sfDestination = some dst := by
  have hrun : ((author (List.map Char.toLower) toolchain checkout guardrailOpts).toOption.any fun r =>
      r.archetype == "agent-guardrail" && r.installTx.isSome) = true := by decide +kernel
  obtain ⟨report, hreport, hfacts⟩ := (Option.any_eq_true ..).1 hrun
  rw [Bool.and_eq_true, beq_iff_eq] at hfacts
  obtain ⟨tx, htx⟩ := Option.isSome_iff_exists.1 hfacts.2
  have hok : author (List.map Char.toLower) toolchain checkout guardrailOpts = .ok report := by
    cases h : author (List.map Char.toLower) toolchain checkout guardrailOpts with
    | error e =>
      rw [h] at hreport
      cases hreport
    | ok r =>
      rw [h] at hreport
      cases hreport
      rfl
  exact ⟨tx, by rw [installed, hreport, Option.bind_some, htx], authored_guardrail hok hfacts.1 htx (.filled 7)⟩

end Xahc.Cli

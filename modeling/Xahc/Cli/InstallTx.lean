/-
`xahc install-tx`: the unsigned SetHook transaction that installs a module. What is read back from the transaction is the
module that was checked, the types it was asked to fire on, and the parameters it was given.
-/
import Xahc.Cli.HookOn
import Xahc.Data.Except

namespace Xahc.Cli

open Xahc.Data Xahc.Chain Xahc.Wasm

/-! ## The transaction -/

/-- `on` is the list of types, `params` the pairs `nameHex=valueHex`. -/
structure InstallOpts where
  account : String
  on : String
  «namespace» : Option String := none
  namespaceLabel : Option String := none
  network : String
  flags : Nat
  params : List String

/-- A parameter of the transaction, name and value in hex. -/
structure HookParameter where
  name : List Char
  value : List Char
  deriving DecidableEq, Repr

/-- The fields that are the same in every transaction are left out: its type, and the version of the API. -/
structure SetHook where
  Account : String
  NetworkID : Nat
  CreateCode : List Char
  HookOn : List Char
  HookNamespace : String
  Flags : Nat
  HookParameters : List HookParameter
  deriving DecidableEq, Repr

/-- Hex digits in pairs, at least one. -/
def isHex (s : List Char) : Bool := !s.isEmpty && s.length % 2 == 0 && s.all isHexDigit

/-- The base58 alphabet of classic addresses. -/
def rAlphabet : List Char := "rpshnaf39wBUDNEGHJKLM4PQRST7VWXYZ2bcdeCg65jkm8oFqi1tuvAxyz".toList

/-- The surface of an address; its checksum is left to the signer. -/
def isRAddress (s : String) : Bool :=
  s.toList.head? = some 'r' && 25 ≤ s.toList.length && s.toList.length ≤ 35 && s.toList.all fun c => c ∈ rAlphabet

/-- `split_once`: around the first separator. -/
def splitOnce (sep : Char) : List Char → Option (List Char × List Char)
  | [] => none
  | c :: s => if c = sep then some ([], s) else (splitOnce sep s).map fun x => (c :: x.1, x.2)

/-- A `--param` option, checked. -/
def hookParameter (p : String) : Except Failure HookParameter :=
  match splitOnce '=' p.toList with
  | none => .error ["--param must be nameHex=valueHex (got `" ++ p ++ "`)"]
  | some (name, value) =>
    if !isHex name || !isHex value then .error ["--param name and value must be hex (got `" ++ p ++ "`)"]
    else if name.length > 64 then
      .error ["--param name too long: " ++ toString name.length ++ " hex chars (max 32 bytes / 64 hex)"]
    else if value.length > 512 then
      .error ["--param value too long: " ++ toString value.length ++ " hex chars (max 256 bytes / 512 hex)"]
    else .ok ⟨name.map Char.toUpper, value.map Char.toUpper⟩

/-- The network id of a network's name. -/
def networkId : String → Except Failure Nat
  | "mainnet" => .ok 21337
  | "testnet" => .ok 21338
  | other => .error ["network must be testnet or mainnet (got `" ++ other ++ "`)"]

section
variable {π : Type} (t : Toolchain π)

/-- The namespace of the options: given in hex, hashed from a label, or the default. -/
def installNamespace (o : InstallOpts) : Except Failure String :=
  match o.namespace, o.namespaceLabel with
  | some _, some _ => .error ["pass either --namespace or --namespace-label, not both"]
  | some ns, none => normHexNamespace ns
  | none, some label => .ok (t.sha256Hex label)
  | none, none => .ok zeroNamespace

/-- A module that fails the lint is not packaged. -/
def checkedModule (wasm : String) : Except Failure Bytes := do
  let bytes ← context ("read " ++ wasm) (t.read wasm)
  let m ← context ("lint " ++ wasm) (t.fromBuffer bytes)
  if lintErrors m = [] then return bytes
  else .error ["refusing to install-tx: the wasm fails lint (" ++ toString (lintErrors m).length ++
    " error(s)) — run `xahc build` first:\n" ++ "\n".intercalate ((lintErrors m).map fun f => "  - " ++ f.msg)]

/-- The types of `--on`, at least one. -/
def firedTypes (on : String) : Except Failure (Finset Nat) :=
  match parseTypes on with
  | .error e => .error [e]
  | .ok want => if want = ∅ then .error ["--on must name at least one transaction type to fire on (e.g. Payment)"] else .ok want

/-- The command: the file is linted and the options are checked, one after the other, and then they fill the
transaction. -/
def installTx (wasm : String) (o : InstallOpts) : Except Failure SetHook := do
  if !isRAddress o.account then
    .error ["--account `" ++ o.account ++
      "` is not a valid r-address (expected a base58 classic address starting with `r`)"]
  else
    let bytes ← checkedModule t wasm
    let want ← firedTypes o.on
    let hookNamespace ← installNamespace t o
    let params ← o.params.mapM hookParameter
    let network ← networkId o.network
    return ⟨o.account, network, encodeHex bytes, encodeHookOn want, hookNamespace, o.flags, params⟩

end

/-! ## What is read off a transaction -/

/-- The bytes that a list of parameters has under a name. -/
def paramUnder (params : List HookParameter) (key : Bytes) : Option Bytes :=
  params.findSome? fun p => if decodeHex p.name = some key then decodeHex p.value else none

/-- The bytes of a parameter of the transaction. -/
def SetHook.hookParam (tx : SetHook) : Bytes → Option Bytes := paramUnder tx.HookParameters

/-- A parameter as the bytes it stands for. -/
structure HookParameter.Stands (p : HookParameter) (name value : Bytes) : Prop where
  name : decodeHex p.name = some name
  value : decodeHex p.value = some value

/-- The pair that an option spells. -/
structure Spells (s : String) (name value : Bytes) : Prop where
  text : ∃ n v, s.toList = n ++ '=' :: v ∧ decodeHex n = some name ∧ decodeHex v = some value
  name : 0 < name.length ∧ name.length ≤ 32
  value : 0 < value.length ∧ value.length ≤ 256

/-! ## Digits -/

theorem isHexDigit_iff {c : Char} : isHexDigit c = true ↔ (hexVal c).isSome = true := by
  unfold isHexDigit hexVal
  split_ifs <;> simp_all

theorem hexVal_toUpper {c : Char} (h : (hexVal c).isSome = true) : hexVal c.toUpper = hexVal c := by
  have hdigits : ∀ n < 128, (hexVal (Char.ofNat n)).isSome = true → hexVal (Char.ofNat n).toUpper = hexVal (Char.ofNat n) := by
    decide +kernel
  obtain ⟨v, hv⟩ := Option.isSome_iff_exists.1 h
  have hc := hdigits c.toNat (hexVal_range hv).1
  rw [Char.ofNat_toNat] at hc
  exact hc h

/-- A text of digit pairs, and the same one in upper case. -/
theorem decodeHex_pairs : ∀ {s : List Char}, s.length % 2 = 0 → s.all isHexDigit = true →
    ∃ b, decodeHex s = some b ∧ decodeHex (s.map Char.toUpper) = some b ∧ s.length = 2 * b.length
  | [], _, _ => ⟨[], rfl, rfl, rfl⟩
  | [_], hlen, _ => by simp at hlen
  | c :: d :: s, hlen, hall => by
    simp only [List.all_cons, Bool.and_eq_true, isHexDigit_iff] at hall
    obtain ⟨hc, hd, hs⟩ := hall
    obtain ⟨b, hb, hupper, hblen⟩ := decodeHex_pairs (by simp only [List.length_cons] at hlen; omega) hs
    obtain ⟨hi, hhi⟩ := Option.isSome_iff_exists.1 hc
    obtain ⟨lo, hlo⟩ := Option.isSome_iff_exists.1 hd
    refine ⟨.ofNat (hi * 16 + lo) :: b, ?_, ?_, by simp only [List.length_cons, hblen]; omega⟩
    · rw [decodeHex, hhi, hlo, hb]
      rfl
    · rw [List.map_cons, List.map_cons, decodeHex, hexVal_toUpper hc, hexVal_toUpper hd, hhi, hlo, hupper]
      rfl

theorem decodeHex_encodeHex (b : Bytes) : decodeHex (encodeHex b) = some b := by
  induction b with
  | nil => rfl
  | cons x b ih =>
    obtain ⟨hhi, hlo⟩ := byte_halves x
    rw [encodeHex, decodeHex, hexVal_hexDigit hhi, hexVal_hexDigit hlo, ih]
    have hx : UInt8.ofNat (x.toNat / 16 * 16 + x.toNat % 16) = x := by rw [Nat.div_add_mod', UInt8.ofNat_toNat]
    exact congrArg (fun y => some (y :: b)) hx

theorem isHex_decodes {s : List Char} (h : isHex s = true) :
    ∃ b, decodeHex s = some b ∧ decodeHex (s.map Char.toUpper) = some b ∧ s.length = 2 * b.length ∧ 0 < b.length := by
  simp only [isHex, Bool.and_eq_true, Bool.not_eq_true', beq_iff_eq, List.isEmpty_eq_false_iff] at h
  obtain ⟨⟨hne, heven⟩, hall⟩ := h
  obtain ⟨b, hb, hupper, hlen⟩ := decodeHex_pairs heven hall
  exact ⟨b, hb, hupper, hlen, by have := List.length_pos_of_ne_nil hne; omega⟩

/-! ## Parameters -/

theorem splitOnce_some {sep : Char} : ∀ {s a b : List Char}, splitOnce sep s = some (a, b) → s = a ++ sep :: b
  | [], _, _, h => by cases h
  | c :: s, a, b, h => by
    unfold splitOnce at h
    split_ifs at h with hc
    · cases h
      rw [hc, List.nil_append]
    · obtain ⟨⟨a', b'⟩, hrest, heq⟩ := Option.map_eq_some_iff.1 h
      cases heq
      rw [splitOnce_some hrest, List.cons_append]

/-- A pair that is accepted installs what it spells. -/
theorem hookParameter_ok {p : String} {q : HookParameter} (h : hookParameter p = .ok q) :
    ∃ name value, Spells p name value ∧ q.Stands name value := by
  unfold hookParameter at h
  split at h
  · cases h
  · rename_i n v hsplit
    split_ifs at h with hhex hname hvalue
    cases h
    simp only [Bool.or_eq_true, Bool.not_eq_true', not_or, Bool.not_eq_false] at hhex
    obtain ⟨name, hn, hn', hnlen, hnpos⟩ := isHex_decodes hhex.1
    obtain ⟨value, hv, hv', hvlen, hvpos⟩ := isHex_decodes hhex.2
    refine ⟨name, value, ⟨⟨n, v, splitOnce_some hsplit, hn, hv⟩, ⟨hnpos, ?_⟩, hvpos, ?_⟩, hn', hv'⟩
    · omega
    · omega

theorem decodeHex_isHex : ∀ {s : List Char} {b : Bytes}, decodeHex s = some b →
    s.length = 2 * b.length ∧ s.all isHexDigit = true
  | [], b, h => by
    cases h
    exact ⟨rfl, rfl⟩
  | [_], _, h => by cases h
  | c :: d :: s, b, h => by
    obtain ⟨hi, hhi, h⟩ := Option.bind_eq_some_iff.1 h
    obtain ⟨lo, hlo, h⟩ := Option.bind_eq_some_iff.1 h
    obtain ⟨b', hb', h⟩ := Option.bind_eq_some_iff.1 h
    cases h
    obtain ⟨hlen, hall⟩ := decodeHex_isHex hb'
    have hc : isHexDigit c = true := isHexDigit_iff.2 (by rw [hhi]; rfl)
    have hd : isHexDigit d = true := isHexDigit_iff.2 (by rw [hlo]; rfl)
    refine ⟨by simp only [List.length_cons, hlen]; omega, ?_⟩
    simp only [List.all_cons, hc, hd, hall, Bool.and_self]

theorem isHex_of_decodes {s : List Char} {b : Bytes} (h : decodeHex s = some b) (hpos : 0 < b.length) : isHex s = true := by
  obtain ⟨hlen, hall⟩ := decodeHex_isHex h
  have hne : s ≠ [] := List.ne_nil_of_length_pos (by omega)
  simp only [isHex, hall, hlen, Nat.mul_mod_right, Bool.and_true, Bool.not_eq_true', beq_self_eq_true,
    List.isEmpty_eq_false_iff]
  exact hne

theorem splitOnce_append {sep : Char} : ∀ {a : List Char}, sep ∉ a → ∀ b, splitOnce sep (a ++ sep :: b) = some (a, b)
  | [], _, b => by simp [splitOnce]
  | c :: a, h, b => by
    rw [List.mem_cons, not_or] at h
    rw [List.cons_append, splitOnce, if_neg (Ne.symm h.1), splitOnce_append h.2 b, Option.map_some]

/-- What spells a pair is accepted. -/
theorem Spells.accepted {p : String} {name value : Bytes} (h : Spells p name value) : ∃ q, hookParameter p = .ok q := by
  obtain ⟨⟨n, v, htext, hn, hv⟩, ⟨hnpos, hnle⟩, hvpos, hvle⟩ := h
  have hsep : '=' ∉ n := fun hmem => by
    have hdigit := List.all_eq_true.1 (decodeHex_isHex hn).2 _ hmem
    cases hdigit
  have hnlen := (decodeHex_isHex hn).1
  have hvlen := (decodeHex_isHex hv).1
  refine ⟨⟨n.map Char.toUpper, v.map Char.toUpper⟩, ?_⟩
  unfold hookParameter
  rw [htext, splitOnce_append hsep v]
  dsimp only
  rw [isHex_of_decodes hn hnpos, isHex_of_decodes hv hvpos, if_neg (by simp), if_neg (by omega), if_neg (by omega)]

theorem mapM_ok {ε α β : Type} {f : α → Except ε β} : ∀ {l : List α} {r : List β}, l.mapM f = .ok r →
    List.Forall₂ (fun a b => f a = .ok b) l r
  | [], r, h => by
    rw [List.mapM_nil] at h
    cases h
    exact .nil
  | a :: l, r, h => by
    rw [List.mapM_cons] at h
    obtain ⟨b, hb, h⟩ := bind_ok.1 h
    obtain ⟨bs, hbs, h⟩ := bind_ok.1 h
    cases h
    exact .cons hb (mapM_ok hbs)

theorem mapM_total {ε α β : Type} {f : α → Except ε β} : ∀ {l : List α}, (∀ a ∈ l, ∃ b, f a = .ok b) →
    ∃ r, l.mapM f = .ok r
  | [], _ => ⟨[], List.mapM_nil⟩
  | a :: l, h => by
    obtain ⟨b, hb⟩ := h a List.mem_cons_self
    obtain ⟨bs, hbs⟩ := mapM_total fun a' ha' => h a' (List.mem_cons_of_mem _ ha')
    exact ⟨b :: bs, by rw [List.mapM_cons, hb, hbs]; rfl⟩

/-- A list of types is accepted where each of its items names one. -/
theorem parseTypes_total {spec : String} : (∃ want, parseTypes spec = .ok want) ↔ ∀ tok ∈ tokens spec, ∃ n, Names tok n := by
  have htrim : ∀ tok ∈ tokens spec, trim tok = tok := by
    intro tok htok
    obtain ⟨s, -, rfl⟩ := List.mem_map.1 (List.mem_filter.1 htok).1
    exact trim_trim s
  unfold parseTypes
  generalize tokens spec = toks at htrim
  generalize (∅ : Finset Nat) = out
  induction toks generalizing out with
  | nil => exact iff_of_true ⟨out, rfl⟩ (by simp)
  | cons tok toks ih =>
    have htok := htrim tok List.mem_cons_self
    have ih := ih fun t ht => htrim t (List.mem_cons_of_mem _ ht)
    rw [List.forall_mem_cons]
    constructor
    · rintro ⟨want, h⟩
      rw [List.foldlM_cons] at h
      obtain ⟨out', hout, h⟩ := bind_ok.1 h
      obtain ⟨n, hn, -⟩ := bind_ok.1 hout
      exact ⟨⟨n, htok ▸ resolveTxType_iff.1 hn⟩, (ih out').1 ⟨want, h⟩⟩
    · rintro ⟨⟨n, hn⟩, hrest⟩
      obtain ⟨want, h⟩ := (ih (insert n out)).2 hrest
      refine ⟨want, ?_⟩
      rw [List.foldlM_cons, resolveTxType_iff.2 (htok.symm ▸ hn)]
      exact h

/-! ## What is installed -/

/-- The transaction installs the module of the file, as the options ask. -/
structure InstallsAs {π : Type} (t : Toolchain π) (wasm : String) (o : InstallOpts) (tx : SetHook) : Prop where
  code : ∃ bytes m, t.read wasm = .ok bytes ∧ decodeHex tx.CreateCode = some bytes ∧ t.fromBuffer bytes = .ok m ∧
    lintErrors m = []
  fires : ∀ n < 256, fires tx.HookOn n = true ↔ Listed o.on n
  some_type : ∃ n, Listed o.on n
  params : List.Forall₂ (fun p q => ∃ name value, Spells p name value ∧ q.Stands name value) o.params tx.HookParameters
  «namespace» : installNamespace t o = .ok tx.HookNamespace
  network : networkId o.network = .ok tx.NetworkID
  account : tx.Account = o.account ∧ isRAddress o.account = true
  flags : tx.Flags = o.flags

theorem installTx_installs {π : Type} {t : Toolchain π} {wasm : String} {o : InstallOpts} {tx : SetHook}
    (h : installTx t wasm o = .ok tx) : InstallsAs t wasm o tx := by
  unfold installTx at h
  split_ifs at h with haddr
  -- the steps of the source in order, each with what it gives
  obtain ⟨bytes, hbytes, h⟩ := bind_ok.1 h
  obtain ⟨want, hwant, h⟩ := bind_ok.1 h
  obtain ⟨ns, hns, h⟩ := bind_ok.1 h
  obtain ⟨params, hparams, h⟩ := bind_ok.1 h
  obtain ⟨network, hnetwork, h⟩ := bind_ok.1 h
  cases h
  obtain ⟨m, hread, hm, hlint⟩ : ∃ m, t.read wasm = .ok bytes ∧ t.fromBuffer bytes = .ok m ∧ lintErrors m = [] := by
    unfold checkedModule at hbytes
    obtain ⟨bytes', hread, hbytes⟩ := bind_ok.1 hbytes
    obtain ⟨m, hm, hbytes⟩ := bind_ok.1 hbytes
    split_ifs at hbytes with hlint
    cases hbytes
    exact ⟨m, context_eq_ok.1 hread, context_eq_ok.1 hm, hlint⟩
  obtain ⟨htypes, hsome⟩ : parseTypes o.on = .ok want ∧ want ≠ ∅ := by
    unfold firedTypes at hwant
    split at hwant
    · cases hwant
    · split_ifs at hwant with hempty
      cases hwant
      exact ⟨‹_›, hempty⟩
  have hlisted := parseTypes_listed htypes
  have hrow : ∀ n ∈ want, ∃ name, (name, n) ∈ TX_TYPES := by
    intro n hn
    obtain ⟨tok, -, htok⟩ := (hlisted n).1 hn
    exact htok.row
  obtain ⟨n, hn⟩ := Finset.nonempty_iff_ne_empty.2 hsome
  exact
    { code := ⟨bytes, m, hread, decodeHex_encodeHex bytes, hm, hlint⟩
      fires := fun n hn => (fires_encode hrow hn).trans (hlisted n)
      some_type := ⟨n, (hlisted n).1 hn⟩
      params := (mapM_ok hparams).imp fun _ _ hp => hookParameter_ok hp
      «namespace» := hns
      network := hnetwork
      account := ⟨rfl, by simpa using haddr⟩
      flags := rfl }

theorem installTx_params {π : Type} {t : Toolchain π} {wasm : String} {o : InstallOpts} {tx : SetHook}
    (h : installTx t wasm o = .ok tx) : List.Forall₂ (fun p q => hookParameter p = .ok q) o.params tx.HookParameters := by
  unfold installTx at h
  split_ifs at h
  obtain ⟨_, -, h⟩ := bind_ok.1 h
  obtain ⟨_, -, h⟩ := bind_ok.1 h
  obtain ⟨_, -, h⟩ := bind_ok.1 h
  obtain ⟨params, hparams, h⟩ := bind_ok.1 h
  obtain ⟨_, -, h⟩ := bind_ok.1 h
  cases h
  exact mapM_ok hparams

/-- The options and the file that a transaction is made for. -/
structure Packable {π : Type} (t : Toolchain π) (wasm : String) (o : InstallOpts) : Prop where
  account : isRAddress o.account = true
  code : ∃ bytes m, t.read wasm = .ok bytes ∧ t.fromBuffer bytes = .ok m ∧ lintErrors m = []
  types : (∀ tok ∈ tokens o.on, ∃ n, Names tok n) ∧ ∃ n, Listed o.on n
  «namespace» : ∃ ns, installNamespace t o = .ok ns
  params : ∀ p ∈ o.params, ∃ name value, Spells p name value
  network : o.network = "mainnet" ∨ o.network = "testnet"

/-- A transaction is made exactly for a module without lint errors, a list of types that are known, an address, and
parameters and a namespace in hex of the right length; and it installs just that. -/
theorem install_tx_exact {π : Type} (t : Toolchain π) (wasm : String) (o : InstallOpts) :
    ((∃ tx, installTx t wasm o = .ok tx) ↔ Packable t wasm o) ∧ ∀ tx, installTx t wasm o = .ok tx → InstallsAs t wasm o tx := by
  refine ⟨⟨?_, fun h => ?_⟩, fun tx h => installTx_installs h⟩
  · rintro ⟨tx, h⟩
    -- what the transaction carries shows that each argument can be packed
    have hinstalls := installTx_installs h
    obtain ⟨bytes, m, hread, -, hm, hlint⟩ := hinstalls.code
    have hnetwork := hinstalls.network
    refine ⟨hinstalls.account.2, ⟨bytes, m, hread, hm, hlint⟩, ⟨?_, hinstalls.some_type⟩, ⟨_, hinstalls.namespace⟩, ?_, ?_⟩
    · rw [← parseTypes_total]
      unfold installTx at h
      split_ifs at h
      obtain ⟨_, -, h⟩ := bind_ok.1 h
      obtain ⟨want, hwant, -⟩ := bind_ok.1 h
      unfold firedTypes at hwant
      split at hwant
      · cases hwant
      · exact ⟨_, ‹_›⟩
    · intro p hp
      obtain ⟨i, hi, rfl⟩ := List.getElem_of_mem hp
      have hlen := hinstalls.params.length_eq
      obtain ⟨name, value, hspells, -⟩ := hinstalls.params.get hi (hlen ▸ hi)
      exact ⟨name, value, hspells⟩
    · unfold networkId at hnetwork
      split at hnetwork
      · exact .inl ‹_›
      · exact .inr ‹_›
      · cases hnetwork
  · obtain ⟨haddr, ⟨bytes, m, hread, hm, hlint⟩, ⟨htypes, hsome⟩, ⟨ns, hns⟩, hparams, hnetwork⟩ := h
    -- and packable arguments pass the checks in the order they are made
    obtain ⟨want, hwant⟩ := parseTypes_total.2 htypes
    obtain ⟨params, hparams⟩ := mapM_total fun p hp => by
      obtain ⟨name, value, hspells⟩ := hparams p hp
      exact hspells.accepted
    obtain ⟨network, hnetwork⟩ : ∃ n, networkId o.network = .ok n := by
      rcases hnetwork with h | h
      · exact ⟨21337, by rw [h]; rfl⟩
      · exact ⟨21338, by rw [h]; rfl⟩
    have hchecked : checkedModule t wasm = .ok bytes := by
      unfold checkedModule
      rw [context_eq_ok.2 hread]
      show (context _ (t.fromBuffer bytes) >>= _) = _
      rw [context_eq_ok.2 hm]
      show (if lintErrors m = [] then _ else _) = _
      rw [if_pos hlint]
      rfl
    have hfired : firedTypes o.on = .ok want := by
      obtain ⟨n, hn⟩ := hsome
      have hne : want ≠ ∅ := Finset.ne_empty_of_mem ((parseTypes_listed hwant n).2 hn)
      unfold firedTypes
      rw [hwant]
      exact if_neg hne
    refine ⟨⟨o.account, network, encodeHex bytes, encodeHookOn want, ns, o.flags, params⟩, ?_⟩
    unfold installTx
    rw [if_neg (by simpa using haddr), hchecked, hfired, hns, hparams, hnetwork]
    rfl

end Xahc.Cli

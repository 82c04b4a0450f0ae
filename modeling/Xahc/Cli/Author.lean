/-
`xahc author`: an intent is matched against a catalog of archetypes, the hook of the one that matches is built and proven, and
only a proven one is packaged. The transaction fires on payments and carries the limit and the destination of the intent.
-/
import Xahc.Cli.Drops
import Xahc.Cli.InstallTx

namespace Xahc.Cli

open Xahc.Data Xahc.Chain Xahc.Wasm

/-! ## The catalog -/

/-- How the value of a parameter is read from the intent. -/
inductive ParamKind
  | Drops
  | DestAddr
  deriving DecidableEq, Repr

/-- A parameter of an archetype. -/
structure ParamSpec where
  key : String
  kind : ParamKind
  required : Bool
  deriving DecidableEq, Repr

/-- An entry of the catalog: a hook, the words that ask for it, and what is proved of it. -/
structure Archetype where
  name : String
  hookSrc : String
  keywords : List String
  invariants : List String
  params : List ParamSpec
  summary : String
  deriving DecidableEq, Repr

/-- The archetypes `author` knows. -/
def CATALOG : List Archetype :=
  [{ name := "spend-limit"
     hookSrc := "limit.c"
     keywords := ["limit", "cap", "max", "most", "ceiling", "no more than", "at most", "under"]
     invariants := ["limit"]
     params := [⟨"LIM", .Drops, true⟩]
     summary := "accept ⟹ payment drops ≤ LIM (per-tx spend cap)" },
   { name := "agent-guardrail"
     hookSrc := "agent_guardrail.c"
     keywords := ["guardrail", "agent", "allowlist", "only to", "lock to", "destination", "whitelist", "budget"]
     invariants := ["guardrail"]
     params := [⟨"LIM", .Drops, true⟩, ⟨"DST", .DestAddr, false⟩]
     summary := "accept ⟹ spend ≤ LIM AND destination ∈ \x7bDST\x7d (agent spending guard)" },
   { name := "owner-only"
     hookSrc := "authz.c"
     keywords := ["owner", "owner-only", "only me", "only the owner", "authorize", "authz", "permission", "only owner"]
     invariants := ["authz"]
     params := []
     summary := "accept ⟹ originating account == hook owner (owner-only gate)" },
   { name := "replay-guard"
     hookSrc := "monotonic.c"
     keywords := ["replay", "nonce", "monotonic", "once", "no replay", "increment", "sequence"]
     invariants := ["monotonic"]
     params := [⟨"NON", .Drops, true⟩]
     summary := "accept ⟹ incoming nonce strictly exceeds stored nonce (replay protection)" },
   { name := "overflow-safe-limit"
     hookSrc := "overflow.c"
     keywords := ["overflow", "wrap", "tip", "safe limit", "drops plus", "no overflow"]
     invariants := ["overflow"]
     params := [⟨"LIM", .Drops, true⟩, ⟨"TIP", .Drops, false⟩]
     summary := "accept ⟹ (drops + tip) ≤ LIM with no uint64 wrap bypass" }]

/-! ## Matching -/

/-- The word occurs from here on with neither a letter nor a digit at its ends; `before` is the character before. -/
def wordFrom (kw : List Char) : (before : Option Char) → List Char → Bool
  | _, [] => false
  | before, c :: s =>
    kw.isPrefixOf (c :: s) && !before.any Char.isAlphanum && !((c :: s).drop kw.length).head?.any Char.isAlphanum ||
      wordFrom kw (some c) s

/-- A phrase matches anywhere, a word at its ends only. -/
def matchesKeyword (haystack : List Char) (kw : String) : Bool :=
  if ' ' ∈ kw.toList then haystack.tails.any kw.toList.isPrefixOf else wordFrom kw.toList none haystack

/-- How many keywords of an archetype the intent has. -/
def score (lc : List Char) (a : Archetype) : Nat := (a.keywords.filter (matchesKeyword lc)).length

/-- The archetypes with a match, the highest score first. -/
def scored (lc : List Char) : List (Nat × Archetype) :=
  ((CATALOG.map fun a => (score lc a, a)).filter fun x => 0 < x.1).insertionSort fun x y => y.1 ≤ x.1

/-- The archetype that scores highest, if it is one alone. -/
def resolve (toLowercase : List Char → List Char) (intent : String) : Except Failure Archetype :=
  match scored (toLowercase intent.toList) with
  | [] => .error ["could not map intent to a known archetype.\n  intents I understand: " ++
      ", ".intercalate (CATALOG.map Archetype.name) ++
      "\n  (be explicit, e.g. \"limit payments to 5 XAH\" or \"owner-only\")"]
  | [(_, a)] => .ok a
  | (n0, a0) :: (n1, a1) :: rest =>
    if n0 = n1 then .error ["intent is ambiguous (ties between archetypes). Be more specific.\n  candidates: " ++
      ", ".intercalate ((((n0, a0) :: (n1, a1) :: rest).take 3).map fun x => x.2.name)]
    else .ok a0

/-! ## Parameters -/

/-- The name of a parameter in hex, as `install-tx` takes it. -/
def hexKey (key : String) : List Char := encodeHex (utf8 key.toList)

/-- The first word that is an account in hex, whatever stands around it that is no letter or digit. -/
def extractDest (intent : String) : Option (List Char) :=
  ((intent.toList.splitOnP isWhitespace).filter (· ≠ [])).findSome? fun tok =>
    let t := (tok.dropWhile fun c => !c.isAlphanum).rdropWhile fun c => !c.isAlphanum
    if t.length = 40 ∧ t.all isHexDigit then some (t.map Char.toUpper) else none

section
variable (toLowercase : List Char → List Char) (intent : String)

/-- An amount is sixteen digits of hex. -/
def paramValue : ParamKind → Option (List Char)
  | .Drops => (extractDrops toLowercase intent).map fun d => encodeHex (natBE 8 d)
  | .DestAddr => extractDest intent

/-- The `name=value` arguments for the parameters; a required one has to be in the intent. -/
def buildParams (arch : String) : List ParamSpec → Except Failure (List String)
  | [] => .ok []
  | p :: ps =>
    match paramValue toLowercase intent p.kind, p.required with
    | some v, _ => do return String.ofList (hexKey p.key ++ '=' :: v) :: (← buildParams arch ps)
    | none, true => .error ["archetype `" ++ arch ++ "` needs a valid " ++ p.key ++
        " value but none was found in the intent (e.g. add \"5 XAH\"; a too-large/invalid amount is rejected rather than " ++
        "silently truncated)"]
    | none, false => buildParams arch ps

end

/-! ## The run -/

/-- The options of `author`. -/
structure AuthorOpts where
  intent : String
  name : Option String := none
  account : Option String := none
  network : String
  register : Bool := false

/-- What the prover said of one invariant. -/
structure InvariantResult where
  invariant : String
  verdict : String
  exitCode : Int
  deriving DecidableEq, Repr

/-- The paths of the files are left out. -/
structure AuthorReport where
  intent : String
  archetype : String
  guarantee : String
  invariants : List InvariantResult
  certified : Bool
  installTx : Option SetHook
  registered : Bool

/-- The prover's checkout: its sources, the build of a source, and its registry. -/
structure Checkout where
  hooks : String → Option Bytes
  build : Bytes → Except Failure Bytes
  register : Bytes → String → Except Failure Unit

section
variable {π : Type} (toLowercase : List Char → List Char) (t : Toolchain π) (checkout : Checkout)

/-- All archetypes police payments. -/
def onClause (_arch : Archetype) : String := "Payment"

/-- The file that was built, in the place where the prover and the packaging find it. -/
def withFile (path : String) (bytes : Bytes) : Toolchain π :=
  { t with read := fun p => if p = path then .ok bytes else t.read p }

/-- Each invariant of the archetype is proved on the built file. -/
def proveAll (wasm : String) (arch : Archetype) : Except Failure (List InvariantResult) :=
  arch.invariants.mapM fun inv => do
    let code ← t.prove wasm inv
    return ⟨inv, verdictOf code, code⟩

/-- The transaction of a certified hook, where an account was named. -/
def authorInstall (wasm : String) (arch : Archetype) (o : AuthorOpts) : Except Failure (Option SetHook) :=
  match o.account with
  | none => .ok none
  | some account => do
    let params ← buildParams toLowercase o.intent arch.name arch.params
    some <$> installTx t wasm
      { account := account
        on := onClause arch
        network := o.network
        flags := 1
        params := params }

/-- Where asked, the built bytes are registered under every invariant. -/
def authorRegister (bytes : Bytes) (arch : Archetype) (o : AuthorOpts) : Except Failure Bool :=
  if o.register then do
    for inv in arch.invariants do checkout.register bytes inv
    return true
  else .ok false

/-- The command: resolve, build, prove, and for a certified hook the transaction and the registration. -/
def author (o : AuthorOpts) : Except Failure AuthorReport := do
  let arch ← resolve toLowercase o.intent
  if arch.invariants = [] then
    .error ["archetype `" ++ arch.name ++ "` defines no invariant to prove — refusing to certify"]
  else
    match checkout.hooks arch.hookSrc with
    | none => .error ["proven template " ++ arch.hookSrc ++ " not found in prover hooks/"]
    | some src =>
      let wasm := (o.name.getD arch.name) ++ ".wasm"
      let bytes ← context "build failed — cannot certify a hook that does not compile clean" (checkout.build src)
      let t := withFile t wasm bytes
      let results ← proveAll t wasm arch
      if results.all fun r => r.exitCode = 0 then
        let tx ← authorInstall toLowercase t wasm arch o
        let registered ← authorRegister checkout bytes arch o
        return ⟨o.intent, arch.name, arch.summary, results, true, tx, registered⟩
      else return ⟨o.intent, arch.name, arch.summary, results, false, none, false⟩

end

/-! ## What matches -/

/-- The word stands in the text with neither a letter nor a digit at its ends. -/
def WordIn (kw s : List Char) : Prop :=
  ∃ pre post, s = pre ++ kw ++ post ∧ (∀ c, pre.getLast? = some c → c.isAlphanum = false) ∧
    ∀ c, post.head? = some c → c.isAlphanum = false

/-- The one archetype that scores highest, and scores at all. -/
structure Best (lc : List Char) (a : Archetype) : Prop where
  listed : a ∈ CATALOG
  scores : 0 < score lc a
  best : ∀ b ∈ CATALOG, b ≠ a → score lc b < score lc a

theorem wordFrom_iff {kw : List Char} (hkw : kw ≠ []) : ∀ {before : Option Char} {s : List Char}, wordFrom kw before s = true ↔
    ∃ pre post, s = pre ++ kw ++ post ∧ (∀ c, (pre.getLast?.or before) = some c → c.isAlphanum = false) ∧
      ∀ c, post.head? = some c → c.isAlphanum = false
  | before, [] => by
    refine iff_of_false (by simp [wordFrom]) ?_
    rintro ⟨pre, post, h, -⟩
    simp [hkw] at h
  | before, c :: s => by
    have hany : ∀ x : Option Char, (!x.any Char.isAlphanum) = true ↔ ∀ d, x = some d → d.isAlphanum = false := by
      rintro (_ | d) <;> simp
    have hlast : ∀ pre : List Char, (c :: pre).getLast?.or before = pre.getLast?.or (some c) := by
      intro pre
      rw [List.getLast?_cons]
      cases pre.getLast? <;> rfl
    -- a word starts here or further on, where what stands before it is the character before
    rw [wordFrom, Bool.or_eq_true, Bool.and_eq_true, Bool.and_eq_true, List.isPrefixOf_iff_prefix, hany, hany, wordFrom_iff hkw]
    constructor
    · rintro (⟨⟨⟨post, hpost⟩, hbefore⟩, hafter⟩ | ⟨pre, post, rfl, hpre, hpost⟩)
      · refine ⟨[], post, hpost.symm, by simpa using hbefore, ?_⟩
        rwa [← hpost, List.drop_left] at hafter
      · exact ⟨c :: pre, post, by simp, by rwa [hlast], hpost⟩
    · rintro ⟨pre, post, h, hpre, hpost⟩
      cases pre with
      | nil =>
        left
        rw [List.nil_append] at h
        refine ⟨⟨⟨post, h.symm⟩, by simpa using hpre⟩, ?_⟩
        rwa [h, List.drop_left]
      | cons d pre =>
        right
        obtain ⟨rfl, rfl⟩ := List.cons.inj h
        exact ⟨pre, post, rfl, by rwa [hlast] at hpre, hpost⟩

/-- A keyword matches where it occurs, and a single word where it occurs as a word. -/
theorem matchesKeyword_iff {lc : List Char} {kw : String} (hkw : kw.toList ≠ []) :
    matchesKeyword lc kw = true ↔ if ' ' ∈ kw.toList then kw.toList <:+: lc else WordIn kw.toList lc := by
  unfold matchesKeyword
  split_ifs
  · rw [List.any_eq_true]
    constructor
    · rintro ⟨t, ht, hprefix⟩
      exact (List.isPrefixOf_iff_prefix.1 hprefix).isInfix.trans ((List.mem_tails ..).1 ht).isInfix
    · rintro ⟨pre, post, rfl⟩
      refine ⟨kw.toList ++ post, (List.mem_tails ..).2 ⟨pre, by simp⟩, List.isPrefixOf_iff_prefix.2 (List.prefix_append _ _)⟩
  · rw [wordFrom_iff hkw]
    simp [WordIn]

theorem mem_scored {lc : List Char} {x : Nat × Archetype} :
    x ∈ scored lc ↔ x.2 ∈ CATALOG ∧ x.1 = score lc x.2 ∧ 0 < x.1 := by
  rw [scored, List.mem_insertionSort, List.mem_filter, List.mem_map]
  constructor
  · rintro ⟨⟨a, ha, rfl⟩, hpos⟩
    exact ⟨ha, rfl, by simpa using hpos⟩
  · rintro ⟨ha, hscore, hpos⟩
    exact ⟨⟨x.2, ha, by rw [← hscore]⟩, by simpa using hpos⟩

theorem scored_sorted (lc : List Char) : (scored lc).Pairwise fun x y => y.1 ≤ x.1 := by
  have : Std.Total (α := Nat × Archetype) fun x y => y.1 ≤ x.1 := ⟨fun x y => le_total y.1 x.1⟩
  have : IsTrans (Nat × Archetype) fun x y => y.1 ≤ x.1 := ⟨fun x y z h h' => h'.trans h⟩
  exact List.pairwise_insertionSort _ _

theorem scored_nodup (lc : List Char) : (scored lc).Nodup := by
  have hcatalog : CATALOG.Nodup := by decide +kernel
  have hmap : (CATALOG.map fun a => (score lc a, a)).Nodup :=
    hcatalog.map fun a b h => (Prod.mk.inj h).2
  exact ((List.perm_insertionSort _ _).nodup_iff).2 (hmap.filter _)

/-- An intent is resolved to the best archetype, and to none where there is no single best one. -/
theorem resolve_iff {toLowercase : List Char → List Char} {intent : String} {a : Archetype} :
    resolve toLowercase intent = .ok a ↔ Best (toLowercase intent.toList) a := by
  unfold resolve
  generalize toLowercase intent.toList = lc
  have hmem : ∀ b, b ∈ CATALOG → 0 < score lc b → (score lc b, b) ∈ scored lc := fun b hb hpos => mem_scored.2 ⟨hb, rfl, hpos⟩
  have hof : ∀ x ∈ scored lc, x.2 ∈ CATALOG ∧ x.1 = score lc x.2 ∧ 0 < x.1 := fun x => mem_scored.1
  have hsorted := scored_sorted lc
  have hnodup := scored_nodup lc
  generalize scored lc = l at hmem hof hsorted hnodup
  -- where the first one is ahead of the second, it is ahead of all
  have hfirst : ∀ n b rest, l = (n, b) :: rest → (∀ x ∈ rest, x.1 < n) → Best lc b := by
    rintro n b rest rfl hlt
    obtain ⟨hb, hn, hpos⟩ := hof (n, b) List.mem_cons_self
    refine ⟨hb, hn ▸ hpos, fun c hc hne => ?_⟩
    rcases Nat.eq_zero_or_pos (score lc c) with hzero | hcpos
    · rw [hzero]
      exact hn ▸ hpos
    · rcases List.mem_cons.1 (hmem c hc hcpos) with heq | hrest
      · exact absurd (Prod.mk.inj heq).2 hne
      · exact (hlt _ hrest).trans_eq hn
  match l with
  | [] =>
    refine iff_of_false (by simp) fun h => ?_
    cases hmem a h.listed h.scores
  | [(n, b)] =>
    have hb := hfirst n b [] rfl (by simp)
    constructor
    · rintro ⟨⟩
      exact hb
    · intro h
      by_contra hne
      have hab : a ≠ b := fun hab => hne (by rw [hab])
      exact absurd (hb.best a h.listed hab) (Nat.lt_asymm (h.best b hb.listed (Ne.symm hab)))
  | (n0, a0) :: (n1, a1) :: rest =>
    rw [List.pairwise_cons] at hsorted
    dsimp only
    split_ifs with htie
    · refine iff_of_false (by simp) fun h => ?_
      -- two of them share the highest score
      obtain ⟨h0, hn0, -⟩ := hof (n0, a0) List.mem_cons_self
      obtain ⟨h1, hn1, -⟩ := hof (n1, a1) (List.mem_cons_of_mem _ List.mem_cons_self)
      have hle : score lc a ≤ n0 := by
        rcases List.mem_cons.1 (hmem a h.listed h.scores) with heq | hrest
        · exact (Prod.mk.inj heq).1.le
        · exact hsorted.1 _ hrest
      have hboth : ∀ b ∈ CATALOG, score lc b = n0 → b = a := by
        intro b hb hscore
        by_contra hne
        exact absurd (h.best b hb hne) (not_lt.2 (hscore ▸ hle))
      have hsame : (n0, a0) = (n1, a1) := by rw [hboth a0 h0 hn0.symm, hboth a1 h1 (hn1.symm.trans htie.symm), htie]
      exact (List.nodup_cons.1 hnodup).1 (hsame ▸ List.mem_cons_self)
    · have hlt : ∀ x ∈ (n1, a1) :: rest, x.1 < n0 := by
        intro x hx
        have hx1 : x.1 ≤ n1 := by
          rcases List.mem_cons.1 hx with rfl | hx
          · exact le_rfl
          · exact (List.pairwise_cons.1 hsorted.2).1 x hx
        exact hx1.trans_lt (lt_of_le_of_ne (hsorted.1 _ List.mem_cons_self) (Ne.symm htie))
      have hb := hfirst n0 a0 _ rfl hlt
      constructor
      · rintro ⟨⟩
        exact hb
      · intro h
        by_contra hne
        have hab : a ≠ a0 := fun hab => hne (by rw [hab])
        exact absurd (hb.best a h.listed hab) (Nat.lt_asymm (h.best a0 hb.listed (Ne.symm hab)))

/-! ## What the parameters install -/

section
variable {toLowercase : List Char → List Char} {intent : String}

variable (toLowercase intent) in
/-- The bytes an intent gives for a parameter. -/
def paramBytes (kind : ParamKind) : Option Bytes := (paramValue toLowercase intent kind).bind decodeHex

/-- The name of a parameter as bytes. -/
def ParamSpec.keyBytes (p : ParamSpec) : Bytes := utf8 p.key.toList

/-- A pair of the author's is read back as it was made. -/
theorem hookParameter_pair {p : ParamSpec} {v : List Char} {q : HookParameter}
    (h : hookParameter (String.ofList (hexKey p.key ++ '=' :: v)) = .ok q) :
    decodeHex q.name = some p.keyBytes ∧ ∃ b, decodeHex v = some b ∧ decodeHex q.value = some b := by
  have hsep : '=' ∉ hexKey p.key := fun hmem => by
    have hdigit := encodeHex_isHex _ _ hmem
    cases hdigit
  unfold hookParameter at h
  rw [String.toList_ofList, splitOnce_append hsep v] at h
  dsimp only at h
  split_ifs at h with hhex
  cases h
  simp only [Bool.or_eq_true, Bool.not_eq_true', not_or, Bool.not_eq_false] at hhex
  obtain ⟨b, hb, hupper, -⟩ := isHex_decodes hhex.2
  refine ⟨?_, b, hb, hupper⟩
  rw [hexKey, encodeHex_toUpper, decodeHex_encodeHex, ParamSpec.keyBytes]

theorem paramUnder_cons {q : HookParameter} {qs : List HookParameter} {name value : Bytes} (hname : decodeHex q.name = some name)
    (hvalue : decodeHex q.value = some value) (key : Bytes) :
    paramUnder (q :: qs) key = if key = name then some value else paramUnder qs key := by
  rw [paramUnder, List.findSome?_cons, hname, hvalue]
  by_cases hkey : key = name
  · simp [hkey]
  · simp [hkey, Ne.symm hkey, paramUnder]

/-- Each parameter is installed with the bytes of the intent, the required ones always, and nothing else is. -/
theorem buildParams_install {arch : String} : ∀ {ps : List ParamSpec} {ss : List String} {qs : List HookParameter},
    buildParams toLowercase intent arch ps = .ok ss → List.Forall₂ (fun s q => hookParameter s = .ok q) ss qs →
      (ps.map ParamSpec.keyBytes).Nodup →
        (∀ p ∈ ps, paramUnder qs p.keyBytes = paramBytes toLowercase intent p.kind ∧
          (p.required = true → (paramBytes toLowercase intent p.kind).isSome = true)) ∧
        ∀ key, key ∉ ps.map ParamSpec.keyBytes → paramUnder qs key = none
  | [], ss, qs, hb, hq, _ => by
    cases hb
    cases hq
    exact ⟨by simp, fun _ _ => rfl⟩
  | p :: ps, ss, qs, hb, hq, hnodup => by
    rw [List.map_cons, List.nodup_cons] at hnodup
    unfold buildParams at hb
    split at hb
    · rename_i v hv
      obtain ⟨ss', hss', hb⟩ := bind_ok.1 hb
      cases hb
      cases hq with
      | cons hpair hrest =>
        obtain ⟨hname, b, hvb, hvalue⟩ := hookParameter_pair hpair
        obtain ⟨hps, hothers⟩ := buildParams_install hss' hrest hnodup.2
        have hbytes : paramBytes toLowercase intent p.kind = some b := by rw [paramBytes, hv, Option.bind_some, hvb]
        constructor
        -- keys are distinct, so the parameter in front does not hide the ones behind
        · intro p' hp'
          rw [paramUnder_cons hname hvalue]
          rcases List.mem_cons.1 hp' with rfl | hp'
          · exact ⟨by rw [if_pos rfl, hbytes], fun _ => by rw [hbytes]; rfl⟩
          · have hne : p'.keyBytes ≠ p.keyBytes := fun heq => hnodup.1 (heq ▸ List.mem_map_of_mem hp')
            rw [if_neg hne]
            exact hps p' hp'
        · intro key hkey
          rw [List.map_cons, List.mem_cons, not_or] at hkey
          rw [paramUnder_cons hname hvalue, if_neg hkey.1]
          exact hothers key hkey.2
    · cases hb
    · rename_i hnone hrequired
      -- no value was read and none is required: the parameter is left out
      obtain ⟨hps, hothers⟩ := buildParams_install hb hq hnodup.2
      have hbytes : paramBytes toLowercase intent p.kind = none := by rw [paramBytes, hnone, Option.bind_none]
      constructor
      · intro p' hp'
        rcases List.mem_cons.1 hp' with rfl | hp'
        · exact ⟨(hothers _ hnodup.1).trans hbytes.symm, fun hreq => by cases hrequired.symm.trans hreq⟩
        · exact hps p' hp'
      · intro key hkey
        rw [List.map_cons, List.mem_cons, not_or] at hkey
        exact hothers key hkey.2

theorem catalog_keys : ∀ a ∈ CATALOG, (a.params.map ParamSpec.keyBytes).Nodup := by decide +kernel

end

/-! ## What a run certifies -/

/-- The transaction installs what was built, on payments alone, with the parameters of the intent. -/
structure Carries (toLowercase : List Char → List Char) (o : AuthorOpts) (arch : Archetype) (bytes : Bytes) (tx : SetHook) :
    Prop where
  account : o.account = some tx.Account
  code : decodeHex tx.CreateCode = some bytes
  fires : ∀ n < 256, fires tx.HookOn n = true ↔ n = 0
  params : ∀ p ∈ arch.params, tx.hookParam p.keyBytes = paramBytes toLowercase o.intent p.kind ∧
    (p.required = true → (paramBytes toLowercase o.intent p.kind).isSome = true)
  no_others : ∀ key, key ∉ arch.params.map ParamSpec.keyBytes → tx.hookParam key = none

section
variable {π : Type} {toLowercase : List Char → List Char} {t : Toolchain π} {checkout : Checkout} {o : AuthorOpts}
  {report : AuthorReport} {arch : Archetype}

theorem listed_payment (n : Nat) : Listed "Payment" n ↔ n = 0 := by
  have hwant : parseTypes "Payment" = .ok {0} := by rfl
  rw [← parseTypes_listed hwant n, Finset.mem_singleton]

theorem authorInstall_carries {wasm : String} {bytes : Bytes} {tx : Option SetHook} (hlisted : arch ∈ CATALOG)
    (h : authorInstall toLowercase (withFile t wasm bytes) wasm arch o = .ok tx) :
    (tx.isSome = true ↔ o.account.isSome = true) ∧ ∀ tx', tx = some tx' → Carries toLowercase o arch bytes tx' := by
  unfold authorInstall at h
  cases haccount : o.account with
  | none =>
    rw [haccount] at h
    cases h
    simp
  | some account =>
    rw [haccount] at h
    obtain ⟨params, hparams, h⟩ := bind_ok.1 h
    obtain ⟨tx', htx', rfl⟩ : ∃ tx', installTx (withFile t wasm bytes) wasm
        { account := account, on := "Payment", network := o.network, flags := 1, params := params } = .ok tx' ∧ tx = some tx' := by
      cases hi : installTx (withFile t wasm bytes) wasm
        { account := account, on := "Payment", network := o.network, flags := 1, params := params } with
      | error e =>
        rw [onClause, hi] at h
        cases h
      | ok tx' =>
        rw [onClause, hi] at h
        cases h
        exact ⟨tx', rfl, rfl⟩
    refine ⟨by simp, ?_⟩
    rintro tx' ⟨⟩
    have hinstalls := installTx_installs htx'
    obtain ⟨bytes', m, hread, hcode, -⟩ := hinstalls.code
    obtain rfl : bytes = bytes' := by simpa [withFile] using hread
    -- the keys of a catalog entry are distinct, so every parameter is found under its own
    obtain ⟨hps, hothers⟩ := buildParams_install hparams (installTx_params htx') (catalog_keys arch hlisted)
    exact
      { account := haccount.trans (congrArg some hinstalls.account.1.symm)
        code := hcode
        fires := fun n hn => (hinstalls.fires n hn).trans (listed_payment n)
        params := hps
        no_others := hothers }

theorem proveAll_certifies {wasm : String} {results : List InvariantResult} (h : proveAll t wasm arch = .ok results) :
    (results.all fun r => r.exitCode = 0) = true ↔ ∀ inv ∈ arch.invariants, t.prove wasm inv = .ok 0 := by
  have hproved := mapM_ok h
  clear h
  generalize arch.invariants = invs at hproved
  induction hproved with
  | nil => simp
  | @cons inv r invs rs hinv _ ih =>
    obtain ⟨code, hcode, hr⟩ := bind_ok.1 hinv
    cases hr
    rw [List.all_cons, Bool.and_eq_true, List.forall_mem_cons, hcode, decide_eq_true_iff, Except.ok.injEq]
    exact and_congr_right fun _ => ih

/-- What a run reports of the archetype and the file that was built. -/
structure Certifies {π : Type} (toLowercase : List Char → List Char) (t : Toolchain π) (o : AuthorOpts) (report : AuthorReport)
    (arch : Archetype) (bytes : Bytes) : Prop where
  best : Best (toLowercase o.intent.toList) arch
  archetype : report.archetype = arch.name
  certified : report.certified = true ↔ ∀ inv ∈ arch.invariants, t.prove (o.name.getD arch.name ++ ".wasm") inv = .ok 0
  packaged : report.installTx.isSome = true ↔ report.certified = true ∧ o.account.isSome = true
  registered : report.registered = true ↔ report.certified = true ∧ o.register = true
  carries : ∀ tx, report.installTx = some tx → Carries toLowercase o arch bytes tx

theorem author_ok (h : author toLowercase t checkout o = .ok report) :
    ∃ arch src bytes, checkout.hooks arch.hookSrc = some src ∧ checkout.build src = .ok bytes ∧
      Certifies toLowercase t o report arch bytes := by
  unfold author at h
  obtain ⟨arch, harch, h⟩ := bind_ok.1 h
  have hbest := resolve_iff.1 harch
  split_ifs at h
  split at h
  · cases h
  · rename_i src hsrc
    obtain ⟨bytes, hbytes, h⟩ := bind_ok.1 h
    obtain ⟨results, hresults, h⟩ := bind_ok.1 h
    have hcert := proveAll_certifies hresults
    refine ⟨arch, src, bytes, hsrc, context_eq_ok.1 hbytes, ?_⟩
    -- only a hook whose proofs all passed goes on to the transaction and the registry
    split_ifs at h with hall
    · obtain ⟨tx, htx, h⟩ := bind_ok.1 h
      obtain ⟨registered, hregistered, h⟩ := bind_ok.1 h
      cases h
      obtain ⟨hsome, hcarries⟩ := authorInstall_carries hbest.listed htx
      refine ⟨hbest, rfl, iff_of_true rfl (hcert.1 hall), by simpa using hsome, ?_, hcarries⟩
      unfold authorRegister at hregistered
      split_ifs at hregistered with hreg
      · obtain ⟨-, -, hdone⟩ := bind_ok.1 hregistered
        cases hdone
        simp [hreg]
      · cases hregistered
        simp [hreg]
    · cases h
      refine ⟨hbest, rfl, iff_of_false Bool.false_ne_true fun hp => hall (hcert.2 hp), ?_, ?_, ?_⟩
      · simp
      · simp
      · simp

/-- The author takes an intent only where one archetype fits best, certifies its hook only where the prover proved every
invariant of it, and only then makes a transaction or an entry in the registry; the transaction installs the hook that was
built on payments alone, with the parameters of the intent. -/
theorem author_certifies (toLowercase : List Char → List Char) (t : Toolchain π) (checkout : Checkout) (o : AuthorOpts) :
    (∀ report, author toLowercase t checkout o = .ok report → ∃ arch src bytes, checkout.hooks arch.hookSrc = some src ∧
      checkout.build src = .ok bytes ∧ Certifies toLowercase t o report arch bytes) ∧
    ((¬∃ arch, Best (toLowercase o.intent.toList) arch) → ∃ e, author toLowercase t checkout o = .error e) := by
  refine ⟨fun report h => author_ok h, fun hnone => ?_⟩
  cases h : author toLowercase t checkout o with
  | error e => exact ⟨e, rfl⟩
  | ok report =>
    obtain ⟨arch, _, _, -, -, hcertifies⟩ := author_ok h
    exact absurd ⟨arch, hcertifies.best⟩ hnone

end

end Xahc.Cli

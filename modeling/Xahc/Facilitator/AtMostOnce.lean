/-
At-most-once submission over one in-memory store: while the validated ledger has not reached a
transaction's `LastLedgerSequence`, a second submit of it comes only after the first one failed with a `tem`
error. The reservation outlives the transaction's window, and its holder is the only one to submit.
-/
import Xahc.Facilitator.Memory

namespace Xahc.Facilitator

open Xahc.Data Xahc.Effect

/-- What happened between settlements, direct reservations and the store in memory. -/
abbrev Run := Trace Op Res Call Outcome

/-! ## The run's surroundings -/

/-- The validated ledger's index over time: it advances by one at least every `LEDGER_CLOSE_MS`. -/
structure Ledger (env : Env) where
  index : Nat → Nat
  mono : Monotone index
  advances : ∀ t, index t + 1 ≤ index (t + env.LEDGER_CLOSE_MS)

/-- The reads of the validated ledger: the call, the time, and the index the node gave. -/
def ledgerReads (tr : Run) : List (Nat × Nat × ℚ) :=
  tr.filterMap fun
    | .performed i t (.request .ledgerValidated) (.ok r) => (ledgerIndexOf r).map (i, t, ·)
    | _ => none

/-- The times that calls captured as their `now`. -/
def captured (tr : Run) : List (Nat × Nat) :=
  tr.filterMap fun
    | .resumed i t (.isConsumed _) _ => some (i, t)
    | _ => none

/-- The reservations made, with their expiry. -/
def reservations (tr : Run) : List (Nat × ℚ) :=
  tr.filterMap fun
    | .performed i _ (.reserve _ expiryMs _) (.ok .reserved) => some (i, expiryMs)
    | _ => none

/-- The times at which calls learnt what came of their submit. -/
def submitAnswers (tr : Run) : List (Nat × Nat) :=
  tr.filterMap fun
    | .resumed i t (.submitAndWait _) _ => some (i, t)
    | _ => none

/-- The node never gives an index that the ledger has not reached, a call reads the ledger within the
margin after it captured `now`, and has its submit's outcome before its reservation expires. -/
structure Timely (env : Env) (L : Ledger env) (tr : Run) : Prop where
  reads : ∀ x ∈ ledgerReads tr, x.2.2 ≤ L.index x.2.1
  prompt : ∀ x ∈ ledgerReads tr, ∀ y ∈ captured tr, x.1 = y.1 → x.2.1 ≤ y.2 + env.REPLAY_EXPIRY_MARGIN_MS
  submits : ∀ x ∈ submitAnswers tr, ∀ y ∈ reservations tr, x.1 = y.1 → (x.2 : ℚ) < y.2

/-! ## What is promised -/

/-- Until the validated ledger reaches a transaction's `LastLedgerSequence` it is submitted once: no later ledger can include
it, and `settle` itself refuses it from then on. A call that submits nothing replies with a stored receipt or a rejection. -/
structure AtMostOnce (env : Env) (L : Ledger env) (tr : Run) : Prop where
  once : ∀ post mid pre i j ti tj b b' tx lls,
    tr = post ++ .called j tj (.submitAndWait b') :: (mid ++ .called i ti (.submitAndWait b) :: pre) →
      env.decode b = some tx → env.decode b' = some tx → tx.lastLedgerSequence = some lls → L.index tj < lls →
        ∃ t e, Event.resumed i t (.submitAndWait b) (.error e) ∈ mid ∧ submitDefinitelyNotApplied e = true
  others : ∀ post pre i t out payload req deps, tr = post ++ .finished i t (.reply out) :: pre →
    label i tr = some (.settle payload req deps) → (∀ t b, .called i t (.submitAndWait b) ∉ pre) →
      (∃ r, out = .ok (.rejected r)) ∨
      ∃ v receipt payer expiryMs j tj r, verifyExact env payload req = .ok v ∧ out = .ok (.replayed receipt payer) ∧
        .performed j tj (.setReceipt v.replayId receipt expiryMs) r ∈ pre

/-- The same for a ledger longer: until the validated ledger passes `LastLedgerSequence`. -/
def OnceUntilPassed (env : Env) (L : Ledger env) (tr : Run) : Prop :=
  ∀ post mid pre i j ti tj b b' tx lls,
    tr = post ++ .called j tj (.submitAndWait b') :: (mid ++ .called i ti (.submitAndWait b) :: pre) →
      env.decode b = some tx → env.decode b' = some tx → tx.lastLedgerSequence = some lls → L.index tj ≤ lls →
        ∃ t e, Event.resumed i t (.submitAndWait b) (.error e) ∈ mid ∧ submitDefinitelyNotApplied e = true

section
variable {env : Env} {L : Ledger env} {maxEntries t : Nat} {s : InMemoryStore} {tr pre post : Run} {i j : Nat}

/-- The run is one of settlements and reservations on a new store. -/
abbrev Runs (env : Env) (maxEntries t : Nat) (s : InMemoryStore) (tr : Run) : Prop :=
  Behaves (inMemory env) (MayCall env) (Ends env) (.new maxEntries) t s tr

/-! ## The window -/

theorem Ledger.advances_by (L : Ledger env) (t k : Nat) : L.index t + k ≤ L.index (t + k * env.LEDGER_CLOSE_MS) := by
  induction k with
  | zero => simp
  | succ k ih =>
    have hnext := L.advances (t + k * env.LEDGER_CLOSE_MS)
    rw [Nat.succ_mul, ← Nat.add_assoc t]
    omega

/-- From the expiry on, the ledger has reached `LastLedgerSequence`: the binding outlives the window. -/
theorem Ledger.reached (L : Ledger env) {lls now tr t : Nat} {cur : ℚ} (hcur : cur ≤ L.index tr) (hopen : cur < lls)
    (hread : tr ≤ now + env.REPLAY_EXPIRY_MARGIN_MS) (ht : consumedExpiryFor env lls cur now ≤ t) : lls ≤ L.index t := by
  unfold consumedExpiryFor at ht
  rw [if_pos hopen] at ht
  have hread' : (tr : ℚ) ≤ now + env.REPLAY_EXPIRY_MARGIN_MS := by exact_mod_cast hread
  have hclose : (0 : ℚ) ≤ env.LEDGER_CLOSE_MS := Nat.cast_nonneg _
  have hexp : (tr : ℚ) + (lls - cur) * env.LEDGER_CLOSE_MS ≤ t := by linarith
  by_cases hlls : lls ≤ L.index tr
  · have hwait : 0 ≤ (lls - cur) * (env.LEDGER_CLOSE_MS : ℚ) := mul_nonneg (by linarith) hclose
    have htr : tr ≤ t := by
      have : (tr : ℚ) ≤ t := by linarith
      exact_mod_cast this
    exact hlls.trans (L.mono htr)
  · -- as many ledgers as were missing close before the expiry
    obtain ⟨k, hk⟩ := Nat.exists_eq_add_of_le (Nat.le_of_not_le hlls)
    have hgap : (k : ℚ) ≤ lls - cur := by
      have : (lls : ℚ) = L.index tr + k := by exact_mod_cast hk
      linarith
    have hclosed : tr + k * env.LEDGER_CLOSE_MS ≤ t := by
      have := mul_le_mul_of_nonneg_right hgap hclose
      have : (tr : ℚ) + k * env.LEDGER_CLOSE_MS ≤ t := by linarith
      exact_mod_cast this
    have hby := L.advances_by tr k
    exact hk ▸ hby.trans (L.mono hclosed)

/-! ## A call that submits -/

/-- What is known of a call when it submits a transaction. -/
structure Submits (tx : Tx) (b : String) (i : Nat) (pre : Run) (covered : ℚ → Prop) : Prop where
  reserved : ∃ expiryMs now t₀, Event.performed i t₀ (.reserve (replayKeyFor tx) expiryMs now) (.ok .reserved) ∈ pre ∧
    covered expiryMs
  first : ∀ t₀ b r, Event.resumed i t₀ (.submitAndWait b) r ∉ pre
  unreleased : ∀ t₀ key r, Event.performed i t₀ (.release key) r ∉ pre

theorem Ready.replayId {payload req : Json} {a : Attempt} {h : Hist} (hr : Ready env payload req a h) :
    a.v.replayId = replayKeyFor a.tx := by
  obtain ⟨blob, tx, paid, hver⟩ := verifyExact_ok hr.verified
  obtain ⟨-, rfl⟩ := hver.unique hr.txBlob hr.decode
  exact hver.replayId

theorem ledgerRead_mem {t₀ : Nat} {r : Json} {n : ℚ} (h : Event.performed i t₀ (.request .ledgerValidated) (.ok r) ∈ tr)
    (hn : ledgerIndexOf r = some n) : (i, t₀, n) ∈ ledgerReads tr :=
  List.mem_filterMap.2 ⟨_, h, by simp [hn]⟩

theorem captured_mem {t₀ : Nat} {key : String} {r : Except Json Bool} (h : Event.resumed i t₀ (.isConsumed key) r ∈ tr) :
    (i, t₀) ∈ captured tr :=
  List.mem_filterMap.2 ⟨_, h, rfl⟩

theorem reservation_mem {t₀ : Nat} {key : String} {expiryMs : ℚ} {now : Option Nat}
    (h : Event.performed i t₀ (.reserve key expiryMs now) (.ok .reserved) ∈ tr) : (i, expiryMs) ∈ reservations tr :=
  List.mem_filterMap.2 ⟨_, h, rfl⟩

theorem submitAnswer_mem {t₀ : Nat} {b : String} {r : Except Json (Option Json)}
    (h : Event.resumed i t₀ (.submitAndWait b) r ∈ tr) : (i, t₀) ∈ submitAnswers tr :=
  List.mem_filterMap.2 ⟨_, h, rfl⟩

/-- A call that submits holds its transaction's key until the ledger has reached `LastLedgerSequence`. -/
theorem submits_of_called {tc lls : Nat} {b : String} {tx : Tx} (htime : Timely env L tr)
    (htr : tr = post ++ .called i tc (.submitAndWait b) :: pre) (hb : Runs env maxEntries t s tr)
    (hdecode : env.decode b = some tx) (hlls : tx.lastLedgerSequence = some lls) :
    Submits tx b i pre fun expiryMs => ∀ t : Nat, expiryMs ≤ t → lls ≤ L.index t := by
  subst htr
  obtain ⟨-, s', hcut⟩ := hb.cut
  obtain ⟨-, s'', hbp, hturn, -⟩ := hcut.inv
  obtain ⟨-, l, -, -, hmay⟩ := hb.called_may
  cases l with
  | reserve key expiryMs => cases hmay.2
  | settle payload req deps =>
    -- a submit is only made by a settlement that has just reserved the key, with what it checked before in its history
    obtain ⟨a, ⟨tr', h₀, hhist, hready⟩, rfl⟩ := hmay
    obtain rfl : a.tx = tx := Option.some.inj (hready.decode.symm.trans hdecode)
    have hmem : ∀ {x}, x ∈ h₀ → x ∈ hist i pre := fun hx => hhist ▸ List.mem_cons_of_mem _ hx
    have hsub : ∀ {e}, e ∈ pre → e ∈ post ++ .called i tc (.submitAndWait a.txBlob) :: pre := fun he =>
      List.mem_append_right _ (List.mem_cons_of_mem _ he)
    have hquiet : ∀ x ∈ hist i pre, isSubmit x = false ∧ ∀ key, x.op ≠ .release key := by
      intro x hx
      rw [hhist] at hx
      rcases List.mem_cons.1 hx with rfl | hx
      · exact ⟨rfl, by simp⟩
      · exact ⟨not_submit_of_quiet (hready.quiet x hx), hready.quiet.not_release hx⟩
    constructor
    · obtain ⟨t₀, -, hp⟩ := hbp.performed_of_hist (x := ⟨.reserve a.v.replayId a.expiryMs (some a.now), .ok .reserved, tr'⟩)
        (hhist ▸ List.mem_cons_self)
      obtain ⟨lls', r, tr, cur, hlls', hread, hcur, hopen, hexp⟩ := hready.window
      obtain rfl : lls' = lls := Option.some.inj (hlls'.symm.trans hlls)
      obtain ⟨trd, -, hpread⟩ := hbp.performed_of_hist (hmem hread)
      obtain ⟨rc, hcap⟩ := hready.captured
      have hread' := ledgerRead_mem (hsub hpread) hcur
      refine ⟨a.expiryMs, some a.now, t₀, hready.replayId ▸ hp, fun t ht => ?_⟩
      -- the expiry outlasts the window: the ledger it was computed from was open, and read promptly
      exact L.reached (htime.reads _ hread') hopen
        (htime.prompt _ hread' _ (captured_mem (hsub (mem_hist.1 (hmem hcap)))) rfl) (hexp ▸ ht)
    · intro t₀ b r hr
      have hmem : (⟨.submitAndWait b, r, t₀⟩ : Entry Op Res) ∈ hist i pre := mem_hist.2 hr
      cases (hquiet _ hmem).1
    · intro t₀ key r hp
      obtain ⟨t', ht'⟩ := hbp.turn_answered hturn hp
      exact (hquiet _ ht').2 key rfl

/-! ## Releases -/

/-- A release comes in the turn in which the call's submit failed with a `tem` error. -/
theorem tem_of_release {t₀ : Nat} {key : String} {r : Except Json Unit} (hb : Runs env maxEntries t s tr)
    (hp : Event.performed i t₀ (.release key) r ∈ tr) :
    ∃ l b e, label i tr = some l ∧ l.blob? = some b ∧ Event.resumed i t₀ (.submitAndWait b) (.error e) ∈ tr ∧
      submitDefinitelyNotApplied e = true := by
  obtain ⟨post, pre, rfl⟩ := List.append_of_mem hp
  obtain ⟨-, s', hcut⟩ := hb.cut
  obtain ⟨-, s'', hbp, -, c, -, heager⟩ := hcut.inv
  -- the release took effect at its call
  obtain ⟨-, pre', rfl⟩ := heager () rfl
  obtain ⟨hle, s₁, hbp', hturn, -, l, hl, hmay⟩ := hbp.inv
  have hl' : label i (post ++ .performed i t₀ (.release key) r :: .called i t₀ (.release key) :: pre') = some l :=
    hb.label_append hl
  cases l with
  | reserve key' expiryMs => cases hmay.2
  | settle payload req deps =>
    obtain ⟨a, e, t', h₀, hhist, htem, hres, -⟩ := hmay
    obtain ⟨h₁, -, hready⟩ := hres.ready
    obtain rfl : t' = t₀ := hbp'.turn_time hturn hhist
    have hmem : (⟨.submitAndWait a.txBlob, .error e, t'⟩ : Entry Op Res) ∈ hist i pre' := hhist ▸ List.mem_cons_self
    refine ⟨_, a.txBlob, e, hl', hready.txBlob, ?_, htem⟩
    exact List.mem_append_right _ (List.mem_cons_of_mem _ (List.mem_cons_of_mem _ (mem_hist.1 hmem)))

theorem drops_of_timely (htime : Timely env L tr) (hb : Runs env maxEntries t s tr) :
    Lease.DropsInTime ((memoryLeasing env).leases tr) := by
  refine Leasing.dropsInTime fun post pre i t₀ op r key htr hact t₁ op₁ r₁ expiryMs hp₁ hact₁ => ?_
  obtain rfl := leaseAct_drop hact
  obtain ⟨now, htake⟩ := leaseAct_take hact₁
  rw [htake] at hp₁
  have hp : Event.performed i t₀ (.release key) r ∈ tr := htr ▸ List.mem_append_right _ List.mem_cons_self
  obtain ⟨l, b, e, -, -, hresumed, -⟩ := tem_of_release hb hp
  replace hp₁ : Event.performed i t₁ (.reserve key expiryMs now) (.ok .reserved) ∈ tr :=
    htr ▸ List.mem_append_right _ (List.mem_cons_of_mem _ hp₁)
  exact htime.submits _ (submitAnswer_mem hresumed) _ (reservation_mem hp₁) rfl

/-! ## One holder at a time -/

section
variable {tx : Tx} {pi pj : Nat} {ei ej : ℚ} {ni nj : Option Nat}

/-- A key is only reserved after the reservations of it that were not released have expired. -/
theorem reserve_after (hb : Runs env maxEntries t s tr) (hdrops : Lease.DropsInTime ((memoryLeasing env).leases tr))
    (htr : tr = post ++ .performed j pj (.reserve (replayKeyFor tx) ej nj) (.ok .reserved) :: pre)
    (hi : Event.performed i pi (.reserve (replayKeyFor tx) ei ni) (.ok .reserved) ∈ pre)
    (hkept : ∀ t r, Event.performed i t (.release (replayKeyFor tx)) r ∉ tr) : ei ≤ t := by
  subst htr
  obtain ⟨hle, s', hcut⟩ := hb.cut
  obtain ⟨-, s'', hbp, -⟩ := hcut.inv
  have hholds : Lease.Holds i (replayKeyFor tx) ei ((memoryLeasing env).leases pre) := by
    refine Leasing.holds_leases hi rfl (fun t op r hp hact => ?_) fun k t op r e' hp hact => ?_
    · obtain rfl := leaseAct_drop hact
      exact hkept _ _ (List.mem_append_right _ (List.mem_cons_of_mem _ hp))
    · obtain ⟨now, rfl⟩ := leaseAct_put hact
      obtain ⟨post, pre, s', -, -, l, -, hmay⟩ := hbp.performed_at hp
      exact hmay.set.1 (isBinding_replayKeyFor tx)
  have hrun := Leasing.run (funext fun _ => rfl) memory_isProper hcut
  rw [Leasing.leases_append] at hdrops
  replace hdrops := hdrops.of_append
  rw [Leasing.leases_cons_some rfl] at hrun hdrops
  have hexp : ei ≤ (pj : ℚ) := hrun.take_after rfl (Leasing.inTime memory_isHeld hbp hdrops) hholds
  exact hexp.trans (by exact_mod_cast hle)

/-- Of two reservations of a key one has been released or has expired. -/
theorem reserved_twice (hb : Runs env maxEntries t s tr) (hdrops : Lease.DropsInTime ((memoryLeasing env).leases tr))
    (hne : i ≠ j) (hi : Event.performed i pi (.reserve (replayKeyFor tx) ei ni) (.ok .reserved) ∈ tr)
    (hj : Event.performed j pj (.reserve (replayKeyFor tx) ej nj) (.ok .reserved) ∈ tr)
    (hkepti : ∀ t r, Event.performed i t (.release (replayKeyFor tx)) r ∉ tr)
    (hkeptj : ∀ t r, Event.performed j t (.release (replayKeyFor tx)) r ∉ tr) : ei ≤ t ∨ ej ≤ t := by
  rcases first_of_two hi hj (fun h => hne (congrArg Event.task h)) with ⟨post, pre, htr, hmem⟩ | ⟨post, pre, htr, hmem⟩
  · exact .inl (reserve_after hb hdrops htr hmem hkepti)
  · exact .inr (reserve_after hb hdrops htr hmem hkeptj)

end

/-! ## At most once -/

/-- A second submit of a transaction in its window follows a `tem` failure of the first. -/
theorem once_of_timely (htime : Timely env L tr) (hb : Runs env maxEntries t s tr) {mid : Run} {ti tj lls : Nat}
    {b b' : String} {tx : Tx}
    (htr : tr = post ++ .called j tj (.submitAndWait b') :: (mid ++ .called i ti (.submitAndWait b) :: pre))
    (hd : env.decode b = some tx) (hd' : env.decode b' = some tx) (hlls : tx.lastLedgerSequence = some lls)
    (hopen : L.index tj < lls) :
    ∃ t e, Event.resumed i t (.submitAndWait b) (.error e) ∈ mid ∧ submitDefinitelyNotApplied e = true := by
  have hj := submits_of_called htime htr hb hd' hlls
  have htr' : tr = (post ++ .called j tj (.submitAndWait b') :: mid) ++ .called i ti (.submitAndWait b) :: pre := by
    rw [htr, List.append_assoc, List.cons_append]
  have hi := submits_of_called htime htr' hb hd hlls
  obtain ⟨ei, ni, pi, hpi, hcovi⟩ := hi.reserved
  obtain ⟨ej, nj, pj, hpj, hcovj⟩ := hj.reserved
  have hdrops := drops_of_timely htime hb
  subst htr
  obtain ⟨-, s', hcut⟩ := hb.cut
  obtain ⟨-, s'', hbj, hturn, -⟩ := hcut.inv
  have hsub : ∀ {x}, x ∈ pre → x ∈ mid ++ .called i ti (.submitAndWait b) :: pre := fun hx =>
    List.mem_append_right _ (List.mem_cons_of_mem _ hx)
  have hne : i ≠ j := by
    rintro rfl
    obtain ⟨r, t', hmem⟩ := hbj.turn_called hturn (List.mem_append_right _ List.mem_cons_self)
    exact hj.first _ _ _ (mem_hist.1 hmem)
  rw [Leasing.leases_append] at hdrops
  by_cases hrel : ∃ t r, Event.performed i t (.release (replayKeyFor tx)) r ∈ mid ++ .called i ti (.submitAndWait b) :: pre
  · -- the first call released its key, so its submit had failed
    obtain ⟨t, r, hrel⟩ := hrel
    obtain ⟨l, b₁, e, hl, hblob, hresumed, htem⟩ := tem_of_release hbj hrel
    obtain ⟨-, l', -, hl', hmay⟩ := hbj.called_may
    obtain rfl : l = l' := Option.some.inj (hl.symm.trans hl')
    obtain rfl : b₁ = b := Option.some.inj (hblob.symm.trans hmay.blob)
    refine ⟨t, e, ?_, htem⟩
    rcases List.mem_append.1 hresumed with hmid | hpre
    · exact hmid
    · exact absurd ((List.mem_cons.1 hpre).resolve_left (by simp)) (hi.first _ _ _)
  · push Not at hrel
    rcases reserved_twice hbj hdrops.of_append hne (hsub hpi) hpj hrel (fun t r => hj.unreleased t _ r) with hexp | hexp
    · exact absurd (hcovi tj hexp) (not_le.2 hopen)
    · exact absurd (hcovj tj hexp) (not_le.2 hopen)

/-- A call that submits nothing replies with a stored receipt or a rejection. -/
theorem declines (hb : Runs env maxEntries t s tr) {tf : Nat} {out : Except Json Reply} {payload req : Json} {deps : Deps}
    (htr : tr = post ++ .finished i tf (.reply out) :: pre) (hl : label i tr = some (.settle payload req deps))
    (hnone : ∀ t b, .called i t (.submitAndWait b) ∉ pre) :
    (∃ r, out = .ok (.rejected r)) ∨
      ∃ v receipt payer expiryMs j tj r, verifyExact env payload req = .ok v ∧ out = .ok (.replayed receipt payer) ∧
        .performed j tj (.setReceipt v.replayId receipt expiryMs) r ∈ pre := by
  subst htr
  obtain ⟨l, hl', hend⟩ := hb.finished_fin
  obtain rfl : Call.settle payload req deps = l := Option.some.inj (hl.symm.trans hl')
  obtain ⟨-, s', hcut⟩ := hb.cut
  obtain ⟨-, s'', hbp, -⟩ := hcut.inv
  -- no submit, no fault of the store, and every receipt read was set before: then few endings are left
  have hsubmit : ∀ b r t', (⟨.submitAndWait b, r, t'⟩ : Entry Op Res) ∉ hist i pre := by
    intro b r t' hmem
    obtain ⟨t₀, -, hp⟩ := hbp.performed_of_hist hmem
    obtain ⟨tc, hc⟩ := hbp.called_of_performed hp
    exact hnone tc b hc
  have hstore : ∀ x ∈ hist i pre, isFault x = false := by
    intro x hx
    obtain ⟨t₀, -, hp⟩ := hbp.performed_of_hist hx
    exact not_fault_of_performed hbp hp
  have hread : ∀ key receipt t', (⟨.getReceipt key, .ok (some receipt), t'⟩ : Entry Op Res) ∈ hist i pre →
      ∃ j tj expiryMs r, .performed j tj (.setReceipt key receipt expiryMs) r ∈ pre := by
    intro key receipt t' hmem
    obtain ⟨t₀, -, hp⟩ := hbp.performed_of_hist hmem
    exact (memoryKeeps env).answered memoryKeeps_new hbp hp
  replace hend : Ending env payload req (hist i pre) out := hend
  generalize hist i pre = h at hend hsubmit hstore hread
  cases hend with
  | refused _ => exact .inl ⟨_, rfl⟩
  | unavailable _ hf _ _ => exact .inl ⟨_, rfl⟩
  | replayed _ hv =>
    obtain ⟨j, tj, expiryMs, r, hmem⟩ := hread _ _ _ List.mem_cons_self
    exact .inr ⟨_, _, _, expiryMs, j, tj, r, hv, rfl, hmem⟩
  | lost _ => cases hstore _ List.mem_cons_self
  | released _ => exact (hsubmit _ _ _ (List.mem_cons_of_mem _ List.mem_cons_self)).elim
  | stuck _ => cases hstore _ List.mem_cons_self
  | unknown _ => exact (hsubmit _ _ _ List.mem_cons_self).elim
  | settled hres _ =>
    obtain ⟨later, r, t', h₀, rfl, -⟩ := hres
    exact (hsubmit _ _ _ (List.mem_cons_of_mem _ (List.mem_append_right _ List.mem_cons_self))).elim

/-- At-most-once submission, in every run of calls on one in-memory store whose surroundings are timely. -/
theorem submits_at_most_once {env : Env} (L : Ledger env) {maxEntries : Nat} {w : World Op Res InMemoryStore Call Outcome}
    (hw : (inMemory env).Reach (.new maxEntries) w) (htime : Timely env L w.trace) : AtMostOnce env L w.trace := by
  have hb : Runs env maxEntries w.clock w.shared w.trace := hw.behaves (obeys_code env)
  constructor
  · intro post mid pre i j ti tj b b' tx lls htr hd hd' hlls hopen
    exact once_of_timely htime hb htr hd hd' hlls hopen
  · intro post pre i t out payload req deps htr hl hnone
    exact declines hb htr hl hnone

end

namespace Sample

/-- A ledger that closes every four seconds. -/
def ledger : Ledger env where
  index t := 100 + t / 4000
  mono _ _ h := Nat.add_le_add_left (Nat.div_le_div_right h) 100
  advances t := by
    show 100 + t / 4000 + 1 ≤ 100 + (t + 4000) / 4000
    omega

/-- A call's submit fails at once; a second call submits the same transaction, and a third call gets its receipt. -/
def retried : List (Action (inMemory env)) :=
  upToSubmit env 0 blob1 ledger100 ++ answered env 0 ledger100 (.error malformed) ++ [.resume 0, .tick 8000] ++
    upToSubmit env 1 blob1 ledger100 ++ answered env 1 ledger100 (.ok (validated hash1 "1000000")) ++
    [.resume 1, .resume 1, .spawn 2 (.settle (payload blob1) req {}), .resume 2, .resume 2]

end Sample

open Sample in
theorem submits_at_most_once_retried :
    AtMostOnce Sample.env ledger ((inMemory Sample.env).play (.new 100000) retried).trace :=
  submits_at_most_once ledger ((inMemory Sample.env).reach_play ..)
    ⟨by decide +kernel, by decide +kernel, by decide +kernel⟩

/-! ## One ledger longer -/

/-- The call, the time and the blob of a submit. -/
def submitCall? : Event Op Res Call Outcome → Option (Nat × Nat × String)
  | .called i t (.submitAndWait b) => some (i, t, b)
  | _ => none

/-- The errors that submits came to. -/
def submitErrors (tr : Run) : List Json :=
  tr.filterMap fun
    | .resumed _ _ (.submitAndWait _) (.error e) => some e
    | _ => none

theorem submitCall?_some {e : Event Op Res Call Outcome} {i t : Nat} {b : String} (h : submitCall? e = some (i, t, b)) :
    e = .called i t (.submitAndWait b) := by
  unfold submitCall? at h
  split at h <;> cases h
  rfl

/-- Of two submits, one right at the end of the trace and one before it. -/
theorem split_submits {tr : Run} {i j ti tj n : Nat} {b b' : String} (hj : tr.head?.bind submitCall? = some (j, tj, b'))
    (hi : (tr.tail[n]?).bind submitCall? = some (i, ti, b)) :
    ∃ mid pre, tr = .called j tj (.submitAndWait b') :: (mid ++ .called i ti (.submitAndWait b) :: pre) := by
  cases tr with
  | nil => cases hj
  | cons e tr =>
    obtain rfl := submitCall?_some hj
    obtain ⟨e', he', hcall⟩ := Option.bind_eq_some_iff.1 hi
    obtain rfl := submitCall?_some hcall
    obtain ⟨hn, hget⟩ := List.getElem?_eq_some_iff.1 he'
    refine ⟨tr.take n, tr.drop (n + 1), congrArg _ ?_⟩
    rw [← hget]
    exact ((List.take_append_drop n tr).symm.trans (congrArg _ (List.drop_eq_getElem_cons hn)))

namespace Sample

/-- The validated ledger 107. -/
def ledger107 : JsNum := ⟨false, 107, 0, by decide⟩

/-- An error that does not tell whether the payment was applied. -/
def timedOut : Json := .obj [("message", .str "Submit timed out.")]

/-- A ledger that is at 25 when the first call begins. -/
def ledgerFrom25 : Ledger env where
  index t := 25 + t / 4000
  mono _ _ h := Nat.add_le_add_left (Nat.div_le_div_right h) 25
  advances t := by
    show 25 + t / 4000 + 1 ≤ 25 + (t + 4000) / 4000
    omega

/-- Two calls read the ledger as long after they captured `now` as the margin allows. The binding of the first one expires while
the ledger is at 110, a third call drops it, and the second call submits the payment again. -/
def submittedLate : List (Action (inMemory env)) :=
  [.spawn 0 (.settle (payload blob1) req {}), .resume 0] ++ answered env 0 ledger100 (.ok none) ++
    [.tick 30000, .spawn 1 (.settle (payload blob1) req {}), .resume 1] ++ answered env 1 ledger107 (.ok none) ++
    [.tick 270000] ++ answered env 0 ledger100 (.ok none) ++ answered env 0 ledger100 (.ok none) ++ [.resume 0] ++
    answered env 0 ledger100 (.error timedOut) ++ [.tick 30000] ++ answered env 1 ledger107 (.ok none) ++
    [.tick 10000, .spawn 2 (.settle (payload blob1) req {})] ++ answered env 1 ledger107 (.ok none) ++ [.resume 1]

end Sample

open Sample in
/-- While the ledger is at `LastLedgerSequence` itself, a transaction can be submitted again. -/
theorem submits_again_at_last_ledger :
    ∃ w, (inMemory Sample.env).Reach (.new 100000) w ∧ Timely Sample.env ledgerFrom25 w.trace ∧
      ¬OnceUntilPassed Sample.env ledgerFrom25 w.trace := by
  refine ⟨(inMemory Sample.env).play (.new 100000) submittedLate, (inMemory Sample.env).reach_play .., ?_, fun honce => ?_⟩
  · exact ⟨by decide +kernel, by decide +kernel, by decide +kernel⟩
  · have herrors : ((submitErrors ((inMemory Sample.env).play (.new 100000) submittedLate).trace).all fun e =>
        !submitDefinitelyNotApplied e) = true := by decide +kernel
    have hsecond : ((inMemory Sample.env).play (.new 100000) submittedLate).trace.head?.bind submitCall? =
        some (1, 340000, blob1) := by decide +kernel
    have hfirst : (((inMemory Sample.env).play (.new 100000) submittedLate).trace.tail[14]?).bind submitCall? =
        some (0, 300000, blob1) := by decide +kernel
    obtain ⟨mid, pre, htr⟩ := split_submits hsecond hfirst
    have hdecode : Sample.env.decode blob1 = some tx1 := by simp [Sample.env]
    have hopen : ledgerFrom25.index 340000 ≤ 110 := by decide
    obtain ⟨t, e, hmem, htem⟩ := honce [] mid pre _ _ _ _ _ _ tx1 110 htr hdecode hdecode rfl hopen
    have hfailed := List.all_eq_true.1 herrors e (List.mem_filterMap.2
      ⟨_, htr ▸ List.mem_cons_of_mem _ (List.mem_append_left _ hmem), rfl⟩)
    rw [htem] at hfailed
    cases hfailed

end Xahc.Facilitator

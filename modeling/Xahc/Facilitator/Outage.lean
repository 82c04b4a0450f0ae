/-
The replay store's outages: what `settle` owes its caller when a store call throws, and exactly when it
keeps to it.
-/
import Xahc.Facilitator.Contract

namespace Xahc.Facilitator

open Xahc.Data Xahc.Effect

/-! ## The outage contract -/

section
variable (env : Env) (payload req : Json) (deps : Deps) (O : Prog.Env Op Res)

/-- The answered calls and the outcome of one settlement against a store and a node that answer as `O`. -/
def settleRun : Hist × Except Json Reply := Prog.run O [] (settle env payload req deps)

/-- What a settlement owes its caller whatever the store throws: it replies; a store call that throws
before the submit keeps the submit from being made and gives a retryable failure; a store call that
throws after the submit changes nothing of the reply. -/
structure OutageContract : Prop where
  replies : ∃ reply, (settleRun env payload req deps O).2 = .ok reply
  before : ∀ post f pre, (settleRun env payload req deps O).1 = post ++ f :: pre → isFault f = true →
    (∀ e ∈ pre, isSubmit e = false) →
      (∀ e ∈ (settleRun env payload req deps O).1, isSubmit e = false) ∧
        ∃ reply, (settleRun env payload req deps O).2 = .ok reply ∧ reply.success = false ∧ reply.retryable = true
  after : ∀ post f pre, (settleRun env payload req deps O).1 = post ++ f :: pre → isFault f = true →
    (∃ e ∈ pre, isSubmit e = true) → ∀ O', Prog.Agree O O' pre →
      isFault ⟨f.op, (O' pre f.op).1, (O' pre f.op).2⟩ = false →
        (settleRun env payload req deps O').2 = (settleRun env payload req deps O).2

end

section
variable {env : Env} {payload req : Json} {deps : Deps} {O : Prog.Env Op Res} {h g pre post : Hist} {f s : Entry Op Res}

/-! ## Faults in a history -/

/-- No operation of the history failed. -/
def NoFault (h : Hist) : Prop := ∀ e ∈ h, isFault e = false

theorem Quiet.noFault (hq : Quiet h) : NoFault h := fun e he => not_fault_of_quiet (hq e he)

theorem Quiet.noSubmit (hq : Quiet h) : ∀ e ∈ h, isSubmit e = false := fun e he => not_submit_of_quiet (hq e he)

theorem not_submit_of_fault (hf : isFault f = true) : isSubmit f = false := by
  unfold isFault at hf
  split at hf <;> first | rfl | cases hf

theorem Reserved.noFault {a : Attempt} (hr : Reserved env payload req a h) : NoFault h := by
  obtain ⟨t, h₀, rfl, hready⟩ := hr
  exact List.forall_mem_cons.2 ⟨rfl, hready.quiet.noFault⟩

/-- An uncaught failure is a fault, and not of a call that only persists. -/
theorem Uncaught.head (hu : Uncaught h) : ∃ f h', h = f :: h' ∧ isFault f = true ∧ isPersist f = false := by
  unfold Uncaught at hu
  split at hu
  · exact ⟨_, _, rfl, rfl, rfl⟩
  · exact ⟨_, _, rfl, rfl, rfl⟩
  · exact hu.elim

/-- A fault that is not followed by a submit comes after the reservation's history. -/
theorem fault_after_submit (heq : h = post ++ f :: pre) (hf : isFault f = true)
    (hpre : ∀ e ∈ pre, isSubmit e = false) (hs : isSubmit s = true) (hsuf : s :: g <:+ h) : ¬NoFault g := by
  intro hg
  have hfsuf : f :: pre <:+ h := ⟨post, heq.symm⟩
  have hfs : f ≠ s := fun h => by
    rw [h] at hf
    rw [not_submit_of_fault hf] at hs
    cases hs
  rcases List.suffix_or_suffix_of_suffix hfsuf hsuf with hle | hle
  · rcases List.suffix_cons_iff.1 hle with heq | hle
    · exact hfs (List.cons.inj heq).1
    · have := hg f (hle.subset List.mem_cons_self)
      rw [hf] at this
      cases this
  · rcases List.suffix_cons_iff.1 hle with heq | hle
    · exact hfs (List.cons.inj heq).1.symm
    · have := hpre s (hle.subset List.mem_cons_self)
      rw [hs] at this
      cases this

/-- A settlement that replies met no failure it does not catch. -/
theorem Ending.caught {reply : Reply} (he : Ending env payload req h (.ok reply)) (hg : g <:+ h) : ¬Uncaught g := by
  intro hu
  obtain ⟨f, g', rfl, hf, hp⟩ := hu.head
  have hmem : f ∈ h := hg.subset List.mem_cons_self
  have hclash : isFault f = false → False := fun hno => by rw [hf] at hno; cases hno
  -- no ending with a reply has a fault where an uncaught failure would stand
  cases he with
  | refused hq => exact hclash (hq.noFault f hmem)
  | unavailable hq _ hnot _ =>
    rcases List.suffix_cons_iff.1 hg with heq | hg
    · exact hnot (heq ▸ hu)
    · exact hclash (hq.noFault f (hg.subset List.mem_cons_self))
  | replayed hq _ =>
    rcases List.mem_cons.1 hmem with rfl | hmem
    · exact hclash rfl
    · exact hclash (hq.noFault f hmem)
  | released hr =>
    rcases List.mem_cons.1 hmem with rfl | hmem
    · exact hclash rfl
    · rcases List.mem_cons.1 hmem with rfl | hmem
      · exact hclash rfl
      · exact hclash (hr.noFault f hmem)
  | unknown hr =>
    rcases List.mem_cons.1 hmem with rfl | hmem
    · exact hclash rfl
    · exact hclash (hr.noFault f hmem)
  | settled hr _ =>
    rcases List.mem_cons.1 hmem with rfl | hmem
    · cases hp
    · obtain ⟨later, r, t, h₀, rfl, hlater, -, hres⟩ := hr
      rcases List.mem_append.1 hmem with hmem | hmem
      · rw [hlater f hmem] at hp
        cases hp
      · rcases List.mem_cons.1 hmem with rfl | hmem
        · exact hclash rfl
        · exact hclash (hres.noFault f hmem)

/-- A fault before the submit refuses the settlement. -/
theorem Ending.before {out : Except Json Reply} (he : Ending env payload req h out) (hcaught : ∀ g, g <:+ h → ¬Uncaught g)
    (heq : h = post ++ f :: pre) (hf : isFault f = true) (hpre : ∀ e ∈ pre, isSubmit e = false) :
    (∀ e ∈ h, isSubmit e = false) ∧ ∃ reply, out = .ok reply ∧ reply.success = false ∧ reply.retryable = true := by
  have hmem : f ∈ h := heq ▸ List.mem_append_right _ List.mem_cons_self
  have hclash : isFault f = false → False := fun hno => by rw [hf] at hno; cases hno
  cases he with
  | refused hq => exact (hclash (hq.noFault f hmem)).elim
  | unavailable hq hfault _ hretry =>
    exact ⟨List.forall_mem_cons.2 ⟨not_submit_of_fault hfault, hq.noSubmit⟩, _, rfl, rfl, hretry⟩
  | replayed hq _ =>
    rcases List.mem_cons.1 hmem with rfl | hmem
    · exact (hclash rfl).elim
    · exact (hclash (hq.noFault f hmem)).elim
  | lost hq => exact (hcaught _ List.suffix_rfl trivial).elim
  | released hr => exact (fault_after_submit heq hf hpre rfl (List.suffix_cons _ _) hr.noFault).elim
  | stuck hr => exact (hcaught _ List.suffix_rfl trivial).elim
  | unknown hr => exact (fault_after_submit heq hf hpre rfl List.suffix_rfl hr.noFault).elim
  | settled hr _ =>
    obtain ⟨later, r, t, h₀, rfl, -, -, hres⟩ := hr
    exact (fault_after_submit heq hf hpre rfl
      ((List.suffix_append later _).trans (List.suffix_cons _ _)) hres.noFault).elim

/-! ## Exactly when it is kept -/

/-- The contract is kept exactly when neither the release after a `tem` submit throws nor the read of the
receipt after a lost race for the reservation. -/
theorem settle_outage_iff (env : Env) (payload req : Json) (deps : Deps) (O : Prog.Env Op Res) :
    OutageContract env payload req deps O ↔ ¬∃ g, g <:+ (settleRun env payload req deps O).1 ∧ Uncaught g := by
  have hmeets := meets_settle env payload req deps
  have hend : Ending env payload req (settleRun env payload req deps O).1 (settleRun env payload req deps O).2 :=
    hmeets.run_fin O
  constructor
  · rintro ⟨⟨reply, hreply⟩, -, -⟩ ⟨g, hg, hu⟩
    rw [hreply] at hend
    exact hend.caught hg hu
  · intro hcaught
    have hcaught' : ∀ g, g <:+ (settleRun env payload req deps O).1 → ¬Uncaught g := fun g hg hu => hcaught ⟨g, hg, hu⟩
    refine ⟨?_, fun post f pre heq hf hpre => hend.before hcaught' heq hf hpre, ?_⟩
    · generalize (settleRun env payload req deps O).2 = out at hend
      generalize (settleRun env payload req deps O).1 = h at hend hcaught'
      cases hend with
      | lost => exact (hcaught' _ List.suffix_rfl trivial).elim
      | stuck => exact (hcaught' _ List.suffix_rfl trivial).elim
      | _ => exact ⟨_, rfl⟩
    · rintro post f pre heq hf ⟨s, hs, hsub⟩ O' hag hok
      obtain ⟨k, hvis, hans, hrun, hrun'⟩ := Prog.exists_visits O heq (List.nil_suffix)
      obtain ⟨hmay, hpersist⟩ := hmeets.visits hvis
      unfold settleRun
      rw [hrun, hrun' O' hag]
      have hquiet : ¬Quiet pre := fun hq => by
        rw [hq.noSubmit s hs] at hsub
        cases hsub
      obtain ⟨op, r, t⟩ := f
      cases op with
      | set | setReceipt =>
        -- nothing of the reply depends on what is answered from here on
        obtain ⟨out, hout⟩ := hpersist
        exact ((hout _ _).run O').trans ((hout _ _).run O).symm
      | isConsumed | getReceipt =>
        obtain ⟨v, -, -, hq⟩ := hmay
        exact (hquiet hq).elim
      | reserve =>
        obtain ⟨a, hready, -⟩ := hmay
        exact (hquiet hready.quiet).elim
      | release =>
        cases r with
        | error e => exact (hcaught' _ ⟨post, heq.symm⟩ trivial).elim
        | ok u => cases hf
      | getClient | request | submitAndWait | simulatePayment => cases hf

end

/-- The submit fails with a `tem` error, and the store is gone when the reservation is to be released. -/
def Sample.goneAtRelease : Prog.Env Op Res := fun h op =>
  (match op with
    | .release _ => .error (.obj [("message", .str "Connection is closed.")])
    | op => Sample.answer Sample.ledger100 (.error Sample.malformed) op,
  h.length)

/-- A settlement that throws. -/
theorem settle_throws :
    ¬OutageContract Sample.env (Sample.payload Sample.blob1) Sample.req {} Sample.goneAtRelease := by
  intro h
  obtain ⟨reply, hreply⟩ := h.replies
  have hthrows : (settleRun Sample.env (Sample.payload Sample.blob1) Sample.req {} Sample.goneAtRelease).2.toOption = none := by
    rw [← Option.isNone_iff_eq_none]
    decide +kernel
  rw [hreply] at hthrows
  cases hthrows

end Xahc.Facilitator

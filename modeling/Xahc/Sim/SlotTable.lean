/-
What the slot table keeps over a run: every number up to the counter is live or queued, an automatic
allocation fails only when every slot is live, and a call that fails leaves the table as it was.
-/
import Xahc.Sim.Slots
import Xahc.Sim.StoRoundTrip

namespace Xahc.Sim

open Xahc.Data (Bytes)
open Slots

variable {tx : TxFixture} {s s' : Slots} {c : Call} {code : Int} {n : Nat} {e : SlotEntry}

/-! ## The invariant -/

/-- Slot numbers. -/
def SlotNumber (n : Nat) : Prop := 1 ≤ n ∧ n ≤ MAX_SLOTS

/-- Every number the counter has passed is live or queued, and all numbers are slot numbers. -/
structure Tracked (s : Slots) : Prop where
  counter_le : s.counter ≤ MAX_SLOTS
  live_number : ∀ n ∈ s.map, SlotNumber n
  free_number : ∀ n ∈ s.free, SlotNumber n
  covered : ∀ n, 1 ≤ n → n ≤ s.counter → n ∈ s.map ∨ n ∈ s.free

theorem tracked_empty : Tracked {} where
  counter_le := Nat.zero_le _
  live_number n hn := absurd hn (AList.notMem_empty n)
  free_number n hn := absurd hn List.not_mem_nil
  covered n h1 h0 := by simp only at h0; omega

theorem Tracked.keys_subset (h : Tracked s) : s.map.keys ⊆ List.range' 1 MAX_SLOTS := by
  intro n hn
  obtain ⟨lo, hi⟩ := h.live_number n hn
  simp only [List.mem_range'_1]
  omega

theorem Tracked.occupied_le (h : Tracked s) : s.occupied ≤ MAX_SLOTS := by
  have := (s.map.keys_nodup.subperm h.keys_subset).length_le
  simpa [occupied] using this

/-- With every slot number live the table is full. -/
theorem occupied_of_all_live (h : ∀ n, SlotNumber n → n ∈ s.map) : MAX_SLOTS ≤ s.occupied := by
  have sub : List.range' 1 MAX_SLOTS ⊆ s.map.keys := by
    intro n hn
    simp only [List.mem_range'_1] at hn
    exact h n ⟨hn.1, by omega⟩
  have := ((List.nodup_range' (s := 1) (n := MAX_SLOTS)).subperm sub).length_le
  simpa [occupied] using this

theorem Tracked.noFree_iff (h : Tracked s) : s.noFree = true ↔ s.occupied = MAX_SLOTS := by
  have := h.occupied_le
  simp only [noFree, decide_eq_true_eq]
  omega

/-! ## Drawing a number -/

theorem nextNumber_spec (map : AList fun _ : Nat => SlotEntry) (turns counter : Nat) :
    counter < nextNumber map turns counter ∧
    (∀ n, counter < n → n < nextNumber map turns counter → n ∈ map ∧ n ≤ MAX_SLOTS) ∧
    (MAX_SLOTS - counter ≤ turns → nextNumber map turns counter ≤ MAX_SLOTS →
      nextNumber map turns counter ∉ map) := by
  induction turns generalizing counter with
  | zero =>
    simp only [nextNumber]
    exact ⟨by omega, by omega, by omega⟩
  | succ turns ih =>
    rw [nextNumber]
    split
    · next live =>
      obtain ⟨above, between, fresh⟩ := ih (counter + 1)
      refine ⟨by omega, ?_, fun h => fresh (by omega)⟩
      intro n lo hi
      rcases Nat.lt_or_ge (counter + 1) n with h | h
      · exact between n h hi
      · obtain rfl : n = counter + 1 := by omega
        exact live
    · next stop =>
      exact ⟨by omega, by omega, fun _ h live => stop ⟨live, h⟩⟩

/-- What drawing a number does, on a table with room: the oldest queued number leaves the queue, or
the counter moves on to a number that is not live. -/
theorem getFree_cases (h : Tracked s) (room : s.noFree = false) :
    (∃ n rest, s.free = n :: rest ∧ s.getFree = (some n, { s with free := rest })) ∨
    (∃ n, s.free = [] ∧ s.counter < n ∧ SlotNumber n ∧ n ∉ s.map ∧
      (∀ k, s.counter < k → k < n → k ∈ s.map) ∧ s.getFree = (some n, { s with counter := n })) := by
  rcases hfree : s.free with _ | ⟨n, rest⟩
  · obtain ⟨above, between, fresh⟩ := nextNumber_spec s.map (MAX_SLOTS - s.counter) s.counter
    have inside : nextNumber s.map (MAX_SLOTS - s.counter) s.counter ≤ MAX_SLOTS := by
      -- past the range, every slot number would be live
      by_contra past
      have full := occupied_of_all_live (s := s) (by
        rintro k ⟨lo, hi⟩
        rcases Nat.lt_or_ge s.counter k with hk | hk
        · exact (between k hk (by omega)).1
        · exact (h.covered k lo hk).resolve_right (by simp [hfree]))
      simp [noFree, full] at room
    refine Or.inr ⟨_, rfl, above, ⟨by omega, inside⟩, fresh (Nat.le_refl _) inside,
      fun k lo hi => (between k lo hi).1, ?_⟩
    simp only [getFree, hfree, if_neg (Nat.not_lt.mpr inside)]
  · exact Or.inl ⟨n, rest, rfl, by simp only [getFree, hfree]⟩

/-- What filling a slot does, on a table with room for the number asked for. -/
theorem place_cases (h : Tracked s) (into : Nat) (e : SlotEntry) (room : into = 0 → s.noFree = false) :
    (into ≠ 0 ∧ s.place into e = ((into : Int), s.insert into e)) ∨
    (into = 0 ∧ ∃ n rest, s.free = n :: rest ∧
      s.place into e = ((n : Int), { s with free := rest }.insert n e)) ∨
    (into = 0 ∧ ∃ n, s.free = [] ∧ s.counter < n ∧ SlotNumber n ∧ n ∉ s.map ∧
      (∀ k, s.counter < k → k < n → k ∈ s.map) ∧ s.place into e = ((n : Int), { s with counter := n }.insert n e)) := by
  by_cases auto : into = 0
  · rcases getFree_cases h (room auto) with ⟨n, rest, hfree, hget⟩ | ⟨n, hfree, hlt, hn, hnew, hmid, hget⟩
    · exact Or.inr (Or.inl ⟨auto, n, rest, hfree, by simp only [place, if_pos auto, hget]⟩)
    · exact Or.inr (Or.inr ⟨auto, n, hfree, hlt, hn, hnew, hmid, by simp only [place, if_pos auto, hget]⟩)
  · exact Or.inl ⟨auto, by simp only [place, if_neg auto]⟩

/-! ## What a call does -/

/-- The slot a call fills, with what its own checks answer; no slot for a clearing call. -/
def Call.filling (tx : TxFixture) (s : Slots) : Call → Option (Nat × Except String (Except Int SlotEntry))
  | .slotSet mem rp rl into => some (into.toNat, slotSetEntry tx mem rp rl into.toNat s)
  | .slotSubarray parent idx into => some (into.toNat, slotSubarrayEntry parent.toNat idx into.toNat s)
  | .slotSubfield parent id into => some (into.toNat, slotSubfieldEntry parent.toNat id into.toNat s)
  | .metaSlot into => some (into.toNat, metaSlotEntry tx into.toNat s)
  | .slotClear _ => none

/-- The checks a call makes before it looks whether the table has room. -/
def Call.Admitted (tx : TxFixture) (s : Slots) : Call → Prop
  | .slotSet mem rp rl into =>
    oob mem rp rl = false ∧ ((readMem mem rp rl).length = 32 ∨ (readMem mem rp rl).length = 34) ∧
      into.toNat ≤ MAX_SLOTS
  | .slotSubarray parent _ _ => ∃ p, s.map.lookup parent.toNat = some p ∧ p.kind = .Array
  | .slotSubfield parent _ _ => ∃ p, s.map.lookup parent.toNat = some p
  | .metaSlot into => tx.callback = true ∧ into.toNat ≤ MAX_SLOTS
  | .slotClear _ => False

theorem host_filling {into : Nat} {r : Except String (Except Int SlotEntry)} (h : c.filling tx s = some (into, r)) :
    host tx s c = fill into s r := by
  cases c <;> simp only [Call.filling, Option.some.injEq, Prod.mk.injEq, reduceCtorEq] at h <;>
    obtain ⟨rfl, rfl⟩ := h <;> rfl

/-- A refusal that is no want of room. -/
def Refusal (code : Int) : Prop := code < 0 ∧ code ≠ rc.NO_FREE_SLOTS

/-- The two lookups of `slotSet` refuse with a code, never with a full table. -/
theorem ledgerEntry_refused {data : Bytes} (h : ledgerEntry tx data = .ok (.error code)) : Refusal code := by
  have : code = rc.DOESNT_EXIST := by
    unfold ledgerEntry at h
    grind
  rw [this]
  exact ⟨by decide, by decide⟩

theorem txnEntry_refused {data : Bytes} (h : txnEntry tx data = .ok (.error code)) : Refusal code := by
  have : code = rc.INVALID_ARGUMENT ∨ code = rc.DOESNT_EXIST := by
    unfold txnEntry at h
    grind
  rcases this with rfl | rfl <;> exact ⟨by decide, by decide⟩

/-- What the checks of a filling call answer: a refusal before the table is asked for room, no room, or,
with room asked for and found, a run that ends, a refusal, or an entry for a slot number. -/
theorem filling_cases {into : Nat} {r : Except String (Except Int SlotEntry)} (h : c.filling tx s = some (into, r)) :
    (¬ c.Admitted tx s ∧ ∃ code, r = .ok (.error code) ∧ Refusal code) ∨
    (c.Admitted tx s ∧ into = 0 ∧ s.noFree = true ∧ r = .ok (.error rc.NO_FREE_SLOTS)) ∨
    (c.Admitted tx s ∧ (into = 0 → s.noFree = false) ∧ (∀ code, r = .ok (.error code) → Refusal code) ∧
      ∀ e, r = .ok (.ok e) → into ≤ MAX_SLOTS) := by
  have refusals : Refusal rc.OUT_OF_BOUNDS ∧ Refusal rc.DOESNT_EXIST ∧ Refusal rc.INVALID_ARGUMENT ∧
      Refusal rc.NOT_AN_ARRAY ∧ Refusal rc.INVALID_FIELD ∧ Refusal rc.NOT_AN_OBJECT ∧
      Refusal rc.PREREQUISITE_NOT_MET := by
    simp [Refusal, rc.OUT_OF_BOUNDS, rc.DOESNT_EXIST, rc.INVALID_ARGUMENT, rc.NOT_AN_ARRAY, rc.INVALID_FIELD,
      rc.NOT_AN_OBJECT, rc.PREREQUISITE_NOT_MET, rc.NO_FREE_SLOTS]
  obtain ⟨bounds, absent, invalid, notArray, notField, notObject, notMet⟩ := refusals
  cases c with
  | slotSet mem rp rl n =>
    simp only [Call.filling, slotSetEntry, Option.some.injEq, Prod.mk.injEq, Call.Admitted] at h ⊢
    obtain ⟨rfl, eq⟩ := h
    split at eq
    · next out => exact Or.inl ⟨by simp [out], _, eq.symm, bounds⟩
    · split at eq
      · exact Or.inl ⟨by omega, _, eq.symm, invalid⟩
      · next inside asked =>
        -- memory, length and number are in order from here on
        have admitted : oob mem rp rl = false ∧
            ((readMem mem rp rl).length = 32 ∨ (readMem mem rp rl).length = 34) ∧ n.toNat ≤ MAX_SLOTS :=
          ⟨by simpa using inside, by omega, by omega⟩
        split at eq
        · next full => exact Or.inr (Or.inl ⟨admitted, full.1, full.2, eq.symm⟩)
        · next room =>
          refine Or.inr (Or.inr ⟨admitted, by simpa using room, ?_, fun _ _ => admitted.2.2⟩)
          intro code refused
          rw [← eq] at refused
          split at refused
          · exact ledgerEntry_refused refused
          · exact txnEntry_refused refused
  | slotSubarray parent =>
    simp only [Call.filling, slotSubarrayEntry, Option.some.injEq, Prod.mk.injEq, Call.Admitted] at h ⊢
    obtain ⟨rfl, eq⟩ := h
    split at eq
    · next none => exact Or.inl ⟨by simp [none], _, eq.symm, absent⟩
    · next p live =>
      split at eq
      · next other => exact Or.inl ⟨by simpa [live] using other, _, eq.symm, notArray⟩
      · next array =>
        split at eq
        · next full => exact Or.inr (Or.inl ⟨⟨p, live, not_not.mp array⟩, full.1, full.2, eq.symm⟩)
        · next room =>
          -- the number is checked after the room is, so a number out of range is a late refusal
          refine Or.inr (Or.inr ⟨⟨p, live, not_not.mp array⟩, by simpa using room, ?_⟩)
          grind
  | slotSubfield parent =>
    simp only [Call.filling, slotSubfieldEntry, Option.some.injEq, Prod.mk.injEq, Call.Admitted] at h ⊢
    obtain ⟨rfl, eq⟩ := h
    split at eq
    · next none => exact Or.inl ⟨by simp [none], _, eq.symm, absent⟩
    · next p live =>
      split at eq
      · next full => exact Or.inr (Or.inl ⟨⟨p, live⟩, full.1, full.2, eq.symm⟩)
      · next room =>
        -- here every other check comes after the one for room
        refine Or.inr (Or.inr ⟨⟨p, live⟩, by simpa using room, ?_⟩)
        grind
  | metaSlot n =>
    simp only [Call.filling, metaSlotEntry, Option.some.injEq, Prod.mk.injEq, Call.Admitted] at h ⊢
    obtain ⟨rfl, eq⟩ := h
    split at eq
    · next none => exact Or.inl ⟨by simpa using fun called => by simp [called] at none, _, eq.symm, notMet⟩
    · next callback =>
      split at eq
      · exact Or.inl ⟨by omega, _, eq.symm, invalid⟩
      · next asked =>
        have admitted : tx.callback = true ∧ n.toNat ≤ MAX_SLOTS := ⟨by simpa using callback, by omega⟩
        split at eq
        · next full => exact Or.inr (Or.inl ⟨admitted, full.1, full.2, eq.symm⟩)
        · next room =>
          refine Or.inr (Or.inr ⟨admitted, by simpa using room, ?_, fun _ _ => admitted.2⟩)
          rintro code refused
          cases eq.trans refused
  | slotClear => cases h

theorem filling_refused {into : Nat} (h : c.filling tx s = some (into, .ok (.error code))) : code < 0 := by
  rcases filling_cases h with ⟨-, _, eq, refused⟩ | ⟨-, -, -, eq⟩ | ⟨-, -, refused, -⟩
  · cases eq
    exact refused.1
  · cases eq
    decide
  · exact (refused code rfl).1

/-- A call that has found its entry names a slot number, or none with room left in the table. -/
theorem filling_checked {into : Nat} (h : c.filling tx s = some (into, .ok (.ok e))) :
    into ≤ MAX_SLOTS ∧ (into = 0 → s.noFree = false) := by
  rcases filling_cases h with ⟨-, _, eq, -⟩ | ⟨-, -, -, eq⟩ | ⟨-, room, -, inside⟩
  · cases eq
  · cases eq
  · exact ⟨inside e rfl, room⟩

/-- A full table refuses exactly the automatic calls that get as far as asking. -/
theorem filling_full {r : Except String (Except Int SlotEntry)} (h : c.filling tx s = some (0, r)) :
    r = .ok (.error rc.NO_FREE_SLOTS) ↔ c.Admitted tx s ∧ s.noFree = true := by
  rcases filling_cases h with ⟨out, code, rfl, refused⟩ | ⟨asks, -, full, rfl⟩ | ⟨-, room, refused, -⟩
  · simp [out, refused.2]
  · simp [asks, full]
  · rw [room rfl]
    simp only [Bool.false_eq_true, and_false, iff_false]
    intro eq
    exact (refused _ eq).2 rfl

/-- What a call that returns does: it is refused and the table stays, it clears a live slot, or it
fills one. -/
theorem host_cases (h : host tx s c = .ok (code, s')) :
    (code < 0 ∧ s' = s) ∨
    (∃ n, n ∈ s.map ∧ code = 1 ∧ c.filling tx s = none ∧
      s' = { s with map := s.map.erase n, free := s.free ++ [n] }) ∨
    (∃ into e, c.filling tx s = some (into, .ok (.ok e)) ∧ (code, s') = s.place into e) := by
  rcases hf : c.filling tx s with _ | ⟨into, r⟩
  · cases c with
    | slotClear n =>
      simp only [host, slotClear, Except.ok.injEq] at h
      by_cases live : n.toNat ∈ s.map
      · rw [if_pos live, Prod.mk.injEq] at h
        exact Or.inr (Or.inl ⟨_, live, h.1.symm, rfl, h.2.symm⟩)
      · rw [if_neg live, Prod.mk.injEq] at h
        exact Or.inl ⟨by rw [← h.1]; decide, h.2.symm⟩
    | _ => cases hf
  · rw [host_filling hf] at h
    rcases r with m | code' | e
    · cases h
    · simp only [fill, Except.ok.injEq, Prod.mk.injEq] at h
      exact Or.inl ⟨by rw [← h.1]; exact filling_refused hf, h.2.symm⟩
    · simp only [fill, Except.ok.injEq] at h
      exact Or.inr (Or.inr ⟨into, e, rfl, h.symm⟩)

theorem mem_insert_of_place {into : Nat} : n ∈ (s.insert into e).map ↔ n = into ∨ n ∈ s.map := AList.mem_insert _

theorem tracked_place (h : Tracked s) {into : Nat} (hinto : into ≤ MAX_SLOTS) (room : into = 0 → s.noFree = false) :
    Tracked (s.place into e).2 := by
  -- into a number of the caller's, into the number that was freed first, or into a new one of the counter
  rcases place_cases h into e room with ⟨hne, eq⟩ | ⟨-, n, rest, hfree, eq⟩ | ⟨-, n, hfree, hlt, hn, -, hmid, eq⟩
  · rw [eq]
    refine ⟨h.counter_le, ?_, h.free_number, ?_⟩
    · intro k hk
      rcases mem_insert_of_place.mp hk with rfl | hk
      · exact ⟨Nat.pos_of_ne_zero hne, hinto⟩
      · exact h.live_number k hk
    · intro k lo hi
      exact (h.covered k lo hi).imp (fun hk => mem_insert_of_place.mpr (Or.inr hk)) id
  · rw [eq]
    have queued : ∀ k, k ∈ s.free ↔ k = n ∨ k ∈ rest := by simp [hfree]
    refine ⟨h.counter_le, ?_, fun k hk => h.free_number k ((queued k).mpr (Or.inr hk)), ?_⟩
    · intro k hk
      rcases mem_insert_of_place.mp hk with rfl | hk
      · exact h.free_number k ((queued k).mpr (Or.inl rfl))
      · exact h.live_number k hk
    · intro k lo hi
      rcases h.covered k lo hi with hk | hk
      · exact Or.inl (mem_insert_of_place.mpr (Or.inr hk))
      · rcases (queued k).mp hk with rfl | hk
        · exact Or.inl (mem_insert_of_place.mpr (Or.inl rfl))
        · exact Or.inr hk
  · rw [eq]
    refine ⟨hn.2, ?_, h.free_number, ?_⟩
    · intro k hk
      rcases mem_insert_of_place.mp hk with rfl | hk
      · exact hn
      · exact h.live_number k hk
    · intro k lo hi
      refine Or.inl (mem_insert_of_place.mpr ?_)
      -- the counter skipped what was live, so every number up to the new one is live now
      rcases Nat.lt_or_ge s.counter k with hk | hk
      · rcases Nat.lt_or_ge k n with hkn | hkn
        · exact Or.inr (hmid k hk hkn)
        · exact Or.inl (Nat.le_antisymm hi hkn)
      · exact Or.inr ((h.covered k lo hk).resolve_right (by simp [hfree]))

theorem tracked_clear (h : Tracked s) (live : n ∈ s.map) :
    Tracked { s with map := s.map.erase n, free := s.free ++ [n] } := by
  refine ⟨h.counter_le, ?_, ?_, ?_⟩
  · intro k hk
    exact h.live_number k (AList.mem_erase.mp hk).2
  · intro k hk
    rcases List.mem_append.mp hk with hk | hk
    · exact h.free_number k hk
    · obtain rfl := List.mem_singleton.mp hk
      exact h.live_number k live
  · intro k lo hi
    by_cases same : k = n
    · exact Or.inr (List.mem_append_right _ (List.mem_singleton.mpr same))
    · exact (h.covered k lo hi).imp (fun hk => AList.mem_erase.mpr ⟨same, hk⟩) (List.mem_append_left _)

theorem tracked_host (h : Tracked s) (hcall : host tx s c = .ok (code, s')) : Tracked s' := by
  rcases host_cases hcall with ⟨-, rfl⟩ | ⟨n, live, -, -, rfl⟩ | ⟨into, e, hf, eq⟩
  · exact h
  · exact tracked_clear h live
  · obtain ⟨hinto, room⟩ := filling_checked hf
    have := tracked_place (e := e) h hinto room
    rwa [← eq] at this

/-! ## Runs -/

/-- The tables a run of slot calls reaches when every call of it meets `P` on the table before it. -/
inductive Reached (tx : TxFixture) (P : Slots → Call → Prop) : Slots → Prop
  | start : Reached tx P {}
  | call {s s' : Slots} {c : Call} {code : Int} :
      Reached tx P s → P s c → host tx s c = .ok (code, s') → Reached tx P s'

theorem tracked_reached {P : Slots → Call → Prop} (h : Reached tx P s) : Tracked s := by
  induction h with
  | start => exact tracked_empty
  | call _ _ hcall ih => exact tracked_host ih hcall

/-- A call that leaves the choice of the slot to the table. -/
def Call.Automatic : Call → Prop
  | .slotSet _ _ _ into => into = 0
  | .slotSubarray _ _ into => into = 0
  | .slotSubfield _ _ into => into = 0
  | .metaSlot into => into = 0
  | .slotClear _ => False

theorem Call.Automatic.filling (h : c.Automatic) (tx : TxFixture) (s : Slots) : ∃ r, c.filling tx s = some (0, r) := by
  cases c with
  | slotClear => exact h.elim
  | _ =>
    cases h
    exact ⟨_, rfl⟩

theorem place_code (h : Tracked s) {into : Nat} (hinto : into ≤ MAX_SLOTS) (room : into = 0 → s.noFree = false) :
    1 ≤ (s.place into e).1 ∧ (s.place into e).1 ≤ MAX_SLOTS := by
  rcases place_cases h into e room with ⟨hne, eq⟩ | ⟨-, n, rest, hfree, eq⟩ | ⟨-, n, -, -, hn, -, -, eq⟩
  · rw [eq]
    exact ⟨by omega, by omega⟩
  · obtain ⟨lo, hi⟩ := h.free_number n (by simp [hfree])
    rw [eq]
    exact ⟨by omega, by omega⟩
  · obtain ⟨lo, hi⟩ := hn
    rw [eq]
    exact ⟨by omega, by omega⟩

/-- No spurious exhaustion and atomic failure: in every table a run reaches, a number is found while
one is free, an automatic call that gets as far as asking is refused for lack of room exactly when
every slot is live, and a call that fails leaves the table as it was. -/
theorem slots_exhaustion (hs : Reached tx (fun _ _ => True) s) :
    (s.noFree = false → ∃ n s', s.getFree = (some n, s')) ∧
    (s.noFree = true ↔ s.occupied = 255) ∧
    (∀ c code s', c.Automatic → host tx s c = .ok (code, s') →
      (code = rc.NO_FREE_SLOTS ↔ c.Admitted tx s ∧ s.occupied = 255)) ∧
    (∀ c code s', host tx s c = .ok (code, s') → code < 0 → s' = s) := by
  have tracked := tracked_reached hs
  refine ⟨?_, tracked.noFree_iff, ?_, ?_⟩
  · intro room
    rcases getFree_cases tracked room with ⟨n, rest, -, eq⟩ | ⟨n, -, -, -, -, -, eq⟩
    · exact ⟨n, _, eq⟩
    · exact ⟨n, _, eq⟩
  · intro c code s' auto hcall
    obtain ⟨r, hf⟩ := auto.filling tx s
    have full := filling_full hf
    rw [tracked.noFree_iff] at full
    rw [show (255 : Nat) = MAX_SLOTS from rfl, ← full]
    rw [host_filling hf] at hcall
    rcases r with m | code' | e
    · cases hcall
    · simp only [fill, Except.ok.injEq, Prod.mk.injEq] at hcall
      simp [hcall.1]
    · -- an entry found is an entry placed, under a slot number
      obtain ⟨hinto, room⟩ := filling_checked hf
      have := place_code (e := e) tracked hinto room
      simp only [fill, Except.ok.injEq] at hcall
      rw [hcall] at this
      simp only [rc.NO_FREE_SLOTS, Except.ok.injEq, reduceCtorEq, iff_false]
      omega
  · intro c code s' hcall neg
    rcases host_cases hcall with ⟨-, same⟩ | ⟨n, -, rfl, -⟩ | ⟨into, e, hf, eq⟩
    · exact same
    · omega
    · obtain ⟨hinto, room⟩ := filling_checked hf
      have := place_code (e := e) tracked hinto room
      rw [← eq] at this
      simp only at this
      omega

/-- A callback run whose metadata is a single result code. -/
def callbackTx : TxFixture where
  ledgerObjects _ := none
  txns _ := none
  callback := true
  provisionalMeta := some [0x03, 0x10, 0x00]
  randomKey := []

/-- In a callback the metadata is there, so an automatic call lacks nothing but room. -/
theorem host_callback (s : Slots) : host callbackTx s (.metaSlot 0) =
    .ok (if s.noFree then (rc.NO_FREE_SLOTS, s)
      else s.place 0 (.top [0x03, 0x10, 0x00] SF_TRANSACTION_METADATA)) := by
  show fill 0 s (metaSlotEntry callbackTx 0 s) = _
  cases room : s.noFree <;> simp [metaSlotEntry, callbackTx, fill, room]

/-- The table after this many automatic calls. -/
def filledTable : Nat → Slots
  | 0 => {}
  | n + 1 =>
    match host callbackTx (filledTable n) (.metaSlot 0) with
    | .ok (_, s) => s
    | .error _ => filledTable n

theorem reached_filledTable : ∀ n, Reached callbackTx (fun _ _ => True) (filledTable n)
  | 0 => .start
  | n + 1 => by
    unfold filledTable
    split
    · exact .call (reached_filledTable n) trivial ‹_›
    · exact reached_filledTable n

/-- With no number queued an automatic allocation takes one slot more, and queues none. -/
theorem place_occupies (h : Tracked s) (room : s.noFree = false) (hfree : s.free = []) :
    (s.place 0 e).2.occupied = s.occupied + 1 ∧ (s.place 0 e).2.free = [] := by
  rcases place_cases h 0 e (fun _ => room) with ⟨hne, -⟩ | ⟨-, n, rest, queued, -⟩ | ⟨-, n, -, -, -, hnew, -, eq⟩
  · exact absurd rfl hne
  · simp [hfree] at queued
  · have hkeys : n ∉ s.map.keys := hnew
    rw [eq]
    exact ⟨by simp [occupied, Slots.insert, List.erase_of_not_mem hkeys], hfree⟩

theorem filledTable_occupied : ∀ n ≤ MAX_SLOTS, (filledTable n).occupied = n ∧ (filledTable n).free = []
  | 0, _ => ⟨rfl, rfl⟩
  | n + 1, hn => by
    obtain ⟨hocc, hfree⟩ := filledTable_occupied n (by omega)
    have tracked := tracked_reached (reached_filledTable n)
    have room : (filledTable n).noFree = false := by
      simp only [noFree, decide_eq_false_iff_not]
      omega
    obtain ⟨hocc', hfree'⟩ := place_occupies (e := .top [0x03, 0x10, 0x00] SF_TRANSACTION_METADATA) tracked room hfree
    have hnext : filledTable (n + 1) =
        ((filledTable n).place 0 (.top [0x03, 0x10, 0x00] SF_TRANSACTION_METADATA)).2 := by
      simp only [filledTable, host_callback, room, Bool.false_eq_true, if_false]
    rw [hnext]
    exact ⟨hocc'.trans (by rw [hocc]), hfree'⟩

/-- With all 255 slots live an automatic call is refused, and leaves the table as it is. -/
theorem slots_exhaustion_full :
    (filledTable 255).occupied = 255 ∧
      host callbackTx (filledTable 255) (.metaSlot 0) = .ok (rc.NO_FREE_SLOTS, filledTable 255) := by
  have hfull : (filledTable 255).occupied = 255 := (filledTable_occupied 255 (Nat.le_refl _)).1
  obtain ⟨-, -, hrefused, hkept⟩ := slots_exhaustion (reached_filledTable 255)
  rcases hcall : host callbackTx (filledTable 255) (.metaSlot 0) with _ | ⟨code, s'⟩
  · rw [host_callback] at hcall
    cases hcall
  · have hcode : code = rc.NO_FREE_SLOTS := (hrefused (.metaSlot 0) _ _ rfl hcall).mpr ⟨⟨rfl, by decide⟩, hfull⟩
    have hsame : s' = filledTable 255 := hkept _ _ _ hcall (by rw [hcode]; decide)
    exact ⟨hfull, by rw [hcode, hsame]⟩

/-! ## Queued numbers -/

/-- No number is queued twice, and none that is live. -/
structure Idle (s : Slots) : Prop where
  nodup : s.free.Nodup
  not_live : ∀ n ∈ s.free, n ∉ s.map

/-- The call fills no slot whose number is still queued. -/
def Avoids (tx : TxFixture) (s : Slots) (c : Call) : Prop :=
  ∀ into e, c.filling tx s = some (into, .ok (.ok e)) → into ∉ s.free

theorem idle_place (h : Tracked s) (idle : Idle s) {into : Nat} (room : into = 0 → s.noFree = false)
    (avoids : into ∉ s.free) : Idle (s.place into e).2 := by
  rcases place_cases h into e room with ⟨-, eq⟩ | ⟨-, n, rest, hfree, eq⟩ | ⟨-, n, hfree, -, -, -, -, eq⟩
  · rw [eq]
    refine ⟨idle.nodup, ?_⟩
    intro k hk live
    rcases mem_insert_of_place.mp live with rfl | live
    · exact avoids hk
    · exact idle.not_live k hk live
  · rw [eq]
    have nodup : (n :: rest).Nodup := hfree ▸ idle.nodup
    refine ⟨(List.nodup_cons.mp nodup).2, ?_⟩
    intro k hk live
    rcases mem_insert_of_place.mp live with rfl | live
    · exact (List.nodup_cons.mp nodup).1 hk
    · exact idle.not_live k (by rw [hfree]; exact List.mem_cons_of_mem n hk) live
  · rw [eq]
    refine ⟨idle.nodup, ?_⟩
    intro k hk
    simp [Slots.insert, hfree] at hk

theorem idle_reached (h : Reached tx (Avoids tx) s) : Idle s := by
  induction h with
  | start => exact ⟨List.nodup_nil, fun n hn => absurd hn List.not_mem_nil⟩
  | @call s s' c code hs avoids hcall ih =>
    rcases host_cases hcall with ⟨-, rfl⟩ | ⟨n, live, -, -, rfl⟩ | ⟨into, e, hf, eq⟩
    · exact ih
    · refine ⟨?_, ?_⟩
      · have : n ∉ s.free := fun hn => ih.not_live n hn live
        simpa [List.nodup_append] using ⟨ih.nodup, fun k hk => fun e => this (e ▸ hk)⟩
      · intro k hk
        rcases List.mem_append.mp hk with hk | hk
        · exact fun live => ih.not_live k hk (AList.mem_erase.mp live).2
        · exact fun live => (AList.mem_erase.mp live).1 (List.mem_singleton.mp hk)
    · obtain ⟨-, room⟩ := filling_checked hf
      have := idle_place (e := e) (tracked_reached hs) ih room (avoids into e hf)
      rwa [← eq] at this

/-- An automatic allocation draws an unoccupied number exactly when the oldest queued one is not live. -/
theorem place_fresh_iff (h : Tracked s) (room : s.noFree = false) :
    (∀ n : Nat, (s.place 0 e).1 = n → n ∉ s.map) ↔ ∀ n ∈ s.free.head?, n ∉ s.map := by
  rcases place_cases h 0 e (fun _ => room) with ⟨hne, -⟩ | ⟨-, n, rest, hfree, eq⟩ | ⟨-, n, hfree, -, -, hnew, -, eq⟩
  · exact absurd rfl hne
  · simp [eq, hfree]
  · simp [eq, hfree, hnew]

/-- Fresh allocation: in a run that fills no slot whose number is still queued, an automatic
allocation that succeeds takes a slot number no live slot has, and leaves every live slot alone. -/
theorem automatic_slot_fresh (hs : Reached tx (Avoids tx) s) (auto : c.Automatic)
    (hcall : host tx s c = .ok (code, s')) (hcode : 0 ≤ code) :
    ∃ n : Nat, code = n ∧ 1 ≤ n ∧ n ≤ 255 ∧ n ∉ s.map ∧ ∀ k ∈ s.map, s'.map.lookup k = s.map.lookup k := by
  have tracked := tracked_reached hs
  have idle := idle_reached hs
  obtain ⟨r, hf⟩ := auto.filling tx s
  rcases host_cases hcall with ⟨neg, -⟩ | ⟨n, -, -, none, -⟩ | ⟨into, e, hf', eq⟩
  · omega
  · simp [hf] at none
  · obtain ⟨rfl, rfl⟩ : 0 = into ∧ r = .ok (.ok e) := by simpa [hf] using hf'
    obtain ⟨-, room⟩ := filling_checked hf
    have fresh := (place_fresh_iff (e := e) tracked (room rfl)).mpr fun n hn =>
      idle.not_live n (List.mem_of_mem_head? hn)
    rcases place_cases tracked 0 e room with ⟨hne, -⟩ | ⟨-, n, rest, hfree, drawn⟩ | ⟨-, n, -, -, hn, -, -, drawn⟩
    · exact absurd rfl hne
    · have new := fresh n (by rw [drawn])
      obtain ⟨lo, hi⟩ := tracked.free_number n (by simp [hfree])
      rw [drawn, Prod.mk.injEq] at eq
      obtain ⟨rfl, rfl⟩ := eq
      exact ⟨n, rfl, lo, hi, new, fun k hk => AList.lookup_insert_ne fun same => new (same ▸ hk)⟩
    · have new := fresh n (by rw [drawn])
      rw [drawn, Prod.mk.injEq] at eq
      obtain ⟨rfl, rfl⟩ := eq
      exact ⟨n, rfl, hn.1, hn.2, new, fun k hk => AList.lookup_insert_ne fun same => new (same ▸ hk)⟩

/-- The metadata object as a slot. -/
def metadataSlot : SlotEntry := .top [0x03, 0x10, 0x00] SF_TRANSACTION_METADATA

/-- The field code of the result. -/
def sfTransactionResult : UInt32 := 0x100003

theorem metadataSlot_fields : metadataSlot.fields = .ok (refs 0 [.leaf STI_UINT8 3 [0]]) := by
  have canonical : ∀ f ∈ [StoField.leaf STI_UINT8 3 [0]], StoField.Canonical 0 f := by
    simp only [List.mem_singleton, forall_eq]
    exact .leaf ⟨by decide, by decide⟩ (.fixed (by decide) rfl)
  exact parseFields_at canonical (Xahc.Data.at_zero _)

theorem automatic_slot_fresh_reused :
    ∃ s s', host callbackTx s (.metaSlot 0) = .ok (1, s') ∧ ∃ n : Nat, (1 : Int) = n ∧ n ∉ s.map := by
  have filled : Reached callbackTx (Avoids callbackTx) { map := (∅ : AList _).insert 1 metadataSlot, counter := 1 } :=
    .call (c := .metaSlot 0) .start (fun _ _ _ => List.not_mem_nil) rfl
  have cleared : Reached callbackTx (Avoids callbackTx) { free := [1], counter := 1 } :=
    .call (c := .slotClear 1) filled (fun _ _ _ => List.not_mem_nil) rfl
  obtain ⟨n, hn, -, -, fresh, -⟩ := automatic_slot_fresh (c := .metaSlot 0) cleared rfl rfl (by decide)
  exact ⟨_, _, rfl, n, hn, fresh⟩

/-- Slot 1 is filled, cleared and filled again by number while its number is still queued; the next
automatic allocation, of a field of the object in slot 1, takes slot 1 itself. -/
theorem live_slot_overwritten :
    ∃ s s', Reached callbackTx (fun _ _ => True) s ∧ (Call.slotSubfield 1 sfTransactionResult 0).Automatic ∧
      host callbackTx s (.slotSubfield 1 sfTransactionResult 0) = .ok (1, s') ∧
      s.map.lookup 1 = some metadataSlot ∧ s'.map.lookup 1 ≠ some metadataSlot := by
  have filled : Reached callbackTx (fun _ _ => True) { map := (∅ : AList _).insert 1 metadataSlot, counter := 1 } :=
    .call (c := .metaSlot 0) .start trivial rfl
  have cleared : Reached callbackTx (fun _ _ => True) { free := [1], counter := 1 } :=
    .call (c := .slotClear 1) filled trivial rfl
  have refilled : Reached callbackTx (fun _ _ => True)
      { map := (∅ : AList _).insert 1 metadataSlot, free := [1], counter := 1 } :=
    .call (c := .metaSlot 1) cleared trivial rfl
  let child := metadataSlot.child ((StoField.leaf STI_UINT8 3 [0]).ref 0)
  have found : slotSubfieldEntry 1 sfTransactionResult 0
      { map := (∅ : AList _).insert 1 metadataSlot, free := [1], counter := 1 } = .ok (.ok child) := by
    have live : ((∅ : AList fun _ : Nat => SlotEntry).insert 1 metadataSlot).lookup 1 = some metadataSlot :=
      AList.lookup_insert _
    simp only [slotSubfieldEntry, live, metadataSlot_fields]
    rfl
  refine ⟨_, { map := ((∅ : AList _).insert 1 metadataSlot).insert 1 child, counter := 1 }, refilled, rfl, ?_,
    AList.lookup_insert _, ?_⟩
  · show fill 0 _ (slotSubfieldEntry 1 sfTransactionResult 0 _) = _
    rw [found]
    rfl
  · rw [AList.lookup_insert]
    decide

end Xahc.Sim

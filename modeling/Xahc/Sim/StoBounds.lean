/-
What the light walker answers stays inside what it was given: a field takes at least two bytes and ends
no later than its range, whatever bytes the range holds, and so do the ranges handed to a hook.
-/
import Xahc.Sim.StoRoundTrip

namespace Xahc.Sim

open Xahc.Data (Bytes)

/-! ## Programs that may refuse -/

theorem bind_some {α β : Type} {x : Option α} {f : α → Option β} {b : β} :
    (x >>= f) = some b ↔ ∃ a, x = some a ∧ f a = some b := Option.bind_eq_some_iff

theorem guard_some {β : Type} {p : Prop} [Decidable p] {f : Unit → Option β} {b : β} :
    (guard p >>= f) = some b ↔ p ∧ f () = some b := by
  by_cases hp : p
  · simp [guard, hp]
  · simp [guard, hp]

variable {d : Bytes} {ty field upto upto' start stop len length : Nat} {rules : Rules}

/-! ## Headers and prefixes -/

/-- A header takes at least a byte and leaves one. -/
theorem lightHeader_bounds (h : lightHeader d start stop = some (ty, field, upto)) : start < upto ∧ upto < stop := by
  unfold lightHeader at h
  obtain ⟨b0, -, h⟩ := bind_some.1 h
  obtain ⟨hstart, h⟩ := guard_some.1 h
  dsimp only at h
  -- every shape ends with the same check
  split_ifs at h
  · obtain ⟨⟨t, f, u⟩, hx, h⟩ := bind_some.1 h
    obtain ⟨hstop, h⟩ := guard_some.1 h
    cases hx
    cases h
    dsimp only at hstop ⊢
    omega
  · obtain ⟨_, -, h⟩ := bind_some.1 h
    obtain ⟨⟨t, f, u⟩, hx, h⟩ := bind_some.1 h
    obtain ⟨hstop, h⟩ := guard_some.1 h
    cases hx
    cases h
    dsimp only at hstop ⊢
    omega
  · obtain ⟨_, -, h⟩ := bind_some.1 h
    obtain ⟨⟨t, f, u⟩, hx, h⟩ := bind_some.1 h
    obtain ⟨hstop, h⟩ := guard_some.1 h
    cases hx
    cases h
    dsimp only at hstop ⊢
    omega
  · obtain ⟨_, -, h⟩ := bind_some.1 h
    obtain ⟨-, h⟩ := guard_some.1 h
    obtain ⟨_, -, h⟩ := bind_some.1 h
    obtain ⟨⟨t, f, u⟩, hx, h⟩ := bind_some.1 h
    obtain ⟨hstop, h⟩ := guard_some.1 h
    cases hx
    cases h
    dsimp only at hstop ⊢
    omega

/-- A length prefix takes at least a byte, and only one of two bytes may end the range. -/
theorem lightVl_bounds (h : lightVl d upto stop = some (length, upto')) : upto < upto' ∧ upto' ≤ stop := by
  unfold lightVl at h
  obtain ⟨b1, -, h⟩ := bind_some.1 h
  obtain ⟨hstop, h⟩ := guard_some.1 h
  split_ifs at h
  · cases h
    omega
  · obtain ⟨b2, -, h⟩ := bind_some.1 h
    obtain ⟨hstop', h⟩ := guard_some.1 h
    cases h
    omega
  · obtain ⟨b2, -, h⟩ := bind_some.1 h
    obtain ⟨-, h⟩ := guard_some.1 h
    obtain ⟨b3, -, h⟩ := bind_some.1 h
    obtain ⟨hstop', h⟩ := guard_some.1 h
    cases h
    omega

/-! ## Payloads -/

theorem lightWidth_pos {w : Nat} (h : lightWidth ty = some w) : 0 < w := by
  unfold lightWidth at h
  split at h <;> cases h <;> decide

theorem issueWidth_pos {p w : Nat} (h : issueWidth d p = some w) : 0 < w := by
  unfold issueWidth at h
  dsimp only at h
  split_ifs at h <;> cases h <;> decide

theorem lightBridgeSide_pos {len' : Nat} (h : lightBridgeSide d upto stop rules len = some len') : 0 < len' := by
  have htail : ∀ {n : Nat}, (do
      guard !(rules.fix20260929 && decide (stop - upto < n + 20))
      let w ← issueWidth d (upto + n)
      some (n + w)) = some len' → 0 < len' := by
    intro n h
    obtain ⟨-, h⟩ := guard_some.1 h
    obtain ⟨w, hw, h⟩ := bind_some.1 h
    cases h
    have := issueWidth_pos hw
    omega
  unfold lightBridgeSide at h
  dsimp only at h
  split_ifs at h
  · exact htail h
  · obtain ⟨-, h⟩ := guard_some.1 h
    obtain ⟨b, -, h⟩ := bind_some.1 h
    split_ifs at h
    · exact htail h
    · exact htail h
    · cases h

/-- A path set that was closed has its closing byte. -/
theorem lightPaths_pos : ∀ {bound len len' : Nat}, lightPaths d upto stop rules bound len = some (len', true) → 0 < len'
  | 0, _, _, h => nomatch h
  | bound + 1, len, len', h => by
    unfold lightPaths at h
    split at h
    · obtain ⟨mid, -, h⟩ := bind_some.1 h
      obtain ⟨last, -, h⟩ := bind_some.1 h
      split_ifs at h
      · exact lightPaths_pos h
      · cases h
        omega
    · cases h

/-- A payload whose length is known from its type starts in the range and, with its prefix, is not empty. -/
theorem lightLength_bounds (hfix : rules.fix20260929 = true) (hupto : upto < stop)
    (h : lightLength d ty upto stop rules = some (some length, upto')) :
    upto ≤ upto' ∧ upto' ≤ stop ∧ upto < upto' + length := by
  unfold lightLength at h
  dsimp only at h
  -- the branches in the order of the source; in each of them something is consumed
  split at h
  · obtain ⟨⟨n, u⟩, hvl, h⟩ := bind_some.1 h
    cases h
    obtain ⟨hlt, hle⟩ := lightVl_bounds hvl
    omega
  split at h
  · rename_i w hw
    cases h
    have := lightWidth_pos hw
    omega
  split at h
  · obtain ⟨b, -, h⟩ := bind_some.1 h
    cases h
    split <;> omega
  split at h
  · obtain ⟨⟨n, terminated⟩, hpaths, h⟩ := bind_some.1 h
    obtain ⟨-, h⟩ := guard_some.1 h
    obtain ⟨hclosed, h⟩ := guard_some.1 h
    cases h
    obtain rfl : terminated = true := by simpa [hfix] using hclosed
    have := lightPaths_pos hpaths
    omega
  split at h
  · obtain ⟨-, h⟩ := guard_some.1 h
    obtain ⟨w, hw, h⟩ := bind_some.1 h
    cases h
    have := issueWidth_pos hw
    omega
  split at h
  · obtain ⟨mid, -, h⟩ := bind_some.1 h
    obtain ⟨n, hside, h⟩ := bind_some.1 h
    cases h
    have := lightBridgeSide_pos hside
    omega
  · cases h

/-- Where the length is not known from the type, nothing after the header has been read. -/
theorem lightLength_none (h : lightLength d ty upto stop rules = some (none, upto')) : upto' = upto := by
  unfold lightLength at h
  dsimp only at h
  split at h
  · obtain ⟨_, -, h⟩ := bind_some.1 h
    cases h
  split at h
  · cases h
  split at h
  · obtain ⟨_, -, h⟩ := bind_some.1 h
    cases h
  split at h
  · obtain ⟨_, -, h⟩ := bind_some.1 h
    obtain ⟨-, h⟩ := guard_some.1 h
    obtain ⟨-, h⟩ := guard_some.1 h
    cases h
  split at h
  · obtain ⟨-, h⟩ := guard_some.1 h
    obtain ⟨_, -, h⟩ := bind_some.1 h
    cases h
  split at h
  · obtain ⟨_, -, h⟩ := bind_some.1 h
    obtain ⟨_, -, h⟩ := bind_some.1 h
    cases h
  · cases h
    rfl

/-! ## Fields -/

/-- A field found at `start` ends in the range, and its payload ends in the field. -/
structure Light.Within (l : Light) (start stop : Nat) : Prop where
  two_le : 2 ≤ l.len
  end_le : start + l.len ≤ stop
  payload_pos : 0 < l.payloadStart
  payload_le : l.payloadStart + l.payloadLen ≤ l.len

/-- The end marker of a container comes after a field of it. -/
theorem lightChildren_bounds {walk : Nat → Option Light} (hwalk : ∀ u l, walk u = some l → l.Within u stop) :
    ∀ {turns upto close : Nat}, lightChildren walk d stop ty turns upto = some close → upto < close ∧ close < stop
  | 0, _, _, h => nomatch h
  | turns + 1, upto, close, h => by
    unfold lightChildren at h
    obtain ⟨sub, hsub, h⟩ := bind_some.1 h
    have hpos := (hwalk upto sub hsub).two_le
    obtain ⟨hstop, h⟩ := guard_some.1 h
    obtain ⟨m, -, h⟩ := bind_some.1 h
    split at h
    · cases h
      omega
    · obtain ⟨hlt, hlt'⟩ := lightChildren_bounds hwalk h
      omega

theorem lightWalk_within (hfix : rules.fix20260929 = true) :
    ∀ {left start : Nat} {l : Light}, lightWalk d stop rules left start = some l → l.Within start stop
  | 0, _, _, h => nomatch h
  | left + 1, start, l, h => by
    rw [lightWalk] at h
    obtain ⟨⟨ty, field, upto⟩, hheader, h⟩ := bind_some.1 h
    obtain ⟨hstart, hupto⟩ := lightHeader_bounds hheader
    obtain ⟨-, h⟩ := guard_some.1 h
    obtain ⟨⟨length, upto'⟩, hlength, hfield⟩ := bind_some.1 h
    cases length with
    | some length =>
      obtain ⟨hle, hle', hlt⟩ := lightLength_bounds hfix hupto hlength
      obtain ⟨hfits, hl⟩ := guard_some.1 hfield
      replace hfits : length ≤ stop - upto' := by simpa [hfix] using hfits
      obtain rfl := Option.some.inj hl
      constructor <;> dsimp only <;> omega
    | none =>
      obtain rfl := lightLength_none hlength
      dsimp only at hfield
      split at hfield
      · obtain ⟨close, hclose, hl⟩ := bind_some.1 hfield
        obtain ⟨hlt, hlt'⟩ := lightChildren_bounds (fun u l => lightWalk_within hfix) hclose
        obtain rfl := Option.some.inj hl
        constructor <;> dsimp only <;> omega
      · cases hfield

/-! ## The walks over a buffer -/

theorem getStobjectLength_within {depth : Nat} {l : Light} (hfix : rules.fix20260929 = true)
    (h : getStobjectLength d start stop rules depth = some l) : l.Within start stop := lightWalk_within hfix h

/-- A validation that starts in the range never leaves it. -/
theorem validateLoop_le (hfix : rules.fix20260929 = true) : ∀ {turns upto fin : Nat},
    validateLoop d stop rules turns upto = some fin → upto ≤ stop → upto ≤ fin ∧ fin ≤ stop
  | 0, upto, fin, h, hle => by
    cases h
    exact ⟨le_rfl, hle⟩
  | turns + 1, upto, fin, h, hle => by
    unfold validateLoop at h
    split at h
    · obtain ⟨l, hl, h⟩ := bind_some.1 h
      have hend := (getStobjectLength_within hfix hl).end_le
      obtain ⟨hlo, hhi⟩ := validateLoop_le hfix h hend
      omega
    · cases h
      exact ⟨le_rfl, hle⟩

/-- A range reported as two `u32` lies in the first `n` bytes. -/
def RangeWithin (n : Nat) (r : UInt32 × UInt32) : Prop := r.1.toNat + r.2.toNat ≤ n

theorem rangeWithin_ofNat {n off len : Nat} (h : off + len ≤ n) : RangeWithin n (.ofNat off, .ofNat len) := by
  have hoff := Nat.mod_le off (2 ^ 32)
  have hlen := Nat.mod_le len (2 ^ 32)
  rw [RangeWithin, UInt32.toNat_ofNat', UInt32.toNat_ofNat']
  omega

theorem subfieldLoop_within {fieldId : UInt32} {r : UInt32 × UInt32} (hfix : rules.fix20260929 = true) :
    ∀ {turns upto : Nat}, subfieldLoop d fieldId rules turns upto = .ok r → RangeWithin d.length r
  | 0, upto, h => by
    unfold subfieldLoop at h
    split at h <;> cases h
  | turns + 1, upto, h => by
    unfold subfieldLoop at h
    split_ifs at h
    · split at h
      · cases h
      · rename_i l hl
        have hwithin := getStobjectLength_within hfix hl
        have hend := hwithin.end_le
        have hpayload := hwithin.payload_le
        split_ifs at h
        · cases h
          exact rangeWithin_ofNat hend
        · cases h
          exact rangeWithin_ofNat (by omega)
        · exact subfieldLoop_within hfix h

theorem subarrayLoop_within {index : Nat} {r : UInt32 × UInt32} (hfix : rules.fix20260929 = true) :
    ∀ {turns i upto : Nat}, subarrayLoop d index rules stop turns i upto = .ok r → RangeWithin stop r
  | 0, i, upto, h => by
    unfold subarrayLoop at h
    split at h <;> cases h
  | turns + 1, i, upto, h => by
    unfold subarrayLoop at h
    split at h
    · cases hl : getStobjectLength d upto stop rules 0 with
      | none =>
        rw [hl] at h
        cases h
      | some l =>
        rw [hl] at h
        dsimp only at h
        split at h
        · cases h
          exact rangeWithin_ofNat (getStobjectLength_within hfix hl).end_le
        · exact subarrayLoop_within hfix h
    · split at h <;> cases h

/-- Under `fix20260929` every field that the walker finds lies in its range with its payload, and every
range that a hook is handed lies in its buffer. -/
theorem sto_in_bounds (rules : Rules) (hfix : rules.fix20260929 = true) (data : Bytes) :
    (∀ start stop depth l, getStobjectLength data start stop rules depth = some l → l.Within start stop) ∧
    (∀ fieldId r, stoSubfield data fieldId rules = .ok r → RangeWithin data.length r) ∧
    ∀ index r, stoSubarray data index rules = .ok r → RangeWithin data.length r := by
  refine ⟨?_, ?_, ?_⟩
  · intro start stop depth l
    exact getStobjectLength_within hfix
  · intro fieldId r h
    unfold stoSubfield at h
    split_ifs at h
    exact subfieldLoop_within hfix h
  · intro index r h
    unfold stoSubarray at h
    dsimp only at h
    -- the range that is walked ends with the buffer, or a byte before it
    split_ifs at h <;> have hr := subarrayLoop_within hfix h <;> unfold RangeWithin at hr ⊢ <;> omega

/-- Two numbers: the payload of the second, and the first as the first element. -/
theorem sto_in_bounds_sample :
    (getStobjectLength [0x12, 0, 0, 0x24, 0, 0, 0, 7] 3 8 {} 0 = some ⟨5, 2, 4, 1, 4⟩ ∧
      Light.Within ⟨5, 2, 4, 1, 4⟩ 3 8) ∧
    (stoSubfield [0x12, 0, 0, 0x24, 0, 0, 0, 7] 0x20004 {} = .ok (4, 4) ∧ RangeWithin 8 (4, 4)) ∧
    (stoSubarray [0x12, 0, 0, 0x24, 0, 0, 0, 7] 1 {} = .ok (3, 5) ∧ RangeWithin 8 (3, 5)) := by
  have hbounds := sto_in_bounds {} rfl [0x12, 0, 0, 0x24, 0, 0, 0, 7]
  have hlength : getStobjectLength [0x12, 0, 0, 0x24, 0, 0, 0, 7] 3 8 {} 0 = some ⟨5, 2, 4, 1, 4⟩ := by decide +kernel
  have hsubfield : stoSubfield [0x12, 0, 0, 0x24, 0, 0, 0, 7] 0x20004 {} = .ok (4, 4) := by decide +kernel
  have hsubarray : stoSubarray [0x12, 0, 0, 0x24, 0, 0, 0, 7] 1 {} = .ok (3, 5) := by decide +kernel
  exact ⟨⟨hlength, hbounds.1 _ _ _ _ hlength⟩, ⟨hsubfield, hbounds.2.1 _ _ hsubfield⟩,
    ⟨hsubarray, hbounds.2.2 _ _ hsubarray⟩⟩

end Xahc.Sim

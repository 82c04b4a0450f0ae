/-
The two walkers over machine words, where a sum or a difference may overflow and an index may lie outside: on a buffer
that a memory can hold nothing of it happens, and they come to what the walkers over numbers come to.
-/
import Xahc.Data.Checked
import Xahc.Sim.Sto

namespace Xahc.Sim

open Xahc.Data Xahc.Data.Checked

namespace Words

/-! ## The light walker -/

/-- The byte at a position, if there is one. -/
def byteAt (d : Bytes) (i : Nat) : OptionT Checked UInt8 := OptionT.mk (pure d[i]?)

/-- The type, the field and the start of the content. -/
def lightHeader (d : Bytes) (start stop : Nat) : OptionT Checked (Nat × Nat × Nat) := do
  let b0 ← byteAt d start
  let high := (b0 >>> 4).toNat
  let low := (b0 &&& 0xF).toNat
  let upto ← add 64 start 1
  guard (upto < stop)
  let (ty, field, upto) ←
    if high > 0 ∧ low > 0 then pure (high, low, upto)
    else if high > 0 then do
      let b1 ← byteAt d upto
      pure (high, b1.toNat, ← add 64 upto 1)
    else if low > 0 then do
      let b1 ← byteAt d upto
      pure (b1.toNat, low, ← add 64 upto 1)
    else do
      let b1 ← byteAt d upto
      let upto ← add 64 upto 1
      guard (upto < stop)
      let b2 ← byteAt d upto
      pure (b1.toNat, b2.toNat, ← add 64 upto 1)
  guard (upto < stop)
  pure (ty, field, upto)

/-- The length is an `i64`. -/
def lightVl (d : Bytes) (upto stop : Nat) : OptionT Checked (Nat × Nat) := do
  let b1 ← byteAt d upto
  let length := b1.toNat
  let upto ← add 64 upto 1
  guard (upto < stop)
  if length < 193 then pure (length, upto)
  else if length < 241 then do
    let length ← mul 63 (← sub length 193) 256
    let b2 ← byteAt d upto
    let length ← add 63 length (← add 63 b2.toNat 193)
    let upto ← add 64 upto 1
    guard (upto ≤ stop)
    pure (length, upto)
  else do
    let b2 ← byteAt d upto
    let upto ← add 64 upto 1
    guard (upto < stop)
    let length ← mul 63 (← sub length 241) 65536
    let tail ← add 63 12481 (← mul 63 b2.toNat 256)
    let b3 ← byteAt d upto
    let length ← add 63 length (← add 63 tail b3.toNat)
    let upto ← add 64 upto 1
    guard (upto < stop)
    pure (length, upto)

/-- A part of a path step, where the flag says it is there. -/
def stepPart (present : Bool) (len : Nat) : Checked Nat := if present then add 64 len 20 else pure len

/-- The bytes up to the end of a path step. -/
def stepLen (flag : UInt8) (len : Nat) : Checked Nat := do
  let len ← add 64 len 1
  let len ← stepPart (flag &&& 0x01 != 0) len
  let len ← stepPart (flag &&& 0x10 != 0) len
  stepPart (flag &&& 0x20 != 0) len

/-- The steps of one path. -/
def lightPathSteps (d : Bytes) (upto stop : Nat) (rules : Rules) : (bound len : Nat) → OptionT Checked Nat
  | 0, _ => failure
  | bound + 1, len => do
    let flag ← byteAt d (← add 64 upto len)
    if flag &&& 0x31 != 0 then
      guard (flag &&& ~~~0x31 == 0)
      let len ← stepLen flag len
      let here ← add 64 upto len
      guard !(rules.fix20260929 && stop ≤ here)
      let next ← byteAt d here
      if next == 0x00 || next == 0xff then pure len
      else lightPathSteps d upto stop rules bound len
    else pure len

/-- The paths of a path set. -/
def lightPaths (d : Bytes) (upto stop : Nat) (rules : Rules) : (bound len : Nat) → OptionT Checked (Nat × Bool)
  | 0, _ => failure
  | bound + 1, len => do
    if (← add 64 upto len) < stop then
      let len ← lightPathSteps d upto stop rules (d.length + 1) len
      let last ← byteAt d (← add 64 upto len)
      let len ← add 64 len 1
      if last == 0xff then lightPaths d upto stop rules bound len
      else if last == 0x00 then pure (len, true)
      else failure
    else pure (len, false)

/-- `d.get(start..stop)` -/
def getRange (d : Bytes) (start stop : Nat) : OptionT Checked Bytes :=
  OptionT.mk (pure (if start ≤ stop ∧ stop ≤ d.length then some ((d.drop start).take (stop - start)) else none))

/-- The bytes of an issue: the native one has no issuer. -/
def issueWidth (d : Bytes) (p : Nat) : OptionT Checked Nat := do
  let cur ← getRange d p (← add 64 p 20)
  pure (if cur.all (· == 0) then 20 else 40)

/-- One side of a bridge. -/
def lightBridgeSide (d : Bytes) (upto stop : Nat) (rules : Rules) (len : Nat) : OptionT Checked Nat := do
  let room ← sub stop upto
  let len ←
    if !rules.fix20260929 then liftM (add 64 len 21)
    else do
      guard (len < room)
      let b ← byteAt d (← add 64 upto len)
      if b == 0 then liftM (add 64 len 1)
      else if b == 20 then liftM (add 64 len 21)
      else failure
  let need ← add 64 len 20
  guard !(rules.fix20260929 && room < need)
  let w ← issueWidth d (← add 64 upto len)
  liftM (add 64 len w)

/-- The length of a field's content, and where it starts. -/
def lightLength (d : Bytes) (ty upto stop : Nat) (rules : Rules) : OptionT Checked (Option Nat × Nat) :=
  let ser240 := rules.hookapiSerializedType240
  if ty = STI_ACCOUNT ∨ ty = STI_VL ∨ (ty = STI_PATHSET ∧ !ser240) ∨ ty = STI_VECTOR256 then do
    let (length, upto) ← lightVl d upto stop
    pure (some length, upto)
  else if let some w := lightWidth ty then pure (some w, upto)
  else if ty = STI_AMOUNT then do
    let b ← byteAt d upto
    pure (some (if b >>> 6 == 1 then 8 else 48), upto)
  else if ty = STI_PATHSET ∧ ser240 then do
    let (len, terminated) ← lightPaths d upto stop rules (d.length + 1) 0
    guard (upto < stop)
    guard !(rules.fix20260929 && !terminated)
    pure (some len, upto)
  else if ty = STI_ISSUE then do
    let room ← sub stop upto
    guard !(rules.fix20260929 && room < 20)
    let w ← issueWidth d upto
    pure (some w, upto)
  else if ty = STI_XCHAIN_BRIDGE then do
    let len ← lightBridgeSide d upto stop rules 0
    let len ← lightBridgeSide d upto stop rules len
    pure (some len, upto)
  else pure (none, upto)

/-- The fields of a container, up to its marker. -/
def lightChildren (walk : Nat → OptionT Checked Light) (d : Bytes) (stop ty : Nat) :
    (turns upto : Nat) → OptionT Checked Nat
  | 0, _ => failure
  | turns + 1, upto => do
    let child ← walk upto
    let upto ← add 64 upto child.len
    guard (upto < stop)
    let m ← byteAt d upto
    if m == endMarker ty then pure upto
    else lightChildren walk d stop ty turns upto

/-- One field, and what is inside it. -/
def lightWalk (d : Bytes) (stop : Nat) (rules : Rules) : (left start : Nat) → OptionT Checked Light
  | 0, _ => failure
  | left + 1, start => do
    let (ty, field, upto) ← lightHeader d start stop
    guard !(lightRefused rules ty)
    match ← lightLength d ty upto stop rules with
    | (some length, upto) =>
      let payloadStart ← sub upto start
      let room ← sub stop upto
      guard !(rules.fix20260929 && room < length)
      pure ⟨← add 64 length payloadStart, ty, field, payloadStart, length⟩
    | (none, upto) =>
      if ty = STI_OBJECT ∨ ty = STI_ARRAY then do
        let payloadStart ← sub upto start
        let close ← lightChildren (lightWalk d stop rules left) d stop ty 1024 upto
        let payloadLen ← sub (← sub close start) payloadStart
        let upto ← add 64 close 1
        pure ⟨← sub upto start, ty, field, payloadStart, payloadLen⟩
      else failure

/-- `get_stobject_length`. -/
def getStobjectLength (d : Bytes) (start stop : Nat) (rules : Rules) (depth : Nat) : OptionT Checked Light :=
  lightWalk d stop rules (11 - depth) start

/-! ## The light walker does not panic -/

section
variable {d : Bytes} {start stop upto : Nat} {rules : Rules}

theorem lt_of_getElem? {i : Nat} {b : UInt8} (h : d[i]? = some b) : i < d.length := (List.getElem?_eq_some_iff.1 h).1

theorem follows_byteAt {β : Type} {f : UInt8 → OptionT Checked β} {g : UInt8 → Option β} {q : β → Prop} {i : Nat}
    (h : ∀ b, i < d.length → Follows (f b) (g b) q) : Follows (byteAt d i >>= f) (d[i]? >>= g) q :=
  (follows_lift d[i]?).bind fun b hb _ => h b (lt_of_getElem? hb)

variable (hd : d.length ≤ 2 ^ 32)
include hd

theorem lightHeader_follows :
    Follows (lightHeader d start stop) (Sim.lightHeader d start stop) fun r =>
      start < r.2.2 ∧ r.2.2 ≤ start + 3 ∧ r.2.2 < stop := by
  -- every form of a header ends in the same check that content follows
  have tail (ty field upto : Nat) (h : start < upto ∧ upto ≤ start + 3) :
      Follows (do guard (upto < stop); pure (ty, field, upto)) (do guard (upto < stop); some (ty, field, upto))
        fun r => start < r.2.2 ∧ r.2.2 ≤ start + 3 ∧ r.2.2 < stop :=
    follows_guard fun hlt => follows_pure ⟨h.1, h.2, hlt⟩
  unfold lightHeader Sim.lightHeader
  apply follows_byteAt
  intro b0 _
  dsimp only
  apply follows_step (add_ok (by omega))
  apply follows_guard
  intro _
  apply follows_ite
  · intro _
    exact tail _ _ (start + 1) (by omega)
  intro _
  apply follows_ite
  · intro _
    apply follows_byteAt
    intro b1 _
    apply follows_step (add_ok (by omega))
    exact tail _ _ (start + 2) (by omega)
  intro _
  apply follows_ite
  · intro _
    apply follows_byteAt
    intro b1 _
    apply follows_step (add_ok (by omega))
    exact tail _ _ (start + 2) (by omega)
  intro _
  apply follows_byteAt
  intro b1 _
  apply follows_step (add_ok (by omega))
  apply follows_guard
  intro _
  apply follows_byteAt
  intro b2 _
  apply follows_step (add_ok (by omega))
  exact tail _ _ (start + 3) (by omega)

theorem lightVl_follows :
    Follows (lightVl d upto stop) (Sim.lightVl d upto stop) fun r => r.1 ≤ 2 ^ 21 ∧ upto < r.2 ∧ r.2 ≤ stop := by
  unfold lightVl Sim.lightVl
  apply follows_byteAt
  intro b1 _
  have h1 := b1.toNat_lt
  dsimp only
  apply follows_step (add_ok (by omega))
  apply follows_guard
  intro _
  -- one, two or three bytes of length, as the first byte says
  apply follows_ite
  · intro _
    exact follows_pure (by constructor <;> omega)
  intro _
  apply follows_ite
  · intro _
    apply follows_step (sub_ok (by omega))
    apply follows_step (mul_ok (by omega))
    apply follows_byteAt
    intro b2 _
    have h2 := b2.toNat_lt
    apply follows_step (add_ok (by omega))
    apply follows_step (add_ok (by omega))
    apply follows_step (add_ok (by omega))
    apply follows_guard
    intro _
    exact follows_pure (by constructor <;> omega)
  intro _
  apply follows_byteAt
  intro b2 _
  have h2 := b2.toNat_lt
  apply follows_step (add_ok (by omega))
  apply follows_guard
  intro _
  apply follows_step (sub_ok (by omega))
  apply follows_step (mul_ok (by omega))
  apply follows_step (mul_ok (by omega))
  apply follows_step (add_ok (by omega))
  apply follows_byteAt
  intro b3 _
  have h3 := b3.toNat_lt
  apply follows_step (add_ok (by omega))
  apply follows_step (add_ok (by omega))
  apply follows_step (add_ok (by omega))
  apply follows_guard
  intro _
  exact follows_pure (by constructor <;> omega)

omit hd in
theorem pathStepWidth_le (flag : UInt8) : pathStepWidth flag ≤ 60 := by
  unfold pathStepWidth
  have h (b : Bool) : b.toNat ≤ 1 := Bool.toNat_le b
  have h1 := h (flag &&& 0x01 != 0)
  have h2 := h (flag &&& 0x10 != 0)
  have h3 := h (flag &&& 0x20 != 0)
  omega

omit hd in
theorem stepPart_ok {present : Bool} {len : Nat} (h : len ≤ 2 ^ 34) :
    stepPart present len = .ok (len + 20 * present.toNat) := by
  cases present
  · rfl
  · exact add_ok (by omega)

omit hd in
theorem stepLen_ok {flag : UInt8} {len : Nat} (h : len ≤ 2 ^ 33) :
    stepLen flag len = .ok (len + 1 + pathStepWidth flag) := by
  have h1 := Bool.toNat_le (flag &&& 0x01 != 0)
  have h2 := Bool.toNat_le (flag &&& 0x10 != 0)
  rw [stepLen, add_ok (by omega), ok_bind, stepPart_ok (by omega), ok_bind, stepPart_ok (by omega), ok_bind,
    stepPart_ok (by omega), pathStepWidth]
  congr 1
  omega

theorem lightPathSteps_follows (bound len : Nat) (hlen : upto + len ≤ 2 ^ 33) :
    Follows (lightPathSteps d upto stop rules bound len) (Sim.lightPathSteps d upto stop rules bound len) fun r =>
      upto + r < d.length := by
  induction bound generalizing len with
  | zero => exact follows_fail
  | succ bound ih =>
    unfold lightPathSteps Sim.lightPathSteps
    apply follows_step (add_ok (by omega))
    apply follows_byteAt
    intro flag hflag
    have hwidth := pathStepWidth_le flag
    apply follows_ite
    · intro _
      apply follows_guard
      intro _
      apply follows_step (stepLen_ok (by omega))
      apply follows_step (add_ok (by omega))
      apply follows_guard
      intro _
      apply follows_byteAt
      intro next hnext
      apply follows_ite
      · intro _
        exact follows_pure hnext
      · intro _
        exact ih _ (by omega)
    · intro _
      exact follows_pure hflag

theorem lightPaths_follows (bound len : Nat) (hlen : upto + len ≤ d.length) :
    Follows (lightPaths d upto stop rules bound len) (Sim.lightPaths d upto stop rules bound len) fun r =>
      upto + r.1 ≤ d.length := by
  induction bound generalizing len with
  | zero => exact follows_fail
  | succ bound ih =>
    unfold lightPaths Sim.lightPaths
    apply follows_step (add_ok (by omega))
    apply follows_ite
    · intro _
      apply (lightPathSteps_follows hd _ _ (by omega)).bind
      intro len _ hlen
      apply follows_step (add_ok (by omega))
      apply follows_byteAt
      intro last _
      apply follows_step (add_ok (by omega))
      apply follows_ite
      · intro _
        exact ih _ (by omega)
      intro _
      apply follows_ite
      · intro _
        exact follows_pure (by omega)
      · intro _
        exact follows_fail
    · intro _
      exact follows_pure hlen

omit hd in
theorem issueWidth_follows {p : Nat} (hp : p ≤ 2 ^ 34) :
    Follows (issueWidth d p) (Sim.issueWidth d p) fun w => w ≤ 40 := by
  unfold issueWidth
  apply follows_step (add_ok (by omega))
  have hlen : ((d.drop p).take 20).length = min 20 (d.length - p) := by rw [List.length_take, List.length_drop]
  by_cases hin : p + 20 ≤ d.length
  · have hcur : getRange d p (p + 20) = pure ((d.drop p).take 20) := by
      rw [getRange, if_pos ⟨by omega, hin⟩, Nat.add_sub_cancel_left]
      rfl
    have hw : Sim.issueWidth d p = some (if ((d.drop p).take 20).all (· == 0) then 20 else 40) :=
      if_neg (by omega)
    rw [hcur, hw]
    refine follows_pure ?_
    split <;> omega
  · have hcur : getRange d p (p + 20) = failure := by
      rw [getRange, if_neg (fun h => hin h.2)]
      rfl
    have hw : Sim.issueWidth d p = none := if_pos (by omega)
    rw [hcur, hw]
    exact follows_fail

theorem lightBridgeSide_follows {len : Nat} (hupto : upto ≤ stop) (hstop : stop ≤ d.length) (hlen : len ≤ 2 ^ 32) :
    Follows (lightBridgeSide d upto stop rules len) (Sim.lightBridgeSide d upto stop rules len) fun r =>
      r ≤ len + 61 := by
  -- all three forms of a side end in an issue, which the fix checks for room
  have tail (n : Nat) (hn : n ≤ len + 21) :
      Follows (do
          let need ← add 64 n 20
          guard !(rules.fix20260929 && stop - upto < need)
          let w ← issueWidth d (← add 64 upto n)
          liftM (add 64 n w))
        (do
          guard !(rules.fix20260929 && stop - upto < n + 20)
          let w ← Sim.issueWidth d (upto + n)
          some (n + w)) fun r => r ≤ len + 61 := by
    apply follows_step (add_ok (by omega))
    apply follows_guard
    intro _
    apply follows_step (add_ok (by omega))
    apply (issueWidth_follows (by omega)).bind
    intro w _ hw
    exact follows_last (add_ok (by omega)) (by omega)
  unfold lightBridgeSide Sim.lightBridgeSide
  apply follows_step (sub_ok (by omega))
  apply follows_ite
  · intro _
    apply follows_step (add_ok (by omega))
    exact tail _ le_rfl
  intro _
  apply follows_guard
  intro _
  apply follows_step (add_ok (by omega))
  apply follows_byteAt
  intro b _
  apply follows_ite
  · intro _
    apply follows_step (add_ok (by omega))
    exact tail _ (by omega)
  intro _
  apply follows_ite
  · intro _
    apply follows_step (add_ok (by omega))
    exact tail _ le_rfl
  · intro _
    exact (follows_fail (p := fun _ => False)).bind fun _ _ h => h.elim

/-- The header is a part of the field, and the field is no longer than a memory could not hold. -/
def Bounded (l : Light) : Prop := l.payloadStart ≤ l.len ∧ l.len ≤ 2 ^ 34

/-- A payload's length, where it has one, and the position it starts at. -/
def InRange (upto stop : Nat) (r : Option Nat × Nat) : Prop := upto ≤ r.2 ∧ r.2 ≤ stop ∧ ∀ n, r.1 = some n → n ≤ 2 ^ 32

omit hd in
theorem lightWidth_le {ty w : Nat} (h : lightWidth ty = some w) : w ≤ 32 := by
  unfold lightWidth at h
  split at h <;> first | cases h; omega | cases h

theorem lightLength_follows {ty : Nat} (hupto : upto < stop) (hstop : stop ≤ d.length) :
    Follows (lightLength d ty upto stop rules) (Sim.lightLength d ty upto stop rules) (InRange upto stop) := by
  have here {n : Nat} (hn : n ≤ 2 ^ 32) : InRange upto stop (some n, upto) :=
    ⟨le_rfl, hupto.le, fun m hm => Option.some.inj hm ▸ hn⟩
  unfold lightLength Sim.lightLength
  -- the branches of the source: length prefix, fixed width, amount, path set, issue, bridge
  apply follows_ite
  · intro _
    apply (lightVl_follows hd).bind
    rintro ⟨length, upto'⟩ _ ⟨hle, hlt, hstop'⟩
    have hle : length ≤ 2 ^ 21 := hle
    exact follows_pure ⟨hlt.le, hstop', fun m hm => Option.some.inj hm ▸ by omega⟩
  intro _
  cases hw : lightWidth ty with
  | some w =>
    have hle := lightWidth_le hw
    exact follows_pure (here (by omega))
  | none =>
    apply follows_ite
    · intro _
      apply follows_byteAt
      intro b _
      refine follows_pure (here ?_)
      split <;> omega
    intro _
    apply follows_ite
    · intro _
      apply (lightPaths_follows hd _ _ (by omega)).bind
      rintro ⟨len, terminated⟩ _ hlen
      have hlen : upto + len ≤ d.length := hlen
      apply follows_guard
      intro _
      apply follows_guard
      intro _
      exact follows_pure (here (by omega))
    intro _
    apply follows_ite
    · intro _
      apply follows_step (sub_ok hupto.le)
      apply follows_guard
      intro _
      apply (issueWidth_follows (by omega)).bind
      intro w _ hw
      exact follows_pure (here (by omega))
    intro _
    apply follows_ite
    · intro _
      apply (lightBridgeSide_follows hd hupto.le hstop (by omega)).bind
      intro len _ hlen
      apply (lightBridgeSide_follows hd hupto.le hstop (by omega)).bind
      intro len' _ hlen'
      exact follows_pure (here (by omega))
    · intro _
      exact follows_pure ⟨le_rfl, hupto.le, fun _ h => nomatch h⟩

theorem lightChildren_follows {walk : Nat → OptionT Checked Light} {walk' : Nat → Option Light} {ty : Nat}
    (hstop : stop ≤ d.length) (hwalk : ∀ upto, Follows (walk upto) (walk' upto) Bounded)
    (turns upto : Nat) (hupto : upto ≤ stop) :
    Follows (lightChildren walk d stop ty turns upto) (Sim.lightChildren walk' d stop ty turns upto) fun r =>
      upto ≤ r ∧ r < stop := by
  induction turns generalizing upto with
  | zero => exact follows_fail
  | succ turns ih =>
    unfold lightChildren Sim.lightChildren
    apply (hwalk upto).bind
    rintro child _ ⟨-, hchild⟩
    apply follows_step (add_ok (by omega))
    apply follows_guard
    intro hlt
    apply follows_byteAt
    intro m _
    apply follows_ite
    · intro _
      exact follows_pure ⟨Nat.le_add_right .., hlt⟩
    · intro _
      exact (ih _ hlt.le).mono fun r hr => ⟨le_trans (Nat.le_add_right ..) hr.1, hr.2⟩

theorem lightWalk_follows (hstop : stop ≤ d.length) (left start : Nat) :
    Follows (lightWalk d stop rules left start) (Sim.lightWalk d stop rules left start) Bounded := by
  -- on the nesting that is still allowed: the children of a container are walked with one less
  induction left generalizing start with
  | zero => exact follows_fail
  | succ left ih =>
    unfold lightWalk Sim.lightWalk
    apply (lightHeader_follows hd).bind
    rintro ⟨ty, field, upto⟩ _ ⟨hstart, hhead, hupto⟩
    simp only at hstart hhead hupto
    apply follows_guard
    intro _
    apply (lightLength_follows hd hupto hstop).bind
    rintro ⟨length, upto'⟩ _ ⟨hle, hle', hlen⟩
    simp only at hle hle' hlen
    cases length with
    | some length =>
      have hlen := hlen length rfl
      apply follows_step (sub_ok (by omega))
      apply follows_step (sub_ok hle')
      apply follows_guard
      intro _
      apply follows_step (add_ok (by omega))
      exact follows_pure (by constructor <;> simp only <;> omega)
    | none =>
      apply follows_ite
      · intro _
        apply follows_step (sub_ok (by omega))
        apply (lightChildren_follows hd hstop (fun upto => ih upto) _ _ hle').bind
        intro close _ hclose
        apply follows_step (sub_ok (by omega))
        apply follows_step (sub_ok (by omega))
        apply follows_step (add_ok (by omega))
        apply follows_step (sub_ok (by omega))
        exact follows_pure (by constructor <;> simp only <;> omega)
      · intro _
        exact follows_fail

theorem getStobjectLength_follows (rules : Rules) (hstop : stop ≤ d.length) (start depth : Nat) :
    Follows (getStobjectLength d start stop rules depth) (Sim.getStobjectLength d start stop rules depth) Bounded :=
  lightWalk_follows hd hstop _ _

end

/-! ## The host functions over the light walker -/

/-- Walks over the fields to the end. -/
def validateLoop (d : Bytes) (stop : Nat) (rules : Rules) : (turns upto : Nat) → OptionT Checked Nat
  | 0, upto => pure upto
  | turns + 1, upto =>
    if upto < stop then do
      let l ← getStobjectLength d upto stop rules 0
      validateLoop d stop rules turns (← add 64 upto l.len)
    else pure upto

/-- `sto_validate`. -/
def stoValidate (data : Bytes) (rules : Rules) : Checked (Except Int Bool) :=
  if data.length < 2 then
    if rules.fix20261005 then pure (.ok false) else pure (.error rc.TOO_SMALL)
  else do
    match ← (validateLoop data data.length rules 1024 0).run with
    | some upto => pure (.ok (upto == data.length))
    | none => pure (.ok false)

/-- Walks on until the field is found. -/
def subfieldLoop (data : Bytes) (fieldId : UInt32) (rules : Rules) :
    (turns upto : Nat) → Checked (Except Int (UInt32 × UInt32))
  | 0, upto => if upto != data.length then pure (.error rc.PARSE_ERROR) else pure (.error rc.DOESNT_EXIST)
  | turns + 1, upto =>
    if upto < data.length then do
      match ← (getStobjectLength data upto data.length rules 0).run with
      | none => pure (.error rc.PARSE_ERROR)
      | some l =>
        if lightCode l = fieldId then
          if l.ty = STI_ARRAY then pure (.ok (.ofNat upto, .ofNat l.len))
          else do pure (.ok (.ofNat (← add 64 upto l.payloadStart), .ofNat l.payloadLen))
        else subfieldLoop data fieldId rules turns (← add 64 upto l.len)
    else if upto != data.length then pure (.error rc.PARSE_ERROR)
    else pure (.error rc.DOESNT_EXIST)

/-- Under the fix the whole buffer has to validate first. -/
def invalid (data : Bytes) (rules : Rules) : Checked Bool :=
  if rules.fix20260929 then do pure (decide ((← stoValidate data rules) ≠ .ok true)) else pure false

/-- `sto_subfield`. -/
def stoSubfield (data : Bytes) (fieldId : UInt32) (rules : Rules) : Checked (Except Int (UInt32 × UInt32)) :=
  if data.length < 2 then pure (.error rc.TOO_SMALL)
  else do
    if ← invalid data rules then pure (.error rc.PARSE_ERROR)
    else subfieldLoop data fieldId rules 1024 0

/-- Walks on until the element is found. -/
def subarrayLoop (data : Bytes) (index : Nat) (rules : Rules) (stop : Nat) :
    (turns i upto : Nat) → Checked (Except Int (UInt32 × UInt32))
  | 0, _, upto => if upto != stop then pure (.error rc.PARSE_ERROR) else pure (.error rc.DOESNT_EXIST)
  | turns + 1, i, upto =>
    if upto < stop then do
      match ← (getStobjectLength data upto stop rules 0).run with
      | none => pure (.error rc.PARSE_ERROR)
      | some l =>
        if i = index then pure (.ok (.ofNat upto, .ofNat l.len))
        else subarrayLoop data index rules stop turns (i + 1) (← add 64 upto l.len)
    else if upto != stop then pure (.error rc.PARSE_ERROR)
    else pure (.error rc.DOESNT_EXIST)

/-- Under the fix an array with its header has to end in its marker. -/
def unclosed (data : Bytes) (rules : Rules) (wrapped : Bool) : Checked Bool :=
  if rules.fix20260929 && wrapped then do pure ((← Checked.index data (← sub data.length 1)) != 0xF1) else pure false

/-- Where the elements end: before the marker of an array with its header. -/
def elementsEnd (data : Bytes) (wrapped : Bool) : Checked Nat :=
  if wrapped then sub data.length 1 else pure data.length

/-- `sto_subarray`. -/
def stoSubarray (data : Bytes) (index : UInt32) (rules : Rules) : Checked (Except Int (UInt32 × UInt32)) :=
  if data.length < 2 then pure (.error rc.TOO_SMALL)
  else do
    let first ← Checked.index data 0
    let wrapped := first &&& 0xF0 == 0xF0
    if ← unclosed data rules wrapped then pure (.error rc.PARSE_ERROR)
    else if ← invalid data rules then pure (.error rc.PARSE_ERROR)
    else
      let upto := if wrapped then if rules.fixHookapi20251128 && first == 0xF0 then 2 else 1 else 0
      let stop ← elementsEnd data wrapped
      if stop ≤ upto then pure (.error rc.PARSE_ERROR)
      else subarrayLoop data index.toNat rules stop 1024 0 upto

section
variable {data : Bytes} {rules : Rules} (hd : data.length ≤ 2 ^ 32)
include hd

theorem stoValidate_ok : stoValidate data rules = .ok (Sim.stoValidate data rules) := by
  have loop (turns upto : Nat) : Follows (validateLoop data data.length rules turns upto)
      (Sim.validateLoop data data.length rules turns upto) fun _ => True := by
    induction turns generalizing upto with
    | zero => exact follows_pure trivial
    | succ turns ih =>
      unfold validateLoop Sim.validateLoop
      apply follows_ite
      · intro hlt
        apply (getStobjectLength_follows hd rules le_rfl _ _).bind
        rintro l _ ⟨-, hl⟩
        apply follows_step (add_ok (by omega))
        exact ih _
      · intro _
        exact follows_pure trivial
  unfold stoValidate Sim.stoValidate
  split
  · split <;> rfl
  · rw [(loop 1024 0).1, ok_bind]
    cases Sim.validateLoop data data.length rules 1024 0 <;> rfl

theorem subfieldLoop_ok (fieldId : UInt32) (turns upto : Nat) :
    subfieldLoop data fieldId rules turns upto = .ok (Sim.subfieldLoop data fieldId rules turns upto) := by
  induction turns generalizing upto with
  | zero =>
    unfold subfieldLoop Sim.subfieldLoop
    split <;> rfl
  | succ turns ih =>
    unfold subfieldLoop Sim.subfieldLoop
    split
    next hlt =>
      obtain ⟨hrun, hl⟩ := getStobjectLength_follows hd rules le_rfl upto 0
      rw [hrun, ok_bind]
      cases hres : Sim.getStobjectLength data upto data.length rules 0 with
      | none => rfl
      | some l =>
        obtain ⟨hstart, hlen⟩ := hl l hres
        simp only
        split
        · split
          · rfl
          · rw [add_ok (by omega)]
            rfl
        · rw [add_ok (by omega), ok_bind]
          exact ih _
    next => split <;> rfl

theorem invalid_ok : invalid data rules = .ok (decide (rules.fix20260929 ∧ Sim.stoValidate data rules ≠ .ok true)) := by
  rw [invalid, stoValidate_ok hd]
  cases rules.fix20260929
  · rfl
  · rw [if_pos rfl, ok_bind]
    simp only [true_and]
    rfl

theorem stoSubfield_ok (fieldId : UInt32) :
    stoSubfield data fieldId rules = .ok (Sim.stoSubfield data fieldId rules) := by
  unfold stoSubfield Sim.stoSubfield
  rw [invalid_ok hd, ok_bind, subfieldLoop_ok hd]
  split
  · rfl
  · simp only [decide_eq_true_eq]
    split <;> rfl

theorem subarrayLoop_ok (index : Nat) {stop : Nat} (hstop : stop ≤ data.length) (turns i upto : Nat) :
    subarrayLoop data index rules stop turns i upto = .ok (Sim.subarrayLoop data index rules stop turns i upto) := by
  induction turns generalizing i upto with
  | zero =>
    unfold subarrayLoop Sim.subarrayLoop
    split <;> rfl
  | succ turns ih =>
    unfold subarrayLoop Sim.subarrayLoop
    split
    next hlt =>
      obtain ⟨hrun, hl⟩ := getStobjectLength_follows hd rules hstop upto 0
      rw [hrun, ok_bind]
      cases hres : Sim.getStobjectLength data upto stop rules 0 with
      | none => rfl
      | some l =>
        obtain ⟨-, hlen⟩ := hl l hres
        simp only
        split
        · rfl
        · rw [add_ok (by omega), ok_bind]
          exact ih _ _
    next => split <;> rfl

omit hd in
theorem unclosed_ok (wrapped : Bool) (h : 2 ≤ data.length) :
    unclosed data rules wrapped = .ok (decide (rules.fix20260929 ∧ wrapped ∧ data.getLast? ≠ some 0xF1)) := by
  obtain ⟨x, hx⟩ : ∃ x, data.getLast? = some x := ⟨_, List.getLast?_eq_some_getLast (by rintro rfl; simp at h)⟩
  have hlast : Checked.index data (data.length - 1) = .ok x := index_ok (List.getLast?_eq_getElem?.symm.trans hx)
  rw [unclosed, hx, sub_ok (by omega), ok_bind, hlast, ok_bind]
  cases rules.fix20260929
  · rfl
  cases wrapped
  · rfl
  by_cases h : x = 0xF1
  · subst h
    rfl
  · have hne : (x != 0xF1) = true := bne_iff_ne.2 h
    have hsome : some x ≠ some (0xF1 : UInt8) := fun heq => h (Option.some.inj heq)
    rw [hne, decide_eq_true ⟨rfl, rfl, hsome⟩]
    rfl

omit hd in
theorem elementsEnd_ok (wrapped : Bool) (h : 2 ≤ data.length) :
    elementsEnd data wrapped = .ok (if wrapped then data.length - 1 else data.length) := by
  cases wrapped
  · rfl
  · exact sub_ok (by omega)

theorem stoSubarray_ok (index : UInt32) :
    stoSubarray data index rules = .ok (Sim.stoSubarray data index rules) := by
  rw [stoSubarray, Sim.stoSubarray]
  by_cases hlen : data.length < 2
  · rw [if_pos hlen, if_pos hlen]
    rfl
  rw [if_neg hlen, if_neg hlen]
  cases data with
  | nil => exact absurd (by decide) hlen
  | cons x rest =>
    have hfirst : Checked.index (x :: rest) 0 = .ok x := rfl
    have hhead : ((x :: rest).head?.any (· &&& 0xF0 == 0xF0)) = (x &&& 0xF0 == 0xF0) := rfl
    have hopen : ((x :: rest).head? == some 0xF0) = (x == 0xF0) := rfl
    simp only [hfirst, ok_bind, hhead, hopen, unclosed_ok _ (not_lt.1 hlen), invalid_ok hd,
      elementsEnd_ok _ (not_lt.1 hlen), decide_eq_true_eq]
    -- both forms of the header go into the same loop over the elements
    have loop (stop upto : Nat) (hstop : stop ≤ (x :: rest).length) :
        (if stop ≤ upto then pure (.error rc.PARSE_ERROR)
          else subarrayLoop (x :: rest) index.toNat rules stop 1024 0 upto) =
        (.ok (if stop ≤ upto then .error rc.PARSE_ERROR
          else Sim.subarrayLoop (x :: rest) index.toNat rules stop 1024 0 upto) : Checked _) := by
      by_cases h : stop ≤ upto
      · rw [if_pos h, if_pos h]
        rfl
      · rw [if_neg h, if_neg h]
        exact subarrayLoop_ok hd _ hstop _ _ _
    split
    · rfl
    split
    · rfl
    · exact loop _ _ (by split <;> omega)

end

end Words

end Xahc.Sim

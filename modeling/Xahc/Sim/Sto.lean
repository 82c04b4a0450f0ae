/-
Serialized objects as the hook simulator reads them. The light walker behind `stoValidate`,
`stoSubfield` and `stoSubarray` reproduces the quirks of the ledger's own; the full walker behind
slot contents accepts whatever a ledger object can hold.
-/
import Xahc.Data.Bytes

namespace Xahc.Sim

open Xahc.Data (Bytes)

/-! ## Return codes, type ids and amendment switches -/

namespace rc

def OUT_OF_BOUNDS : Int := -1
def TOO_SMALL : Int := -4
def DOESNT_EXIST : Int := -5
def NO_FREE_SLOTS : Int := -6
def INVALID_ARGUMENT : Int := -7
def PREREQUISITE_NOT_MET : Int := -9
def INVALID_FIELD : Int := -17
def PARSE_ERROR : Int := -18
def NOT_AN_ARRAY : Int := -22
def NOT_AN_OBJECT : Int := -23

end rc

@[match_pattern] abbrev STI_UINT16 : Nat := 1
@[match_pattern] abbrev STI_UINT32 : Nat := 2
@[match_pattern] abbrev STI_UINT64 : Nat := 3
@[match_pattern] abbrev STI_UINT128 : Nat := 4
@[match_pattern] abbrev STI_UINT256 : Nat := 5
@[match_pattern] abbrev STI_AMOUNT : Nat := 6
@[match_pattern] abbrev STI_VL : Nat := 7
@[match_pattern] abbrev STI_ACCOUNT : Nat := 8
@[match_pattern] abbrev STI_NUMBER : Nat := 9
@[match_pattern] abbrev STI_OBJECT : Nat := 14
@[match_pattern] abbrev STI_ARRAY : Nat := 15
@[match_pattern] abbrev STI_UINT8 : Nat := 16
@[match_pattern] abbrev STI_UINT160 : Nat := 17
@[match_pattern] abbrev STI_PATHSET : Nat := 18
@[match_pattern] abbrev STI_VECTOR256 : Nat := 19
@[match_pattern] abbrev STI_UINT96 : Nat := 20
@[match_pattern] abbrev STI_UINT192 : Nat := 21
@[match_pattern] abbrev STI_UINT384 : Nat := 22
@[match_pattern] abbrev STI_UINT512 : Nat := 23
@[match_pattern] abbrev STI_ISSUE : Nat := 24
@[match_pattern] abbrev STI_XCHAIN_BRIDGE : Nat := 25
@[match_pattern] abbrev STI_CURRENCY : Nat := 26

/-- The amendment switches the two walkers and the slot calls read, as live on mainnet. -/
structure Rules where
  fix20260929 : Bool := true
  fixHookapi20251128 : Bool := true
  hookapiSerializedType240 : Bool := false
  fix20261005 : Bool := true
  deriving DecidableEq, Repr

/-! ## The light walker -/

/-- One field found by the light walker. -/
structure Light where
  /-- Total bytes, header and end marker included. -/
  len : Nat
  ty : Nat
  field : Nat
  /-- Where the payload starts, counted from the field's first byte. -/
  payloadStart : Nat
  payloadLen : Nat
  deriving DecidableEq, Repr

/-- The header of one to three bytes at `start`: type, field, and the position after it. -/
def lightHeader (d : Bytes) (start stop : Nat) : Option (Nat × Nat × Nat) := do
  let b0 ← d[start]?
  let high := (b0 >>> 4).toNat
  let low := (b0 &&& 0xF).toNat
  guard (start + 1 < stop)
  let (ty, field, upto) ←
    if high > 0 ∧ low > 0 then some (high, low, start + 1)
    else if high > 0 then do
      let b1 ← d[start + 1]?
      some (high, b1.toNat, start + 2)
    else if low > 0 then do
      let b1 ← d[start + 1]?
      some (b1.toNat, low, start + 2)
    else do
      let b1 ← d[start + 1]?
      guard (start + 2 < stop)
      let b2 ← d[start + 2]?
      some (b1.toNat, b2.toNat, start + 3)
  -- a header that ends the buffer is refused, whatever its shape
  guard (upto < stop)
  some (ty, field, upto)

/-- The types the walker refuses outright. -/
def lightRefused (rules : Rules) (ty : Nat) : Bool :=
  -- without the amendment the newer types are unknown to the walker
  let maxStiType := if rules.hookapiSerializedType240 then STI_CURRENCY else STI_VECTOR256
  ty < 1 || maxStiType < ty || (10 ≤ ty && ty ≤ 13) ||
    [STI_NUMBER, STI_UINT96, STI_UINT192, STI_UINT384, STI_UINT512].contains ty

/-- The length prefix at `upto`: the length, and the position after the prefix. A prefix of one or
three bytes may not end the buffer; one of two bytes may. -/
def lightVl (d : Bytes) (upto stop : Nat) : Option (Nat × Nat) := do
  let b1 ← d[upto]?
  let length := b1.toNat
  guard (upto + 1 < stop)
  if length < 193 then some (length, upto + 1)
  else if length < 241 then do
    let b2 ← d[upto + 1]?
    guard (upto + 2 ≤ stop)
    some ((length - 193) * 256 + (b2.toNat + 193), upto + 2)
  else do
    let b2 ← d[upto + 1]?
    guard (upto + 2 < stop)
    let b3 ← d[upto + 2]?
    guard (upto + 3 < stop)
    some ((length - 241) * 65536 + (12481 + b2.toNat * 256 + b3.toNat), upto + 3)

/-- The bytes of a type of fixed width, for the light walker. -/
def lightWidth : Nat → Option Nat
  | STI_UINT16 => some 2
  | STI_UINT32 => some 4
  | STI_UINT64 => some 8
  | STI_UINT128 => some 16
  | STI_UINT256 => some 32
  | STI_UINT8 => some 1
  | STI_UINT160 => some 20
  | STI_CURRENCY => some 20
  | _ => none

/-- The bytes the three parts of a path step take, by its flag. -/
def pathStepWidth (flag : UInt8) : Nat :=
  20 * ((flag &&& 0x01 != 0).toNat + (flag &&& 0x10 != 0).toNat + (flag &&& 0x20 != 0).toNat)

/-- The steps of one path: the length walked so far once a step's successor ends the path. Each turn
reads a byte further on, so a bound past the buffer's length is never reached. -/
def lightPathSteps (d : Bytes) (upto stop : Nat) (rules : Rules) : (bound len : Nat) → Option Nat
  | 0, _ => none
  | bound + 1, len => do
    let flag ← d[upto + len]?
    if flag &&& 0x31 != 0 then
      guard (flag &&& ~~~0x31 == 0)
      let len := len + 1 + pathStepWidth flag
      guard !(rules.fix20260929 && stop ≤ upto + len)
      let next ← d[upto + len]?
      if next == 0x00 || next == 0xff then some len
      else lightPathSteps d upto stop rules bound len
    else some len

/-- The paths of a path set, up to the byte that ends the set: its length, and whether that byte was
found before `stop`. -/
def lightPaths (d : Bytes) (upto stop : Nat) (rules : Rules) : (bound len : Nat) → Option (Nat × Bool)
  | 0, _ => none
  | bound + 1, len =>
    if upto + len < stop then do
      let len ← lightPathSteps d upto stop rules (d.length + 1) len
      let last ← d[upto + len]?
      if last == 0xff then lightPaths d upto stop rules bound (len + 1)
      else if last == 0x00 then some (len + 1, true)
      else none
    else some (len, false)

/-- The twenty bytes at `p`, and the width of the issue they open: a native one has no issuer. -/
def issueWidth (d : Bytes) (p : Nat) : Option Nat :=
  let cur := (d.drop p).take 20
  if cur.length < 20 then none
  else some (if cur.all (· == 0) then 20 else 40)

/-- One door account of a bridge and the issue behind it. -/
def lightBridgeSide (d : Bytes) (upto stop : Nat) (rules : Rules) (len : Nat) : Option Nat := do
  let len ←
    if !rules.fix20260929 then some (len + 21)
    else do
      guard (len < stop - upto)
      let b ← d[upto + len]?
      if b == 0 then some (len + 1)
      else if b == 20 then some (len + 21)
      else none
  guard !(rules.fix20260929 && stop - upto < len + 20)
  let w ← issueWidth d (upto + len)
  some (len + w)

/-- The payload's length and the position it starts at; no length for a container, whose payload is
found by walking it, nor for a type with no payload rule. -/
def lightLength (d : Bytes) (ty upto stop : Nat) (rules : Rules) : Option (Option Nat × Nat) :=
  let ser240 := rules.hookapiSerializedType240
  if ty = STI_ACCOUNT ∨ ty = STI_VL ∨ (ty = STI_PATHSET ∧ !ser240) ∨ ty = STI_VECTOR256 then do
    let (length, upto) ← lightVl d upto stop
    some (some length, upto)
  else if let some w := lightWidth ty then some (some w, upto)
  else if ty = STI_AMOUNT then do
    let b ← d[upto]?
    some (some (if b >>> 6 == 1 then 8 else 48), upto)
  else if ty = STI_PATHSET ∧ ser240 then do
    let (len, terminated) ← lightPaths d upto stop rules (d.length + 1) 0
    guard (upto < stop)
    guard !(rules.fix20260929 && !terminated)
    some (some len, upto)
  else if ty = STI_ISSUE then do
    guard !(rules.fix20260929 && stop - upto < 20)
    let w ← issueWidth d upto
    some (some w, upto)
  else if ty = STI_XCHAIN_BRIDGE then do
    let len ← lightBridgeSide d upto stop rules 0
    let len ← lightBridgeSide d upto stop rules len
    some (some len, upto)
  else some (none, upto)

/-- The byte that closes a container. -/
def endMarker (ty : Nat) : UInt8 := if ty = STI_OBJECT then 0xE1 else 0xF1

/-- The children of a container: at most `turns` fields, until the byte after one of them is the
container's end marker. The position of that byte. -/
def lightChildren (walk : Nat → Option Light) (d : Bytes) (stop ty : Nat) : (turns upto : Nat) → Option Nat
  | 0, _ => none
  | turns + 1, upto => do
    let sub ← walk upto
    let upto := upto + sub.len
    guard (upto < stop)
    let m ← d[upto]?
    -- the marker is looked for after a field only, so an empty container has none
    if m == endMarker ty then some upto
    else lightChildren walk d stop ty turns upto

/-- The walker with `left` levels of nesting still allowed. -/
def lightWalk (d : Bytes) (stop : Nat) (rules : Rules) : (left start : Nat) → Option Light
  | 0, _ => none
  | left + 1, start => do
    let (ty, field, upto) ← lightHeader d start stop
    guard !(lightRefused rules ty)
    match ← lightLength d ty upto stop rules with
    | (some length, upto) =>
      guard !(rules.fix20260929 && stop - upto < length)
      some ⟨length + (upto - start), ty, field, upto - start, length⟩
    | (none, upto) =>
      if ty = STI_OBJECT ∨ ty = STI_ARRAY then do
        -- the payload is what lies between the header and the end marker
        let close ← lightChildren (lightWalk d stop rules left) d stop ty 1024 upto
        some ⟨close + 1 - start, ty, field, upto - start, close - start - (upto - start)⟩
      else none

/-- `getStobjectLength`: depths 0 to 10 are walked. -/
def getStobjectLength (d : Bytes) (start stop : Nat) (rules : Rules) (depth : Nat) : Option Light :=
  lightWalk d stop rules (11 - depth) start

/-! ## The host functions over the light walker -/

/-- At most `turns` fields from `upto` on; the position reached. -/
def validateLoop (d : Bytes) (stop : Nat) (rules : Rules) : (turns upto : Nat) → Option Nat
  | 0, upto => some upto
  | turns + 1, upto =>
    if upto < stop then do
      let l ← getStobjectLength d upto stop rules 0
      validateLoop d stop rules turns (upto + l.len)
    else some upto

/-- `sto_validate`: the fields cover the bytes. -/
def stoValidate (data : Bytes) (rules : Rules) : Except Int Bool :=
  if data.length < 2 then
    if rules.fix20261005 then .ok false else .error rc.TOO_SMALL
  else
    match validateLoop data data.length rules 1024 0 with
    | some upto => .ok (upto == data.length)
    | none => .ok false

/-- A type and a field number as one code, the way `stoSubfield` adds them up. -/
def lightCode (l : Light) : UInt32 := (UInt32.ofNat l.ty <<< 16) + UInt32.ofNat l.field

/-- Walks on until the field is found. -/
def subfieldLoop (data : Bytes) (fieldId : UInt32) (rules : Rules) :
    (turns upto : Nat) → Except Int (UInt32 × UInt32)
  | 0, upto => if upto != data.length then .error rc.PARSE_ERROR else .error rc.DOESNT_EXIST
  | turns + 1, upto =>
    if upto < data.length then
      match getStobjectLength data upto data.length rules 0 with
      | none => .error rc.PARSE_ERROR
      | some l =>
        -- the first match ends the walk; what follows it is not looked at
        if lightCode l = fieldId then
          if l.ty = STI_ARRAY then .ok (.ofNat upto, .ofNat l.len)
          else .ok (.ofNat (upto + l.payloadStart), .ofNat l.payloadLen)
        else subfieldLoop data fieldId rules turns (upto + l.len)
    else if upto != data.length then .error rc.PARSE_ERROR
    else .error rc.DOESNT_EXIST

/-- The offset and the length of a field's payload, both as `u32`; an array comes back whole. -/
def stoSubfield (data : Bytes) (fieldId : UInt32) (rules : Rules) : Except Int (UInt32 × UInt32) :=
  if data.length < 2 then .error rc.TOO_SMALL
  else if rules.fix20260929 ∧ stoValidate data rules ≠ .ok true then .error rc.PARSE_ERROR
  else subfieldLoop data fieldId rules 1024 0

/-- Walks on until the element is found. -/
def subarrayLoop (data : Bytes) (index : Nat) (rules : Rules) (stop : Nat) :
    (turns i upto : Nat) → Except Int (UInt32 × UInt32)
  | 0, _, upto => if upto != stop then .error rc.PARSE_ERROR else .error rc.DOESNT_EXIST
  | turns + 1, i, upto =>
    if upto < stop then
      match getStobjectLength data upto stop rules 0 with
      | none => .error rc.PARSE_ERROR
      | some l =>
        if i = index then .ok (.ofNat upto, .ofNat l.len)
        else subarrayLoop data index rules stop turns (i + 1) (upto + l.len)
    else if upto != stop then .error rc.PARSE_ERROR
    else .error rc.DOESNT_EXIST

/-- The offset and the length of element `index`, both as `u32`. A buffer that opens with an array
header is unwrapped first. -/
def stoSubarray (data : Bytes) (index : UInt32) (rules : Rules) : Except Int (UInt32 × UInt32) :=
  if data.length < 2 then .error rc.TOO_SMALL
  else
    let wrapped := data.head?.any (· &&& 0xF0 == 0xF0)
    if rules.fix20260929 ∧ wrapped ∧ data.getLast? ≠ some 0xF1 then .error rc.PARSE_ERROR
    else if rules.fix20260929 ∧ stoValidate data rules ≠ .ok true then .error rc.PARSE_ERROR
    else
      let upto := if wrapped then
        if rules.fixHookapi20251128 && data.head? == some 0xF0 then 2 else 1
        else 0
      let stop := if wrapped then data.length - 1 else data.length
      if stop ≤ upto then .error rc.PARSE_ERROR
      else subarrayLoop data index.toNat rules stop 1024 0 upto

/-! ## The full field walker -/

/-- A field inside a serialized object, located in its backing buffer: the header takes at least a
byte, and the field ends no earlier than its header does. -/
structure FieldRef where
  ty : Nat
  field : Nat
  /-- Offset of the field header. -/
  start : Nat
  /-- Offset just past the header. -/
  body : Nat
  /-- Offset just past the field, end marker included. -/
  stop : Nat
  start_lt_body : start < body
  body_le_stop : body ≤ stop
  deriving DecidableEq, Repr

theorem FieldRef.length_pos (f : FieldRef) : f.start < f.stop :=
  Nat.lt_of_lt_of_le f.start_lt_body f.body_le_stop

/-- The field code, type above field number. -/
def fieldCode (ty field : Nat) : UInt32 := (UInt32.ofNat ty <<< 16) ||| UInt32.ofNat field

/-- The code of a field. -/
def FieldRef.code (f : FieldRef) : UInt32 := fieldCode f.ty f.field

/-- The range a slot holds: a length prefix stays in, the header and the end marker of a container
stay out. -/
def FieldRef.content (f : FieldRef) : Nat × Nat :=
  if f.ty = STI_OBJECT ∨ f.ty = STI_ARRAY then (f.body, f.stop - 1) else (f.body, f.stop)

/-- Type, field and length of the header at `pos`. -/
def decodeHeader (d : Bytes) (pos : Nat) : Except String (Nat × Nat × Nat) :=
  let g (i : Nat) : Except String Nat :=
    match d[i]? with
    | some b => .ok b.toNat
    | none => .error s!"truncated field header at byte {pos}"
  match d[pos]? with
  | none => .error s!"truncated field header at byte {pos}"
  | some b0 =>
    let hi := (b0 >>> 4).toNat
    let lo := (b0 &&& 0xF).toNat
    if hi > 0 ∧ lo > 0 then .ok (hi, lo, 1)
    else if hi > 0 then do .ok (hi, ← g (pos + 1), 2)
    else if lo > 0 then do .ok (← g (pos + 1), lo, 2)
    else do .ok (← g (pos + 1), ← g (pos + 2), 3)

theorem decodeHeader_ok {d : Bytes} {pos ty field hl : Nat} (h : decodeHeader d pos = .ok (ty, field, hl)) :
    pos < d.length ∧ 0 < hl := by
  unfold decodeHeader at h
  rcases hb : d[pos]? with _ | b0
  · simp [hb] at h
  · refine ⟨(List.getElem?_eq_some_iff.mp hb).1, ?_⟩
    rcases h1 : d[pos + 1]? with _ | b1 <;> rcases h2 : d[pos + 2]? with _ | b2 <;>
      simp only [hb, h1, h2, bind, Except.bind] at h <;> grind

/-- A length prefix: the length, and the bytes the prefix takes. -/
def vlLen (d : Bytes) (pos : Nat) : Except String (Nat × Nat) :=
  let g (i : Nat) : Except String Nat :=
    match d[i]? with
    | some b => .ok b.toNat
    | none => .error s!"truncated VL length at byte {pos}"
  do
    let b1 ← g pos
    if b1 ≤ 192 then .ok (b1, 1)
    else if b1 ≤ 240 then .ok (193 + (b1 - 193) * 256 + (← g (pos + 1)), 2)
    -- 0xFF opens no prefix of the format
    else if b1 ≤ 254 then .ok (12481 + (b1 - 241) * 65536 + (← g (pos + 1)) * 256 + (← g (pos + 2)), 3)
    else .error s!"invalid VL length byte 0xFF at byte {pos}"

/-- The bytes of a type of fixed width, for the full walker. -/
def fixedWidth : Nat → Option Nat
  | STI_UINT16 => some 2
  | STI_UINT32 => some 4
  | STI_UINT64 => some 8
  | STI_UINT128 => some 16
  | STI_UINT256 => some 32
  | STI_UINT8 => some 1
  | STI_UINT160 => some 20
  | STI_CURRENCY => some 20
  | STI_UINT96 => some 12
  | STI_NUMBER => some 12
  | STI_UINT192 => some 24
  | STI_UINT384 => some 48
  | STI_UINT512 => some 64
  | _ => none

/-- Where a path set ends, from `p` on. Each turn reads a byte further on, so a bound past the
buffer's length is never reached. -/
def pathsetEnd (d : Bytes) : (bound p : Nat) → Except String Nat
  | 0, _ => .error "unterminated pathset"
  | bound + 1, p =>
    match d[p]? with
    | none => .error "unterminated pathset"
    | some t =>
      if t = 0x00 then .ok (p + 1)
      else if t = 0xFF then pathsetEnd d bound (p + 1)
      else if t &&& ~~~0x31 = 0 then pathsetEnd d bound (p + 1 + pathStepWidth t)
      else .error s!"bad pathset step flag 0x{String.ofList (Xahc.Data.encodeHex [t])}"

/-- The bytes a leaf's payload takes, its length prefix included. -/
def leafLen (d : Bytes) (ty body pos : Nat) : Except String Nat :=
  if let some w := fixedWidth ty then .ok w
  else match ty with
    | STI_AMOUNT =>
      match d[body]? with
      | none => .error "truncated amount"
      | some b => .ok (if b &&& 0x80 = 0 then 8 else 48)
    | STI_VL | STI_ACCOUNT | STI_VECTOR256 => do
      let (n, pl) ← vlLen d body
      .ok (pl + n)
    | STI_ISSUE =>
      match issueWidth d body with
      | none => .error "truncated issue"
      | some w => .ok w
    | STI_PATHSET => do
      let p ← pathsetEnd d (d.length + 1) body
      .ok (p - body)
    | _ => .error s!"unsupported serialized type {ty} at byte {pos}"

/-- The name of a container, for messages. -/
def containerName (ty : Nat) : String := if ty = STI_OBJECT then "object" else "array"

mutual

/-- The field at `pos`, which may not run past `stop`. -/
def parseField (d : Bytes) (pos stop : Nat) : Except String { f : FieldRef // f.start = pos } :=
  match h : decodeHeader d pos with
  | .error e => .error e
  | .ok (ty, field, hl) => do
    let body := pos + hl
    have hpos := decodeHeader_ok h
    let ⟨fin, hfin⟩ : { fin // body ≤ fin } ←
      if ty = STI_OBJECT ∨ ty = STI_ARRAY then parseChildren d ty pos stop body
      else do
        let n ← leafLen d ty body pos
        .ok ⟨body + n, Nat.le_add_right ..⟩
    -- checked after the payload is measured, for a leaf and a container alike
    if stop < fin then .error s!"field (type {ty}, field {field}) at byte {pos} runs past the end"
    else .ok ⟨⟨ty, field, pos, body, fin, Nat.lt_add_of_pos_right hpos.2, hfin⟩, rfl⟩
termination_by (d.length - pos, 0)

/-- The fields of a container that opened at `pos`, from `p` up to the container's end marker: the
position after the marker. -/
def parseChildren (d : Bytes) (ty pos stop p : Nat) : Except String { fin : Nat // p ≤ fin } :=
  if stop ≤ p then
    .error s!"unterminated {containerName ty} at byte {pos}"
  else match hp : d[p]? with
    | none => .error s!"index {p} out of bounds"
    | some b =>
      if b = endMarker ty then .ok ⟨p + 1, Nat.le_succ p⟩
      else
        match parseField d p stop with
        | .error e => .error e
        | .ok ⟨f, hf⟩ => do
          have hlt := (List.getElem?_eq_some_iff.mp hp).1
          have hlen := f.length_pos
          let ⟨fin, hfin⟩ ← parseChildren d ty pos stop f.stop
          .ok ⟨fin, by omega⟩
termination_by (d.length - p, 1)

end

/-- All top-level fields of `d` between `p` and `stop`. -/
def parseFields (d : Bytes) (p stop : Nat) : Except String (List FieldRef) :=
  if p < stop then
    match parseField d p stop with
    | .error e => .error e
    | .ok ⟨f, _⟩ => do
      have _ := f.length_pos
      let rest ← parseFields d f.stop stop
      .ok (f :: rest)
  else .ok []
termination_by stop - p

/-! ### Steps of the full walker -/

section Steps

variable {d : Bytes} {p stop ty pos code hl : Nat}

theorem parseField_leaf {w : Nat} (hdr : decodeHeader d p = .ok (ty, code, hl))
    (hty : ty ≠ STI_OBJECT ∧ ty ≠ STI_ARRAY) (len : leafLen d ty (p + hl) p = .ok w)
    (hstop : p + hl + w ≤ stop) :
    ∃ h h', parseField d p stop = .ok ⟨⟨ty, code, p, p + hl, p + hl + w, h, h'⟩, rfl⟩ := by
  rw [parseField]
  split
  · simp_all
  · next ty' field' hl' h =>
    obtain ⟨rfl, rfl, rfl⟩ : ty' = ty ∧ field' = code ∧ hl' = hl := by simpa [hdr] using h.symm
    have hpos := decodeHeader_ok hdr
    rw [if_neg (not_or.mpr hty)]
    simp only [len, bind, Except.bind, if_neg (Nat.not_lt.mpr hstop), exists_prop, and_true]
    exact ⟨by omega, by omega⟩

theorem parseField_container {fin : Nat} {hfin : p + hl ≤ fin} (hdr : decodeHeader d p = .ok (ty, code, hl))
    (hty : ty = STI_OBJECT ∨ ty = STI_ARRAY)
    (children : parseChildren d ty p stop (p + hl) = .ok ⟨fin, hfin⟩) (hstop : fin ≤ stop) :
    ∃ h h', parseField d p stop = .ok ⟨⟨ty, code, p, p + hl, fin, h, h'⟩, rfl⟩ := by
  rw [parseField]
  split
  · simp_all
  · next ty' field' hl' h =>
    obtain ⟨rfl, rfl, rfl⟩ : ty' = ty ∧ field' = code ∧ hl' = hl := by simpa [hdr] using h.symm
    have hpos := decodeHeader_ok hdr
    rw [if_pos hty]
    simp only [children, bind, Except.bind, if_neg (Nat.not_lt.mpr hstop), exists_prop, and_true]
    exact ⟨by omega, hfin⟩

theorem parseChildren_close (hp : p < stop) (hb : d[p]? = some (endMarker ty)) :
    parseChildren d ty pos stop p = .ok ⟨p + 1, Nat.le_succ p⟩ := by
  rw [parseChildren, if_neg (Nat.not_le.mpr hp)]
  split
  · simp_all
  · next b h =>
    obtain rfl : b = endMarker ty := by simpa [hb] using h.symm
    rw [if_pos rfl]

theorem parseChildren_next {b : UInt8} {f : FieldRef} {hf : f.start = p} {fin : Nat} {hfin : f.stop ≤ fin}
    (hp : p < stop) (hb : d[p]? = some b) (hne : b ≠ endMarker ty)
    (field : parseField d p stop = .ok ⟨f, hf⟩)
    (rest : parseChildren d ty pos stop f.stop = .ok ⟨fin, hfin⟩) :
    ∃ hle, parseChildren d ty pos stop p = .ok ⟨fin, hle⟩ := by
  rw [parseChildren, if_neg (Nat.not_le.mpr hp)]
  split
  · simp_all
  · next b' h =>
    obtain rfl : b' = b := by simpa [hb] using h.symm
    have hlen := f.length_pos
    rw [if_neg hne, field]
    simp only [rest, bind, Except.bind, exists_prop, and_true]
    omega

theorem parseFields_nil : parseFields d p p = .ok [] := by
  rw [parseFields, if_neg (Nat.lt_irrefl p)]

theorem parseFields_cons {f : FieldRef} {hf : f.start = p} {rest : List FieldRef} (hp : p < stop)
    (field : parseField d p stop = .ok ⟨f, hf⟩) (tail : parseFields d f.stop stop = .ok rest) :
    parseFields d p stop = .ok (f :: rest) := by
  rw [parseFields, if_pos hp, field]
  simp only [tail, bind, Except.bind]

end Steps

end Xahc.Sim

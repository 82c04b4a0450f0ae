/-
The serialized form the two walkers read: headers of one to three bytes, length prefixes of one to
three, leaves, objects and arrays, and how each walker reads a header or a prefix back.
-/
import Xahc.Data.Window
import Xahc.Sim.Sto

namespace Xahc.Sim

open Xahc.Data

section Readers

variable {d : Bytes} {p stop ty code n : Nat} {payload : Bytes}

/-! ## Bytes -/

theorem toNat_ofNat_byte (h : n < 256) : (UInt8.ofNat n).toNat = n := by
  simpa using Nat.mod_eq_of_lt h

theorem byte_high (b : UInt8) : (b >>> 4).toNat = b.toNat / 16 := by
  simp [Nat.shiftRight_eq_div_pow]

theorem byte_low (b : UInt8) : (b &&& 0xF).toNat = b.toNat % 16 := by
  simpa using Nat.and_two_pow_sub_one_eq_mod b.toNat 4

theorem and_sign_bit (h : n < 256) : n &&& 128 = n / 128 * 128 :=
  (by decide +kernel : ∀ i : Fin 256, i.val &&& 128 = i.val / 128 * 128) ⟨n, h⟩

theorem byte_sign (b : UInt8) : b &&& 0x80 = 0 ↔ b.toNat < 128 := by
  have value : (b &&& 0x80).toNat = b.toNat / 128 * 128 := by
    rw [UInt8.toNat_and]; exact and_sign_bit b.toNat_lt
  rw [← UInt8.toNat_inj, value]
  simp only [UInt8.toNat_zero]
  omega

theorem byte_top (b : UInt8) : b >>> 6 = 1 ↔ 64 ≤ b.toNat ∧ b.toNat < 128 := by
  have value : (b >>> 6).toNat = b.toNat / 64 := by simp [Nat.shiftRight_eq_div_pow]
  rw [← UInt8.toNat_inj, value]
  simp only [UInt8.toNat_one]
  omega

/-! ## Headers -/

/-- The shortest header of a type and a field number. -/
def header (ty code : Nat) : Bytes :=
  if ty < 16 then
    if code < 16 then [.ofNat (16 * ty + code)] else [.ofNat (16 * ty), .ofNat code]
  else if code < 16 then [.ofNat code, .ofNat ty]
  else [0, .ofNat ty, .ofNat code]

/-- A type or a field number a header can carry. -/
def InRange (k : Nat) : Prop := 1 ≤ k ∧ k ≤ 255

theorem header_ne_nil (ty code : Nat) : header ty code ≠ [] := by
  unfold header
  split <;> split <;> simp

/-- What the four shapes of a header put in their first byte and after it. -/
theorem header_shape (hty : InRange ty) (hcode : InRange code) :
    ∃ b tail, header ty code = b :: tail ∧
      ((b >>> 4).toNat = ty ∧ (b &&& 0xF).toNat = code ∧ tail = [] ∨
       (b >>> 4).toNat = ty ∧ (b &&& 0xF).toNat = 0 ∧ tail = [.ofNat code] ∨
       (b >>> 4).toNat = 0 ∧ (b &&& 0xF).toNat = code ∧ tail = [.ofNat ty] ∨
       (b >>> 4).toNat = 0 ∧ (b &&& 0xF).toNat = 0 ∧ tail = [.ofNat ty, .ofNat code]) := by
  obtain ⟨hty0, hty⟩ := hty
  obtain ⟨hcode0, hcode⟩ := hcode
  simp only [byte_high, byte_low]
  unfold header
  by_cases ht : ty < 16 <;> by_cases hc : code < 16
  · refine ⟨_, [], by rw [if_pos ht, if_pos hc], Or.inl ?_⟩
    rw [toNat_ofNat_byte (by omega)]
    exact ⟨by omega, by omega, rfl⟩
  · refine ⟨_, _, by rw [if_pos ht, if_neg hc], Or.inr (Or.inl ?_)⟩
    rw [toNat_ofNat_byte (by omega)]
    exact ⟨by omega, by omega, rfl⟩
  · refine ⟨_, _, by rw [if_neg ht, if_pos hc], Or.inr (Or.inr (Or.inl ?_))⟩
    rw [toNat_ofNat_byte (by omega)]
    exact ⟨by omega, by omega, rfl⟩
  · exact ⟨0, _, by rw [if_neg ht, if_neg hc], Or.inr (Or.inr (Or.inr ⟨rfl, rfl, rfl⟩))⟩

theorem lightHeader_at (hty : InRange ty) (hcode : InRange code) (h : At d p (header ty code))
    (hstop : p + (header ty code).length < stop) :
    lightHeader d p stop = some (ty, code, p + (header ty code).length) := by
  obtain ⟨b, tail, eq, shape⟩ := header_shape hty hcode
  have tyByte := toNat_ofNat_byte (Nat.lt_succ_of_le hty.2)
  have codeByte := toNat_ofNat_byte (Nat.lt_succ_of_le hcode.2)
  rw [eq] at h hstop ⊢
  simp only [InRange] at hty hcode
  rcases shape with ⟨hi, lo, rfl⟩ | ⟨hi, lo, rfl⟩ | ⟨hi, lo, rfl⟩ | ⟨hi, lo, rfl⟩ <;>
    simp only [List.length_cons, List.length_nil] at hstop ⊢ <;>
    simp only [lightHeader, h.head, hi, lo, bind, Option.bind, guard]
  · grind
  · have := h.tail.head
    grind
  · have := h.tail.head
    grind
  · have := h.tail.head
    have := h.tail.tail.head
    grind

theorem decodeHeader_at (hty : InRange ty) (hcode : InRange code) (h : At d p (header ty code)) :
    decodeHeader d p = .ok (ty, code, (header ty code).length) := by
  obtain ⟨b, tail, eq, shape⟩ := header_shape hty hcode
  have tyByte := toNat_ofNat_byte (Nat.lt_succ_of_le hty.2)
  have codeByte := toNat_ofNat_byte (Nat.lt_succ_of_le hcode.2)
  rw [eq] at h ⊢
  simp only [InRange] at hty hcode
  rcases shape with ⟨hi, lo, rfl⟩ | ⟨hi, lo, rfl⟩ | ⟨hi, lo, rfl⟩ | ⟨hi, lo, rfl⟩ <;>
    simp only [List.length_cons, List.length_nil] <;>
    simp only [decodeHeader, h.head, hi, lo, bind, Except.bind]
  · grind
  · have := h.tail.head
    grind
  · have := h.tail.head
    grind
  · have := h.tail.head
    have := h.tail.tail.head
    grind

/-! ## Length prefixes -/

/-- The longest payload a prefix of three bytes announces. -/
def MAX_VL : Nat := 929984

/-- The shortest prefix of a length. -/
def lengthPrefix (n : Nat) : Bytes :=
  if n ≤ 192 then [.ofNat n]
  else if n ≤ 12480 then [.ofNat (193 + (n - 193) / 256), .ofNat ((n - 193) % 256)]
  else [.ofNat (241 + (n - 12481) / 65536), .ofNat ((n - 12481) / 256 % 256), .ofNat ((n - 12481) % 256)]

/-- What the three shapes of a prefix put in their first byte and after it. -/
theorem lengthPrefix_shape (hn : n ≤ MAX_VL) :
    ∃ b tail, lengthPrefix n = b :: tail ∧
      (b.toNat ≤ 192 ∧ n = b.toNat ∧ tail = [] ∨
       193 ≤ b.toNat ∧ b.toNat ≤ 240 ∧ (∃ b1 : UInt8, tail = [b1] ∧ n = (b.toNat - 193) * 256 + b1.toNat + 193) ∨
       241 ≤ b.toNat ∧ b.toNat ≤ 254 ∧ ∃ b1 b2 : UInt8, tail = [b1, b2] ∧
        n = (b.toNat - 241) * 65536 + b1.toNat * 256 + b2.toNat + 12481) := by
  simp only [MAX_VL] at hn
  unfold lengthPrefix
  by_cases short : n ≤ 192
  · refine ⟨_, [], by rw [if_pos short], Or.inl ?_⟩
    rw [toNat_ofNat_byte (by omega)]
    exact ⟨short, rfl, rfl⟩
  by_cases medium : n ≤ 12480
  · refine ⟨_, _, by rw [if_neg short, if_pos medium], Or.inr (Or.inl ?_)⟩
    rw [toNat_ofNat_byte (by omega)]
    refine ⟨by omega, by omega, _, rfl, ?_⟩
    rw [toNat_ofNat_byte (by omega)]
    omega
  · refine ⟨_, _, by rw [if_neg short, if_neg medium], Or.inr (Or.inr ?_)⟩
    rw [toNat_ofNat_byte (by omega)]
    refine ⟨by omega, by omega, _, _, rfl, ?_⟩
    rw [toNat_ofNat_byte (by omega), toNat_ofNat_byte (by omega)]
    omega

/-- The light walker reads a prefix back, of a payload that is not empty or does not end the buffer. -/
theorem lightVl_at (hn : n ≤ MAX_VL) (h : At d p (lengthPrefix n))
    (hstop : p + (lengthPrefix n).length + n ≤ stop) (hempty : n = 0 → p + 1 < stop) :
    lightVl d p stop = some (n, p + (lengthPrefix n).length) := by
  obtain ⟨b, tail, eq, shape⟩ := lengthPrefix_shape hn
  rw [eq] at h hstop ⊢
  rcases shape with ⟨hb, same, rfl⟩ | ⟨lo, hi, b1, rfl, value⟩ | ⟨lo, hi, b1, b2, rfl, value⟩ <;>
    simp only [List.length_cons, List.length_nil] at hstop ⊢
  · simp only [lightVl, h.head, bind, Option.bind, guard]
    grind
  · simp only [lightVl, h.head, h.tail.head, bind, Option.bind, guard]
    grind
  · simp only [lightVl, h.head, h.tail.head, h.tail.tail.head, bind, Option.bind, guard]
    grind

theorem vlLen_at (hn : n ≤ MAX_VL) (h : At d p (lengthPrefix n)) :
    vlLen d p = .ok (n, (lengthPrefix n).length) := by
  obtain ⟨b, tail, eq, shape⟩ := lengthPrefix_shape hn
  rw [eq] at h ⊢
  rcases shape with ⟨hb, same, rfl⟩ | ⟨lo, hi, b1, rfl, value⟩ | ⟨lo, hi, b1, b2, rfl, value⟩ <;>
    simp only [List.length_cons, List.length_nil]
  · simp only [vlLen, h.head, bind, Except.bind]
    grind
  · simp only [vlLen, h.head, h.tail.head, bind, Except.bind]
    grind
  · simp only [vlLen, h.head, h.tail.head, h.tail.tail.head, bind, Except.bind]
    grind

/-! ## Leaves -/

/-- The leaf types whose payload a length prefix announces. -/
def Prefixed (ty : Nat) : Prop := ty = STI_VL ∨ ty = STI_ACCOUNT ∨ ty = STI_VECTOR256

instance (ty : Nat) : Decidable (Prefixed ty) := inferInstanceAs (Decidable (_ ∨ _ ∨ _))

/-- The payloads of the leaf types. -/
inductive LeafShape : Nat → Bytes → Prop
  | fixed {ty : Nat} {payload : Bytes} :
      ty ∈ [STI_UINT8, STI_UINT16, STI_UINT32, STI_UINT64, STI_UINT128, STI_UINT160, STI_UINT256] →
      fixedWidth ty = some payload.length → LeafShape ty payload
  | native {b : UInt8} {tail : Bytes} :
      b >>> 6 = 1 → tail.length = 7 → LeafShape STI_AMOUNT (b :: tail)
  | issued {b : UInt8} {tail : Bytes} :
      b &&& 0x80 ≠ 0 → tail.length = 47 → LeafShape STI_AMOUNT (b :: tail)
  | prefixed {ty : Nat} {payload : Bytes} :
      Prefixed ty → payload.length ≤ MAX_VL → LeafShape ty payload

/-- What stands between a leaf's header and its payload. -/
def leafPrefix (ty n : Nat) : Bytes := if Prefixed ty then lengthPrefix n else []

/-- A leaf type fits a header, opens no container and is walked by the light walker. -/
theorem LeafShape.type_spec (h : LeafShape ty payload) :
    InRange ty ∧ (ty ≠ STI_OBJECT ∧ ty ≠ STI_ARRAY) ∧ lightRefused {} ty = false := by
  cases h with
  | fixed hty _ =>
    simp only [List.mem_cons, List.not_mem_nil, or_false] at hty
    rcases hty with rfl | rfl | rfl | rfl | rfl | rfl | rfl <;> exact ⟨⟨by decide, by decide⟩, by decide, by decide⟩
  | native _ _ => exact ⟨⟨by decide, by decide⟩, by decide, by decide⟩
  | issued _ _ => exact ⟨⟨by decide, by decide⟩, by decide, by decide⟩
  | prefixed hty _ => rcases hty with rfl | rfl | rfl <;> exact ⟨⟨by decide, by decide⟩, by decide, by decide⟩

theorem LeafShape.inRange (h : LeafShape ty payload) : InRange ty := h.type_spec.1

theorem LeafShape.not_container (h : LeafShape ty payload) : ty ≠ STI_OBJECT ∧ ty ≠ STI_ARRAY := h.type_spec.2.1

theorem LeafShape.not_refused (h : LeafShape ty payload) : lightRefused {} ty = false := h.type_spec.2.2

theorem leafPrefix_nil (h : ¬ Prefixed ty) : leafPrefix ty n = [] := if_neg h

theorem leafPrefix_eq (h : Prefixed ty) : leafPrefix ty n = lengthPrefix n := if_pos h

/-- The fixed-width leaf types: the two walkers agree on the width, and no prefix stands before it. -/
theorem fixed_width {w : Nat}
    (hty : ty ∈ [STI_UINT8, STI_UINT16, STI_UINT32, STI_UINT64, STI_UINT128, STI_UINT160, STI_UINT256])
    (hw : fixedWidth ty = some w) :
    lightWidth ty = some w ∧ ¬ Prefixed ty ∧ ty ≠ STI_PATHSET := by
  simp only [List.mem_cons, List.not_mem_nil, or_false] at hty
  rcases hty with rfl | rfl | rfl | rfl | rfl | rfl | rfl <;> exact ⟨hw, by decide, by decide⟩

/-- The light walker measures a leaf, unless it is an empty one with a prefix that ends the buffer. -/
theorem lightLength_at (hshape : LeafShape ty payload)
    (h : At d p (leafPrefix ty payload.length ++ payload))
    (hstop : p + (leafPrefix ty payload.length ++ payload).length ≤ stop)
    (hempty : Prefixed ty → payload = [] → p + 1 < stop) :
    lightLength d ty p stop {} = some (some payload.length, p + (leafPrefix ty payload.length).length) := by
  cases hshape with
  | fixed hty hw =>
    obtain ⟨width, plain, noPaths⟩ := fixed_width hty hw
    simp only [Prefixed, not_or] at plain
    simp [lightLength, width, plain, noPaths, leafPrefix, Prefixed]
  | @native b tail hb htail =>
    rw [leafPrefix_nil (by decide)] at h ⊢
    simp [lightLength, lightWidth, At.head h, hb, htail]
  | @issued b tail hb htail =>
    rw [leafPrefix_nil (by decide)] at h ⊢
    -- an issued amount has the top bit set, so the two top bits are not 01
    have top : b >>> 6 ≠ 1 := fun e => hb ((byte_sign b).mpr ((byte_top b).mp e).2)
    simp [lightLength, lightWidth, At.head h, top, htail]
  | prefixed hty hn =>
    rw [leafPrefix_eq hty] at h hstop ⊢
    have vl : lightVl d p stop = some (payload.length, p + (lengthPrefix payload.length).length) := by
      apply lightVl_at hn h.left
      · simpa [Nat.add_assoc] using hstop
      · intro zero
        exact hempty hty (List.length_eq_zero_iff.mp zero)
    rcases hty with rfl | rfl | rfl <;> simp [lightLength, vl]

theorem leafLen_at (hshape : LeafShape ty payload) (h : At d p (leafPrefix ty payload.length ++ payload))
    (pos : Nat) :
    leafLen d ty p pos = .ok (leafPrefix ty payload.length ++ payload).length := by
  cases hshape with
  | fixed hty hw =>
    rw [leafPrefix_nil (fixed_width hty hw).2.1]
    simp [leafLen, hw]
  | @native b tail hb htail =>
    have sign := (byte_sign b).mpr ((byte_top b).mp hb).2
    rw [leafPrefix_nil (by decide)] at h ⊢
    simp [leafLen, fixedWidth, At.head h, sign, htail]
  | @issued b tail hb htail =>
    rw [leafPrefix_nil (by decide)] at h ⊢
    simp [leafLen, fixedWidth, At.head h, hb, htail]
  | prefixed hty hn =>
    rw [leafPrefix_eq hty] at h ⊢
    have vl := vlLen_at hn h.left
    rcases hty with rfl | rfl | rfl <;> simp [leafLen, fixedWidth, vl, bind, Except.bind]

end Readers

/-! ## Fields -/

/-- A field: a leaf with its payload, an object or an array with the fields inside it. -/
inductive StoField where
  | leaf (ty code : Nat) (payload : Bytes)
  | object (code : Nat) (fields : List StoField)
  | array (code : Nat) (elements : List StoField)

namespace StoField

/-- The type of a field. -/
def ty : StoField → Nat
  | leaf ty _ _ => ty
  | object _ _ => STI_OBJECT
  | array _ _ => STI_ARRAY

/-- The number of a field within its type. -/
def code : StoField → Nat
  | leaf _ code _ => code
  | object code _ => code
  | array code _ => code

/-- The field is an object. -/
def IsObject : StoField → Prop
  | object _ _ => True
  | _ => False

mutual

/-- The bytes of a field. -/
def encode : StoField → Bytes
  | leaf ty code payload => header ty code ++ (leafPrefix ty payload.length ++ payload)
  | object code fields => header STI_OBJECT code ++ (encodeAll fields ++ [0xE1])
  | array code elements => header STI_ARRAY code ++ (encodeAll elements ++ [0xF1])

/-- The bytes of a list of fields. -/
def encodeAll : List StoField → Bytes
  | [] => []
  | f :: fs => encode f ++ encodeAll fs

end

/-- What stands before the payload: the header, and a leaf's length prefix. -/
def lead : StoField → Bytes
  | leaf ty code payload => header ty code ++ leafPrefix ty payload.length
  | object code _ => header STI_OBJECT code
  | array code _ => header STI_ARRAY code

/-- The bytes between the lead and the end marker. -/
def payload : StoField → Bytes
  | leaf _ _ payload => payload
  | object _ fields => encodeAll fields
  | array _ elements => encodeAll elements

/-- What follows the payload: a container's end marker. -/
def closing : StoField → Bytes
  | leaf _ _ _ => []
  | object _ _ => [0xE1]
  | array _ _ => [0xF1]

theorem encode_header (f : StoField) : ∃ tail, f.encode = header f.ty f.code ++ tail := by
  cases f <;> exact ⟨_, by rw [encode]; rfl⟩

/-- The fields whose containers nest at most `n` deep, with at least one and at most 1024 fields in
each, and the two codes that would read as an end marker left out. -/
inductive Canonical : Nat → StoField → Prop
  | leaf {n ty code : Nat} {payload : Bytes} :
      InRange code → LeafShape ty payload → Canonical n (leaf ty code payload)
  | object {n code : Nat} {fields : List StoField} :
      InRange code → code ≠ 1 → fields ≠ [] → fields.length ≤ 1024 →
      (∀ f ∈ fields, Canonical n f) → Canonical (n + 1) (object code fields)
  | array {n code : Nat} {elements : List StoField} :
      InRange code → code ≠ 1 → elements ≠ [] → elements.length ≤ 1024 →
      (∀ f ∈ elements, f.IsObject) → (∀ f ∈ elements, Canonical n f) →
      Canonical (n + 1) (array code elements)

variable {n : Nat} {f : StoField}

theorem Canonical.inRange (h : Canonical n f) : InRange f.ty ∧ InRange f.code := by
  cases h with
  | leaf hcode hshape => exact ⟨hshape.inRange, hcode⟩
  | object hcode => exact ⟨⟨Nat.le_of_ble_eq_true rfl, Nat.le_of_ble_eq_true rfl⟩, hcode⟩
  | array hcode => exact ⟨⟨Nat.le_of_ble_eq_true rfl, Nat.le_of_ble_eq_true rfl⟩, hcode⟩

/-- No field opens with a byte that closes a container. -/
theorem Canonical.head_ne_marker (h : Canonical n f) {b : UInt8} (hb : f.encode.head? = some b) :
    b ≠ 0xE1 ∧ b ≠ 0xF1 := by
  obtain ⟨hty, hcode⟩ := h.inRange
  obtain ⟨tail, eq⟩ := f.encode_header
  obtain ⟨b', tail', shape, bits⟩ := header_shape hty hcode
  have : b' = b := by simpa [eq, shape] using hb
  subst this
  have markers : f.ty = 14 ∨ f.ty = 15 → f.code ≠ 1 := by
    cases h with
    | leaf _ hshape => exact fun e => absurd e (not_or.mpr hshape.not_container)
    | object _ h1 => exact fun _ => h1
    | array _ h1 => exact fun _ => h1
  simp only [InRange] at hty hcode
  -- both markers are one-byte headers: type 14 or 15 with field 1
  constructor <;> rintro rfl <;>
    rcases bits with ⟨hi, lo, -⟩ | ⟨hi, lo, -⟩ | ⟨hi, lo, -⟩ | ⟨hi, lo, -⟩ <;>
    simp at hi lo <;> omega

theorem encode_ne_nil (f : StoField) : f.encode ≠ [] := by
  obtain ⟨tail, eq⟩ := f.encode_header
  simp [eq, header_ne_nil]

end StoField

end Xahc.Sim

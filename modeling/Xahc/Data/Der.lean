/-
Numbers in DER: the shortest bytes of a number, the INTEGER of a natural number, and a SEQUENCE. The contents of
a positive INTEGER are recognised by their first two bytes.
-/
import Xahc.Data.Bytes

namespace Xahc.Data

/-! ## The shortest bytes of a number -/

/-- The bytes of a number, most significant first, without leading zeros. -/
def minBytes (n : Nat) : Bytes := ((Nat.digits 256 n).map UInt8.ofNat).reverse

theorem beNat_minBytes (n : Nat) : beNat (minBytes n) = n := by
  have hdigits : (Nat.digits 256 n).map (UInt8.toNat ∘ UInt8.ofNat) = Nat.digits 256 n := by
    conv_rhs => rw [← List.map_id (Nat.digits 256 n)]
    refine List.map_congr_left fun d hd => ?_
    exact UInt8.toNat_ofNat_of_lt (Nat.digits_lt_base (by decide) hd)
  rw [beNat, minBytes, List.reverse_reverse, List.map_map, hdigits, Nat.ofDigits_digits]

/-- Bytes that do not start with a zero are the shortest ones of their number. -/
theorem minBytes_beNat {b : Bytes} (h : b.head? ≠ some 0) : minBytes (beNat b) = b := by
  have hdigits : Nat.digits 256 (beNat b) = b.reverse.map UInt8.toNat := by
    refine Nat.digits_ofDigits 256 (by decide) _ ?_ ?_
    · intro d hd
      obtain ⟨x, -, rfl⟩ := List.mem_map.1 hd
      exact x.toNat_lt
    · intro hne
      rw [List.getLast_map, List.getLast_reverse]
      intro hzero
      have hb : b ≠ [] := by simpa using hne
      exact h (by rw [List.head?_eq_some_head hb, UInt8.toNat_inj.1 (hzero.trans UInt8.toNat_zero.symm)])
  have hbytes : UInt8.ofNat ∘ UInt8.toNat = id := funext fun x => UInt8.ofNat_toNat
  rw [minBytes, hdigits, List.map_map, hbytes, List.map_id, List.reverse_reverse]

theorem minBytes_head (n : Nat) : (minBytes n).head? ≠ some 0 := by
  intro h
  obtain ⟨b, hb⟩ : ∃ b, minBytes n = 0 :: b := by
    cases hn : minBytes n with
    | nil => rw [hn] at h; cases h
    | cons x b =>
      rw [hn] at h
      cases h
      exact ⟨b, rfl⟩
  have hdigits : (Nat.digits 256 n).map UInt8.ofNat = b.reverse ++ [0] := by
    rw [← List.reverse_reverse ((Nat.digits 256 n).map _), ← List.reverse_cons, ← hb, minBytes]
  have hne : Nat.digits 256 n ≠ [] := by
    intro hnil
    rw [hnil] at hdigits
    simp at hdigits
  have hlast : (Nat.digits 256 n).getLast hne % 256 = 0 := by
    have hmap := congrArg List.getLast? hdigits
    rw [List.getLast?_map, List.getLast?_eq_some_getLast hne, List.getLast?_concat] at hmap
    have hbyte : UInt8.ofNat ((Nat.digits 256 n).getLast hne) = 0 := Option.some.inj hmap
    simpa using congrArg UInt8.toNat hbyte
  have hlt := Nat.digits_lt_base (b := 256) (m := n) (by decide) (List.getLast_mem hne)
  have hzero : n ≠ 0 := by
    rintro rfl
    exact hne (Nat.digits_zero 256)
  exact Nat.getLast_digit_ne_zero 256 hzero (by omega)

theorem minBytes_length_le {n w : Nat} (h : n < 256 ^ w) : (minBytes n).length ≤ w := by
  rw [minBytes, List.length_reverse, List.length_map]
  exact (Nat.digits_length_le_iff (by decide) n).2 h

/-! ## INTEGER and SEQUENCE -/

namespace Der

/-- The contents of the INTEGER of a natural number: a zero byte keeps the sign bit clear. -/
def contents (n : Nat) : Bytes :=
  let b := minBytes n
  if b.head?.any (· < 0x80) then b else 0 :: b

/-- The length octets: one below 128, else their count and the big-endian bytes. -/
def length (n : Nat) : Bytes := if n < 128 then [.ofNat n] else .ofNat (128 + (minBytes n).length) :: minBytes n

/-- A tag, the length of the contents and the contents. -/
def tlv (tag : UInt8) (contents : Bytes) : Bytes := tag :: length contents.length ++ contents

/-- An INTEGER. -/
def integer (n : Nat) : Bytes := tlv 0x02 (contents n)

/-- A SEQUENCE. -/
def sequence (items : List Bytes) : Bytes := tlv 0x30 items.flatten

/-- The contents of a positive INTEGER: neither negative, nor zero, nor with a zero byte it could do without. -/
def Positive (num : Bytes) : Prop := ∃ x b, num = x :: b ∧ x < 0x80 ∧ (x = 0 → b.head?.any (0x80 ≤ ·) = true)

theorem contents_beNat {num : Bytes} (h : Positive num) : contents (beNat num) = num := by
  obtain ⟨x, b, rfl, hx, hzero⟩ := h
  by_cases hx0 : x = 0
  · subst hx0
    have hb := hzero rfl
    have hmin : minBytes (beNat (0 :: b)) = b := by
      rw [beNat_cons, UInt8.toNat_zero, Nat.zero_mul, Nat.zero_add]
      refine minBytes_beNat fun h0 => ?_
      rw [h0] at hb
      revert hb
      decide
    rw [contents, hmin]
    refine if_neg fun hlow => ?_
    cases b with
    | nil => cases hlow
    | cons y b =>
      rw [List.head?_cons, Option.any_some, decide_eq_true_eq] at hb hlow
      exact absurd hlow (UInt8.not_lt.2 hb)
  · have hmin : minBytes (beNat (x :: b)) = x :: b :=
      minBytes_beNat fun h => hx0 (Option.some.inj h)
    rw [contents, hmin]
    exact if_pos (by simpa using hx)

theorem positive_contents {n : Nat} (h : 0 < n) : Positive (contents n) ∧ beNat (contents n) = n := by
  have hval := beNat_minBytes n
  have hhead := minBytes_head n
  unfold contents
  dsimp only
  cases hb : minBytes n with
  | nil =>
    rw [hb, beNat_nil] at hval
    omega
  | cons x b =>
    rw [hb] at hval hhead
    split_ifs with hlow
    · rw [List.head?_cons, Option.any_some, decide_eq_true_eq] at hlow
      exact ⟨⟨x, b, rfl, hlow, fun hx => absurd (hx ▸ rfl) hhead⟩, hval⟩
    · rw [List.head?_cons, Option.any_some, decide_eq_true_eq] at hlow
      refine ⟨⟨0, x :: b, rfl, by decide, fun _ => ?_⟩, ?_⟩
      · rw [List.head?_cons, Option.any_some, decide_eq_true_eq]
        exact UInt8.not_lt.1 hlow
      · rw [beNat_cons, UInt8.toNat_zero, Nat.zero_mul, Nat.zero_add, hval]

theorem beNat_pos {num : Bytes} (h : Positive num) : 0 < beNat num := by
  obtain ⟨x, b, rfl, -, hzero⟩ := h
  rw [beNat_cons]
  by_cases hx0 : x = 0
  · subst hx0
    cases b with
    | nil => exact absurd (hzero rfl) (by decide)
    | cons y b =>
      have hy := hzero rfl
      rw [List.head?_cons, Option.any_some, decide_eq_true_eq, UInt8.le_iff_toNat_le] at hy
      have hy' : 0x80 ≤ y.toNat := hy
      have hpos : 0 < y.toNat * 256 ^ b.length := Nat.mul_pos (by omega) (by positivity)
      rw [beNat_cons]
      omega
  · have hx : 0 < x.toNat := Nat.pos_of_ne_zero fun h => hx0 (UInt8.toNat_inj.1 (h.trans UInt8.toNat_zero.symm))
    have hpos : 0 < x.toNat * 256 ^ b.length := Nat.mul_pos hx (by positivity)
    omega

theorem contents_length_le {n w : Nat} (h : n < 256 ^ w) : (contents n).length ≤ w + 1 := by
  have hle := minBytes_length_le h
  unfold contents
  dsimp only
  split_ifs
  · omega
  · rw [List.length_cons]
    omega

theorem sequence_pair (m n : Nat) :
    sequence [integer m, integer n] = tlv 0x30 (tlv 0x02 (contents m) ++ tlv 0x02 (contents n)) := by
  rw [sequence, List.flatten_cons, List.flatten_cons, List.flatten_nil, List.append_nil, integer, integer]

theorem tlv_short {tag : UInt8} {contents : Bytes} (h : contents.length < 128) :
    tlv tag contents = tag :: .ofNat contents.length :: contents := by
  rw [tlv, length, if_pos h]
  rfl

end Der

end Xahc.Data

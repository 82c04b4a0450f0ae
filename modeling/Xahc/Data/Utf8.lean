/-
Parts of a text by the offsets of its UTF-8 bytes: an offset must not lie inside a character.
-/
import Xahc.Data.Checked
import Xahc.Data.Utf16

namespace Xahc.Data

/-- A byte that goes on with a character. -/
def isContinuation (x : UInt8) : Bool := 0x80 ≤ x && x < 0xC0

/-- `str::is_char_boundary`. -/
def isCharBoundary (b : Bytes) (i : Nat) : Bool := i == 0 || i == b.length || b[i]?.any (!isContinuation ·)

/-- The part `s[start..stop]` of a text, given by its bytes. -/
def strSlice (b : Bytes) (start stop : Nat) : Checked Bytes :=
  if start ≤ stop ∧ isCharBoundary b start ∧ isCharBoundary b stop then
    .ok ((b.drop start).take (stop - start))
  else .error .charBoundary

/-! ## Characters and their bytes -/

theorem utf8_cons (c : Char) (s : List Char) : utf8 (c :: s) = String.utf8EncodeChar c ++ utf8 s :=
  List.flatMap_cons ..

theorem utf8_append (s t : List Char) : utf8 (s ++ t) = utf8 s ++ utf8 t := List.flatMap_append ..

theorem utf8_ascii {c : Char} (h : c.utf8Size = 1) (s : List Char) : utf8 (c :: s) = c.val.toUInt8 :: utf8 s := by
  rw [utf8_cons, String.utf8EncodeChar_eq_singleton h]
  rfl

/-- A character is a byte that begins one and bytes that go on with it; only the first byte of several is a high one. -/
theorem utf8EncodeChar_shape (c : Char) : ∃ lead tail, String.utf8EncodeChar c = lead :: tail ∧
    isContinuation lead = false ∧ (tail ≠ [] → 0xC0 ≤ lead.toNat) ∧ ∀ x ∈ tail, isContinuation x = true := by
  have cont (n : Nat) : isContinuation (.ofNat (n % 64 + 128)) = true := by
    have hlt : n % 64 < 64 := Nat.mod_lt _ (by decide)
    generalize n % 64 = m at hlt
    interval_cases m <;> rfl
  have low {x : UInt8} (h : x.toNat < 0x80 ∨ 0xC0 ≤ x.toNat) : isContinuation x = false := by
    rw [isContinuation, Bool.and_eq_false_iff, decide_eq_false_iff_not, decide_eq_false_iff_not,
      UInt8.le_iff_toNat_le, UInt8.lt_iff_toNat_lt]
    exact h.imp Nat.not_le_of_lt Nat.not_lt_of_le
  have lead (n w base : Nat) (h : 0 < w ∧ w + base ≤ 256 ∧ 0xC0 ≤ base) : 0xC0 ≤ (UInt8.ofNat (n % w + base)).toNat := by
    have hlt : n % w < w := Nat.mod_lt _ h.1
    rw [UInt8.toNat_ofNat']
    omega
  unfold String.utf8EncodeChar
  dsimp only
  -- by the length of the encoding: the lead byte of more than one is at least 0xC0
  by_cases h1 : c.val.toNat ≤ 0x7f
  · rw [if_pos h1]
    refine ⟨_, [], rfl, low (Or.inl ?_), fun h => absurd rfl h, nofun⟩
    rw [UInt8.toNat_ofNat']
    omega
  rw [if_neg h1]
  by_cases h2 : c.val.toNat ≤ 0x7ff
  · rw [if_pos h2]
    have hlead := lead (c.val.toNat / 64) 0x20 0xc0 (by decide)
    refine ⟨_, _, rfl, low (Or.inr hlead), fun _ => hlead, ?_⟩
    simp only [List.mem_singleton, forall_eq]
    exact cont _
  rw [if_neg h2]
  by_cases h3 : c.val.toNat ≤ 0xffff
  · rw [if_pos h3]
    have hlead := lead (c.val.toNat / 4096) 0x10 0xe0 (by decide)
    refine ⟨_, _, rfl, low (Or.inr hlead), fun _ => hlead, ?_⟩
    simp only [List.mem_cons, List.not_mem_nil, or_false, forall_eq_or_imp, forall_eq]
    exact ⟨cont _, cont _⟩
  rw [if_neg h3]
  have hlead := lead (c.val.toNat / 262144) 0x08 0xf0 (by decide)
  refine ⟨_, _, rfl, low (Or.inr hlead), fun _ => hlead, ?_⟩
  simp only [List.mem_cons, List.not_mem_nil, or_false, forall_eq_or_imp, forall_eq]
  exact ⟨cont _, cont _, cont _⟩

/-! ## Boundaries -/

/-- The offset of a character is a boundary. -/
theorem boundary_before (s t : List Char) : isCharBoundary (utf8 (s ++ t)) (utf8 s).length = true := by
  rw [utf8_append]
  unfold isCharBoundary
  cases t with
  | nil => simp [utf8]
  | cons c t =>
    obtain ⟨lead, tail, heq, hlead, -, -⟩ := utf8EncodeChar_shape c
    have hget : (utf8 s ++ utf8 (c :: t))[(utf8 s).length]? = some lead := by
      rw [utf8_cons, heq, List.getElem?_append_right le_rfl, Nat.sub_self]
      rfl
    rw [hget, Option.any_some, hlead]
    exact Bool.or_true _

/-- An offset inside a character is none. -/
theorem not_boundary_inside (s t : List Char) {c : Char} {k : Nat} (hk : 0 < k) (hsize : k < c.utf8Size) :
    isCharBoundary (utf8 (s ++ c :: t)) ((utf8 s).length + k) = false := by
  obtain ⟨lead, tail, heq, -, -, htail⟩ := utf8EncodeChar_shape c
  have hlen : (lead :: tail).length = c.utf8Size := by rw [← heq, String.length_utf8EncodeChar]
  obtain ⟨i, rfl⟩ : ∃ i, k = i + 1 := ⟨k - 1, by omega⟩
  rw [List.length_cons] at hlen
  have hi : i < tail.length := by omega
  have hget : (utf8 (s ++ c :: t))[(utf8 s).length + (i + 1)]? = some tail[i] := by
    rw [utf8_append, utf8_cons, heq, List.getElem?_append_right (by omega), Nat.add_sub_cancel_left,
      List.cons_append, List.getElem?_cons_succ, List.getElem?_append_left hi, List.getElem?_eq_getElem hi]
  have hall : (utf8 s).length + (i + 1) < (utf8 (s ++ c :: t)).length := (List.getElem?_eq_some_iff.1 hget).1
  unfold isCharBoundary
  rw [hget, Option.any_some, htail _ (List.getElem_mem hi), Bool.or_eq_false_iff, Bool.or_eq_false_iff]
  refine ⟨⟨?_, ?_⟩, rfl⟩
  · exact beq_eq_false_iff_ne.2 (by omega)
  · exact beq_eq_false_iff_ne.2 (by omega)

/-- The characters between two boundaries. -/
theorem strSlice_chars (s t u : List Char) :
    strSlice (utf8 (s ++ t ++ u)) (utf8 s).length ((utf8 s).length + (utf8 t).length) = .ok (utf8 t) := by
  have hstart : isCharBoundary (utf8 (s ++ t ++ u)) (utf8 s).length = true := by
    rw [List.append_assoc]
    exact boundary_before s (t ++ u)
  have hstop : isCharBoundary (utf8 (s ++ t ++ u)) ((utf8 s).length + (utf8 t).length) = true := by
    rw [← List.length_append, ← utf8_append]
    exact boundary_before (s ++ t) u
  rw [strSlice, if_pos ⟨Nat.le_add_right _ _, hstart, hstop⟩, Nat.add_sub_cancel_left, utf8_append, utf8_append,
    List.append_assoc, List.drop_left, List.take_left]

/-- A part that would end inside a character. -/
theorem strSlice_split (s t u : List Char) {c : Char} {k : Nat} (hk : 0 < k) (hsize : k < c.utf8Size) :
    strSlice (utf8 (s ++ t ++ c :: u)) (utf8 s).length ((utf8 s).length + (utf8 t).length + k) = .error .charBoundary := by
  have hstop := not_boundary_inside (s ++ t) u hk hsize
  rw [show (utf8 (s ++ t)).length = (utf8 s).length + (utf8 t).length by rw [utf8_append, List.length_append]] at hstop
  refine if_neg fun h => ?_
  rw [hstop] at h
  exact Bool.false_ne_true h.2.2

end Xahc.Data

/-
Which secp256k1 signatures the simulator takes for canonical: the DER of two numbers below the group order, and
nothing else.
-/
import Xahc.Data.Checked
import Xahc.Data.Der
import Xahc.Sim.StoFormat

namespace Xahc.Sim

open Xahc.Data Xahc.Data.Checked

/-! ## The parser -/

/-- The order of the secp256k1 group. -/
def SECP256K1_N : Bytes :=
  [0xFF, 0xFF, 0xFF, 0xFF, 0xFF, 0xFF, 0xFF, 0xFF, 0xFF, 0xFF, 0xFF, 0xFF, 0xFF, 0xFF, 0xFF, 0xFE,
   0xBA, 0xAE, 0xDC, 0xE6, 0xAF, 0x48, 0xA0, 0x3B, 0xBF, 0xD2, 0x5E, 0x8C, 0xD0, 0x36, 0x41, 0x41]

/-- One INTEGER of the signature, if there is one, and the buffer after it. -/
def sigPart (buf : Bytes) : Checked (Option Bytes × Bytes) := do
  if buf.length < 3 then return (none, buf)
  if (← index buf 0) ≠ 0x02 then return (none, buf)
  let len := (← index buf 1).toNat
  -- the buffer has moved on when the length is refused
  let buf ← sliceFrom buf 2
  if len > buf.length ∨ ¬(1 ≤ len ∧ len ≤ 33) then return (none, buf)
  let num ← slice buf 0 len
  if (← index num 0) &&& 0x80 ≠ 0 then return (none, buf)
  if (← index num 0) = 0 then
    if len = 1 then return (none, buf)
    if (← index num 1) &&& 0x80 = 0 then return (none, buf)
  return (some num, ← sliceFrom buf len)

/-- A number in big-endian bytes is at least a number of 32 bytes. -/
def geBe (x n : Bytes) : Checked Bool := do
  let first := x.findIdx (· != 0)
  let x ← sliceFrom x first
  if x.length ≠ 32 then return x.length > 32
  return !decide (x < n)

/-- `ecdsa_canonical`: the form of the signature, and both of its numbers within their bounds. -/
def ecdsaCanonical (sig : Bytes) : Checked Bool := do
  if sig.length < 8 ∨ sig.length > 72 then return false
  if (← index sig 0) ≠ 0x30 then return false
  if (← index sig 1).toNat ≠ (← sub sig.length 2) then return false
  let p ← sliceFrom sig 2
  -- both parts are read, also when the first one fails
  let (r, p) ← sigPart p
  let (s, p) ← sigPart p
  match r, s with
  | some r, some s =>
    if !p.isEmpty then return false
    if ← geBe r SECP256K1_N then return false
    return !(← geBe s SECP256K1_N)
  | _, _ => return false

/-! ## One number -/

/-- The buffer starts with a positive INTEGER of at most 33 bytes. -/
structure StartsWith (num rest buf : Bytes) : Prop where
  positive : Der.Positive num
  length_le : num.length ≤ 33
  eq : buf = Der.tlv 0x02 num ++ rest

theorem StartsWith.cons {num rest buf : Bytes} (h : StartsWith num rest buf) :
    buf = 0x02 :: .ofNat num.length :: (num ++ rest) := by
  have hle := h.length_le
  rw [h.eq, Der.tlv_short (by omega)]
  rfl

theorem StartsWith.size {num rest buf : Bytes} (h : StartsWith num rest buf) :
    (UInt8.ofNat num.length).toNat = num.length :=
  UInt8.toNat_ofNat_of_lt' (lt_of_le_of_lt h.length_le (by decide))

/-- The first byte of a number, and of a number that starts with a zero the second one, are as they have to be. -/
theorem positive_cons {x : UInt8} {b : Bytes} :
    Der.Positive (x :: b) ↔ x &&& 0x80 = 0 ∧ (x = 0 → ∃ y b', b = y :: b' ∧ y &&& 0x80 ≠ 0) := by
  have hsign (z : UInt8) : z &&& 0x80 = 0 ↔ z < 0x80 := byte_sign z
  unfold Der.Positive
  constructor
  · rintro ⟨x', b', heq, hx, hzero⟩
    obtain ⟨rfl, rfl⟩ := List.cons.inj heq
    refine ⟨(hsign _).2 hx, fun h0 => ?_⟩
    cases hb : b with
    | nil =>
      rw [hb] at hzero
      cases hzero h0
    | cons y b' =>
      rw [hb] at hzero
      have hy := hzero h0
      rw [List.head?_cons, Option.any_some, decide_eq_true_eq] at hy
      exact ⟨y, b', rfl, fun h => UInt8.not_lt.2 hy ((hsign y).1 h)⟩
  · rintro ⟨hx, hzero⟩
    refine ⟨x, b, rfl, (hsign _).1 hx, fun h0 => ?_⟩
    obtain ⟨y, b', rfl, hy⟩ := hzero h0
    rw [List.head?_cons, Option.any_some, decide_eq_true_eq]
    exact UInt8.not_lt.1 fun h => hy ((hsign y).2 h)

/-- What an INTEGER at the start of a buffer says about the buffer's first bytes. -/
theorem StartsWith.header {num rest b : Bytes} {t l : UInt8} (h : StartsWith num rest (t :: l :: b)) :
    t = 0x02 ∧ l.toNat = num.length ∧ b = num ++ rest := by
  have hsize := h.size
  obtain ⟨htag, heq⟩ := List.cons.inj h.cons
  obtain ⟨rfl, rfl⟩ := List.cons.inj heq
  exact ⟨htag, hsize, rfl⟩

theorem StartsWith.num_length {num rest buf : Bytes} (h : StartsWith num rest buf) : 1 ≤ num.length ∧ num.length ≤ 33 := by
  obtain ⟨x, b, rfl, -⟩ := h.positive
  exact ⟨Nat.le_add_left _ _, h.length_le⟩

theorem StartsWith.buf_length {num rest buf : Bytes} (h : StartsWith num rest buf) : 3 ≤ buf.length := by
  have hnum := h.num_length
  rw [h.cons, List.length_cons, List.length_cons, List.length_append]
  omega

/-- A length in range, and contents of that length that are positive, make an INTEGER. -/
theorem starts_of_positive {l : UInt8} {b : Bytes} (hlen : l.toNat ≤ b.length) (hmax : l.toNat ≤ 33)
    (h : Der.Positive (b.take l.toNat)) : StartsWith (b.take l.toNat) (b.drop l.toNat) (0x02 :: l :: b) := by
  have hsize : (b.take l.toNat).length = l.toNat := List.length_take_of_le hlen
  refine ⟨h, by omega, ?_⟩
  rw [Der.tlv_short (by omega), hsize, UInt8.ofNat_toNat, List.cons_append, List.cons_append, List.take_append_drop]

theorem StartsWith.unique {num num' rest rest' buf : Bytes} (h : StartsWith num rest buf) (h' : StartsWith num' rest' buf) :
    num' = num ∧ rest' = rest := by
  obtain ⟨-, heq⟩ := List.cons.inj (h.cons.symm.trans h'.cons)
  obtain ⟨hlen, heq⟩ := List.cons.inj heq
  have hsize := congrArg UInt8.toNat hlen
  rw [h.size, h'.size] at hsize
  exact (List.append_inj heq.symm hsize.symm).imp_right id

/-- What the parser makes of a buffer: the INTEGER it starts with, if it does. -/
def Parsed (buf : Bytes) (r : Option Bytes × Bytes) : Prop :=
  (∀ num, r.1 = some num → StartsWith num r.2 buf) ∧ ∀ num rest, StartsWith num rest buf → r = (some num, rest)

theorem parsed_none {buf p : Bytes} (h : ∀ num rest, ¬StartsWith num rest buf) : Parsed buf (none, p) :=
  ⟨fun _ hnum => (nomatch hnum), fun num rest hs => absurd hs (h num rest)⟩

theorem StartsWith.parsed {num rest buf : Bytes} (h : StartsWith num rest buf) : Parsed buf (some num, rest) := by
  constructor
  · rintro num' ⟨⟩
    exact h
  · intro num' rest' h'
    obtain ⟨rfl, rfl⟩ := h.unique h'
    rfl

/-- The checks of the first two bytes of a number tell whether it is a positive one. -/
theorem positive_checks {β : Type} {num : Bytes} {len : Nat} (hlen : num.length = len) (hpos : 1 ≤ len) {no yes : Checked β}
    {q : β → Prop} (hno : ¬Der.Positive num → Gives no q) (hyes : Der.Positive num → Gives yes q) :
    Gives (do
      if (← index num 0) &&& 0x80 ≠ 0 then no
      else if (← index num 0) = 0 then
        if len = 1 then no
        else if (← index num 1) &&& 0x80 = 0 then no
        else yes
      else yes) q := by
  obtain ⟨x, num, rfl⟩ := List.exists_cons_of_length_pos (hlen ▸ hpos)
  rw [List.length_cons] at hlen
  rw [index_ok (x := x) rfl, ok_bind]
  -- not negative, and no zero in front unless the next byte needs it
  by_cases hsign : x &&& 0x80 ≠ 0
  · rw [if_pos hsign]
    exact hno fun h => hsign (positive_cons.1 h).1
  rw [if_neg hsign, ok_bind]
  by_cases hzero : x = 0
  · rw [if_pos hzero]
    by_cases hone : len = 1
    · rw [if_pos hone]
      refine hno fun h => ?_
      obtain ⟨y, num', rfl, -⟩ := (positive_cons.1 h).2 hzero
      rw [List.length_cons] at hlen
      omega
    · rw [if_neg hone]
      obtain ⟨y, num', rfl⟩ : ∃ y num', num = y :: num' := List.exists_cons_of_length_pos (by omega)
      rw [index_ok (x := y) rfl, ok_bind]
      by_cases hpadded : y &&& 0x80 = 0
      · rw [if_pos hpadded]
        refine hno fun h => ?_
        obtain ⟨y', num'', heq, hy⟩ := (positive_cons.1 h).2 hzero
        exact hy ((List.cons.inj heq).1 ▸ hpadded)
      · rw [if_neg hpadded]
        exact hyes (positive_cons.2 ⟨not_not.1 hsign, fun _ => ⟨y, num', rfl, hpadded⟩⟩)
  · rw [if_neg hzero]
    exact hyes (positive_cons.2 ⟨not_not.1 hsign, fun h => absurd h hzero⟩)

/-- The parser reads the INTEGER a buffer starts with, and indexes nothing that is not there. -/
theorem sigPart_spec (buf : Bytes) : Gives (sigPart buf) (Parsed buf) := by
  unfold sigPart
  by_cases hshort : buf.length < 3
  · rw [if_pos hshort]
    exact gives_ok (parsed_none fun num rest h => absurd h.buf_length (not_le.2 hshort))
  rw [if_neg hshort]
  obtain ⟨t, buf, rfl⟩ := List.exists_cons_of_length_pos (l := buf) (by omega)
  rw [List.length_cons] at hshort
  obtain ⟨l, b, rfl⟩ := List.exists_cons_of_length_pos (l := buf) (by omega)
  rw [index_ok (x := t) rfl, ok_bind]
  by_cases htag : t ≠ 0x02
  · rw [if_pos htag]
    exact gives_ok (parsed_none fun num rest h => htag h.header.1)
  obtain rfl : t = 0x02 := not_not.1 htag
  rw [if_neg htag, index_ok (x := l) rfl, ok_bind, sliceFrom_ok (by simp), ok_bind, List.drop_succ_cons, List.drop_succ_cons,
    List.drop_zero]
  by_cases hlen : l.toNat > b.length ∨ ¬(1 ≤ l.toNat ∧ l.toNat ≤ 33)
  · rw [if_pos hlen]
    refine gives_ok (parsed_none fun num rest h => ?_)
    obtain ⟨-, hl, rfl⟩ := h.header
    have hnum := h.num_length
    rw [List.length_append] at hlen
    omega
  rw [if_neg hlen, slice_ok (Nat.zero_le _) (by omega), ok_bind, List.drop_zero, Nat.sub_zero]
  refine positive_checks (List.length_take_of_le (by omega)) (by omega) (fun hnum => ?_) fun hnum => ?_
  · refine gives_ok (parsed_none fun num rest h => hnum ?_)
    -- whatever INTEGER the buffer starts with, these are its contents
    obtain ⟨-, hl, rfl⟩ := h.header
    rw [hl, List.take_left]
    exact h.positive
  · rw [sliceFrom_ok (by omega), ok_bind]
    exact gives_ok (starts_of_positive (by omega) (by omega) hnum).parsed

/-! ## The group order -/

/-- The order of the curve. -/
def secp256k1Order : Nat := 0xFFFFFFFFFFFFFFFFFFFFFFFFFFFFFFFEBAAEDCE6AF48A03BBFD25E8CD0364141

theorem beNat_order : beNat SECP256K1_N = secp256k1Order := by decide +kernel

/-- Leading zeros skipped. -/
theorem skip_zeros (x : Bytes) :
    beNat (x.drop (x.findIdx (· != 0))) = beNat x ∧ (x.drop (x.findIdx (· != 0))).head? ≠ some 0 := by
  induction x with
  | nil => exact ⟨rfl, nofun⟩
  | cons y x ih =>
    rw [List.findIdx_cons]
    by_cases hy : y = 0
    · subst hy
      rw [beNat_cons, UInt8.toNat_zero, Nat.zero_mul, Nat.zero_add]
      exact ih
    · rw [show (y != 0) = true from bne_iff_ne.2 hy]
      exact ⟨rfl, fun h => hy (Option.some.inj h)⟩

theorem pow_le_beNat {b : Bytes} (hne : b ≠ []) (h : b.head? ≠ some 0) : 256 ^ (b.length - 1) ≤ beNat b := by
  cases b with
  | nil => exact absurd rfl hne
  | cons x b =>
    have hx : 1 ≤ x.toNat := by
      refine Nat.pos_of_ne_zero fun h0 => h ?_
      rw [List.head?_cons, UInt8.toNat_inj.1 (h0.trans UInt8.toNat_zero.symm)]
    rw [beNat_cons, List.length_cons, Nat.add_sub_cancel]
    exact (Nat.le_mul_of_pos_left _ hx).trans (Nat.le_add_right _ _)

theorem geBe_spec (x : Bytes) : Gives (geBe x SECP256K1_N) fun r => r = true ↔ secp256k1Order ≤ beNat x := by
  obtain ⟨hval, hhead⟩ := skip_zeros x
  have hlen : SECP256K1_N.length = 32 := rfl
  have hlow : 256 ^ 31 ≤ secp256k1Order := by decide +kernel
  have hhigh : secp256k1Order < 256 ^ 32 := by decide +kernel
  unfold geBe
  dsimp only
  rw [sliceFrom_ok (List.findIdx_le_length), ok_bind, ← hval]
  generalize x.drop (x.findIdx (· != 0)) = y at hhead ⊢
  by_cases hy : y.length ≠ 32
  · rw [if_pos hy]
    refine gives_ok ?_
    rw [decide_eq_true_iff]
    rcases Nat.lt_or_gt_of_ne hy with hlt | hgt
    · have hle : 256 ^ y.length ≤ 256 ^ 31 := Nat.pow_le_pow_right (by decide) (by omega)
      have hbound := beNat_lt y
      omega
    · have hle : 256 ^ 32 ≤ 256 ^ (y.length - 1) := Nat.pow_le_pow_right (by decide) (by omega)
      have hbound := pow_le_beNat (List.ne_nil_of_length_pos (by omega)) hhead
      omega
  · rw [if_neg hy]
    refine gives_ok ?_
    rw [Bool.not_eq_true', decide_eq_false_iff_not, lt_iff_beNat_lt (by omega), beNat_order, not_lt]

/-! ## The signature -/

/-- The signature of two numbers below the group order, by their contents. -/
structure IsSignature (sig r s : Bytes) : Prop where
  r_starts : StartsWith r (Der.tlv 0x02 s) (Der.tlv 0x02 r ++ Der.tlv 0x02 s)
  s_starts : StartsWith s [] (Der.tlv 0x02 s)
  r_lt : beNat r < secp256k1Order
  s_lt : beNat s < secp256k1Order
  eq : sig = Der.tlv 0x30 (Der.tlv 0x02 r ++ Der.tlv 0x02 s)

theorem IsSignature.cons {sig r s : Bytes} (h : IsSignature sig r s) :
    sig = 0x30 :: .ofNat (r.length + s.length + 4) :: (Der.tlv 0x02 r ++ Der.tlv 0x02 s) ∧
      8 ≤ sig.length ∧ sig.length = r.length + s.length + 6 ∧ sig.length ≤ 72 := by
  obtain ⟨x, r', rfl, -⟩ := h.r_starts.positive
  obtain ⟨y, s', rfl, -⟩ := h.s_starts.positive
  have hr := h.r_starts.length_le
  have hs := h.s_starts.length_le
  have hlen : (Der.tlv 0x02 (x :: r') ++ Der.tlv 0x02 (y :: s')).length = (x :: r').length + (y :: s').length + 4 := by
    rw [Der.tlv_short (by omega), Der.tlv_short (by omega)]
    simp
    omega
  have heq := h.eq
  rw [Der.tlv_short (by omega), hlen] at heq
  rw [List.length_cons] at hr hs hlen
  rw [heq]
  refine ⟨rfl, ?_, ?_, ?_⟩ <;> simp only [List.length_cons, hlen] <;> omega

section
variable {t l : UInt8} {p r s : Bytes}

theorem IsSignature.header (h : IsSignature (t :: l :: p) r s) :
    t = 0x30 ∧ l.toNat = p.length ∧ StartsWith r (Der.tlv 0x02 s) p := by
  obtain ⟨hcons, -, hlength, hhi⟩ := h.cons
  obtain ⟨htag, heq⟩ := List.cons.inj hcons
  obtain ⟨hl, hp⟩ := List.cons.inj heq
  rw [List.length_cons, List.length_cons] at hlength hhi
  refine ⟨htag, ?_, hp ▸ h.r_starts⟩
  rw [hl, UInt8.toNat_ofNat_of_lt' (lt_of_le_of_lt (by omega) (show 72 < 256 by decide))]
  omega

/-- A signature is the two numbers the parser reads, and nothing else. -/
theorem IsSignature.parsed (h : IsSignature (t :: l :: p) r s) {r' s' : Option Bytes} {p' p'' : Bytes}
    (hr : Parsed p (r', p')) (hs : Parsed p' (s', p'')) : r' = some r ∧ s' = some s ∧ p'' = [] := by
  obtain ⟨-, -, hstarts⟩ := h.header
  obtain ⟨rfl, rfl⟩ := Prod.mk.inj (hr.2 _ _ hstarts)
  obtain ⟨rfl, rfl⟩ := Prod.mk.inj (hs.2 _ _ h.s_starts)
  exact ⟨rfl, rfl, rfl⟩

/-- Two numbers below the order that have been read make a signature. -/
theorem isSignature_of_parts {p' : Bytes} (hl : l.toNat = p.length) (hshort : p.length < 128) (hr : StartsWith r p' p)
    (hs : StartsWith s [] p') (hrN : beNat r < secp256k1Order) (hsN : beNat s < secp256k1Order) :
    IsSignature (0x30 :: l :: p) r s := by
  obtain rfl : p' = Der.tlv 0x02 s := by rw [hs.eq, List.append_nil]
  refine ⟨hr.eq ▸ hr, hs, hrN, hsN, ?_⟩
  rw [← hr.eq, @Der.tlv_short 0x30 _ hshort, ← hl, UInt8.ofNat_toNat]

end

/-- Both numbers against the order. -/
theorem orders_spec (r s : Bytes) :
    Gives (do
      if ← geBe r SECP256K1_N then return false
      return !(← geBe s SECP256K1_N)) fun accepted =>
        accepted = true ↔ beNat r < secp256k1Order ∧ beNat s < secp256k1Order := by
  refine (geBe_spec r).bind ?_
  intro gr hgr
  by_cases hr : gr = true
  · rw [if_pos hr]
    exact gives_ok (iff_of_false Bool.false_ne_true fun h => absurd h.1 (not_lt.2 (hgr.1 hr)))
  rw [if_neg hr]
  refine (geBe_spec s).bind ?_
  intro gs hgs
  refine gives_ok ?_
  rw [Bool.not_eq_true', ← Bool.not_eq_true, hgs, not_le]
  exact ⟨fun hs => ⟨not_le.1 fun h => hr (hgr.2 h), hs⟩, And.right⟩

theorem ecdsaCanonical_spec (sig : Bytes) :
    Gives (ecdsaCanonical sig) fun accepted => accepted = true ↔ ∃ r s, IsSignature sig r s := by
  have hrefuse (h : ∀ r s, ¬IsSignature sig r s) :
      Gives (pure false) fun accepted => accepted = true ↔ ∃ r s, IsSignature sig r s :=
    gives_ok (iff_of_false Bool.false_ne_true fun ⟨r, s, hs⟩ => h r s hs)
  unfold ecdsaCanonical
  -- each check that fails refuses, and no signature fails it
  by_cases hlen : sig.length < 8 ∨ sig.length > 72
  · rw [if_pos hlen]
    refine hrefuse fun r s h => ?_
    obtain ⟨-, hlo, -, hhi⟩ := h.cons
    omega
  rw [if_neg hlen]
  obtain ⟨t, p, rfl⟩ := List.exists_cons_of_length_pos (l := sig) (by omega)
  rw [List.length_cons] at hlen
  obtain ⟨l, p, rfl⟩ := List.exists_cons_of_length_pos (l := p) (by omega)
  rw [index_ok (x := t) rfl, ok_bind]
  by_cases htag : t ≠ 0x30
  · rw [if_pos htag]
    exact hrefuse fun r s h => htag h.header.1
  obtain rfl : t = 0x30 := not_not.1 htag
  rw [if_neg htag, index_ok (x := l) rfl, ok_bind, sub_ok (by simp), ok_bind]
  dsimp only [List.length_cons] at hlen ⊢
  by_cases hsize : l.toNat ≠ p.length + 1 + 1 - 2
  · rw [if_pos hsize]
    refine hrefuse fun r s h => hsize ?_
    rw [h.header.2.1]
    rfl
  rw [if_neg hsize, sliceFrom_ok (by simp), ok_bind, List.drop_succ_cons, List.drop_succ_cons, List.drop_zero]
  refine (sigPart_spec p).bind ?_
  rintro ⟨r, p'⟩ hr
  refine (sigPart_spec p').bind ?_
  rintro ⟨s, p''⟩ hs
  cases r with
  | none => exact hrefuse fun r s h => nomatch (h.parsed hr hs).1
  | some r =>
    cases s with
    | none => exact hrefuse fun r s h => nomatch (h.parsed hr hs).2.1
    | some s =>
      dsimp only
      -- both numbers are there: what is left is that nothing follows, and that they are below the order
      by_cases hrest : (!p''.isEmpty) = true
      · rw [if_pos hrest]
        refine hrefuse fun r' s' h => ?_
        obtain ⟨-, -, rfl⟩ := h.parsed hr hs
        cases hrest
      · obtain rfl : p'' = [] := by simpa using hrest
        rw [if_neg hrest]
        refine (orders_spec r s).mono fun accepted haccepted => ?_
        rw [haccepted]
        constructor
        · rintro ⟨hrN, hsN⟩
          exact ⟨r, s, isSignature_of_parts (not_not.1 hsize) (by omega) (hr.1 r rfl) (hs.1 s rfl) hrN hsN⟩
        · rintro ⟨r', s', h⟩
          obtain ⟨⟨⟩, ⟨⟩, -⟩ := h.parsed hr hs
          exact ⟨h.r_lt, h.s_lt⟩

/-- The simulator's check never indexes outside the signature, and accepts exactly the DER of two positive numbers
below the group order. -/
theorem ecdsa_canonical_iff_der (sig : Bytes) : ∃ accepted, ecdsaCanonical sig = .ok accepted ∧
    (accepted = true ↔ ∃ r s, (1 ≤ r ∧ r < secp256k1Order) ∧ (1 ≤ s ∧ s < secp256k1Order) ∧
      sig = Der.sequence [Der.integer r, Der.integer s]) := by
  have hlt {n : Nat} (h : n < secp256k1Order) : n < 256 ^ 32 := h.trans (by decide +kernel)
  obtain ⟨accepted, hok, haccepted⟩ := ecdsaCanonical_spec sig
  refine ⟨accepted, hok, haccepted.trans ⟨?_, ?_⟩⟩
  · rintro ⟨r, s, h⟩
    refine ⟨beNat r, beNat s, ⟨Der.beNat_pos h.r_starts.positive, h.r_lt⟩,
      ⟨Der.beNat_pos h.s_starts.positive, h.s_lt⟩, ?_⟩
    rw [Der.sequence_pair, Der.contents_beNat h.r_starts.positive, Der.contents_beNat h.s_starts.positive]
    exact h.eq
  · rintro ⟨r, s, ⟨hr, hrN⟩, ⟨hs, hsN⟩, rfl⟩
    obtain ⟨hrp, hrv⟩ := Der.positive_contents hr
    obtain ⟨hsp, hsv⟩ := Der.positive_contents hs
    refine ⟨Der.contents r, Der.contents s, ⟨hrp, Der.contents_length_le (hlt hrN), rfl⟩,
      ⟨hsp, Der.contents_length_le (hlt hsN), (List.append_nil _).symm⟩, ?_, ?_, Der.sequence_pair r s⟩
    · rwa [hrv]
    · rwa [hsv]

end Xahc.Sim

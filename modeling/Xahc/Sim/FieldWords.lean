/-
The full walker over machine words, and that it comes to what the walker over numbers comes to without a panic.
-/
import Xahc.Sim.StoWords

namespace Xahc.Sim

open Xahc.Data Xahc.Data.Checked

namespace Words

/-! ## The walker -/

/-- The byte at a position, or what is wrong. -/
def byteOr (d : Bytes) (i : Nat) (message : String) : ExceptT String Checked UInt8 :=
  match d[i]? with
  | some b => pure b
  | none => throw message

/-- A range of the bytes, or the message. -/
def rangeOr (d : Bytes) (start stop : Nat) (message : String) : ExceptT String Checked Bytes :=
  if start ≤ stop ∧ stop ≤ d.length then pure ((d.drop start).take (stop - start)) else throw message

/-- The type, the field and the length of a header. -/
def decodeHeader (d : Bytes) (pos : Nat) : ExceptT String Checked (Nat × Nat × Nat) := do
  let message := s!"truncated field header at byte {pos}"
  let b0 ← byteOr d pos message
  let hi := (b0 >>> 4).toNat
  let lo := (b0 &&& 0xF).toNat
  if hi > 0 ∧ lo > 0 then pure (hi, lo, 1)
  else if hi > 0 then do
    let b1 ← byteOr d (← add 64 pos 1) message
    pure (hi, b1.toNat, 2)
  else if lo > 0 then do
    let b1 ← byteOr d (← add 64 pos 1) message
    pure (b1.toNat, lo, 2)
  else do
    let b1 ← byteOr d (← add 64 pos 1) message
    let b2 ← byteOr d (← add 64 pos 2) message
    pure (b1.toNat, b2.toNat, 3)

/-- A length prefix, and its own length. -/
def vlLen (d : Bytes) (pos : Nat) : ExceptT String Checked (Nat × Nat) := do
  let message := s!"truncated VL length at byte {pos}"
  let b1 := (← byteOr d pos message).toNat
  if b1 ≤ 192 then pure (b1, 1)
  else if b1 ≤ 240 then do
    let high ← add 64 193 (← mul 64 (← sub b1 193) 256)
    let b2 ← byteOr d (← add 64 pos 1) message
    pure (← add 64 high b2.toNat, 2)
  else if b1 ≤ 254 then do
    let high ← add 64 12481 (← mul 64 (← sub b1 241) 65536)
    let b2 ← byteOr d (← add 64 pos 1) message
    let high ← add 64 high (← mul 64 b2.toNat 256)
    let b3 ← byteOr d (← add 64 pos 2) message
    pure (← add 64 high b3.toNat, 3)
  else throw s!"invalid VL length byte 0xFF at byte {pos}"

/-- The end of a path set. -/
def pathsetEnd (d : Bytes) : (bound p : Nat) → ExceptT String Checked Nat
  | 0, _ => throw "unterminated pathset"
  | bound + 1, p => do
    let t ← byteOr d p "unterminated pathset"
    let p ← add 64 p 1
    if t = 0x00 then pure p
    else if t = 0xFF then pathsetEnd d bound p
    else if t &&& ~~~0x31 = 0 then pathsetEnd d bound (← add 64 p (pathStepWidth t))
    else throw s!"bad pathset step flag 0x{String.ofList (Xahc.Data.encodeHex [t])}"

/-- Where a leaf ends. -/
def leafEnd (d : Bytes) (ty body pos : Nat) : ExceptT String Checked Nat :=
  if let some w := fixedWidth ty then liftM (add 64 body w)
  else match ty with
    | STI_PATHSET => pathsetEnd d (d.length + 1) body
    | STI_AMOUNT => do
      let b ← byteOr d body "truncated amount"
      liftM (add 64 body (if b &&& 0x80 = 0 then 8 else 48))
    | STI_VL | STI_ACCOUNT | STI_VECTOR256 => do
      let (n, pl) ← vlLen d body
      liftM (add 64 (← add 64 body pl) n)
    | STI_ISSUE => do
      let stop ← add 64 body 20
      let cur ← rangeOr d body stop "truncated issue"
      liftM (add 64 body (if cur.all (· == 0) then 20 else 40))
    | _ => throw s!"unsupported serialized type {ty} at byte {pos}"

/-- A field inside a serialized object. -/
structure FieldRef where
  ty : Nat
  field : Nat
  start : Nat
  body : Nat
  stop : Nat
  deriving DecidableEq, Repr

/-- A field's place, without what is known about it. -/
def place (f : Sim.FieldRef) : FieldRef := ⟨f.ty, f.field, f.start, f.body, f.stop⟩

/-- The code of a field. -/
def FieldRef.code (f : FieldRef) : UInt32 := fieldCode f.ty f.field

/-- Where the content of a field lies; that of a container ends before its marker. -/
def FieldRef.content (f : FieldRef) : Checked (Nat × Nat) :=
  if f.ty = STI_OBJECT ∨ f.ty = STI_ARRAY then do pure (f.body, ← sub f.stop 1) else pure (f.body, f.stop)

mutual

/-- Each turn of the two reads a byte further on, so a bound past twice the buffer's length is never reached. -/
def parseField (d : Bytes) (stop : Nat) : (bound pos : Nat) → ExceptT String Checked FieldRef
  | 0, _ => throw "out of turns"
  | bound + 1, pos => do
    let (ty, field, hl) ← decodeHeader d pos
    let body ← add 64 pos hl
    let fin ← (if ty = STI_OBJECT ∨ ty = STI_ARRAY then parseChildren d stop ty pos bound body
      else leafEnd d ty body pos)
    if stop < fin then throw s!"field (type {ty}, field {field}) at byte {pos} runs past the end"
    else pure ⟨ty, field, pos, body, fin⟩

/-- The fields of a container, up to its marker. -/
def parseChildren (d : Bytes) (stop ty pos : Nat) : (bound p : Nat) → ExceptT String Checked Nat
  | 0, _ => throw "out of turns"
  | bound + 1, p =>
    if stop ≤ p then throw s!"unterminated {containerName ty} at byte {pos}"
    else do
      let b ← (index d p : Checked UInt8)
      if b = endMarker ty then liftM (add 64 p 1)
      else
        let f ← parseField d stop bound p
        parseChildren d stop ty pos bound f.stop

end

/-- The fields from `p` to the end. -/
def parseFields (d : Bytes) (stop : Nat) : (bound p : Nat) → ExceptT String Checked (List FieldRef)
  | 0, _ => throw "out of turns"
  | bound + 1, p =>
    if p < stop then do
      let f ← parseField d stop (2 * d.length + 2) p
      let rest ← parseFields d stop bound f.stop
      pure (f :: rest)
    else pure []

/-! ## The walker does not panic -/

section
variable {d : Bytes}

theorem echoes_byteOr {β : Type} {f : UInt8 → ExceptT String Checked β} {o : Except String β} {q : β → Prop}
    {i : Nat} {message : String} (hnone : d[i]? = none → o = .error message)
    (hsome : ∀ b, d[i]? = some b → Echoes (f b) o q) : Echoes (byteOr d i message >>= f) o q := by
  rw [byteOr]
  cases hb : d[i]? with
  | none =>
    rw [hnone hb]
    exact echoes_throw message
  | some b => exact hsome b hb

variable (hd : d.length < 2 ^ 63)
include hd

theorem decodeHeader_echoes (pos : Nat) :
    Echoes (decodeHeader d pos) (Sim.decodeHeader d pos) fun r => pos < d.length ∧ 0 < r.2.2 ∧ r.2.2 ≤ 3 := by
  unfold decodeHeader Sim.decodeHeader
  apply echoes_byteOr
  · intro h
    simp only [h]
  intro b0 h
  have hpos := lt_of_getElem? h
  simp only [h]
  -- both codes in the first byte, the type or the field in a byte of its own, or both
  apply echoes_ite
  · intro _
    exact echoes_pure ⟨hpos, by simp, by simp⟩
  intro _
  apply echoes_ite
  · intro _
    apply echoes_step (add_ok (by omega))
    apply echoes_byteOr
    · intro h1
      simp only [h1]
      rfl
    intro b1 h1
    simp only [h1]
    exact echoes_pure ⟨hpos, by simp, by simp⟩
  intro _
  apply echoes_ite
  · intro _
    apply echoes_step (add_ok (by omega))
    apply echoes_byteOr
    · intro h1
      simp only [h1]
      rfl
    intro b1 h1
    simp only [h1]
    exact echoes_pure ⟨hpos, by simp, by simp⟩
  intro _
  apply echoes_step (add_ok (by omega))
  apply echoes_byteOr
  · intro h1
    simp only [h1]
    rfl
  intro b1 h1
  apply echoes_step (add_ok (by omega))
  apply echoes_byteOr
  · intro h2
    simp only [h1, h2]
    rfl
  intro b2 h2
  simp only [h1, h2]
  exact echoes_pure ⟨hpos, by simp, by simp⟩

theorem vlLen_echoes {pos : Nat} (hpos : pos ≤ d.length + 3) :
    Echoes (vlLen d pos) (Sim.vlLen d pos) fun r => r.1 ≤ 2 ^ 21 ∧ r.2 ≤ 3 := by
  unfold vlLen Sim.vlLen
  apply echoes_byteOr
  · intro h
    simp only [h]
    rfl
  intro b1 h
  have hlt := b1.toNat_lt
  simp only [h]
  -- the first byte says whether one, two or three bytes carry the length
  apply echoes_ite
  · intro _
    exact echoes_pure (by constructor <;> simp only <;> omega)
  intro _
  apply echoes_ite
  · intro _
    apply echoes_step (sub_ok (by omega))
    apply echoes_step (mul_ok (by omega))
    apply echoes_step (add_ok (by omega))
    apply echoes_step (add_ok (by omega))
    apply echoes_byteOr
    · intro h2
      simp only [h2]
      rfl
    intro b2 h2
    have hlt2 := b2.toNat_lt
    simp only [h2]
    apply echoes_step (add_ok (by omega))
    exact echoes_pure (by constructor <;> simp only <;> omega)
  intro _
  apply echoes_ite
  · intro _
    apply echoes_step (sub_ok (by omega))
    apply echoes_step (mul_ok (by omega))
    apply echoes_step (add_ok (by omega))
    apply echoes_step (add_ok (by omega))
    apply echoes_byteOr
    · intro h2
      simp only [h2]
      rfl
    intro b2 h2
    have hlt2 := b2.toNat_lt
    apply echoes_step (mul_ok (by omega))
    apply echoes_step (add_ok (by omega))
    apply echoes_step (add_ok (by omega))
    apply echoes_byteOr
    · intro h3
      simp only [h2, h3]
      rfl
    intro b3 h3
    have hlt3 := b3.toNat_lt
    simp only [h2, h3]
    apply echoes_step (add_ok (by omega))
    exact echoes_pure (by constructor <;> simp only <;> omega)
  · intro _
    exact echoes_throw _

theorem pathsetEnd_echoes (bound : Nat) {p : Nat} (hp : p ≤ d.length + 64) :
    Echoes (pathsetEnd d bound p) (Sim.pathsetEnd d bound p) fun r => p ≤ r ∧ r ≤ d.length + 64 := by
  induction bound generalizing p with
  | zero => exact echoes_throw _
  | succ bound ih =>
    unfold pathsetEnd Sim.pathsetEnd
    apply echoes_byteOr
    · intro h
      simp only [h]
    intro t h
    have hlt := lt_of_getElem? h
    have hwidth := pathStepWidth_le t
    simp only [h]
    apply echoes_step (add_ok (by omega))
    apply echoes_ite
    · intro _
      exact echoes_pure ⟨by omega, by omega⟩
    intro _
    apply echoes_ite
    · intro _
      exact (ih (by omega)).mono fun r hr => ⟨by omega, hr.2⟩
    intro _
    apply echoes_ite
    · intro _
      apply echoes_step (add_ok (by omega))
      exact (ih (by omega)).mono fun r hr => ⟨by omega, hr.2⟩
    · intro _
      exact echoes_throw _

omit hd in
theorem fixedWidth_le {ty w : Nat} (h : fixedWidth ty = some w) : w ≤ 64 := by
  unfold fixedWidth at h
  split at h <;> first | cases h; omega | cases h

theorem leafEnd_echoes {ty body pos : Nat} (hbody : body ≤ d.length + 3) :
    Echoes (leafEnd d ty body pos) (do let n ← Sim.leafLen d ty body pos; .ok (body + n)) fun r =>
      body ≤ r ∧ r ≤ d.length + 2 ^ 22 := by
  -- the blob types carry a length prefix of their own in front of the content
  have prefixed : Echoes (do let (n, pl) ← vlLen d body; liftM (add 64 (← add 64 body pl) n))
      (do let n ← (do let (n, pl) ← Sim.vlLen d body; .ok (pl + n)); .ok (body + n)) fun r =>
        body ≤ r ∧ r ≤ d.length + 2 ^ 22 := by
    rw [bind_assoc]
    apply (vlLen_echoes hd hbody).bind
    rintro ⟨n, pl⟩ _ ⟨hn, hpl⟩
    simp only at hn hpl
    apply echoes_step (add_ok (by omega))
    rw [add_ok (by omega), Nat.add_assoc]
    exact echoes_pure ⟨by omega, by omega⟩
  unfold leafEnd Sim.leafLen
  cases hw : fixedWidth ty with
  | some w =>
    have hle := fixedWidth_le hw
    exact echoes_last (add_ok (by omega)) ⟨by omega, by omega⟩
  | none =>
    simp only
    split
    · show Echoes _ ((Sim.pathsetEnd d (d.length + 1) body >>= fun p => .ok (p - body)) >>= fun n => .ok (body + n)) _
      rw [bind_assoc, ← bind_pure (pathsetEnd d (d.length + 1) body)]
      apply (pathsetEnd_echoes hd _ (by omega)).bind
      rintro r _ ⟨hle, hle'⟩
      have hsum : body + (r - body) = r := by omega
      show Echoes (pure r) (.ok (body + (r - body))) _
      rw [hsum]
      exact echoes_pure ⟨hle, by omega⟩
    · apply echoes_byteOr
      · intro h
        simp only [h]
        rfl
      intro b h
      simp only [h]
      refine echoes_last (add_ok ?_) ⟨?_, ?_⟩ <;> split <;> omega
    · exact prefixed
    · exact prefixed
    · exact prefixed
    · apply echoes_step (add_ok (by omega))
      rw [rangeOr, Sim.issueWidth]
      have hlen : ((d.drop body).take 20).length = min 20 (d.length - body) := by rw [List.length_take, List.length_drop]
      by_cases hin : body + 20 ≤ d.length
      · rw [if_pos ⟨by omega, hin⟩, if_neg (by omega), Nat.add_sub_cancel_left]
        refine echoes_last (add_ok ?_) ⟨?_, ?_⟩ <;> split <;> omega
      · rw [if_neg (fun h => hin h.2), if_pos (by omega)]
        exact echoes_throw _
    -- every type of the table is taken, so both sides give the error
    next h6 h1 h2 h3 h4 h5 =>
      split
      · exact absurd rfl h1
      · exact absurd rfl h2
      · exact absurd rfl h3
      · exact absurd rfl h4
      · exact absurd rfl h5
      · exact absurd rfl h6
      · exact echoes_throw _

/-! ### Fields -/

omit hd in
theorem parseField_place (pos stop : Nat) :
    (fun f => place f.1) <$> Sim.parseField d pos stop = (do
      let (ty, field, hl) ← Sim.decodeHeader d pos
      let fin ← (if ty = STI_OBJECT ∨ ty = STI_ARRAY then Subtype.val <$> Sim.parseChildren d ty pos stop (pos + hl)
        else do let n ← Sim.leafLen d ty (pos + hl) pos; .ok (pos + hl + n))
      if stop < fin then .error s!"field (type {ty}, field {field}) at byte {pos} runs past the end"
      else .ok ⟨ty, field, pos, pos + hl, fin⟩) := by
  rw [Sim.parseField]
  split
  next e h =>
    rw [h]
    rfl
  next ty field hl h =>
    conv_rhs => rw [h]
    simp only [bind, Except.bind]
    by_cases hc : ty = STI_OBJECT ∨ ty = STI_ARRAY
    · simp only [if_pos hc]
      cases Sim.parseChildren d ty pos stop (pos + hl) with
      | error e => rfl
      | ok fin =>
        by_cases hs : stop < fin.1
        · simp only [if_pos hs, Functor.map, Except.map]
        · simp only [if_neg hs, Functor.map, Except.map]
          rfl
    · simp only [if_neg hc]
      cases Sim.leafLen d ty (pos + hl) pos with
      | error e => rfl
      | ok n =>
        by_cases hs : stop < pos + hl + n
        · simp only [if_pos hs, Functor.map, Except.map]
        · simp only [if_neg hs, Functor.map, Except.map]
          rfl

omit hd in
theorem parseChildren_val (ty pos stop p : Nat) {b : UInt8} (hb : d[p]? = some b) :
    Subtype.val <$> Sim.parseChildren d ty pos stop p =
      if stop ≤ p then .error s!"unterminated {containerName ty} at byte {pos}"
      else if b = endMarker ty then .ok (p + 1)
      else (do
        let f ← (fun f => place f.1) <$> Sim.parseField d p stop
        Subtype.val <$> Sim.parseChildren d ty pos stop f.stop) := by
  rw [Sim.parseChildren]
  split
  · rfl
  split
  next h => exact absurd (h.symm.trans hb) (by simp)
  next b' h =>
    obtain rfl : b' = b := Option.some.inj (h.symm.trans hb)
    split
    · rfl
    cases Sim.parseField d p stop with
    | error e => rfl
    | ok f =>
      have hstop : (place f.1).stop = f.1.stop := rfl
      simp only [bind, Except.bind, Functor.map, Except.map]
      rw [hstop]
      cases Sim.parseChildren d ty pos stop f.1.stop <;> rfl

omit hd in
theorem parseFields_place (p stop : Nat) :
    List.map place <$> Sim.parseFields d p stop =
      if p < stop then do
        let f ← (fun f => place f.1) <$> Sim.parseField d p stop
        let rest ← List.map place <$> Sim.parseFields d f.stop stop
        .ok (f :: rest)
      else .ok [] := by
  rw [Sim.parseFields]
  split
  · cases Sim.parseField d p stop with
    | error e => rfl
    | ok f =>
      have hstop : (place f.1).stop = f.1.stop := rfl
      simp only [bind, Except.bind, Functor.map, Except.map, hstop]
      cases Sim.parseFields d f.1.stop stop <;> rfl
  · rfl

/-- Where a field lies: its header takes a byte at least, and it ends inside the range. -/
def Inside (pos stop : Nat) (f : FieldRef) : Prop := pos < f.body ∧ f.body ≤ f.stop ∧ f.stop ≤ stop

/-- One field, or the fields of one container, in as many turns as there are bytes left to read. -/
theorem parse_echoes {stop : Nat} (hstop : stop ≤ d.length) (bound : Nat) :
    (∀ pos, 2 * (d.length - pos) + 1 ≤ bound → Echoes (parseField d stop bound pos)
      ((fun f => place f.1) <$> Sim.parseField d pos stop) (Inside pos stop)) ∧
    ∀ ty pos p, 2 * (d.length - p) + 2 ≤ bound → Echoes (parseChildren d stop ty pos bound p)
      (Subtype.val <$> Sim.parseChildren d ty pos stop p) fun fin => p < fin ∧ fin ≤ stop := by
  -- the bound is spent once for a field and once for a child, hence twice the bytes that are left
  induction bound with
  | zero =>
    constructor
    · intro pos h
      omega
    · intro ty pos p h
      omega
  | succ bound ih =>
    obtain ⟨field, children⟩ := ih
    constructor
    · intro pos h
      rw [parseField, parseField_place]
      apply (decodeHeader_echoes hd pos).bind
      rintro ⟨ty, fld, hl⟩ _ ⟨hpos, hl0, hl3⟩
      simp only at hl0 hl3
      apply echoes_step (add_ok (by omega))
      have hfin : Echoes (if ty = STI_OBJECT ∨ ty = STI_ARRAY then parseChildren d stop ty pos bound (pos + hl)
            else leafEnd d ty (pos + hl) pos)
          (if ty = STI_OBJECT ∨ ty = STI_ARRAY then Subtype.val <$> Sim.parseChildren d ty pos stop (pos + hl)
            else do let n ← Sim.leafLen d ty (pos + hl) pos; .ok (pos + hl + n)) fun fin => pos + hl ≤ fin := by
        apply echoes_ite
        · intro _
          exact (children ty pos (pos + hl) (by omega)).mono fun fin hfin => hfin.1.le
        · intro _
          exact (leafEnd_echoes hd (by omega)).mono fun fin hfin => hfin.1
      apply hfin.bind
      intro fin _ hle
      apply echoes_ite
      · intro _
        exact echoes_throw _
      · intro hs
        exact echoes_pure ⟨by simp only; omega, hle, not_lt.1 hs⟩
    · intro ty pos p h
      rw [parseChildren]
      by_cases hp : stop ≤ p
      · rw [if_pos hp, Sim.parseChildren, if_pos hp]
        exact echoes_throw _
      obtain ⟨b, hb⟩ : ∃ b, d[p]? = some b := ⟨d[p], List.getElem?_eq_getElem (by omega)⟩
      rw [parseChildren_val ty pos stop p hb, if_neg hp, if_neg hp]
      apply echoes_step (index_ok hb)
      apply echoes_ite
      · intro _
        exact echoes_last (add_ok (by omega)) ⟨by omega, by omega⟩
      intro _
      apply (field p (by omega)).bind
      rintro f _ ⟨hbody, hle, hfin⟩
      exact (children ty pos f.stop (by omega)).mono fun fin h => ⟨by omega, h.2⟩

theorem parseFields_echoes {stop : Nat} (hstop : stop ≤ d.length) (bound p : Nat) (hbound : stop - p < bound) :
    Echoes (parseFields d stop bound p) (List.map place <$> Sim.parseFields d p stop) fun fs =>
      ∀ f ∈ fs, ∃ pos, Inside pos stop f := by
  induction bound generalizing p with
  | zero => omega
  | succ bound ih =>
    rw [parseFields, parseFields_place]
    apply echoes_ite
    · intro hp
      apply ((parse_echoes hd hstop _).1 p (by omega)).bind
      intro f _ hf
      obtain ⟨hbody, hle, hfin⟩ := hf
      apply (ih f.stop (by omega)).bind
      intro rest _ hrest
      refine echoes_pure fun g hg => ?_
      rcases List.mem_cons.1 hg with rfl | hg
      · exact ⟨p, hbody, hle, hfin⟩
      · exact hrest g hg
    · intro _
      exact echoes_pure fun _ h => nomatch h

end

end Words

end Xahc.Sim

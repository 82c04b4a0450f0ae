/-
The slot table over machine words. Its entries stay inside the objects they point into, and its counter stays below
the last slot number, so that every call on it comes to what the call over numbers comes to.
-/
import Xahc.Sim.FieldWords
import Xahc.Sim.StoTiling

namespace Xahc.Sim

open Xahc.Data Xahc.Data.Checked

namespace rc

/-- The code of a call that cannot be answered. -/
def INTERNAL_ERROR : Int := -2

/-- The code of a value with too many bytes. -/
def TOO_BIG : Int := -3

/-- The code of a slot that is no amount. -/
def NOT_AN_AMOUNT : Int := -32

/-- The code of a malformed key. -/
def INVALID_KEY : Int := -41

end rc

namespace Words

/-! ## Slot entries -/

/-- The bytes of a slot. -/
def bytes (e : SlotEntry) : Checked Bytes := slice e.storage e.start e.stop

/-- A field of a slot as a slot. -/
def child (e : SlotEntry) (f : FieldRef) : Checked SlotEntry := do
  let (start, stop) ← f.content
  let kind := if f.ty = STI_OBJECT then .Object else if f.ty = STI_ARRAY then .Array else .Leaf f.ty
  pure ⟨e.storage, kind, f.code, start, stop⟩

/-- The fields of a slot, parsed. -/
def fields (e : SlotEntry) : Checked (Except String (List FieldRef)) :=
  (parseFields e.storage e.stop (e.storage.length + 1) e.start).run

/-! ## The table -/

/-- The next number that is not live. -/
def nextNumber (map : AList fun _ : Nat => SlotEntry) : (turns counter : Nat) → Checked Nat
  | 0, counter => add 32 counter 1
  | turns + 1, counter => do
    let counter ← add 32 counter 1
    if counter ∈ map ∧ counter ≤ MAX_SLOTS then nextNumber map turns counter else pure counter

/-- A number for a new slot: the oldest cleared one, else the next of the counter. -/
def getFree (s : Slots) : Checked (Option Nat × Slots) :=
  match s.free with
  | n :: rest => pure (some n, { s with free := rest })
  | [] => do
    let counter ← nextNumber s.map (MAX_SLOTS - s.counter) s.counter
    pure (if MAX_SLOTS < counter then none else some counter, { s with counter })

/-- The entry goes into the slot asked for, or into a free one. -/
def placeEntry (s : Slots) (into : Nat) (e : SlotEntry) : Checked (Int × Slots) :=
  if into = 0 then do
    match ← getFree s with
    | (some n, s) => pure (n, s.insert n e)
    | (none, s) => pure (rc.NO_FREE_SLOTS, s)
  else pure (into, s.insert into e)

/-- How every call that fills a slot ends. -/
def fill (into : Nat) (s : Slots) : Except String (Except Int SlotEntry) → Checked (Except String (Int × Slots))
  | .error m => pure (.error m)
  | .ok (.error code) => pure (.ok (code, s))
  | .ok (.ok e) => do pure (.ok (← placeEntry s into e))

/-! ## The calls -/

/-- The ledger object of a 34-byte keylet. -/
def ledgerEntry (tx : TxFixture) (data : Bytes) : Checked (Except String (Except Int SlotEntry)) := do
  let ktype := u16FromBe (← index data 0) (← index data 1)
  let key ← array 32 (← sliceFrom data 2)
  if key = List.replicate 32 0 then pure (.ok (.error rc.DOESNT_EXIST))
  else if key = tx.randomKey then pure (.ok (.error rc.DOESNT_EXIST))
  else match tx.ledgerObjects key with
    | none => pure (.ok (.error rc.DOESNT_EXIST))
    | some obj =>
      let top := SlotEntry.top obj SF_LEDGER_ENTRY
      match ← fields top with
      | .error m => pure (.error s!"ledger_objects fixture {hex32 key}: malformed STObject: {m}")
      | .ok fields =>
        match fields.find? (·.code = SF_LEDGER_ENTRY_TYPE) with
        | none => pure (.error s!"ledger_objects fixture {hex32 key} has no sfLedgerEntryType")
        | some f => do
          let (s, _) ← f.content
          let lt := u16FromBe (← index obj s) (← index obj (← add 64 s 1))
          if ktype = LT_ANY ∨ (ktype = LT_CHILD ∧ lt ≠ LT_DIR_NODE) ∨ ktype = lt then pure (.ok (.ok top))
          else pure (.ok (.error rc.DOESNT_EXIST))

/-- Whether a field gives the type of an entropy transaction. -/
def isEntropy (txb : Bytes) (f : FieldRef) : Checked Bool :=
  if f.code = SF_TRANSACTION_TYPE then do pure (decide ((← slice txb f.body f.stop) = [0, 89])) else pure false

/-- The transaction of a 32-byte id. -/
def txnEntry (tx : TxFixture) (data : Bytes) : Checked (Except String (Except Int SlotEntry)) :=
  if tx.rules.fix20261005 then pure (.ok (.error rc.INVALID_ARGUMENT))
  else do
    let key ← array 32 data
    match tx.txns key with
    | none => pure (.ok (.error rc.DOESNT_EXIST))
    | some txb =>
      let top := SlotEntry.top txb SF_TRANSACTION
      match ← fields top with
      | .error m => pure (.error s!"txns fixture {hex32 key}: malformed STObject: {m}")
      | .ok fields =>
        if ← fields.anyM (isEntropy txb) then pure (.ok (.error rc.DOESNT_EXIST))
        else pure (.ok (.ok top))

/-- What the call does with the bytes it has read. -/
def slotSetEntry (tx : TxFixture) (data : Bytes) (slotInto : Nat) (s : Slots) :
    Checked (Except String (Except Int SlotEntry)) :=
  if (data.length ≠ 32 ∧ data.length ≠ 34) ∨ MAX_SLOTS < slotInto then pure (.ok (.error rc.INVALID_ARGUMENT))
  else if slotInto = 0 ∧ s.noFree then pure (.ok (.error rc.NO_FREE_SLOTS))
  else if data.length = 34 then ledgerEntry tx data
  else txnEntry tx data

/-- The element of an array slot. -/
def slotSubarrayEntry (parent : Nat) (idx : UInt32) (newSlot : Nat) (s : Slots) :
    Checked (Except String (Except Int SlotEntry)) :=
  match s.map.lookup parent with
  | none => pure (.ok (.error rc.DOESNT_EXIST))
  | some p =>
    if p.kind ≠ .Array then pure (.ok (.error rc.NOT_AN_ARRAY))
    else if newSlot = 0 ∧ s.noFree then pure (.ok (.error rc.NO_FREE_SLOTS))
    else if MAX_SLOTS < newSlot then pure (.ok (.error rc.INVALID_ARGUMENT))
    else do
      match ← fields p with
      | .error m => pure (.error s!"slot {parent}: malformed array in fixture: {m}")
      | .ok elems =>
        match elems[idx.toNat]? with
        | none => pure (.ok (.error rc.DOESNT_EXIST))
        | some el => do pure (.ok (.ok (← child p el)))

/-- The field of an object slot. -/
def slotSubfieldEntry (parent : Nat) (fieldId : UInt32) (newSlot : Nat) (s : Slots) :
    Checked (Except String (Except Int SlotEntry)) :=
  match s.map.lookup parent with
  | none => pure (.ok (.error rc.DOESNT_EXIST))
  | some p =>
    if newSlot = 0 ∧ s.noFree then pure (.ok (.error rc.NO_FREE_SLOTS))
    else if MAX_SLOTS < newSlot then pure (.ok (.error rc.INVALID_ARGUMENT))
    else if !isKnownField fieldId then pure (.ok (.error rc.INVALID_FIELD))
    else if p.kind ≠ .Object then pure (.ok (.error rc.NOT_AN_OBJECT))
    else do
      match ← fields p with
      | .error m => pure (.error s!"slot {parent}: malformed object in fixture: {m}")
      | .ok fields =>
        match fields.find? (·.code = fieldId) with
        | none => pure (.ok (.error rc.DOESNT_EXIST))
        | some f => do pure (.ok (.ok (← child p f)))

/-- The number of elements of an array slot. -/
def slotCount (slotNo : Int32) (s : Slots) : Checked (Except String Int) :=
  match s.map.lookup slotNo.toUInt32.toNat with
  | none => pure (.ok rc.DOESNT_EXIST)
  | some e =>
    if e.kind ≠ .Array then pure (.ok rc.NOT_AN_ARRAY)
    else do
      match ← fields e with
      | .error m => pure (.error s!"slot {slotNo}: malformed array in fixture: {m}")
      | .ok f => pure (.ok f.length)

/-- The number of bytes of a slot. -/
def slotSize (slotNo : UInt32) (s : Slots) : Checked Int :=
  match s.map.lookup slotNo.toNat with
  | some e => do pure ((← sub e.stop e.start : Nat) : Int)
  | none => pure rc.DOESNT_EXIST

/-- The field code of a slot, or whether the amount in it is native. -/
def slotType (slotNo flags : UInt32) (s : Slots) : Checked Int :=
  match s.map.lookup slotNo.toNat with
  | none => pure rc.DOESNT_EXIST
  | some e =>
    if flags = 0 then pure e.fcode.toNat
    else if flags = 1 then
      if e.kind ≠ .Leaf STI_AMOUNT then pure rc.NOT_AN_AMOUNT
      else do pure (if (← index e.storage e.start) &&& 0x80 = 0 then 1 else 0)
    else pure rc.INVALID_ARGUMENT

end Words

/-! ## Entries inside their objects -/

/-- An entry lies inside its object, and an amount is not empty. -/
structure SlotEntry.Within (e : SlotEntry) : Prop where
  storage_lt : e.storage.length < 2 ^ 63
  start_le : e.start ≤ e.stop
  stop_le : e.stop ≤ e.storage.length
  amount : e.kind = .Leaf STI_AMOUNT → e.start < e.stop

theorem within_top {storage : Bytes} {fcode : UInt32} (h : storage.length < 2 ^ 63) :
    (SlotEntry.top storage fcode).Within :=
  ⟨h, Nat.zero_le _, le_rfl, fun h => nomatch h⟩

section
variable {e : SlotEntry} {f : FieldRef} {fs : List FieldRef}

/-- What a field of an entry says about where it lies. -/
theorem field_within (h : e.fields = .ok fs) (hf : f ∈ fs) :
    f.stop ≤ e.stop ∧ ((f.ty = STI_OBJECT ∨ f.ty = STI_ARRAY) ∧ f.body < f.stop ∨
      (f.ty ≠ STI_OBJECT ∧ f.ty ≠ STI_ARRAY) ∧ ∃ p w, leafLen e.storage f.ty f.body p = .ok w ∧ f.stop = f.body + w) := by
  obtain ⟨q, hq, hfield⟩ := mem_parseFields h hf
  obtain ⟨hl, -, -, hstop, ⟨hty, hle, hch⟩ | ⟨hleaf, w, hlen, hend⟩⟩ := parseField_cases hfield
  · obtain ⟨fs', hwalks⟩ := parseChildren_walks ⟨hle, hch⟩
    exact ⟨hstop, .inl ⟨hty, hwalks.lt⟩⟩
  · exact ⟨hstop, .inr ⟨hleaf, q, w, hlen, hend⟩⟩

theorem amount_len_pos {d : Bytes} {body pos w : Nat} (h : leafLen d STI_AMOUNT body pos = .ok w) : 0 < w := by
  cases hb : d[body]? with
  | none => simp [leafLen, fixedWidth, hb] at h
  | some b =>
    obtain rfl : (if b &&& 0x80 = 0 then 8 else 48) = w := by simpa [leafLen, fixedWidth, hb] using h
    split <;> omega

theorem within_child (he : e.Within) (h : e.fields = .ok fs) (hf : f ∈ fs) : (e.child f).Within := by
  obtain ⟨hstop, hcase⟩ := field_within h hf
  have hle := f.body_le_stop
  have hlim := he.stop_le
  -- a container drops its end marker, which its content still has room for; an amount has at least a byte
  rcases hcase with ⟨hty, hlt⟩ | ⟨hleaf, q, w, hlen, hend⟩
  · have hcontent : f.content = (f.body, f.stop - 1) := if_pos hty
    refine ⟨he.storage_lt, ?_, ?_, ?_⟩
    · rw [SlotEntry.child, hcontent]
      show f.body ≤ f.stop - 1
      omega
    · rw [SlotEntry.child, hcontent]
      show f.stop - 1 ≤ e.storage.length
      omega
    · intro hkind
      rw [SlotEntry.child] at hkind
      dsimp only at hkind
      rcases hty with hobj | harr
      · rw [if_pos hobj] at hkind
        cases hkind
      · rw [if_neg (by rw [harr]; decide), if_pos harr] at hkind
        cases hkind
  · have hcontent : f.content = (f.body, f.stop) := if_neg (not_or.2 hleaf)
    refine ⟨he.storage_lt, ?_, ?_, ?_⟩
    · rw [SlotEntry.child, hcontent]
      exact hle
    · rw [SlotEntry.child, hcontent]
      exact hstop.trans hlim
    · intro hkind
      rw [SlotEntry.child] at hkind ⊢
      dsimp only at hkind
      rw [if_neg hleaf.1, if_neg hleaf.2] at hkind
      have hty : f.ty = STI_AMOUNT := Kind.Leaf.inj hkind
      rw [hcontent]
      show f.body < f.stop
      rw [hty] at hlen
      have hw := amount_len_pos hlen
      omega

end

namespace Words

section
variable {e : SlotEntry} {f : Sim.FieldRef} {fs : List Sim.FieldRef}

theorem bytes_ok (h : e.Within) : bytes e = .ok ((e.storage.drop e.start).take (e.stop - e.start)) :=
  slice_ok h.start_le h.stop_le

theorem fields_ok (h : e.Within) : fields e = .ok (List.map place <$> e.fields) := by
  have hle := h.stop_le
  exact (parseFields_echoes h.storage_lt h.stop_le _ _ (by omega)).1

theorem content_ok (f : Sim.FieldRef) : (place f).content = .ok f.content := by
  have hlt := f.length_pos
  show (if f.ty = STI_OBJECT ∨ f.ty = STI_ARRAY then (do pure (f.body, ← sub f.stop 1)) else pure (f.body, f.stop)) = _
  rw [Sim.FieldRef.content]
  apply ite_ok
  · intro _
    rw [sub_ok (by omega)]
    rfl
  · intro _
    rfl

theorem child_ok (e : SlotEntry) (f : Sim.FieldRef) : child e (place f) = .ok (e.child f) := by
  rw [child, content_ok]
  rfl

end

/-! ## The calls come to what they come to over numbers -/

section
variable {s : Slots}

theorem nextNumber_ok (map : AList fun _ : Nat => SlotEntry) (turns counter : Nat) (h : counter + turns < 2 ^ 32 - 1) :
    nextNumber map turns counter = .ok (Slots.nextNumber map turns counter) := by
  induction turns generalizing counter with
  | zero => exact add_ok (by omega)
  | succ turns ih =>
    rw [nextNumber, Slots.nextNumber, add_ok (by omega), ok_bind]
    apply ite_ok
    · intro _
      exact ih _ (by omega)
    · intro _
      rfl

theorem getFree_ok (h : s.counter ≤ MAX_SLOTS) : getFree s = .ok s.getFree := by
  have hmax : MAX_SLOTS = 255 := rfl
  obtain ⟨map, free, counter⟩ := s
  cases free with
  | cons n rest => rfl
  | nil =>
    have hnext := nextNumber_ok map (MAX_SLOTS - counter) counter (by simp only at h; omega)
    show nextNumber map (MAX_SLOTS - counter) counter >>= _ = _
    rw [hnext]
    rfl

theorem placeEntry_ok (h : s.counter ≤ MAX_SLOTS) (into : Nat) (e : SlotEntry) :
    placeEntry s into e = .ok (s.place into e) := by
  rw [placeEntry, Slots.place, getFree_ok h, ok_bind]
  by_cases hinto : into = 0
  · rw [if_pos hinto, if_pos hinto]
    obtain ⟨n, s'⟩ := s.getFree
    cases n <;> rfl
  · rw [if_neg hinto, if_neg hinto]
    rfl

theorem fill_ok (h : s.counter ≤ MAX_SLOTS) (into : Nat) (r : Except String (Except Int SlotEntry)) :
    fill into s r = .ok (Sim.fill into s r) := by
  rcases r with m | code | e
  · rfl
  · rfl
  · rw [fill, placeEntry_ok h]
    rfl

/-- The objects of a fixture fit into memory. -/
structure Fits (tx : TxFixture) : Prop where
  ledgerObjects : ∀ key obj, tx.ledgerObjects key = some obj → obj.length < 2 ^ 63
  txns : ∀ key txb, tx.txns key = some txb → txb.length < 2 ^ 63
  provisionalMeta : ∀ m, tx.provisionalMeta = some m → m.length < 2 ^ 63

theorem find?_place (fs : List Sim.FieldRef) (code : UInt32) :
    (fs.map place).find? (·.code = code) = (fs.find? (·.code = code)).map place := by
  rw [List.find?_map]
  rfl

end

end Words

/-! ### Two-byte fields -/

theorem decodeHeader_lt {d : Bytes} {p ty field hl : Nat} (h : decodeHeader d p = .ok (ty, field, hl)) :
    ty < 256 ∧ field < 256 := by
  unfold decodeHeader at h
  rcases h0 : d[p]? with _ | b0
  · simp [h0] at h
  · have hhi := (b0 >>> 4).toNat_lt
    have hlo := (b0 &&& 0xF).toNat_lt
    rcases h1 : d[p + 1]? with _ | b1 <;> rcases h2 : d[p + 2]? with _ | b2 <;>
      simp only [h0, h1, h2, bind, Except.bind] at h <;> grind [UInt8.toNat_lt]

theorem fieldCode_toNat {ty field : Nat} (hty : ty < 256) (hfield : field < 256) :
    (fieldCode ty field).toNat = ty * 2 ^ 16 + field := by
  have shifted : (UInt32.ofNat ty <<< 16).toNat = ty <<< 16 := by
    rw [UInt32.toNat_shiftLeft, UInt32.toNat_ofNat_of_lt' (by simp [UInt32.size]; omega)]
    exact Nat.mod_eq_of_lt (by rw [Nat.shiftLeft_eq]; simp; omega)
  have low : (UInt32.ofNat field).toNat = field := UInt32.toNat_ofNat_of_lt' (by simp [UInt32.size]; omega)
  have disjoint : ty <<< 16 + field = ty <<< 16 ||| field := Nat.shiftLeft_add_eq_or_of_lt (by omega) _
  rw [fieldCode, UInt32.toNat_or, shifted, low, ← disjoint, Nat.shiftLeft_eq]

/-- A field with the code of a two-byte number has two bytes. -/
theorem uint16_ends {e : SlotEntry} {f : FieldRef} {fs : List FieldRef} {n : Nat} (h : e.fields = .ok fs) (hf : f ∈ fs)
    (hn : n < 256) (hcode : f.code = fieldCode STI_UINT16 n) : f.content.1 + 2 ≤ e.stop := by
  obtain ⟨q, hq, hfield⟩ := mem_parseFields h hf
  obtain ⟨hl, hdr, -, hstop, hcase⟩ := parseField_cases hfield
  obtain ⟨hty, hfld⟩ := decodeHeader_lt hdr
  have hnat : (fieldCode f.ty f.field).toNat = (fieldCode STI_UINT16 n).toNat := congrArg UInt32.toNat hcode
  rw [fieldCode_toNat hty hfld, fieldCode_toNat (by decide) hn] at hnat
  have htype : f.ty = STI_UINT16 := by omega
  rw [htype] at hcase
  obtain ⟨hcontainer, -⟩ | ⟨hleaf, w, hlen, hend⟩ := hcase
  · rcases hcontainer with h | h <;> cases h
  · have hcontent : f.content = (f.body, f.stop) := if_neg (by rw [htype]; exact not_or.2 hleaf)
    rw [hcontent]
    cases hlen
    show f.body + 2 ≤ e.stop
    omega

namespace Words

section
variable {s : Slots} {tx : TxFixture} (htx : Fits tx)
include htx

theorem ledgerEntry_ok {data : Bytes} (hdata : data.length = 34) :
    ledgerEntry tx data = .ok (Sim.ledgerEntry tx data) := by
  have hlen : (data.drop 2).length = 32 := by rw [List.length_drop, hdata]
  rw [ledgerEntry, Sim.ledgerEntry, index_getD (by omega) 0, ok_bind, index_getD (by omega) 0, ok_bind,
    sliceFrom_ok (by omega), ok_bind, array_ok hlen, ok_bind]
  dsimp only
  refine ite_ok (fun _ => rfl) fun _ => ?_
  refine ite_ok (fun _ => rfl) fun _ => ?_
  cases hobj : tx.ledgerObjects (data.drop 2) with
  | none => rfl
  | some obj =>
    have hwithin : (SlotEntry.top obj SF_LEDGER_ENTRY).Within := within_top (htx.ledgerObjects _ _ hobj)
    dsimp only
    rw [fields_ok hwithin, ok_bind]
    cases hfields : (SlotEntry.top obj SF_LEDGER_ENTRY).fields with
    | error m => rfl
    | ok fs =>
      simp only [Functor.map, Except.map, find?_place]
      cases hfind : fs.find? (·.code = SF_LEDGER_ENTRY_TYPE) with
      | none => rfl
      | some f =>
        have hcode : f.code = SF_LEDGER_ENTRY_TYPE := by simpa using List.find?_some hfind
        have hends : f.content.1 + 2 ≤ obj.length := uint16_ends hfields (List.mem_of_find?_eq_some hfind) (by decide) hcode
        have hsmall : obj.length < 2 ^ 63 := hwithin.storage_lt
        simp only [Option.map_some, content_ok, ok_bind]
        rw [index_getD (by omega) 0, ok_bind, add_ok (by omega), ok_bind, index_getD (by omega) 0, ok_bind]
        exact ite_ok (fun _ => rfl) fun _ => rfl

omit htx in
theorem isEntropy_ok {txb : Bytes} {f : Sim.FieldRef} (hf : f.stop ≤ txb.length) :
    isEntropy txb (place f) =
      .ok (decide (f.code = SF_TRANSACTION_TYPE ∧ (txb.drop f.body).take (f.stop - f.body) = [0, 89])) := by
  have hslice := slice_ok f.body_le_stop hf
  show (if f.code = SF_TRANSACTION_TYPE then (do pure (decide ((← slice txb f.body f.stop) = [0, 89]))) else pure false) = _
  by_cases h : f.code = SF_TRANSACTION_TYPE
  · rw [if_pos h, hslice]
    simp only [h, true_and]
    rfl
  · rw [if_neg h]
    simp only [h, false_and]
    rfl

theorem txnEntry_ok {data : Bytes} (hdata : data.length = 32) : txnEntry tx data = .ok (Sim.txnEntry tx data) := by
  rw [txnEntry, Sim.txnEntry]
  refine ite_ok (fun _ => rfl) fun _ => ?_
  rw [array_ok hdata, ok_bind]
  cases htxb : tx.txns data with
  | none => rfl
  | some txb =>
    have hwithin : (SlotEntry.top txb SF_TRANSACTION).Within := within_top (htx.txns _ _ htxb)
    dsimp only
    rw [fields_ok hwithin, ok_bind]
    cases hfields : (SlotEntry.top txb SF_TRANSACTION).fields with
    | error m => rfl
    | ok fs =>
      have hany : (fs.map place).anyM (isEntropy txb) = .ok (fs.any fun f =>
          decide (f.code = SF_TRANSACTION_TYPE ∧ (txb.drop f.body).take (f.stop - f.body) = [0, 89])) := by
        rw [anyM_ok (g := fun f : FieldRef => decide (f.code = SF_TRANSACTION_TYPE ∧
          (txb.drop f.body).take (f.stop - f.body) = [0, 89])), List.any_map]
        · rfl
        · intro g hg
          obtain ⟨f, hf, rfl⟩ := List.mem_map.1 hg
          exact isEntropy_ok (field_within hfields hf).1
      simp only [Functor.map, Except.map, hany, ok_bind]
      exact ite_ok (fun _ => rfl) fun _ => rfl

/-- The bytes are those the call over numbers reads for itself. -/
theorem slotSetEntry_ok {mem : Bytes} {rp rl : UInt32} (hin : oob mem rp rl = false) (into : Nat) :
    slotSetEntry tx (readMem mem rp rl) into s = .ok (Sim.slotSetEntry tx mem rp rl into s) := by
  have hnot : ¬oob mem rp rl = true := by rw [hin]; decide
  rw [slotSetEntry, Sim.slotSetEntry, if_neg hnot]
  dsimp only
  refine ite_ok (fun _ => rfl) fun hargs => ?_
  refine ite_ok (fun _ => rfl) fun _ => ?_
  apply ite_ok
  · intro hlen
    exact ledgerEntry_ok htx hlen
  · intro hlen
    exact txnEntry_ok htx (by omega)

end

section
variable {s : Slots} (h : s.All SlotEntry.Within)
include h

theorem slotSubarrayEntry_ok (parent : Nat) (idx : UInt32) (into : Nat) :
    slotSubarrayEntry parent idx into s = .ok (Sim.slotSubarrayEntry parent idx into s) := by
  rw [slotSubarrayEntry, Sim.slotSubarrayEntry]
  cases hlive : s.map.lookup parent with
  | none => rfl
  | some p =>
    dsimp only
    refine ite_ok (fun _ => rfl) fun _ => ?_
    refine ite_ok (fun _ => rfl) fun _ => ?_
    refine ite_ok (fun _ => rfl) fun _ => ?_
    rw [fields_ok (h parent p hlive)]
    cases p.fields with
    | error m => rfl
    | ok fs =>
      simp only [Functor.map, Except.map, ok_bind, List.getElem?_map]
      cases fs[idx.toNat]? with
      | none => rfl
      | some f =>
        simp only [Option.map_some, child_ok, ok_bind]
        rfl

theorem slotSubfieldEntry_ok (parent : Nat) (fieldId : UInt32) (into : Nat) :
    slotSubfieldEntry parent fieldId into s = .ok (Sim.slotSubfieldEntry parent fieldId into s) := by
  rw [slotSubfieldEntry, Sim.slotSubfieldEntry]
  cases hlive : s.map.lookup parent with
  | none => rfl
  | some p =>
    dsimp only
    refine ite_ok (fun _ => rfl) fun _ => ?_
    refine ite_ok (fun _ => rfl) fun _ => ?_
    refine ite_ok (fun _ => rfl) fun _ => ?_
    refine ite_ok (fun _ => rfl) fun _ => ?_
    rw [fields_ok (h parent p hlive)]
    cases p.fields with
    | error m => rfl
    | ok fs =>
      simp only [Functor.map, Except.map, ok_bind, find?_place]
      cases fs.find? (·.code = fieldId) with
      | none => rfl
      | some f =>
        simp only [Option.map_some, child_ok, ok_bind]
        rfl

theorem slotCount_ok (slotNo : Int32) : slotCount slotNo s = .ok (Sim.slotCount slotNo s) := by
  rw [slotCount, Sim.slotCount]
  cases hlive : s.map.lookup slotNo.toUInt32.toNat with
  | none => rfl
  | some e =>
    dsimp only
    refine ite_ok (fun _ => rfl) fun _ => ?_
    rw [fields_ok (h _ e hlive)]
    cases e.fields with
    | error m => rfl
    | ok fs =>
      simp only [Functor.map, Except.map, ok_bind, List.length_map]
      rfl

/-- The length of an entry is a word. -/
theorem slotSize_ok (slotNo : UInt32) : ∃ size, slotSize slotNo s = .ok size := by
  rw [slotSize]
  cases hlive : s.map.lookup slotNo.toNat with
  | none => exact ⟨_, rfl⟩
  | some e =>
    dsimp only
    rw [sub_ok (h _ e hlive).start_le]
    exact ⟨_, rfl⟩

/-- An amount has a first byte. -/
theorem slotType_ok (slotNo flags : UInt32) : ∃ code, slotType slotNo flags s = .ok code := by
  rw [slotType]
  cases hlive : s.map.lookup slotNo.toNat with
  | none => exact ⟨_, rfl⟩
  | some e =>
    have hwithin := h _ e hlive
    have hstop := hwithin.stop_le
    dsimp only
    by_cases hname : flags = 0
    · rw [if_pos hname]
      exact ⟨_, rfl⟩
    rw [if_neg hname]
    by_cases hnative : flags = 1
    · rw [if_pos hnative]
      by_cases hamount : e.kind ≠ .Leaf STI_AMOUNT
      · rw [if_pos hamount]
        exact ⟨_, rfl⟩
      · have hlt := hwithin.amount (not_not.1 hamount)
        rw [if_neg hamount, index_getD (by omega) 0]
        exact ⟨_, rfl⟩
    · rw [if_neg hnative]
      exact ⟨_, rfl⟩

end

end Words

/-! ## Tables that calls reach -/

/-- What the calls keep of the table: its numbers are tracked, and its entries lie inside their objects. -/
structure Sane (s : Slots) : Prop where
  tracked : Tracked s
  within : s.All SlotEntry.Within

theorem sane_empty : Sane {} := ⟨tracked_empty, fun _ _ h => nomatch h⟩

section
variable {tx : TxFixture} {s s' : Slots} {c : Call} {code : Int} {e : SlotEntry}

theorem filling_within (htx : Words.Fits tx) (h : s.All SlotEntry.Within) {into : Nat}
    (hfill : c.filling tx s = some (into, .ok (.ok e))) : e.Within := by
  rcases filling_origin hfill with horigin | ⟨-, rfl⟩
  · cases horigin with
    | ledger hobj _ => exact within_top (htx.ledgerObjects _ _ hobj)
    | txn htxb _ => exact within_top (htx.txns _ _ htxb)
    | field hlive hfields hf => exact within_child (h _ _ hlive) hfields hf
  · refine within_top ?_
    cases hmeta : tx.provisionalMeta with
    | none => decide
    | some m => exact htx.provisionalMeta m hmeta

theorem sane_host (htx : Words.Fits tx) (h : Sane s) (hcall : host tx s c = .ok (code, s')) : Sane s' :=
  ⟨tracked_host h.tracked hcall, all_host h.tracked h.within (fun _ _ => filling_within htx h.within) hcall⟩

end

end Xahc.Sim

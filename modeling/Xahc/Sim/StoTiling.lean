/-
What the full walker accepts it accepts again: a field does not depend on the limit it was read under, so the
content of a container parses on its own, into the fields the container's own parse walked over. A slot that was
filled from a parsed object can therefore always be parsed.
-/
import Xahc.Sim.SlotTable

namespace Xahc.Sim

open Xahc.Data (Bytes)
open StoField

variable {d : Bytes} {p pos stop stop' fin ty : Nat} {f : FieldRef} {fs : List FieldRef}

/-! ## What a parse says -/

/-- A field that parses has a header, and ends where its content says, within the limit. -/
theorem parseField_cases {hf : f.start = p} (h : parseField d p stop = .ok ⟨f, hf⟩) :
    ∃ hl, decodeHeader d p = .ok (f.ty, f.field, hl) ∧ f.body = p + hl ∧ f.stop ≤ stop ∧
      ((f.ty = STI_OBJECT ∨ f.ty = STI_ARRAY) ∧ (∃ hle, parseChildren d f.ty p stop f.body = .ok ⟨f.stop, hle⟩) ∨
        (f.ty ≠ STI_OBJECT ∧ f.ty ≠ STI_ARRAY) ∧ ∃ w, leafLen d f.ty f.body p = .ok w ∧ f.stop = f.body + w) := by
  rw [parseField] at h
  split at h
  · cases h
  · next ty field hl hdr =>
    by_cases hty : ty = STI_OBJECT ∨ ty = STI_ARRAY
    · rw [if_pos hty] at h
      rcases hch : parseChildren d ty p stop (p + hl) with m | ⟨fin, hfin⟩
      · rw [hch] at h
        cases h
      · rw [hch] at h
        by_cases hstop : stop < fin
        · simp only [bind, Except.bind, if_pos hstop, reduceCtorEq] at h
        · simp only [bind, Except.bind, if_neg hstop, Except.ok.injEq, Subtype.mk.injEq] at h
          subst h
          exact ⟨hl, hdr, rfl, not_lt.1 hstop, Or.inl ⟨hty, hfin, hch⟩⟩
    · rw [if_neg hty] at h
      rcases hlen : leafLen d ty (p + hl) p with m | w
      · rw [hlen] at h
        cases h
      · rw [hlen] at h
        by_cases hstop : stop < p + hl + w
        · simp only [bind, Except.bind, if_pos hstop, reduceCtorEq] at h
        · simp only [bind, Except.bind, if_neg hstop, Except.ok.injEq, Subtype.mk.injEq] at h
          subst h
          exact ⟨hl, hdr, rfl, not_lt.1 hstop, Or.inr ⟨not_or.1 hty, w, hlen, rfl⟩⟩

/-- The children of a container end at its marker, or go on after a field. -/
theorem parseChildren_cases {hle : p ≤ fin} (h : parseChildren d ty pos stop p = .ok ⟨fin, hle⟩) :
    p < stop ∧ (d[p]? = some (endMarker ty) ∧ fin = p + 1 ∨
      ∃ b f, d[p]? = some b ∧ b ≠ endMarker ty ∧ f.stop ≤ fin ∧
        (∃ hf, parseField d p stop = .ok ⟨f, hf⟩) ∧ ∃ hle, parseChildren d ty pos stop f.stop = .ok ⟨fin, hle⟩) := by
  rw [parseChildren] at h
  by_cases hp : stop ≤ p
  · rw [if_pos hp] at h
    cases h
  rw [if_neg hp] at h
  refine ⟨not_le.1 hp, ?_⟩
  split at h
  · cases h
  · next b hb =>
    by_cases hmark : b = endMarker ty
    · rw [if_pos hmark] at h
      cases h
      exact Or.inl ⟨hmark ▸ hb, rfl⟩
    · rw [if_neg hmark] at h
      split at h
      · cases h
      · next f hf hfield =>
        rcases hch : parseChildren d ty pos stop f.stop with m | ⟨fin', hfin⟩
        · rw [hch] at h
          cases h
        · rw [hch] at h
          simp only [bind, Except.bind, Except.ok.injEq, Subtype.mk.injEq] at h
          subst h
          exact Or.inr ⟨b, f, hb, hmark, hfin, ⟨hf, hfield⟩, hfin, hch⟩

theorem parseFields_cases (h : parseFields d p stop = .ok fs) :
    stop ≤ p ∧ fs = [] ∨ p < stop ∧ ∃ f rest, fs = f :: rest ∧ (∃ hf, parseField d p stop = .ok ⟨f, hf⟩) ∧
      parseFields d f.stop stop = .ok rest := by
  rw [parseFields] at h
  by_cases hp : p < stop
  · rw [if_pos hp] at h
    split at h
    · cases h
    · next f hf hfield =>
      rcases hrest : parseFields d f.stop stop with m | rest
      · rw [hrest] at h
        cases h
      · rw [hrest] at h
        cases h
        exact Or.inr ⟨hp, f, rest, rfl, ⟨hf, hfield⟩, hrest⟩
  · rw [if_neg hp] at h
    cases h
    exact Or.inl ⟨not_lt.1 hp, rfl⟩

/-! ## Another limit -/

mutual

/-- A field parses under every limit it does not run past. -/
theorem parseField_limit {d : Bytes} {p stop stop' : Nat} {f : FieldRef} {hf : f.start = p}
    (h : parseField d p stop = .ok ⟨f, hf⟩) (hstop : f.stop ≤ stop') : parseField d p stop' = .ok ⟨f, hf⟩ := by
  obtain ⟨hl, hdr, hbody, -, ⟨hty, hle, hch⟩ | ⟨hty, w, hlen, hend⟩⟩ := parseField_cases h
  · have hpos := decodeHeader_ok hdr
    obtain ⟨ty, field, start, body, fin, hlt, hle'⟩ := f
    obtain rfl : start = p := hf
    obtain rfl : body = start + hl := hbody
    exact (parseField_container hdr hty (parseChildren_limit hch hstop) hstop).2.2
  · obtain ⟨ty, field, start, body, fin, hlt, hle⟩ := f
    obtain rfl : start = p := hf
    obtain rfl : body = start + hl := hbody
    obtain rfl : fin = start + hl + w := hend
    exact (parseField_leaf hdr hty hlen hstop).2.2
termination_by (d.length - p, 0)

theorem parseChildren_limit {d : Bytes} {ty pos p stop stop' fin : Nat} {hle : p ≤ fin}
    (h : parseChildren d ty pos stop p = .ok ⟨fin, hle⟩) (hstop : fin ≤ stop') :
    parseChildren d ty pos stop' p = .ok ⟨fin, hle⟩ := by
  obtain ⟨-, ⟨hmark, rfl⟩ | ⟨b, f, hb, hne, hfin, ⟨hf, hfield⟩, hle', hrest⟩⟩ := parseChildren_cases h
  · exact parseChildren_close hstop hmark
  · have hlt := (List.getElem?_eq_some_iff.mp hb).1
    have hlen := f.length_pos
    have hp : p < stop' := by omega
    exact (parseChildren_next hp hb hne (parseField_limit hfield (hfin.trans hstop))
      (parseChildren_limit hrest hstop)).2
termination_by (d.length - p, 1)

end

/-! ## The fields of a container -/

/-- The fields the parse of a container of type `ty` walks over under a limit, from `p` up to the position after the
container's end marker. -/
inductive Walks (d : Bytes) (ty stop : Nat) : Nat → List FieldRef → Nat → Prop
  | close {p : Nat} : p < stop → d[p]? = some (endMarker ty) → Walks d ty stop p [] (p + 1)
  | next {p fin : Nat} {b : UInt8} {f : FieldRef} {hf : f.start = p} {fs : List FieldRef} :
    p < stop → d[p]? = some b → b ≠ endMarker ty → parseField d p stop = .ok ⟨f, hf⟩ →
      Walks d ty stop f.stop fs fin → Walks d ty stop p (f :: fs) fin

theorem Walks.lt (h : Walks d ty stop p fs fin) : p < fin := by
  induction h with
  | close => exact Nat.lt_succ_self _
  | @next p fin b f hf fs _ _ _ _ _ ih =>
    have := f.length_pos
    omega

theorem parseChildren_walks {d : Bytes} {ty pos p stop fin : Nat}
    (h : ∃ hle, parseChildren d ty pos stop p = .ok ⟨fin, hle⟩) : ∃ fs, Walks d ty stop p fs fin := by
  obtain ⟨hle, h⟩ := h
  obtain ⟨hp, ⟨hmark, rfl⟩ | ⟨b, f, hb, hne, hfin, ⟨hf, hfield⟩, hrest⟩⟩ := parseChildren_cases h
  · exact ⟨[], .close hp hmark⟩
  · have hlt := (List.getElem?_eq_some_iff.mp hb).1
    have hlen := f.length_pos
    obtain ⟨fs, hfs⟩ := parseChildren_walks hrest
    exact ⟨f :: fs, .next hp hb hne hfield hfs⟩
termination_by d.length - p

/-- The relation is the container's parse: it ends where the parse ends. -/
theorem parseChildren_iff_walks :
    (∃ hle, parseChildren d ty pos stop p = .ok ⟨fin, hle⟩) ↔ ∃ fs, Walks d ty stop p fs fin := by
  constructor
  · exact parseChildren_walks
  · rintro ⟨fs, h⟩
    induction h with
    | close hp hmark => exact ⟨_, parseChildren_close hp hmark⟩
    | next hp hb hne hfield _ ih =>
      obtain ⟨hle, hrest⟩ := ih
      exact parseChildren_next hp hb hne hfield hrest

/-- The fields cover a range in order: each starts where the one before it ends. -/
def Tiles : List FieldRef → Nat → Nat → Prop
  | [], start, stop => start = stop
  | f :: fs, start, stop => f.start = start ∧ Tiles fs f.stop stop

/-- What a container's parse walked over tiles the content, and is what the content parses into by itself. -/
theorem Walks.reparse (h : Walks d ty stop p fs fin) : parseFields d p (fin - 1) = .ok fs ∧ Tiles fs p (fin - 1) := by
  induction h with
  | @close p hp hmark => exact ⟨parseFields_nil, rfl⟩
  | @next p fin b f hf fs hp hb hne hfield hrest ih =>
    have hlt := hrest.lt
    have hlen := f.length_pos
    have hfield' : parseField d p (fin - 1) = .ok ⟨f, hf⟩ := parseField_limit hfield (by omega)
    exact ⟨parseFields_cons (by omega) hfield' ih.1, hf, ih.2⟩

theorem container_tiles {hf : f.start = p} (h : parseField d p stop = .ok ⟨f, hf⟩)
    (hty : f.ty = STI_OBJECT ∨ f.ty = STI_ARRAY) :
    ∃ fs, Walks d f.ty stop f.body fs f.stop ∧ parseFields d f.body (f.stop - 1) = .ok fs ∧
      Tiles fs f.body (f.stop - 1) := by
  obtain ⟨hl, -, -, -, ⟨-, hch⟩ | ⟨hleaf, -⟩⟩ := parseField_cases h
  · obtain ⟨fs, hfs⟩ := parseChildren_walks hch
    exact ⟨fs, hfs, hfs.reparse⟩
  · exact absurd hty (not_or.2 hleaf)

theorem mem_parseFields {d : Bytes} {p stop : Nat} {fs : List FieldRef} {g : FieldRef} (h : parseFields d p stop = .ok fs) (hg : g ∈ fs) :
    ∃ q hq, parseField d q stop = .ok ⟨g, hq⟩ := by
  obtain ⟨-, rfl⟩ | ⟨hp, f, rest, rfl, ⟨hf, hfield⟩, hrest⟩ := parseFields_cases h
  · cases hg
  · rcases List.mem_cons.1 hg with rfl | hg
    · exact ⟨p, hf, hfield⟩
    · have hlen := f.length_pos
      exact mem_parseFields hrest hg
termination_by stop - p

/-! ## Slots that parse -/

variable {tx : TxFixture} {s s' : Slots} {c : Call} {code : Int} {n : Nat} {e : SlotEntry}

/-- A slot with fields can be parsed. -/
def SlotEntry.Parses (e : SlotEntry) : Prop := e.kind = .Object ∨ e.kind = .Array → ∃ fs, e.fields = .ok fs

/-- A field of a slot makes a slot that can be parsed in turn. -/
theorem parses_child (h : e.fields = .ok fs) (hf : f ∈ fs) : (e.child f).Parses := by
  obtain ⟨q, hq, hfield⟩ := mem_parseFields h hf
  intro hkind
  have hty : f.ty = STI_OBJECT ∨ f.ty = STI_ARRAY := by
    unfold SlotEntry.child at hkind
    dsimp only at hkind
    by_cases hobj : f.ty = STI_OBJECT
    · exact Or.inl hobj
    · by_cases harr : f.ty = STI_ARRAY
      · exact Or.inr harr
      · simp [if_neg hobj, if_neg harr] at hkind
  obtain ⟨fs', -, hfs', -⟩ := container_tiles hfield hty
  refine ⟨fs', ?_⟩
  rw [SlotEntry.fields, SlotEntry.child, FieldRef.content, if_pos hty]
  exact hfs'

/-- What every live slot's entry is. -/
def Slots.All (P : SlotEntry → Prop) (s : Slots) : Prop := ∀ n e, s.map.lookup n = some e → P e

section
variable {P : SlotEntry → Prop}

theorem all_insert (h : s.All P) (he : P e) (n : Nat) : (s.insert n e).All P := by
  intro k e' hk
  by_cases hkn : k = n
  · subst hkn
    rw [Slots.insert, AList.lookup_insert] at hk
    cases hk
    exact he
  · rw [Slots.insert, AList.lookup_insert_ne hkn] at hk
    exact h k e' hk

/-- What the entries are, and what a call fills in, the entries are after the call. -/
theorem all_host (tracked : Tracked s) (h : s.All P) (hfill : ∀ into e, c.filling tx s = some (into, .ok (.ok e)) → P e)
    (hcall : host tx s c = .ok (code, s')) : s'.All P := by
  rcases host_cases hcall with ⟨-, rfl⟩ | ⟨n, -, -, -, rfl⟩ | ⟨into, e, hf, eq⟩
  · exact h
  · intro k e hk
    by_cases hkn : k = n
    · subst hkn
      rw [AList.lookup_erase] at hk
      cases hk
    · exact h k e (by rwa [AList.lookup_erase_ne hkn] at hk)
  · have he := hfill into e hf
    obtain ⟨-, room⟩ := filling_checked hf
    rcases place_cases tracked into e room with ⟨-, eq'⟩ | ⟨-, n, rest, -, eq'⟩ | ⟨-, n, -, -, -, -, -, eq'⟩
    all_goals
      rw [eq'] at eq
      cases eq
      exact all_insert h he _

end

/-- The table holds nothing that does not parse. -/
def Parsing (s : Slots) : Prop := s.All SlotEntry.Parses

/-- Calls that fill a slot from the ledger or from another slot. -/
def Call.FromSlots : Call → Prop
  | .metaSlot _ => False
  | _ => True

/-- Where the content of a slot comes from: the whole of an object or a transaction of the fixture, or a field of
another slot. -/
inductive Origin (tx : TxFixture) (s : Slots) : SlotEntry → Prop
  | ledger {key obj : Bytes} {fs : List FieldRef} : tx.ledgerObjects key = some obj →
      (SlotEntry.top obj SF_LEDGER_ENTRY).fields = .ok fs → Origin tx s (.top obj SF_LEDGER_ENTRY)
  | txn {key txb : Bytes} {fs : List FieldRef} : tx.txns key = some txb →
      (SlotEntry.top txb SF_TRANSACTION).fields = .ok fs → Origin tx s (.top txb SF_TRANSACTION)
  | field {n : Nat} {p : SlotEntry} {f : FieldRef} {fs : List FieldRef} : s.map.lookup n = some p → p.fields = .ok fs →
      f ∈ fs → Origin tx s (p.child f)

theorem ledgerEntry_origin {data : Bytes} (h : ledgerEntry tx data = .ok (.ok e)) : Origin tx s e := by
  unfold ledgerEntry at h
  dsimp only at h
  split at h
  · cases h
  · split at h
    · cases h
    · split at h
      · cases h
      · next obj hobj =>
        split at h
        · cases h
        · next fields hfields =>
          split at h
          · cases h
          · split at h
            · cases h
              exact .ledger hobj hfields
            · cases h

theorem txnEntry_origin {data : Bytes} (h : txnEntry tx data = .ok (.ok e)) : Origin tx s e := by
  unfold txnEntry at h
  dsimp only at h
  split at h
  · cases h
  · split at h
    · cases h
    · next txb htxb =>
      split at h
      · cases h
      · next fields hfields =>
        split at h
        · cases h
        · cases h
          exact .txn htxb hfields

theorem slotSetEntry_origin {mem : Bytes} {rp rl : UInt32} {into : Nat}
    (h : slotSetEntry tx mem rp rl into s = .ok (.ok e)) : Origin tx s e := by
  unfold slotSetEntry at h
  dsimp only at h
  split at h
  · cases h
  · split at h
    · cases h
    · split at h
      · cases h
      · split at h
        · exact ledgerEntry_origin h
        · exact txnEntry_origin h

theorem slotSubarrayEntry_origin {parent : Nat} {idx : UInt32} {into : Nat}
    (h : slotSubarrayEntry parent idx into s = .ok (.ok e)) : Origin tx s e := by
  unfold slotSubarrayEntry at h
  split at h
  · cases h
  · next p live =>
    split at h
    · cases h
    · split at h
      · cases h
      · split at h
        · cases h
        · split at h
          · cases h
          · next elems helems =>
            split at h
            · cases h
            · next el hel =>
              cases h
              exact .field live helems (List.mem_of_getElem? hel)

theorem slotSubfieldEntry_origin {parent : Nat} {fieldId : UInt32} {into : Nat}
    (h : slotSubfieldEntry parent fieldId into s = .ok (.ok e)) : Origin tx s e := by
  unfold slotSubfieldEntry at h
  split at h
  · cases h
  · next p live =>
    split at h
    · cases h
    · split at h
      · cases h
      · split at h
        · cases h
        · split at h
          · cases h
          · split at h
            · cases h
            · next fields hfields =>
              split at h
              · cases h
              · next f hf =>
                cases h
                exact .field live hfields (List.mem_of_find?_eq_some hf)

theorem metaSlotEntry_top {into : Nat} (h : metaSlotEntry tx into s = .ok (.ok e)) :
    e = .top (tx.provisionalMeta.getD DEFAULT_META) SF_TRANSACTION_METADATA := by
  unfold metaSlotEntry at h
  split at h
  · cases h
  · split at h
    · cases h
    · split at h
      · cases h
      · cases h
        rfl

/-- What a call puts into a slot comes from there, but for the metadata. -/
theorem filling_origin {into : Nat} (h : c.filling tx s = some (into, .ok (.ok e))) :
    Origin tx s e ∨ ¬c.FromSlots ∧ e = .top (tx.provisionalMeta.getD DEFAULT_META) SF_TRANSACTION_METADATA := by
  cases c with
  | slotSet mem rp rl n =>
    obtain ⟨-, h⟩ := Prod.mk.inj (Option.some.inj h)
    exact .inl (slotSetEntry_origin h)
  | slotSubarray parent idx n =>
    obtain ⟨-, h⟩ := Prod.mk.inj (Option.some.inj h)
    exact .inl (slotSubarrayEntry_origin h)
  | slotSubfield parent id n =>
    obtain ⟨-, h⟩ := Prod.mk.inj (Option.some.inj h)
    exact .inl (slotSubfieldEntry_origin h)
  | metaSlot n =>
    obtain ⟨-, h⟩ := Prod.mk.inj (Option.some.inj h)
    exact .inr ⟨id, metaSlotEntry_top h⟩
  | slotClear => cases h

theorem Origin.parses (h : Origin tx s e) : e.Parses := by
  cases h with
  | ledger _ hfields => exact fun _ => ⟨_, hfields⟩
  | txn _ hfields => exact fun _ => ⟨_, hfields⟩
  | field _ hfields hf => exact parses_child hfields hf

/-- What a call on the ledger or on another slot puts into a slot can be parsed. -/
theorem filling_parses {into : Nat} (hc : c.FromSlots) (h : c.filling tx s = some (into, .ok (.ok e))) : e.Parses := by
  rcases filling_origin h with horigin | ⟨hmeta, -⟩
  · exact horigin.parses
  · exact absurd hc hmeta

theorem parsing_reached (hs : Reached tx (fun _ c => c.FromSlots) s) : Parsing s := by
  induction hs with
  | start => exact fun n e hn => by cases hn
  | call hs hc hcall ih => exact all_host (tracked_reached hs) ih (fun _ _ => filling_parses hc) hcall

/-! ## No malformed slot -/

theorem slotCount_answers (h : Parsing s) (slotNo : Int32) : ∃ answer, slotCount slotNo s = .ok answer := by
  unfold slotCount
  split
  · exact ⟨_, rfl⟩
  · next e live =>
    split
    · exact ⟨_, rfl⟩
    · next harr =>
      obtain ⟨fs, hfs⟩ := h _ e live (Or.inr (not_not.1 harr))
      rw [hfs]
      exact ⟨_, rfl⟩

/-- A filling call answers when its checks do. -/
theorem fill_answers {into : Nat} {r : Except String (Except Int SlotEntry)} (h : ∃ answer, r = .ok answer) :
    ∃ answer, fill into s r = .ok answer := by
  obtain ⟨code | e, rfl⟩ := h
  · exact ⟨_, rfl⟩
  · exact ⟨_, rfl⟩

theorem slotSubarray_answers (h : Parsing s) (parent idx newSlot : UInt32) :
    ∃ answer, host tx s (.slotSubarray parent idx newSlot) = .ok answer := by
  refine fill_answers ?_
  unfold slotSubarrayEntry
  split
  · exact ⟨_, rfl⟩
  · next p live =>
    split
    · exact ⟨_, rfl⟩
    · next harr =>
      obtain ⟨elems, helems⟩ := h _ p live (Or.inr (not_not.1 harr))
      rw [helems]
      dsimp only
      split
      · exact ⟨_, rfl⟩
      · split
        · exact ⟨_, rfl⟩
        · cases elems[idx.toNat]? <;> exact ⟨_, rfl⟩

theorem slotSubfield_answers (h : Parsing s) (parent fieldId newSlot : UInt32) :
    ∃ answer, host tx s (.slotSubfield parent fieldId newSlot) = .ok answer := by
  refine fill_answers ?_
  unfold slotSubfieldEntry
  split
  · exact ⟨_, rfl⟩
  · next p live =>
    split
    · exact ⟨_, rfl⟩
    · split
      · exact ⟨_, rfl⟩
      · split
        · exact ⟨_, rfl⟩
        · split
          · exact ⟨_, rfl⟩
          · next hobj =>
            obtain ⟨fields, hfields⟩ := h _ p live (Or.inl (not_not.1 hobj))
            rw [hfields]
            dsimp only
            cases fields.find? (·.code = fieldId) <;> exact ⟨_, rfl⟩

/-- Parsed fields tile and parse again: a field lies within its limit, and the content of a container is covered, in
order and without gaps, by the fields its own parse walked over, which is also what the content parses into alone.
So in every table that calls on the ledger and on slots reach, each object and each array parses, and no call on a
slot ends the run over a malformed one. -/
theorem fields_tile_and_slots_parse (tx : TxFixture) :
    (∀ (d : Bytes) (pos stop : Nat) (f : FieldRef) (hf : f.start = pos), pos < stop → stop ≤ d.length →
      parseField d pos stop = .ok ⟨f, hf⟩ →
        pos < f.body ∧ f.body ≤ f.stop ∧ f.stop ≤ stop ∧
          (f.ty = STI_OBJECT ∨ f.ty = STI_ARRAY →
            ∃ fs, Walks d f.ty stop f.body fs f.stop ∧ parseFields d f.body (f.stop - 1) = .ok fs ∧
              Tiles fs f.body (f.stop - 1))) ∧
    ∀ s, Reached tx (fun _ c => c.FromSlots) s →
      (∀ n e, s.map.lookup n = some e → e.kind = .Object ∨ e.kind = .Array → ∃ fs, e.fields = .ok fs) ∧
      (∀ slotNo, ∃ answer, slotCount slotNo s = .ok answer) ∧
      (∀ parent fieldId newSlot, ∃ answer, host tx s (.slotSubfield parent fieldId newSlot) = .ok answer) ∧
      ∀ parent idx newSlot, ∃ answer, host tx s (.slotSubarray parent idx newSlot) = .ok answer := by
  constructor
  · intro d pos stop f hf _ _ h
    obtain ⟨hl, -, -, hstop, -⟩ := parseField_cases h
    exact ⟨hf ▸ f.start_lt_body, f.body_le_stop, hstop, container_tiles h⟩
  · intro s hs
    have parsing := parsing_reached hs
    exact ⟨parsing, slotCount_answers parsing, slotSubfield_answers parsing, slotSubarray_answers parsing⟩

/-- A fixture in which every transaction is the sample one, under the rules that let a hook read it. -/
def sampleTx : TxFixture where
  ledgerObjects _ := none
  txns _ := some (encodeAll sampleFields)
  callback := false
  provisionalMeta := none
  rules := { fix20261005 := false }
  randomKey := []

/-- The sample transaction as a slot, its hook parameters, and these as a slot. -/
def sampleSlot : SlotEntry := .top (encodeAll sampleFields) SF_TRANSACTION

/-- The hook parameters of the sample transaction. -/
def sampleParameters : FieldRef :=
  (array 19 [object 23 [leaf STI_VL 24 [0x41]], object 23 [leaf STI_VL 24 [0x42], leaf STI_VL 25 []]]).ref 5

theorem sampleSlot_fields : sampleSlot.fields = .ok (refs 0 sampleFields) := by
  have h := parseFields_at sampleFields_topLevel.canonical (Xahc.Data.at_zero _)
  rwa [Nat.zero_add] at h

theorem sampleTx_set : host sampleTx {} (.slotSet (List.replicate 33 0) 0 32 0) =
    .ok (1, { map := (∅ : AList _).insert 1 sampleSlot, counter := 1 }) := by
  have found : slotSetEntry sampleTx (List.replicate 33 0) 0 32 0 {} = .ok (.ok sampleSlot) := by
    have hfields : (SlotEntry.top (encodeAll sampleFields) SF_TRANSACTION).fields = _ := sampleSlot_fields
    show txnEntry sampleTx (List.replicate 32 0) = _
    simp only [txnEntry, sampleTx, hfields]
    rfl
  show fill 0 _ (slotSetEntry sampleTx (List.replicate 33 0) 0 32 0 {}) = _
  rw [found]
  rfl

theorem sampleTx_subfield :
    host sampleTx { map := (∅ : AList _).insert 1 sampleSlot, counter := 1 } (.slotSubfield 1 0xF0013 0) =
      .ok (2, { map := ((∅ : AList _).insert 1 sampleSlot).insert 2 (sampleSlot.child sampleParameters), counter := 2 }) := by
  have found : slotSubfieldEntry 1 0xF0013 0 { map := (∅ : AList _).insert 1 sampleSlot, counter := 1 } =
      .ok (.ok (sampleSlot.child sampleParameters)) := by
    have live : ((∅ : AList fun _ : Nat => SlotEntry).insert 1 sampleSlot).lookup 1 = some sampleSlot :=
      AList.lookup_insert _
    simp only [slotSubfieldEntry, live, sampleSlot_fields]
    rfl
  show fill 0 _ (slotSubfieldEntry 1 0xF0013 0 _) = _
  rw [found]
  rfl

/-- The hook parameters of the sample transaction tile, and once they are in a slot they can be counted. -/
theorem fields_tile_and_slots_parse_sample :
    (∃ fs, parseFields (encodeAll sampleFields) 7 (sampleParameters.stop - 1) = .ok fs ∧
      Tiles fs 7 (sampleParameters.stop - 1)) ∧
    ∃ s e, Reached sampleTx (fun _ c => c.FromSlots) s ∧ s.map.lookup 2 = some e ∧ e.kind = .Array ∧
      ∃ answer, slotCount 2 s = .ok answer := by
  obtain ⟨hfield, hslots⟩ := fields_tile_and_slots_parse sampleTx
  constructor
  · have hparse : parseField (encodeAll sampleFields) 5 sampleParameters.stop = .ok ⟨sampleParameters, rfl⟩ :=
      parseField_at (sampleFields_topLevel.canonical _ (by simp [sampleFields])) (List.isPrefixOf_iff_prefix.1 rfl)
        (by decide)
    obtain ⟨-, -, -, htiles⟩ := hfield _ _ _ sampleParameters rfl (by decide) (by decide) hparse
    obtain ⟨fs, -, hfs, htile⟩ := htiles (.inr rfl)
    exact ⟨fs, hfs, htile⟩
  · have reached : Reached sampleTx (fun _ c => c.FromSlots) _ :=
      .call (c := .slotSubfield 1 0xF0013 0) (.call (c := .slotSet (List.replicate 33 0) 0 32 0) .start trivial sampleTx_set)
        trivial sampleTx_subfield
    obtain ⟨-, hcount, -, -⟩ := hslots _ reached
    exact ⟨_, sampleSlot.child sampleParameters, reached, AList.lookup_insert _, rfl, hcount 2⟩

end Xahc.Sim

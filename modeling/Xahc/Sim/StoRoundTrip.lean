/-
Decoding undoes encoding: both walkers read back every field of a canonical list, the light one at
the offsets the host functions report, the full one as the fields the list was built from.
-/
import Xahc.Sim.StoFormat

namespace Xahc.Sim

open Xahc.Data

namespace StoField

/-- The field as the light walker reports it. -/
def light (f : StoField) : Light := ⟨f.encode.length, f.ty, f.code, f.lead.length, f.payload.length⟩

theorem header_le_encode (f : StoField) (p : Nat) :
    p + (header f.ty f.code).length ≤ p + f.encode.length := by
  obtain ⟨tail, eq⟩ := f.encode_header
  simp [eq]

/-- The field as the full walker reports it, when it starts at `p`. -/
def ref (f : StoField) (p : Nat) : FieldRef where
  ty := f.ty
  field := f.code
  start := p
  body := p + (header f.ty f.code).length
  stop := p + f.encode.length
  start_lt_body := Nat.lt_add_of_pos_right (List.length_pos_of_ne_nil (header_ne_nil _ _))
  body_le_stop := header_le_encode f p

/-- A leaf of which nothing follows its length prefix. -/
def OpenEnded : StoField → Prop
  | leaf ty _ payload => Prefixed ty ∧ payload = []
  | _ => False

end StoField

open StoField

variable {d : Bytes} {p stop turns ty n : Nat} {f : StoField} {fs : List StoField}

theorem At.encode_cons {tail : Bytes} (h : At d p (encodeAll (f :: fs) ++ tail)) :
    At d p f.encode ∧ At d (p + f.encode.length) (encodeAll fs ++ tail) := by
  rw [encodeAll, List.append_assoc] at h
  exact ⟨h.left, h.right⟩

/-! ## The light walker -/

/-- The byte after a field inside a container: the marker after the last one, and no marker before
another. -/
theorem next_byte {m : UInt8} (hmark : ∀ f ∈ fs, ∀ b, f.encode.head? = some b → b ≠ m)
    (h : At d p (encodeAll fs ++ [m])) : ∃ b, d[p]? = some b ∧ (b = m ↔ fs = []) := by
  cases fs with
  | nil => exact ⟨m, At.head h, by simp⟩
  | cons f fs =>
    obtain ⟨hf, -⟩ := At.encode_cons h
    rcases he : f.encode with _ | ⟨b, tail⟩
    · exact absurd he f.encode_ne_nil
    · rw [he] at hf
      exact ⟨b, hf.head, by simpa using hmark f List.mem_cons_self b (by simp [he])⟩

theorem lightChildren_at {walk : Nat → Option Light} (hne : fs ≠ []) (hturns : fs.length ≤ turns)
    (hwalk : ∀ f ∈ fs, ∀ q, At d q f.encode → q + f.encode.length < stop → walk q = some f.light)
    (hmark : ∀ f ∈ fs, ∀ b, f.encode.head? = some b → b ≠ endMarker ty)
    (h : At d p (encodeAll fs ++ [endMarker ty])) (hstop : p + (encodeAll fs).length < stop) :
    lightChildren walk d stop ty turns p = some (p + (encodeAll fs).length) := by
  induction fs generalizing turns p with
  | nil => exact absurd rfl hne
  | cons f fs ih =>
    obtain ⟨turns, rfl⟩ : ∃ t, turns = t + 1 := ⟨turns - 1, by simp at hturns; omega⟩
    obtain ⟨hf, hfs⟩ := At.encode_cons h
    simp only [encodeAll, List.length_append] at hstop ⊢
    have walked : walk p = some f.light := hwalk f List.mem_cons_self p hf (by omega)
    have inside : p + f.light.len < stop := by simp only [light]; omega
    -- the byte after the field decides between the marker and another field
    obtain ⟨b, hb, last⟩ := next_byte (fun g hg => hmark g (List.mem_cons_of_mem f hg)) hfs
    have byte : d[p + f.light.len]? = some b := hb
    simp only [lightChildren, walked, byte, inside, guard, if_true, bind, Option.bind]
    by_cases done : fs = []
    · simp [last.mpr done, done, encodeAll, light]
    · have more : ¬ b = endMarker ty := fun e => done (last.mp e)
      simp only [beq_iff_eq, more, if_false]
      rw [show p + f.light.len = p + f.encode.length from rfl,
        ih done (by simpa using hturns) (fun g hg => hwalk g (List.mem_cons_of_mem f hg))
          (fun g hg => hmark g (List.mem_cons_of_mem f hg)) hfs (by omega)]
      simp [Nat.add_assoc]

theorem leaf_body_pos {payload : Bytes} (h : LeafShape ty payload) :
    0 < (leafPrefix ty payload.length ++ payload).length := by
  rw [List.length_append]
  cases h with
  | fixed hty hw =>
    simp only [List.mem_cons, List.not_mem_nil, or_false] at hty
    rcases hty with rfl | rfl | rfl | rfl | rfl | rfl | rfl <;> simp [fixedWidth] at hw <;> omega
  | native _ _ => simp
  | issued _ _ => simp
  | prefixed hty _ =>
    have : 0 < (lengthPrefix payload.length).length := by
      unfold lengthPrefix
      split
      · simp
      · split <;> simp
    rw [leafPrefix_eq hty]
    omega

/-- The walker at a container whose fields it can walk. -/
theorem lightWalk_container {left code : Nat} (hty : ty = STI_OBJECT ∨ ty = STI_ARRAY) (hcode : InRange code)
    (hne : fs ≠ []) (hlen : fs.length ≤ 1024)
    (hwalk : ∀ f ∈ fs, ∀ q, At d q f.encode → q + f.encode.length < stop →
      lightWalk d stop {} left q = some f.light)
    (hmark : ∀ f ∈ fs, ∀ b, f.encode.head? = some b → b ≠ endMarker ty)
    (h : At d p (header ty code ++ (encodeAll fs ++ [endMarker ty])))
    (hstop : p + (header ty code ++ (encodeAll fs ++ [endMarker ty])).length ≤ stop) :
    lightWalk d stop {} (left + 1) p =
      some ⟨(header ty code ++ (encodeAll fs ++ [endMarker ty])).length, ty, code, (header ty code).length,
        (encodeAll fs).length⟩ := by
  simp only [List.length_append, List.length_singleton] at hstop ⊢
  have hrange : InRange ty := by rcases hty with rfl | rfl <;> exact ⟨by decide, by decide⟩
  have hdr := lightHeader_at hrange hcode h.left (show p + (header ty code).length < stop by omega)
  have accepted : lightRefused {} ty = false := by rcases hty with rfl | rfl <;> decide
  have measured : lightLength d ty (p + (header ty code).length) stop {} =
      some (none, p + (header ty code).length) := by
    rcases hty with rfl | rfl <;> simp [lightLength, lightWidth]
  have close := lightChildren_at hne hlen hwalk hmark h.right (by omega)
  simp only [lightWalk, hdr, accepted, measured, hty, close, guard, bind, Option.bind, pure, Bool.not_false,
    if_true, Nat.add_sub_cancel_left, Option.some.injEq, Light.mk.injEq, true_and]
  omega

theorem lightWalk_at (h : Canonical n f) : ∀ {left p stop : Nat}, n < left → At d p f.encode →
    p + f.encode.length ≤ stop → (f.OpenEnded → p + f.encode.length < stop) →
    lightWalk d stop {} left p = some f.light := by
  induction h with
  | @leaf n ty code payload hcode hshape =>
    intro left p stop hleft hat hstop hopen
    obtain ⟨left, rfl⟩ : ∃ l, left = l + 1 := ⟨left - 1, by omega⟩
    rw [encode] at hat hstop hopen
    -- the header may not end the buffer, so the body has to have a byte
    have body := leaf_body_pos hshape
    rw [List.length_append] at hstop hopen
    have hdr := lightHeader_at hshape.inRange hcode hat.left (show p + (header ty code).length < stop by omega)
    have measured := lightLength_at hshape hat.right (show _ ≤ stop by omega) (by
      intro prefixed empty
      have := hopen ⟨prefixed, empty⟩
      omega)
    rw [@List.length_append _ (leafPrefix ty payload.length)] at hstop
    have fits : ¬ stop - (p + (header ty code).length + (leafPrefix ty payload.length).length) < payload.length := by
      omega
    simp only [lightWalk, hdr, hshape.not_refused, measured, fits, guard, bind, Option.bind, pure, Bool.not_false,
      Bool.true_and, decide_false, if_true, light, encode, lead, StoField.ty, StoField.code, StoField.payload,
      List.length_append, Option.some.injEq, Light.mk.injEq, true_and, and_true]
    omega
  | @object n code fields hcode _ hne hlen hfields ih =>
    intro left p stop hleft hat hstop _
    obtain ⟨left, rfl⟩ : ∃ l, left = l + 1 := ⟨left - 1, by omega⟩
    rw [encode] at hat hstop
    exact lightWalk_container (Or.inl rfl) hcode hne hlen
      (fun g hg q hq hin => ih g hg (by omega) hq (by omega) (fun _ => hin))
      (fun g hg b hb => ((hfields g hg).head_ne_marker hb).1) hat hstop
  | @array n code elements hcode _ hne hlen _ hfields ih =>
    intro left p stop hleft hat hstop _
    obtain ⟨left, rfl⟩ : ∃ l, left = l + 1 := ⟨left - 1, by omega⟩
    rw [encode] at hat hstop
    exact lightWalk_container (Or.inr rfl) hcode hne hlen
      (fun g hg q hq hin => ih g hg (by omega) hq (by omega) (fun _ => hin))
      (fun g hg b hb => ((hfields g hg).head_ne_marker hb).2) hat hstop

/-! ## The full walker -/

theorem parseChildren_at (pos : Nat)
    (hparse : ∀ f ∈ fs, ∀ q, At d q f.encode → q + f.encode.length ≤ stop →
      parseField d q stop = .ok ⟨f.ref q, rfl⟩)
    (hmark : ∀ f ∈ fs, ∀ b, f.encode.head? = some b → b ≠ endMarker ty)
    (h : At d p (encodeAll fs ++ [endMarker ty])) (hstop : p + (encodeAll fs).length < stop) :
    ∃ hle, parseChildren d ty pos stop p = .ok ⟨p + (encodeAll fs).length + 1, hle⟩ := by
  induction fs generalizing p with
  | nil =>
    exact ⟨_, parseChildren_close hstop (At.head h)⟩
  | cons f fs ih =>
    obtain ⟨b, hb, last⟩ := next_byte hmark h
    obtain ⟨hf, hfs⟩ := At.encode_cons h
    simp only [encodeAll, List.length_append] at hstop ⊢
    have field := hparse f List.mem_cons_self p hf (by omega)
    obtain ⟨hle, rest⟩ := ih (fun g hg => hparse g (List.mem_cons_of_mem f hg))
      (fun g hg => hmark g (List.mem_cons_of_mem f hg)) hfs (by omega)
    have next := parseChildren_next (by omega) hb (fun e => List.cons_ne_nil f fs (last.mp e)) field rest
    simpa only [Nat.add_assoc] using next

theorem parse_container_at {code : Nat} (hty : ty = STI_OBJECT ∨ ty = STI_ARRAY) (hcode : InRange code)
    (hparse : ∀ f ∈ fs, ∀ q, At d q f.encode → q + f.encode.length ≤ stop →
      parseField d q stop = .ok ⟨f.ref q, rfl⟩)
    (hmark : ∀ f ∈ fs, ∀ b, f.encode.head? = some b → b ≠ endMarker ty)
    (h : At d p (header ty code ++ (encodeAll fs ++ [endMarker ty])))
    (hstop : p + (header ty code ++ (encodeAll fs ++ [endMarker ty])).length ≤ stop) :
    ∃ h h', parseField d p stop = .ok ⟨⟨ty, code, p, p + (header ty code).length,
      p + (header ty code ++ (encodeAll fs ++ [endMarker ty])).length, h, h'⟩, rfl⟩ := by
  simp only [List.length_append, List.length_singleton] at hstop
  have hrange : InRange ty := by rcases hty with rfl | rfl <;> exact ⟨by decide, by decide⟩
  have hdr := decodeHeader_at hrange hcode h.left
  obtain ⟨_, children⟩ := parseChildren_at p hparse hmark h.right (by omega)
  have field := parseField_container hdr hty children (by omega)
  simpa only [List.length_append, List.length_singleton, Nat.add_assoc] using field

theorem parseField_at (h : Canonical n f) : ∀ {p stop : Nat}, At d p f.encode →
    p + f.encode.length ≤ stop → parseField d p stop = .ok ⟨f.ref p, rfl⟩ := by
  induction h with
  | @leaf n ty code payload hcode hshape =>
    intro p stop hat hstop
    rw [encode] at hat hstop
    rw [@List.length_append _ (header ty code)] at hstop
    have hdr := decodeHeader_at hshape.inRange hcode hat.left
    have len := leafLen_at hshape hat.right p
    obtain ⟨_, _, field⟩ := parseField_leaf hdr hshape.not_container len (show _ ≤ stop by omega)
    rw [field]
    simp [ref, encode, StoField.ty, StoField.code, Nat.add_assoc]
  | @object n code fields hcode _ hne hlen hfields ih =>
    intro p stop hat hstop
    rw [encode] at hat hstop
    obtain ⟨_, _, field⟩ := parse_container_at (Or.inl rfl) hcode
      (fun g hg q hq hin => ih g hg hq hin) (fun g hg b hb => ((hfields g hg).head_ne_marker hb).1) hat hstop
    rw [field]
    simp [ref, encode, StoField.ty, StoField.code, endMarker]
  | @array n code elements hcode _ hne hlen _ hfields ih =>
    intro p stop hat hstop
    rw [encode] at hat hstop
    obtain ⟨_, _, field⟩ := parse_container_at (Or.inr rfl) hcode
      (fun g hg q hq hin => ih g hg hq hin) (fun g hg b hb => ((hfields g hg).head_ne_marker hb).2) hat hstop
    rw [field]
    simp [ref, encode, StoField.ty, StoField.code, endMarker]

/-- The fields of a list laid out from `p` on. -/
def refs : (p : Nat) → List StoField → List FieldRef
  | _, [] => []
  | p, f :: fs => f.ref p :: refs (p + f.encode.length) fs

theorem parseFields_at (hfs : ∀ f ∈ fs, Canonical n f) (h : At d p (encodeAll fs)) :
    parseFields d p (p + (encodeAll fs).length) = .ok (refs p fs) := by
  induction fs generalizing p with
  | nil => exact parseFields_nil
  | cons f fs ih =>
    have split : At d p (encodeAll (f :: fs) ++ []) := by rwa [List.append_nil]
    obtain ⟨hf, rest⟩ := At.encode_cons split
    rw [List.append_nil] at rest
    have pos := List.length_pos_of_ne_nil f.encode_ne_nil
    have tail := ih (fun g hg => hfs g (List.mem_cons_of_mem f hg)) rest
    rw [Nat.add_assoc] at tail
    simp only [encodeAll, List.length_append, refs]
    exact parseFields_cons (by omega) (parseField_at (hfs f List.mem_cons_self) hf (by omega)) tail

/-- A located field read back for what it was: a leaf's prefix and payload are the bytes of its
content, and walking a container's content gives the fields inside, each read back in turn. -/
inductive Reads (d : Bytes) : StoField → FieldRef → Prop
  | leaf {ty code : Nat} {payload : Bytes} {r : FieldRef} :
      r.ty = ty → r.field = code →
      (d.drop r.content.1).take (r.content.2 - r.content.1) = leafPrefix ty payload.length ++ payload →
      Reads d (leaf ty code payload) r
  | object {code : Nat} {fields : List StoField} {r : FieldRef} {rs : List FieldRef} :
      r.ty = STI_OBJECT → r.field = code → parseFields d r.content.1 r.content.2 = .ok rs →
      List.Forall₂ (Reads d) fields rs → Reads d (object code fields) r
  | array {code : Nat} {elements : List StoField} {r : FieldRef} {rs : List FieldRef} :
      r.ty = STI_ARRAY → r.field = code → parseFields d r.content.1 r.content.2 = .ok rs →
      List.Forall₂ (Reads d) elements rs → Reads d (array code elements) r

theorem reads_refs (hreads : ∀ f ∈ fs, ∀ q, At d q f.encode → Reads d f (f.ref q)) (h : At d p (encodeAll fs)) :
    List.Forall₂ (Reads d) fs (refs p fs) := by
  induction fs generalizing p with
  | nil => exact .nil
  | cons f fs ih =>
    exact .cons (hreads f List.mem_cons_self p h.left)
      (ih (fun g hg => hreads g (List.mem_cons_of_mem f hg)) h.right)

/-- Walking the content of a container found at `p` gives the fields inside. -/
theorem content_container {r : FieldRef} (hfs : ∀ f ∈ fs, Canonical n f) (hty : r.ty = STI_OBJECT ∨ r.ty = STI_ARRAY)
    {front : Bytes} {m : UInt8} (h : At d p (front ++ (encodeAll fs ++ [m]))) (hbody : r.body = p + front.length)
    (hstop : r.stop = p + (front ++ (encodeAll fs ++ [m])).length) :
    parseFields d r.content.1 r.content.2 = .ok (refs (p + front.length) fs) := by
  have content : r.content = (p + front.length, p + front.length + (encodeAll fs).length) := by
    simp only [FieldRef.content, if_pos hty, hbody, hstop, List.length_append, List.length_singleton, Prod.mk.injEq,
      true_and]
    omega
  rw [content]
  exact parseFields_at hfs h.right.left

theorem reads_at (h : Canonical n f) : ∀ {p : Nat}, At d p f.encode → Reads d f (f.ref p) := by
  induction h with
  | @leaf n ty code payload hcode hshape =>
    intro p hat
    refine .leaf rfl rfl ?_
    have content : ((leaf ty code payload).ref p).content =
        (p + (header ty code).length, p + (leaf ty code payload).encode.length) :=
      if_neg (not_or.mpr hshape.not_container)
    rw [content, encode, List.length_append, ← Nat.add_assoc, Nat.add_sub_cancel_left]
    rw [encode] at hat
    exact hat.right.take_drop
  | @object n code fields _ _ _ _ hfields ih =>
    intro p hat
    rw [encode] at hat
    exact .object rfl rfl
      (content_container hfields (Or.inl rfl) hat rfl (by simp only [ref, encode]))
      (reads_refs (fun g hg q hq => ih g hg hq) hat.right.left)
  | @array n code elements _ _ _ _ _ hfields ih =>
    intro p hat
    rw [encode] at hat
    exact .array rfl rfl
      (content_container hfields (Or.inr rfl) hat rfl (by simp only [ref, encode]))
      (reads_refs (fun g hg q hq => ih g hg hq) hat.right.left)

/-! ## The host functions -/

/-- The list does not end in a field whose last byte is a length prefix. -/
def Closed (fs : List StoField) : Prop := ∀ f ∈ fs.getLast?, ¬ f.OpenEnded

theorem Closed.tail (h : Closed (f :: fs)) : Closed fs := by
  cases fs with
  | nil => intro g hg; cases hg
  | cons g fs => simpa [Closed] using h

theorem encode_length (h : Canonical n f) : 2 ≤ f.encode.length := by
  have front := List.length_pos_of_ne_nil (header_ne_nil f.ty f.code)
  cases h with
  | leaf _ hshape =>
    have := leaf_body_pos hshape
    rw [encode, List.length_append]
    simp only [StoField.ty, StoField.code] at front
    omega
  | object _ _ _ _ _ =>
    simp only [encode, List.length_append, List.length_singleton, StoField.ty, StoField.code] at front ⊢
    omega
  | array _ _ _ _ _ _ =>
    simp only [encode, List.length_append, List.length_singleton, StoField.ty, StoField.code] at front ⊢
    omega

theorem getStobjectLength_at (hf : Canonical n f) (hn : n ≤ 10) (hclosed : Closed (f :: fs))
    (hfs : ∀ g ∈ fs, Canonical n g) (h : At d p (encodeAll (f :: fs)))
    (hstop : p + (encodeAll (f :: fs)).length = stop) :
    getStobjectLength d p stop {} 0 = some f.light := by
  rw [encodeAll] at h hstop
  rw [List.length_append] at hstop
  refine lightWalk_at hf (by omega) h.left (by omega) ?_
  intro hopen
  cases fs with
  -- an open-ended field is not the last one, and what follows takes bytes
  | nil => exact absurd hopen (hclosed f (by simp))
  | cons g fs =>
    have := encode_length (hfs g List.mem_cons_self)
    simp only [encodeAll, List.length_append] at hstop
    omega

/-- A list laid out from `p` up to `stop`, for a loop that still has `turns` fields to read. -/
structure Walkable (n : Nat) (d : Bytes) (stop turns p : Nat) (fs : List StoField) : Prop where
  depth : n ≤ 10
  canonical : ∀ f ∈ fs, Canonical n f
  closed : Closed fs
  count : fs.length ≤ turns
  laid : At d p (encodeAll fs)
  at_end : p + (encodeAll fs).length = stop

theorem Walkable.done (h : Walkable n d stop turns p []) : p = stop := by
  simpa [encodeAll] using h.at_end

/-- One turn of a loop reads the first field and leaves the others to the turns that remain. -/
theorem Walkable.step (h : Walkable n d stop turns p (f :: fs)) :
    ∃ t, turns = t + 1 ∧ p < stop ∧ getStobjectLength d p stop {} 0 = some f.light ∧
      Walkable n d stop t (p + f.encode.length) fs := by
  obtain ⟨hn, hfs, hclosed, hcount, hlaid, hstop⟩ := h
  have canon := hfs f List.mem_cons_self
  have others : ∀ g ∈ fs, Canonical n g := fun g hg => hfs g (List.mem_cons_of_mem f hg)
  have walked := getStobjectLength_at canon hn hclosed others hlaid hstop
  have long := encode_length canon
  rw [encodeAll] at hlaid hstop
  rw [List.length_append] at hstop
  rw [List.length_cons] at hcount
  exact ⟨turns - 1, by omega, by omega, walked, hn, others, hclosed.tail, by omega, hlaid.right, by omega⟩

theorem validateLoop_at (h : Walkable n d stop turns p fs) : validateLoop d stop {} turns p = some stop := by
  induction fs generalizing turns p with
  | nil =>
    obtain rfl := h.done
    cases turns <;> simp [validateLoop]
  | cons f fs ih =>
    obtain ⟨turns, rfl, inside, walked, rest⟩ := h.step
    simp only [validateLoop, walked, bind, Option.bind, if_pos inside]
    exact ih rest

theorem two_le_encodeAll (hfs : ∀ f ∈ fs, Canonical n f) (hne : fs ≠ []) : 2 ≤ (encodeAll fs).length := by
  cases fs with
  | nil => exact absurd rfl hne
  | cons f fs =>
    have := encode_length (hfs f List.mem_cons_self)
    rw [encodeAll, List.length_append]
    omega

/-- A list that is a whole buffer is walked from the start. -/
theorem walkable_encodeAll (hfs : ∀ f ∈ fs, Canonical n f) (hn : n ≤ 10) (hcount : fs.length ≤ 1024)
    (hclosed : Closed fs) : Walkable n (encodeAll fs) (encodeAll fs).length 1024 0 fs where
  depth := hn
  canonical := hfs
  closed := hclosed
  count := hcount
  laid := at_zero _
  at_end := Nat.zero_add _

theorem stoValidate_encodeAll (hfs : ∀ f ∈ fs, Canonical n f) (hn : n ≤ 10) (hne : fs ≠ [])
    (hcount : fs.length ≤ 1024) (hclosed : Closed fs) : stoValidate (encodeAll fs) {} = .ok true := by
  have long := two_le_encodeAll hfs hne
  have walked := validateLoop_at (walkable_encodeAll hfs hn hcount hclosed)
  simp [stoValidate, Nat.not_lt.mpr long, walked]

/-- The code a field goes by. -/
def StoField.fieldCode (f : StoField) : UInt32 := Sim.fieldCode f.ty f.code

theorem lightCode_light (h : Canonical n f) : lightCode f.light = f.fieldCode := by
  obtain ⟨⟨_, hty⟩, ⟨_, hcode⟩⟩ := h.inRange
  have shifted : (UInt32.ofNat f.ty <<< 16).toNat = f.ty <<< 16 := by
    rw [UInt32.toNat_shiftLeft, UInt32.toNat_ofNat_of_lt' (by simp [UInt32.size]; omega)]
    exact Nat.mod_eq_of_lt (by rw [Nat.shiftLeft_eq]; simp; omega)
  have low : (UInt32.ofNat f.code).toNat = f.code :=
    UInt32.toNat_ofNat_of_lt' (by simp [UInt32.size]; omega)
  -- both fit a byte, so adding and or-ing the two halves is the same
  have disjoint : f.ty <<< 16 + f.code = f.ty <<< 16 ||| f.code := Nat.shiftLeft_add_eq_or_of_lt (by omega) _
  apply UInt32.toNat_inj.mp
  simp only [lightCode, light, StoField.fieldCode, Sim.fieldCode]
  rw [UInt32.toNat_add, UInt32.toNat_or, shifted, low, ← disjoint]
  exact Nat.mod_eq_of_lt (by rw [Nat.shiftLeft_eq]; omega)

/-- What `stoSubfield` answers for a field that starts at `p`: an array whole, another field's
payload. -/
def StoField.reported (f : StoField) (p : Nat) : UInt32 × UInt32 :=
  if f.ty = STI_ARRAY then (.ofNat p, .ofNat f.encode.length)
  else (.ofNat (p + f.lead.length), .ofNat f.payload.length)

theorem subfieldLoop_found {id : UInt32} {pre post : List StoField}
    (h : Walkable n d d.length turns p (pre ++ f :: post)) (hpre : ∀ g ∈ pre, g.fieldCode ≠ id)
    (hf : f.fieldCode = id) :
    subfieldLoop d id {} turns p = .ok (f.reported (p + (encodeAll pre).length)) := by
  induction pre generalizing turns p with
  | nil =>
    have canon := h.canonical f List.mem_cons_self
    obtain ⟨turns, rfl, inside, walked, -⟩ := h.step
    simp only [subfieldLoop, walked, lightCode_light canon, hf, if_pos inside, if_true, encodeAll, List.length_nil,
      Nat.add_zero, reported]
    split <;> simp_all [light]
  | cons g pre ih =>
    have canon := h.canonical g List.mem_cons_self
    obtain ⟨turns, rfl, inside, walked, rest⟩ := h.step
    simp only [subfieldLoop, walked, lightCode_light canon, hpre g List.mem_cons_self, if_pos inside, if_false]
    rw [show p + g.light.len = p + g.encode.length from rfl, ih rest (fun k hk => hpre k (List.mem_cons_of_mem g hk))]
    simp [encodeAll, Nat.add_assoc]

theorem subfieldLoop_missing {id : UInt32} (h : Walkable n d d.length turns p fs)
    (hmiss : ∀ g ∈ fs, g.fieldCode ≠ id) : subfieldLoop d id {} turns p = .error rc.DOESNT_EXIST := by
  induction fs generalizing turns p with
  | nil =>
    obtain rfl := h.done
    cases turns <;> simp [subfieldLoop]
  | cons g fs ih =>
    have canon := h.canonical g List.mem_cons_self
    obtain ⟨turns, rfl, inside, walked, rest⟩ := h.step
    simp only [subfieldLoop, walked, lightCode_light canon, hmiss g List.mem_cons_self, if_pos inside, if_false]
    exact ih rest (fun k hk => hmiss k (List.mem_cons_of_mem g hk))

/-- What `stoSubarray` answers for elements laid out from `p` on: the whole range of one of them. -/
def elementRange (p : Nat) (elements : List StoField) (index : Nat) : Except Int (UInt32 × UInt32) :=
  match elements[index]? with
  | some e => .ok (.ofNat (p + (encodeAll (elements.take index)).length), .ofNat e.encode.length)
  | none => .error rc.DOESNT_EXIST

theorem subarrayLoop_at {i k : Nat} (h : Walkable n d stop turns p fs) :
    subarrayLoop d (i + k) {} stop turns i p = elementRange p fs k := by
  induction fs generalizing turns p i k with
  | nil =>
    obtain rfl := h.done
    cases turns <;> simp [subarrayLoop, elementRange]
  | cons g fs ih =>
    obtain ⟨turns, rfl, inside, walked, rest⟩ := h.step
    simp only [subarrayLoop, walked, if_pos inside]
    cases k with
    | zero => simp [elementRange, encodeAll, light]
    | succ k =>
      -- the element after `i` is element `k` of what remains
      have next := ih (i := i + 1) (k := k) rest
      rw [show i + 1 + k = i + (k + 1) by omega] at next
      rw [if_neg (by omega), show p + g.light.len = p + g.encode.length from rfl, next]
      simp [elementRange, encodeAll, Nat.add_assoc]

/-- The header of an array is what `stoSubarray` takes off before it walks the elements. -/
theorem array_header {code : Nat} (hcode : InRange code) :
    ∃ b tail, header STI_ARRAY code = b :: tail ∧ b &&& 0xF0 = 0xF0 ∧
      tail.length = if b = 0xF0 then 1 else 0 := by
  obtain ⟨h0, h1⟩ := hcode
  by_cases hc : code < 16
  · refine ⟨.ofNat (16 * STI_ARRAY + code), [], by simp [header, hc], ?_, ?_⟩
    · interval_cases code <;> decide
    · interval_cases code <;> decide
  -- a code past 15 takes a byte of its own after 0xF0
  · exact ⟨0xF0, [.ofNat code], by simp [header, hc]; decide, by decide, by simp⟩

theorem closed_elements (hobj : ∀ f ∈ fs, f.IsObject) : Closed fs := by
  intro f hf hopen
  have := hobj f (List.mem_of_getLast? hf)
  cases f with
  | leaf => exact this
  | object => exact hopen
  | array => exact hopen

theorem stoSubarray_encode {code : Nat} {elements : List StoField} (h : Canonical n (array code elements))
    (hn : n ≤ 10) (index : UInt32) :
    stoSubarray (array code elements).encode index {} =
      elementRange (header STI_ARRAY code).length elements index.toNat := by
  have alone : (array code elements).encode = encodeAll [array code elements] := by simp [encodeAll]
  have valid : stoValidate (array code elements).encode {} = .ok true := by
    rw [alone]
    exact stoValidate_encodeAll (by simpa using h) hn (by simp) (by simp) (by simp [Closed, OpenEnded])
  have long := encode_length h
  cases h with
  | @array n _ _ hcode _ hne hlen hobj hels =>
    obtain ⟨b, tail, hdr, high, two⟩ := array_header hcode
    have last : (array code elements).encode.getLast? = some 0xF1 := by simp [encode]
    have first : (array code elements).encode.head? = some b := by simp [encode, hdr]
    have front : (header STI_ARRAY code).length = if b = 0xF0 then 2 else 1 := by
      rw [hdr, List.length_cons, two]
      split <;> rfl
    -- between the header and the end marker lie the elements, which the loop walks
    have inside : At (array code elements).encode (header STI_ARRAY code).length (encodeAll elements) := by
      have whole := at_zero (array code elements).encode
      rw [encode] at whole
      simpa [encode] using whole.right.left
    have size : (array code elements).encode.length - 1 = (header STI_ARRAY code).length + (encodeAll elements).length := by
      simp only [encode, List.length_append, List.length_singleton]
      omega
    have some := two_le_encodeAll hels hne
    have laid : Walkable n (array code elements).encode ((array code elements).encode.length - 1) 1024
        (header STI_ARRAY code).length elements := ⟨by omega, hels, closed_elements hobj, hlen, inside, size.symm⟩
    have walked := subarrayLoop_at (i := 0) (k := index.toNat) laid
    have inner : ¬ (array code elements).encode.length - 1 ≤ (header STI_ARRAY code).length := by omega
    rw [Nat.zero_add] at walked
    simp only [stoSubarray, if_neg (Nat.not_lt.mpr long), first, last, valid, Option.any_some, high, beq_self_eq_true,
      ne_eq, not_true_eq_false, and_false, if_false, if_true, Bool.true_and, Option.some_beq_some, beq_iff_eq, ← front,
      inner, walked]

/-- A top-level list the format can carry. -/
structure TopLevel (fs : List StoField) : Prop where
  nonempty : fs ≠ []
  count : fs.length ≤ 1024
  canonical : ∀ f ∈ fs, Canonical 10 f

/-- Decoding undoes encoding: the buffer of a list that does not end in an empty prefixed leaf is
valid, each field code finds the first field that has it, each index finds its element, and the full
walker gives back the list. -/
theorem decode_encode_payload (fs : List StoField) (hfs : TopLevel fs) (hclosed : Closed fs) :
    stoValidate (encodeAll fs) {} = .ok true ∧
    (∀ pre f post, fs = pre ++ f :: post → (∀ g ∈ pre, g.fieldCode ≠ f.fieldCode) →
      stoSubfield (encodeAll fs) f.fieldCode {} = .ok (f.reported (encodeAll pre).length)) ∧
    (∀ id, (∀ f ∈ fs, f.fieldCode ≠ id) → stoSubfield (encodeAll fs) id {} = .error rc.DOESNT_EXIST) ∧
    (∀ code elements, Canonical 10 (array code elements) → ∀ index,
      stoSubarray (array code elements).encode index {} =
        elementRange (header STI_ARRAY code).length elements index.toNat) ∧
    parseFields (encodeAll fs) 0 (encodeAll fs).length = .ok (refs 0 fs) ∧
    List.Forall₂ (Reads (encodeAll fs)) fs (refs 0 fs) := by
  obtain ⟨hne, hcount, hcanon⟩ := hfs
  have valid := stoValidate_encodeAll hcanon (Nat.le_refl 10) hne hcount hclosed
  have long := two_le_encodeAll hcanon hne
  have whole := at_zero (encodeAll fs)
  have laid := walkable_encodeAll hcanon (Nat.le_refl 10) hcount hclosed
  refine ⟨valid, ?_, ?_, ?_, ?_, ?_⟩
  · rintro pre f post rfl hpre
    have found := subfieldLoop_found laid hpre rfl
    rw [Nat.zero_add] at found
    simp [stoSubfield, Nat.not_lt.mpr long, valid, found]
  · intro id hmiss
    have missing := subfieldLoop_missing laid hmiss
    simp [stoSubfield, Nat.not_lt.mpr long, valid, missing]
  · intro code elements h index
    exact stoSubarray_encode h (Nat.le_refl 10) index
  · have walked := parseFields_at hcanon whole
    rwa [Nat.zero_add] at walked
  · exact reads_refs (fun f hf q hq => reads_at (hcanon f hf) hq) whole

/-- A transaction type, an empty blob, hook parameters and an account. -/
def sampleFields : List StoField :=
  [leaf STI_UINT16 2 [0, 0], leaf STI_VL 3 [],
    array 19 [object 23 [leaf STI_VL 24 [0x41]], object 23 [leaf STI_VL 24 [0x42], leaf STI_VL 25 []]],
    leaf STI_ACCOUNT 1 (List.replicate 20 0xAA)]

theorem sampleFields_topLevel : TopLevel sampleFields where
  nonempty := by simp [sampleFields]
  count := by simp [sampleFields]
  canonical := by
    have blob : ∀ (n code : Nat) (payload : Bytes), InRange code → payload.length ≤ MAX_VL →
        Canonical n (leaf STI_VL code payload) := fun _ _ _ h hp => .leaf h (.prefixed (Or.inl rfl) hp)
    intro f hf
    simp only [sampleFields, List.mem_cons, List.not_mem_nil, or_false] at hf
    rcases hf with rfl | rfl | rfl | rfl
    · exact .leaf ⟨by decide, by decide⟩ (.fixed (by decide) rfl)
    · exact blob _ _ _ ⟨by decide, by decide⟩ (by decide)
    · refine .array ⟨by decide, by decide⟩ (by decide) (by simp) (by simp) (by simp [IsObject]) ?_
      simp only [List.mem_cons, List.not_mem_nil, or_false, forall_eq_or_imp, forall_eq]
      refine ⟨.object ⟨by decide, by decide⟩ (by decide) (by simp) (by simp) ?_,
        .object ⟨by decide, by decide⟩ (by decide) (by simp) (by simp) ?_⟩ <;>
        simp only [List.mem_cons, List.not_mem_nil, or_false, forall_eq_or_imp, forall_eq]
      · exact blob _ _ _ ⟨by decide, by decide⟩ (by decide)
      · exact ⟨blob _ _ _ ⟨by decide, by decide⟩ (by decide), blob _ _ _ ⟨by decide, by decide⟩ (by decide)⟩
    · exact .leaf ⟨by decide, by decide⟩ (.prefixed (Or.inr (Or.inl rfl)) (by decide))

theorem decode_encode_payload_sample :
    stoValidate (encodeAll sampleFields) {} = .ok true ∧
    List.Forall₂ (Reads (encodeAll sampleFields)) sampleFields (refs 0 sampleFields) := by
  obtain ⟨valid, -, -, -, -, reads⟩ :=
    decode_encode_payload sampleFields sampleFields_topLevel (by simp [Closed, sampleFields, OpenEnded])
  exact ⟨valid, reads⟩

/-- A transaction type, and a list of hashes with nothing in it. -/
def trailingHashes : List StoField := [leaf STI_UINT16 2 [0, 0], leaf STI_VECTOR256 1 []]

/-- An empty list of hashes at the end is no blob, yet the light walker refuses it the way it refuses
an empty blob there; the full walker reads both. -/
theorem trailing_hashes_refused :
    TopLevel trailingHashes ∧ (∀ code, trailingHashes.getLast? ≠ some (leaf STI_VL code [])) ∧
    stoValidate (encodeAll trailingHashes) {} = .ok false := by
  refine ⟨⟨by simp [trailingHashes], by simp [trailingHashes], ?_⟩, by simp [trailingHashes], by decide⟩
  intro f hf
  simp only [trailingHashes, List.mem_cons, List.not_mem_nil, or_false] at hf
  rcases hf with rfl | rfl
  · exact .leaf ⟨by decide, by decide⟩ (.fixed (by decide) rfl)
  · exact .leaf ⟨by decide, by decide⟩ (.prefixed (Or.inr (Or.inr rfl)) (by decide))

end Xahc.Sim

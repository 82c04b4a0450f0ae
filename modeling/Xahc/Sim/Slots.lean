/-
The slot table of a hook run: the map of live slots, the queue of cleared numbers and the counter,
and the host calls that fill and clear slots.
-/
import Mathlib.Data.List.AList
import Xahc.Sim.Sto

namespace Xahc.Sim

open Xahc.Data (Bytes encodeHex)

/-! ## Slot entries -/

/-- What a slot points at: an object, an array, or a leaf of a serialized type. -/
inductive Kind where
  | Object
  | Array
  | Leaf (ty : Nat)
  deriving DecidableEq, Repr

/-- One slot: the backing serialized object and the entry inside it. -/
structure SlotEntry where
  storage : Bytes
  kind : Kind
  fcode : UInt32
  start : Nat
  stop : Nat
  deriving DecidableEq, Repr

namespace SlotEntry

/-- A whole object as a slot. -/
def top (storage : Bytes) (fcode : UInt32) : SlotEntry := ⟨storage, .Object, fcode, 0, storage.length⟩

/-- A field of a slot as a slot. -/
def child (e : SlotEntry) (f : FieldRef) : SlotEntry :=
  let kind := if f.ty = STI_OBJECT then .Object else if f.ty = STI_ARRAY then .Array else .Leaf f.ty
  ⟨e.storage, kind, f.code, f.content.1, f.content.2⟩

/-- The fields of a slot, parsed. -/
def fields (e : SlotEntry) : Except String (List FieldRef) := parseFields e.storage e.start e.stop

end SlotEntry

/-! ## The table -/

/-- The most slots a hook can hold. -/
def MAX_SLOTS : Nat := 255

/-- The table: live slots by number, cleared numbers in the order they are handed out again, and the
highest number the counter gave out. -/
structure Slots where
  map : AList fun _ : Nat => SlotEntry := ∅
  free : List Nat := []
  counter : Nat := 0
  deriving DecidableEq

namespace Slots

/-- How many slots are live. -/
def occupied (s : Slots) : Nat := s.map.keys.length

/-- Every slot is taken. -/
def noFree (s : Slots) : Bool := MAX_SLOTS ≤ s.occupied

/-- The counter moved past live numbers; it leaves the range once every number above it is live. -/
def nextNumber (map : AList fun _ : Nat => SlotEntry) : (turns counter : Nat) → Nat
  | 0, counter => counter + 1
  | turns + 1, counter =>
    if counter + 1 ∈ map ∧ counter + 1 ≤ MAX_SLOTS then nextNumber map turns (counter + 1) else counter + 1

/-- A number for an automatic allocation: the oldest cleared one, else the counter's next. -/
def getFree (s : Slots) : Option Nat × Slots :=
  match s.free with
  | n :: rest => (some n, { s with free := rest })
  | [] =>
    let counter := nextNumber s.map (MAX_SLOTS - s.counter) s.counter
    (if MAX_SLOTS < counter then none else some counter, { s with counter })

/-- The table with an entry under a number. -/
def insert (s : Slots) (n : Nat) (e : SlotEntry) : Slots := { s with map := s.map.insert n e }

/-- The end of every call that fills a slot: a number is drawn when none was given. -/
def place (s : Slots) (into : Nat) (e : SlotEntry) : Int × Slots :=
  if into = 0 then
    match s.getFree with
    | (some n, s) => (n, s.insert n e)
    | (none, s) => (rc.NO_FREE_SLOTS, s)
  else (into, s.insert into e)

end Slots

/-! ## The host calls -/

/-- What the slot calls read of a run's fixture. `randomKey` is the one key no read may use. -/
structure TxFixture where
  ledgerObjects : Bytes → Option Bytes
  txns : Bytes → Option Bytes
  callback : Bool
  provisionalMeta : Option Bytes
  rules : Rules := {}
  randomKey : Bytes

/-- The metadata of a fixture that gives none. -/
def DEFAULT_META : Bytes := [0x20, 0x1C, 0, 0, 0, 0, 0xF8, 0xF1, 0x03, 0x10, 0x00]

def SF_LEDGER_ENTRY : UInt32 := fieldCode 10002 257
def SF_TRANSACTION : UInt32 := fieldCode 10001 257
def SF_TRANSACTION_METADATA : UInt32 := fieldCode 14 2
def SF_LEDGER_ENTRY_TYPE : UInt32 := fieldCode 1 1
def SF_TRANSACTION_TYPE : UInt32 := fieldCode 1 2

def LT_ANY : Nat := 0
def LT_CHILD : Nat := 0x1CD2
def LT_DIR_NODE : Nat := 0x0064

/-- Every field code the ledger registers. -/
def KNOWN_FIELD_CODES : List Nat :=
  [0, 65537, 65538, 65539, 65540, 65541, 65542, 65552, 65553, 65554, 65555, 65556, 65557, 65558, 65635, 65636,
   131073, 131074, 131075, 131076, 131077, 131078, 131079, 131080, 131081, 131082, 131083, 131084, 131085, 131086,
   131087, 131088, 131089, 131090, 131091, 131092, 131093, 131094, 131095, 131096, 131097, 131098, 131099, 131100,
   131101, 131102, 131103, 131104, 131105, 131106, 131107, 131108, 131109, 131110, 131111, 131112, 131113, 131114,
   131115, 131116, 131117, 131118, 131120, 131121, 131122, 131123, 131165, 131166, 131167, 131168, 131169, 131170,
   131171, 131172, 131173, 196609, 196610, 196611, 196612, 196613, 196614, 196615, 196616, 196617, 196618, 196619,
   196620, 196621, 196625, 196626, 196627, 196628, 196629, 196630, 196631, 196632, 196633, 196634, 196635, 196636,
   196705, 196706, 196707, 196708, 262145, 327681, 327682, 327683, 327684, 327685, 327686, 327687, 327688, 327689,
   327690, 327691, 327692, 327693, 327694, 327695, 327696, 327697, 327698, 327699, 327700, 327701, 327702, 327703,
   327704, 327705, 327706, 327707, 327708, 327709, 327710, 327711, 327712, 327713, 327714, 327715, 327716, 327717,
   327769, 327770, 327771, 327773, 327774, 327775, 327776, 327777, 327778, 327779, 327937, 327938, 393217, 393218,
   393219, 393220, 393221, 393222, 393223, 393224, 393225, 393226, 393227, 393228, 393229, 393232, 393233, 393234,
   393235, 393236, 393237, 393238, 393239, 393240, 393241, 393242, 393243, 393244, 393245, 393246, 393247, 393315,
   458753, 458754, 458755, 458756, 458757, 458758, 458759, 458760, 458761, 458762, 458763, 458764, 458765, 458766,
   458768, 458769, 458770, 458771, 458772, 458773, 458774, 458775, 458776, 458777, 458778, 458779, 458780, 458781,
   458782, 458783, 458784, 458848, 458849, 458850, 458851, 524289, 524290, 524291, 524292, 524293, 524294, 524296,
   524297, 524298, 524299, 524304, 524306, 524307, 524308, 524309, 524310, 524311, 524312, 524387, 589825, 917506,
   917507, 917508, 917509, 917510, 917511, 917512, 917513, 917514, 917515, 917516, 917517, 917518, 917520, 917522,
   917523, 917524, 917525, 917527, 917528, 917529, 917530, 917531, 917532, 917533, 917534, 917535, 917536, 917537,
   917592, 917594, 917595, 917596, 917597, 917598, 917599, 917600, 917601, 917602, 917603, 983043, 983044, 983045,
   983046, 983047, 983048, 983049, 983050, 983051, 983052, 983056, 983057, 983058, 983059, 983060, 983061, 983062,
   983064, 983065, 983066, 983067, 983068, 983131, 983132, 983133, 983134, 983135, 983136, 983137, 1048577, 1048578,
   1048579, 1048580, 1048581, 1048592, 1048593, 1048594, 1048595, 1114113, 1114114, 1114115, 1114116, 1179649,
   1245185, 1245186, 1245187, 1245188, 1245189, 1245190, 1245283, 1376257, 1572865, 1572866, 1572867, 1572868,
   1572869, 1638401, 1703937, 1703938, 655425793, 655491329, 655556865, 655622401]

/-- The field code is one of the ledger's. -/
def isKnownField (fieldId : UInt32) : Bool := KNOWN_FIELD_CODES.contains fieldId.toNat

/-- Two bytes as a `u16`, most significant first. -/
def u16FromBe (hi lo : UInt8) : Nat := hi.toNat * 256 + lo.toNat

/-- A key in hex, for messages. -/
def hex32 (k : Bytes) : String := String.ofList (encodeHex k)

/-- A range of `len` bytes at `ptr` does not lie inside the hook's memory. -/
def oob (mem : Bytes) (ptr len : UInt32) : Bool :=
  mem.length ≤ ptr.toNat || mem.length < ptr.toNat + len.toNat

/-- The bytes of a range. -/
def readMem (mem : Bytes) (ptr len : UInt32) : Bytes := (mem.drop ptr.toNat).take len.toNat

/-- The ledger object a 34-byte keylet names, when its type is the one the keylet asks for. A run the
simulator refuses to model ends with a message. -/
def ledgerEntry (tx : TxFixture) (data : Bytes) : Except String (Except Int SlotEntry) :=
  let ktype := u16FromBe (data.getD 0 0) (data.getD 1 0)
  let key := data.drop 2
  if key = List.replicate 32 0 then .ok (.error rc.DOESNT_EXIST)
  else if key = tx.randomKey then .ok (.error rc.DOESNT_EXIST)
  else match tx.ledgerObjects key with
    | none => .ok (.error rc.DOESNT_EXIST)
    | some obj =>
      let top := SlotEntry.top obj SF_LEDGER_ENTRY
      match top.fields with
      | .error m => .error s!"ledger_objects fixture {hex32 key}: malformed STObject: {m}"
      | .ok fields =>
        match fields.find? (·.code = SF_LEDGER_ENTRY_TYPE) with
        | none => .error s!"ledger_objects fixture {hex32 key} has no sfLedgerEntryType"
        | some f =>
          let lt := u16FromBe (obj.getD f.content.1 0) (obj.getD (f.content.1 + 1) 0)
          if ktype = LT_ANY ∨ (ktype = LT_CHILD ∧ lt ≠ LT_DIR_NODE) ∨ ktype = lt then .ok (.ok top)
          else .ok (.error rc.DOESNT_EXIST)

/-- The transaction a 32-byte id names; refused outright under the current rules. -/
def txnEntry (tx : TxFixture) (key : Bytes) : Except String (Except Int SlotEntry) :=
  if tx.rules.fix20261005 then .ok (.error rc.INVALID_ARGUMENT)
  else match tx.txns key with
    | none => .ok (.error rc.DOESNT_EXIST)
    | some txb =>
      let top := SlotEntry.top txb SF_TRANSACTION
      match top.fields with
      | .error m => .error s!"txns fixture {hex32 key}: malformed STObject: {m}"
      | .ok fields =>
        -- an entropy transaction is never readable
        if fields.any fun f => f.code = SF_TRANSACTION_TYPE ∧ (txb.drop f.body).take (f.stop - f.body) = [0, 89] then
          .ok (.error rc.DOESNT_EXIST)
        else .ok (.ok top)

/-- How every call that fills a slot ends: a refusal leaves the table alone, an entry is placed. -/
def fill (into : Nat) (s : Slots) : Except String (Except Int SlotEntry) → Except String (Int × Slots)
  | .error m => .error m
  | .ok (.error code) => .ok (code, s)
  | .ok (.ok e) => .ok (s.place into e)

/-- The entry `slot_set` fills in: a ledger object for a keylet, a transaction for an id. -/
def slotSetEntry (tx : TxFixture) (mem : Bytes) (rp rl : UInt32) (slotInto : Nat) (s : Slots) :
    Except String (Except Int SlotEntry) :=
  if oob mem rp rl then .ok (.error rc.OUT_OF_BOUNDS)
  else
    let data := readMem mem rp rl
    if (data.length ≠ 32 ∧ data.length ≠ 34) ∨ MAX_SLOTS < slotInto then .ok (.error rc.INVALID_ARGUMENT)
    else if slotInto = 0 ∧ s.noFree then .ok (.error rc.NO_FREE_SLOTS)
    else if data.length = 34 then ledgerEntry tx data
    else txnEntry tx data

/-- `slot_set`. -/
def slotSet (tx : TxFixture) (mem : Bytes) (rp rl : UInt32) (slotInto : Nat) (s : Slots) :
    Except String (Int × Slots) :=
  fill slotInto s (slotSetEntry tx mem rp rl slotInto s)

/-- The element of an array slot that `slot_subarray` fills in. -/
def slotSubarrayEntry (parent : Nat) (idx : UInt32) (newSlot : Nat) (s : Slots) :
    Except String (Except Int SlotEntry) :=
  match s.map.lookup parent with
  | none => .ok (.error rc.DOESNT_EXIST)
  | some p =>
    if p.kind ≠ .Array then .ok (.error rc.NOT_AN_ARRAY)
    else if newSlot = 0 ∧ s.noFree then .ok (.error rc.NO_FREE_SLOTS)
    else if MAX_SLOTS < newSlot then .ok (.error rc.INVALID_ARGUMENT)
    else match p.fields with
      | .error m => .error s!"slot {parent}: malformed array in fixture: {m}"
      | .ok elems =>
        match elems[idx.toNat]? with
        | none => .ok (.error rc.DOESNT_EXIST)
        | some el => .ok (.ok (p.child el))

/-- `slot_subarray`. -/
def slotSubarray (parent : Nat) (idx : UInt32) (newSlot : Nat) (s : Slots) : Except String (Int × Slots) :=
  fill newSlot s (slotSubarrayEntry parent idx newSlot s)

/-- The field of an object slot that `slot_subfield` fills in. -/
def slotSubfieldEntry (parent : Nat) (fieldId : UInt32) (newSlot : Nat) (s : Slots) :
    Except String (Except Int SlotEntry) :=
  match s.map.lookup parent with
  | none => .ok (.error rc.DOESNT_EXIST)
  | some p =>
    if newSlot = 0 ∧ s.noFree then .ok (.error rc.NO_FREE_SLOTS)
    else if MAX_SLOTS < newSlot then .ok (.error rc.INVALID_ARGUMENT)
    else if !isKnownField fieldId then .ok (.error rc.INVALID_FIELD)
    else if p.kind ≠ .Object then .ok (.error rc.NOT_AN_OBJECT)
    else match p.fields with
      | .error m => .error s!"slot {parent}: malformed object in fixture: {m}"
      | .ok fields =>
        match fields.find? (·.code = fieldId) with
        | none => .ok (.error rc.DOESNT_EXIST)
        | some f => .ok (.ok (p.child f))

/-- `slot_subfield`. -/
def slotSubfield (parent : Nat) (fieldId : UInt32) (newSlot : Nat) (s : Slots) :
    Except String (Int × Slots) :=
  fill newSlot s (slotSubfieldEntry parent fieldId newSlot s)

/-- The metadata, which only a callback has. -/
def metaSlotEntry (tx : TxFixture) (slotInto : Nat) (s : Slots) : Except String (Except Int SlotEntry) :=
  if !tx.callback then .ok (.error rc.PREREQUISITE_NOT_MET)
  else if MAX_SLOTS < slotInto then .ok (.error rc.INVALID_ARGUMENT)
  else if slotInto = 0 ∧ s.noFree then .ok (.error rc.NO_FREE_SLOTS)
  else .ok (.ok (.top (tx.provisionalMeta.getD DEFAULT_META) SF_TRANSACTION_METADATA))

/-- `meta_slot`. -/
def metaSlot (tx : TxFixture) (slotInto : Nat) (s : Slots) : Except String (Int × Slots) :=
  fill slotInto s (metaSlotEntry tx slotInto s)

/-- `slot_clear`: the number is queued. -/
def slotClear (slotNo : Nat) (s : Slots) : Int × Slots :=
  if slotNo ∈ s.map then (1, { s with map := s.map.erase slotNo, free := s.free ++ [slotNo] })
  else (rc.DOESNT_EXIST, s)

/-- How many elements an array slot has; a message names the slot as the hook passed it, with its sign. -/
def slotCount (slotNo : Int32) (s : Slots) : Except String Int :=
  match s.map.lookup slotNo.toUInt32.toNat with
  | none => .ok rc.DOESNT_EXIST
  | some e =>
    if e.kind ≠ .Array then .ok rc.NOT_AN_ARRAY
    else match e.fields with
      | .error m => .error s!"slot {slotNo}: malformed array in fixture: {m}"
      | .ok f => .ok f.length

/-- A slot call with the arguments the hook passes, and the hook's memory at that moment. -/
inductive Call where
  | slotSet (mem : Bytes) (rp rl slotInto : UInt32)
  | slotSubarray (parent idx newSlot : UInt32)
  | slotSubfield (parent fieldId newSlot : UInt32)
  | metaSlot (slotInto : UInt32)
  | slotClear (slotNo : UInt32)

/-- The return code and the table after a call; an error ends the run. -/
def host (tx : TxFixture) (s : Slots) : Call → Except String (Int × Slots)
  | .slotSet mem rp rl slotInto => slotSet tx mem rp rl slotInto.toNat s
  | .slotSubarray parent idx newSlot => slotSubarray parent.toNat idx newSlot.toNat s
  | .slotSubfield parent fieldId newSlot => slotSubfield parent.toNat fieldId newSlot.toNat s
  | .metaSlot slotInto => metaSlot tx slotInto.toNat s
  | .slotClear slotNo => .ok (slotClear slotNo.toNat s)

end Xahc.Sim

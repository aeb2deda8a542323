import Ns3Fancy.Buffer.Bytes

/-!
# The FANCY header

The header of `fancy-header.cc`. The action byte holds the action in its low five bits and the
FSM, ACK and COUNT flags above them. START of the zooming tree and its counter report carry
a payload of one record per tree node: the node's index and, for each slot or cell, one
byte or one 32-bit counter. The fixed part is in network order; the records are in the
byte order of `Buffer::Iterator::WriteU16` and `WriteU32`, lowest byte first.
-/

namespace Ns3Fancy.Switch
open Buffer
set_option autoImplicit false

def IPV4 : UInt16 := 0x0800
def ARP : UInt16 := 0x0806
def IPV6 : UInt16 := 0x86DD
def FANCY : UInt16 := 0x0801
def TCP : UInt8 := 6
def UDP : UInt8 := 17

def KEEP_ALIVE : UInt8 := 0
def GREY_START : UInt8 := 1
def GREY_STOP : UInt8 := 2
def GREY_COUNTER : UInt8 := 4
def MULTIPLE_COUNTERS : UInt8 := 16
def COUNTER_MAXIMUMS : UInt8 := 8

structure FancyHeader where
  id : UInt32 := 0
  action : UInt8 := 0
  seq : UInt16 := 0
  counter : UInt64 := 0
  nextHeader : UInt16 := 0
  dataSize : UInt16 := 0
  dataWidth : UInt8 := 0
  data : Bytes := []
  deriving DecidableEq, Repr

namespace FancyHeader

def setId (id : UInt32) (h : FancyHeader) : FancyHeader := { h with id := id }

/-- Adds bits to the action: the old ones stay. -/
def setAction (action : UInt8) (h : FancyHeader) : FancyHeader :=
  { h with action := h.action ||| (0x1f &&& action) }

def setCountFlag (flag : Bool) (h : FancyHeader) : FancyHeader :=
  { h with action := if flag then h.action ||| 0x80 else h.action &&& 0x7f }

def setAckFlag (flag : Bool) (h : FancyHeader) : FancyHeader :=
  { h with action := if flag then h.action ||| 0x40 else h.action &&& 0xbf }

def setFSMFlag (flag : Bool) (h : FancyHeader) : FancyHeader :=
  { h with action := if flag then h.action ||| 0x20 else h.action &&& 0xdf }

def resetActionField (h : FancyHeader) : FancyHeader := { h with action := 0 }
def setSeq (seq : UInt16) (h : FancyHeader) : FancyHeader := { h with seq := seq }
def setCounter (counter : UInt64) (h : FancyHeader) : FancyHeader := { h with counter := counter }
def setNextHeader (next : UInt16) (h : FancyHeader) : FancyHeader := { h with nextHeader := next }
def setDataSize (n : UInt16) (h : FancyHeader) : FancyHeader := { h with dataSize := n }
def setDataWidth (w : UInt8) (h : FancyHeader) : FancyHeader := { h with dataWidth := w }

/-- Appends the record of one node: as many counters as the data width says. -/
def setDataCounter (counters : Nat → UInt32) (index : Nat) (h : FancyHeader) : FancyHeader :=
  { h with
    data := h.data ++ (writeLE 2 index ++
      (List.range h.dataWidth.toNat).flatMap fun a => writeLE 4 (counters a).toNat)
    dataSize := h.dataSize + 1 }

/-- Appends the record of one node: as many maxima as the data width says. -/
def setDataMaximums (maximums : Nat → UInt8) (index : Nat) (h : FancyHeader) : FancyHeader :=
  { h with
    data := h.data ++ (writeLE 2 index ++ (List.range h.dataWidth.toNat).map maximums)
    dataSize := h.dataSize + 1 }

def getAction (h : FancyHeader) : UInt8 := h.action &&& 0x1f
def getCountFlag (h : FancyHeader) : Bool := (h.action >>> 7) &&& 1 == 1
def getAckFlag (h : FancyHeader) : Bool := (h.action >>> 6) &&& 1 == 1
def getFSMFlag (h : FancyHeader) : Bool := (h.action >>> 5) &&& 1 == 1

/-- The payload holds counters. -/
def hasCounters (h : FancyHeader) : Bool := (h.action >>> 4) &&& 1 == 1
/-- The payload holds maxima. -/
def hasMaximums (h : FancyHeader) : Bool := (h.action >>> 3) &&& 1 == 1

def getSerializedSize (h : FancyHeader) : Nat :=
  if h.dataSize = 0 then 17
  else if h.hasCounters then 20 + h.dataSize.toNat * (4 * h.dataWidth.toNat + 2)
  else if h.hasMaximums then 20 + h.dataSize.toNat * (h.dataWidth.toNat + 2)
  else 17

/-- The part every FANCY header has. -/
def fixedPart (h : FancyHeader) : Bytes :=
  writeBE 4 h.id.toNat ++ writeBE 1 h.action.toNat ++ writeBE 2 h.seq.toNat ++ writeBE 8 h.counter.toNat ++
    writeBE 2 h.nextHeader.toNat

def serialize (h : FancyHeader) : Bytes :=
  h.fixedPart ++
    if (h.hasCounters || h.hasMaximums) && 0 < h.dataSize then
      writeBE 2 h.dataSize.toNat ++ writeBE 1 h.dataWidth.toNat ++ h.data
    else []

/-- The size and the width of the payload, and the bytes of it for one kind of data. -/
def readDataSize (bytes : Nat) (h : FancyHeader) (bs : Bytes) : Option (FancyHeader × Nat × Bytes) :=
  (readBE 2 bs).bind fun n => (readBE 1 n.2).map fun w =>
    ({ h with dataSize := .ofNat n.1, dataWidth := .ofNat w.1 }, n.1 * (bytes * w.1 + 2), w.2)

/-- What `Deserialize` reads after the fixed part. -/
def readData (h : FancyHeader) (bs : Bytes) : Option FancyHeader := do
  let (h, size, bs) ← if h.hasCounters then readDataSize 4 h bs else some (h, 0, bs)
  let (h, size, bs) ← if h.hasMaximums then readDataSize 1 h bs else some (h, size, bs)
  if 0 < size then
    if size ≤ bs.length then some { h with data := bs.take size } else none
  else some h

/-- `Deserialize` on a fresh header, with what `RemoveHeader` leaves of the packet. -/
def deserialize (bs : Bytes) : Option (FancyHeader × Bytes) := do
  let (id, r) ← readBE 4 bs
  let (action, r) ← readBE 1 r
  let (seq, r) ← readBE 2 r
  let (counter, r) ← readBE 8 r
  let (next, r) ← readBE 2 r
  let h ← readData
    { id := .ofNat id, action := .ofNat action, seq := .ofNat seq, counter := .ofNat counter, nextHeader := .ofNat next } r
  some (h, bs.drop h.getSerializedSize)

/-! ## What survives the wire -/

/-- The numbers of the fixed part survive being written in one, two, four and eight bytes. -/
theorem ofNat8 (x : UInt8) : UInt8.ofNat (x.toNat % 256 ^ 1) = x := by
  rw [Nat.mod_eq_of_lt (b := 256 ^ 1) x.toNat_lt, UInt8.ofNat_toNat]

theorem ofNat16 (x : UInt16) : UInt16.ofNat (x.toNat % 256 ^ 2) = x := by
  rw [Nat.mod_eq_of_lt (b := 256 ^ 2) x.toNat_lt, UInt16.ofNat_toNat]

theorem ofNat32 (x : UInt32) : UInt32.ofNat (x.toNat % 256 ^ 4) = x := by
  rw [Nat.mod_eq_of_lt (b := 256 ^ 4) x.toNat_lt, UInt32.ofNat_toNat]

theorem ofNat64 (x : UInt64) : UInt64.ofNat (x.toNat % 256 ^ 8) = x := by
  rw [Nat.mod_eq_of_lt (b := 256 ^ 8) x.toNat_lt, UInt64.ofNat_toNat]

/-- The part of the header that is always there. -/
@[simp] theorem length_fixedPart (h : FancyHeader) : h.fixedPart.length = 17 := by simp [fixedPart]

/-- The header with nothing but the fixed part. -/
def bare (h : FancyHeader) : FancyHeader := { h with dataSize := 0, dataWidth := 0, data := [] }

/-- `Deserialize` takes the fixed part and leaves the rest to the payload, if a bit announces one. -/
theorem deserialize_fixedPart (h : FancyHeader) (tail : Bytes) :
    deserialize (h.fixedPart ++ tail) =
      (readData h.bare tail).map fun h' => (h', (h.fixedPart ++ tail).drop h'.getSerializedSize) := by
  simp only [deserialize, fixedPart, bare, List.append_assoc, readBE_writeBE, Option.bind_eq_bind, Option.bind_some,
    ofNat8, ofNat16, ofNat32, ofNat64]
  rw [Option.map_eq_bind]
  rfl

/-- A header without a payload loses what the setters left of one. -/
theorem deserialize_plain {h : FancyHeader} (counters : h.hasCounters = false) (maximums : h.hasMaximums = false)
    (rest : Bytes) : deserialize (h.serialize ++ rest) = some (h.bare, rest) := by
  have none : readData h.bare rest = some h.bare := by
    have counters' : h.bare.hasCounters = false := counters
    have maximums' : h.bare.hasMaximums = false := maximums
    simp [readData, counters', maximums']
  have serialized : h.serialize = h.fixedPart := by simp [serialize, counters, maximums]
  rw [serialized, deserialize_fixedPart, none, Option.map_some]
  simp [bare, getSerializedSize]

/-- The number of bytes per entry of the payload the action announces. -/
def entryBytes (h : FancyHeader) : Nat := if h.hasCounters then 4 else 1

/-- The size of a header with a payload. -/
theorem getSerializedSize_payload {h : FancyHeader} (kind : h.hasMaximums = !h.hasCounters) (some_data : 0 < h.dataSize)
    (length : h.data.length = h.dataSize.toNat * (h.entryBytes * h.dataWidth.toNat + 2)) :
    h.getSerializedSize = 17 + (3 + h.data.length) := by
  have nonzero : h.dataSize ≠ 0 := by rintro zero; simp [zero] at some_data
  rw [getSerializedSize, if_neg nonzero, length, entryBytes]
  cases counters : h.hasCounters <;> simp [kind, counters] <;> ring

/-- `Serialize` writes the payload behind the fixed part. -/
theorem serialize_payload {h : FancyHeader} (kind : h.hasMaximums = !h.hasCounters) (some_data : 0 < h.dataSize) :
    h.serialize = h.fixedPart ++ (writeBE 2 h.dataSize.toNat ++ (writeBE 1 h.dataWidth.toNat ++ h.data)) := by
  simp [serialize, kind, some_data]

/-- A header whose payload is what its size and width announce comes back as it is. -/
theorem deserialize_payload {h : FancyHeader} (kind : h.hasMaximums = !h.hasCounters) (some_data : 0 < h.dataSize)
    (length : h.data.length = h.dataSize.toNat * (h.entryBytes * h.dataWidth.toNat + 2)) (rest : Bytes) :
    deserialize (h.serialize ++ rest) = some (h, rest) := by
  have size := getSerializedSize_payload kind some_data length
  have positive : 0 < h.data.length := by
    have nonzero : 0 < h.dataSize.toNat := by simpa [UInt16.lt_iff_toNat_lt] using some_data
    rw [length]
    positivity
  have tail : readData h.bare (writeBE 2 h.dataSize.toNat ++ (writeBE 1 h.dataWidth.toNat ++ (h.data ++ rest))) =
      some h := by
    have read : readDataSize h.entryBytes h.bare
        (writeBE 2 h.dataSize.toNat ++ (writeBE 1 h.dataWidth.toNat ++ (h.data ++ rest))) =
        some ({ h with data := [] }, h.data.length, h.data ++ rest) := by
      simp [readDataSize, length, bare]
    have counters' : ∀ d, hasCounters { h with data := d } = h.hasCounters := fun _ => rfl
    have maximums' : ∀ d, hasMaximums { h with data := d } = h.hasMaximums := fun _ => rfl
    cases counters : h.hasCounters with
    | true =>
      simp only [entryBytes, counters, if_true] at read
      simp only [readData, show h.bare.hasCounters = true from counters, if_true, read, Option.bind_eq_bind,
        Option.bind_some, maximums', kind, counters, Bool.not_true, Bool.false_eq_true, if_false]
      simp [positive]
    | false =>
      simp only [entryBytes, counters, Bool.false_eq_true, if_false] at read
      simp only [readData, show h.bare.hasCounters = false from counters, Bool.false_eq_true, if_false,
        Option.bind_eq_bind, Option.bind_some, show h.bare.hasMaximums = true by rw [← Bool.not_false, ← counters]; exact kind,
        if_true, read]
      simp [positive]
  have left : (h.fixedPart ++ (writeBE 2 h.dataSize.toNat ++ (writeBE 1 h.dataWidth.toNat ++ (h.data ++ rest)))).drop
      (17 + (3 + h.data.length)) = rest := by
    have whole : h.fixedPart ++ (writeBE 2 h.dataSize.toNat ++ (writeBE 1 h.dataWidth.toNat ++ (h.data ++ rest))) =
        (h.fixedPart ++ (writeBE 2 h.dataSize.toNat ++ (writeBE 1 h.dataWidth.toNat ++ h.data))) ++ rest := by simp
    rw [whole, List.drop_left' (by simp; omega)]
  rw [serialize_payload kind some_data]
  simp only [List.append_assoc, deserialize_fixedPart, tail, Option.map_some, size, left]

/-! ## Records -/

/-- One record as the read loops take it from the payload: the node's index and `width` entries. -/
def readRecord {α : Type} (read : Bytes → Option (α × Bytes)) (width : Nat) (bs : Bytes) :
    Option ((Nat × List α) × Bytes) :=
  (readLE 2 bs).bind fun i => (readMany read width i.2).map fun xs => ((i.1, xs.1), xs.2)

def readU8 : Bytes → Option (UInt8 × Bytes)
  | [] => none
  | b :: bs => some (b, bs)

def readU32 (bs : Bytes) : Option (UInt32 × Bytes) := (readLE 4 bs).map fun x => (.ofNat x.1, x.2)

/-- The records of a payload of maxima, `split` to a record, as many as the data size says. -/
def getMaximums (split : Nat) (h : FancyHeader) : Option (List (Nat × List UInt8)) :=
  (readMany (readRecord readU8 split) h.dataSize.toNat h.data).map (·.1)

/-- The records of a payload of counters, `width` to a record, as many as the data size says. -/
def getCounters (width : Nat) (h : FancyHeader) : Option (List (Nat × List UInt32)) :=
  (readMany (readRecord readU32 width) h.dataSize.toNat h.data).map (·.1)

/-- The entries of a node are written with the low byte first. -/
theorem readU32_writeLE (x : UInt32) (rest : Bytes) : readU32 (writeLE 4 x.toNat ++ rest) = some (x, rest) := by
  simp only [readU32, readLE_writeLE, Option.map_some, ofNat32]

/-- Reading back a record. -/
theorem readRecord_write {α : Type} {read : Bytes → Option (α × Bytes)} {write : α → Bytes}
    (exact : ∀ x rest, read (write x ++ rest) = some (x, rest)) {i : Nat} (small : i < 65536) (xs : List α)
    (rest : Bytes) :
    readRecord read xs.length (writeLE 2 i ++ xs.flatMap write ++ rest) = some ((i, xs), rest) := by
  have index : i % 256 ^ 2 = i := Nat.mod_eq_of_lt small
  rw [List.append_assoc, readRecord, readLE_writeLE, Option.bind_some,
    readMany_flatMap (fun x _ => exact x) rest, Option.map_some, index]

/-- Adding the records of nodes `0 .. n-1`, as both senders do. -/
def addMaximums (maximums : Nat → Nat → UInt8) (n : Nat) (h : FancyHeader) : FancyHeader :=
  (List.range n).foldl (fun h index => h.setDataMaximums (maximums index) index) h

def addCounters (counters : Nat → Nat → UInt32) (n : Nat) (h : FancyHeader) : FancyHeader :=
  (List.range n).foldl (fun h index => h.setDataCounter (counters index) index) h

/-- `AddMaximums` appends to the payload and counts its nodes. -/
theorem addMaximums_eq (maximums : Nat → Nat → UInt8) (n : Nat) (h : FancyHeader) :
    h.addMaximums maximums n = { h with
      dataSize := h.dataSize + .ofNat n
      data := h.data ++ (List.range n).flatMap fun i =>
        writeLE 2 i ++ ((List.range h.dataWidth.toNat).map (maximums i)).flatMap fun x => [x] } := by
  induction n with
  | zero => simp [addMaximums]
  | succ n ih =>
    have last : h.addMaximums maximums (n + 1) =
        (h.addMaximums maximums n).setDataMaximums (maximums n) n := by
      simp [addMaximums, List.range_succ]
    rw [last, ih]
    simp [setDataMaximums, List.range_succ, UInt16.add_assoc, UInt16.ofNat_add]

/-- `AddCounters` does the same with wider entries. -/
theorem addCounters_eq (counters : Nat → Nat → UInt32) (n : Nat) (h : FancyHeader) :
    h.addCounters counters n = { h with
      dataSize := h.dataSize + .ofNat n
      data := h.data ++ (List.range n).flatMap fun i =>
        writeLE 2 i ++ ((List.range h.dataWidth.toNat).map (counters i)).flatMap fun x => writeLE 4 x.toNat } := by
  induction n with
  | zero => simp [addCounters]
  | succ n ih =>
    have last : h.addCounters counters (n + 1) = (h.addCounters counters n).setDataCounter (counters n) n := by
      simp [addCounters, List.range_succ]
    rw [last, ih]
    simp [setDataCounter, List.range_succ, UInt16.add_assoc, UInt16.ofNat_add, List.flatMap_map]

/-- Reading records that all have `width` entries and a 16-bit index. -/
theorem readMany_readRecord {α : Type} {read : Bytes → Option (α × Bytes)} {write : α → Bytes} {width : Nat}
    (exact : ∀ x rest, read (write x ++ rest) = some (x, rest)) {records : List (Nat × List α)}
    (shape : ∀ r ∈ records, r.1 < 65536 ∧ r.2.length = width) :
    readMany (readRecord read width) records.length (records.flatMap fun r => writeLE 2 r.1 ++ r.2.flatMap write) =
      some (records, []) := by
  have each : ∀ r ∈ records, ∀ rest,
      readRecord read width (writeLE 2 r.1 ++ r.2.flatMap write ++ rest) = some (r, rest) := by
    intro r mem rest
    obtain ⟨small, length⟩ := shape r mem
    rw [← length]
    exact readRecord_write exact small r.2 rest
  simpa using readMany_flatMap each []

/-- **Payload transfer.** The records that are read are those that were added. -/
theorem readMany_records {α : Type} {read : Bytes → Option (α × Bytes)} {write : α → Bytes}
    (exact : ∀ x rest, read (write x ++ rest) = some (x, rest)) (values : Nat → Nat → α) (width : Nat) {n : Nat}
    (small : n ≤ 65536) :
    readMany (readRecord read width) n
        ((List.range n).flatMap fun i => writeLE 2 i ++ ((List.range width).map (values i)).flatMap write) =
      some ((List.range n).map fun i => (i, (List.range width).map (values i)), []) := by
  have shape : ∀ r ∈ (List.range n).map (fun i => (i, (List.range width).map (values i))), r.1 < 65536 ∧
    r.2.length = width := by
    intro r mem
    obtain ⟨i, hi, rfl⟩ := List.mem_map.1 mem
    exact ⟨Nat.lt_of_lt_of_le (List.mem_range.1 hi) small, by simp⟩
  simpa [List.flatMap_map] using readMany_readRecord exact shape

theorem length_flatMap_const {α β : Type} {f : α → List β} {k : Nat} (each : ∀ x, (f x).length = k) (xs : List α) :
    (xs.flatMap f).length = xs.length * k := by
  induction xs with
  | nil => simp
  | cons x xs ih => simp [each, ih, Nat.add_mul, Nat.add_comm]

/-- The length of a payload of `n` records of `width` entries of `k` bytes. -/
theorem length_records {α : Type} {write : α → Bytes} {k : Nat} (each : ∀ x, (write x).length = k)
    (values : Nat → Nat → α) (n width : Nat) :
    ((List.range n).flatMap fun i => writeLE 2 i ++ ((List.range width).map (values i)).flatMap write).length =
      n * (k * width + 2) := by
  have record : ∀ i, (writeLE 2 i ++ ((List.range width).map (values i)).flatMap write).length = k * width + 2 := by
    intro i
    rw [List.length_append, length_writeLE, length_flatMap_const each, List.length_map, List.length_range]
    ring
  rw [length_flatMap_const record, List.length_range]

/-- The size field has 16 bits. -/
theorem toNat_ofNat_size {n : Nat} (few : n ≤ 65535) : (UInt16.ofNat n).toNat = n :=
  UInt16.toNat_ofNat_of_lt' (show n < 2 ^ 16 by omega)

/-- A header with the records of nodes `0 .. n-1` comes back as it is. -/
theorem deserialize_records {α : Type} {write : α → Bytes} {h : FancyHeader}
    (kind : h.hasMaximums = !h.hasCounters) (each : ∀ x, (write x).length = h.entryBytes) {n : Nat}
    (size : h.dataSize = .ofNat n) (positive : 0 < n) (few : n ≤ 65535) (values : Nat → Nat → α)
    (data : h.data = (List.range n).flatMap fun i =>
      writeLE 2 i ++ ((List.range h.dataWidth.toNat).map (values i)).flatMap write)
    (rest : Bytes) : deserialize (h.serialize ++ rest) = some (h, rest) := by
  refine deserialize_payload kind ?_ ?_ rest
  · rw [size, UInt16.lt_iff_toNat_lt, toNat_ofNat_size few]
    exact positive
  · rw [size, toNat_ofNat_size few, data]
    exact length_records each values n _

/-- The maxima of such a header. -/
theorem getMaximums_records {h : FancyHeader} {n split : Nat} (size : h.dataSize = .ofNat n) (few : n ≤ 65535)
    (width : h.dataWidth.toNat = split) (values : Nat → Nat → UInt8)
    (data : h.data = (List.range n).flatMap fun i =>
      writeLE 2 i ++ ((List.range h.dataWidth.toNat).map (values i)).flatMap fun x => [x]) :
    h.getMaximums split = some ((List.range n).map fun i => (i, (List.range split).map (values i))) := by
  have exact_ : ∀ (x : UInt8) rest, readU8 ([x] ++ rest) = some (x, rest) := fun _ _ => rfl
  rw [getMaximums, size, toNat_ofNat_size few, data, width, readMany_records exact_ values split (by omega),
    Option.map_some]

/-- The counters of such a header. -/
theorem getCounters_records {h : FancyHeader} {n width : Nat} (size : h.dataSize = .ofNat n) (few : n ≤ 65535)
    (width' : h.dataWidth.toNat = width) (values : Nat → Nat → UInt32)
    (data : h.data = (List.range n).flatMap fun i =>
      writeLE 2 i ++ ((List.range h.dataWidth.toNat).map (values i)).flatMap fun x => writeLE 4 x.toNat) :
    h.getCounters width = some ((List.range n).map fun i => (i, (List.range width).map (values i))) := by
  rw [getCounters, size, toNat_ofNat_size few, data, width', readMany_records readU32_writeLE values width (by omega),
    Option.map_some]

end FancyHeader

end Ns3Fancy.Switch

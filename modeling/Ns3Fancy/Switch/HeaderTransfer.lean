import Ns3Fancy.Switch.Standard

/-!
# What a FANCY header carries

A header as a user of the class makes it: the data width first, then setters of the fixed part and
records of the payload in any order. `Serialize` and `GetSerializedSize` look at the number of records,
`Deserialize` only at the action bits, so the header comes back unless a bit announces a payload
that has no record.
-/

namespace Ns3Fancy.Switch
open Buffer
set_option autoImplicit false

namespace FancyHeader

/-! ## Headers made by setters -/

/-- A setter of the fixed part. -/
inductive Setter where
  | id (x : UInt32)
  | action (x : UInt8)
  | countFlag (flag : Bool)
  | ackFlag (flag : Bool)
  | fsmFlag (flag : Bool)
  | resetActionField
  | seq (x : UInt16)
  | counter (x : UInt64)
  | nextHeader (x : UInt16)

def Setter.run : Setter → FancyHeader → FancyHeader
  | .id x => setId x
  | .action x => setAction x
  | .countFlag flag => setCountFlag flag
  | .ackFlag flag => setAckFlag flag
  | .fsmFlag flag => setFSMFlag flag
  | .resetActionField => FancyHeader.resetActionField
  | .seq x => setSeq x
  | .counter x => setCounter x
  | .nextHeader x => setNextHeader x

/-- A record of a node: its index and an array with at least as many values as the data width says. -/
inductive Record where
  | counters (values : Nat → UInt32) (index : UInt16)
  | maximums (values : Nat → UInt8) (index : UInt16)

inductive Call where
  | set (setter : Setter)
  | add (record : Record)

def Call.run : Call → FancyHeader → FancyHeader
  | .set setter => setter.run
  | .add (.counters values index) => setDataCounter values index.toNat
  | .add (.maximums values index) => setDataMaximums values index.toNat

/-- The data width first, then the calls in order. -/
def build (width : UInt8) (calls : List Call) : FancyHeader :=
  calls.foldl (fun h call => call.run h) (({} : FancyHeader).setDataWidth width)

def addedRecords (calls : List Call) : List Record :=
  calls.filterMap fun call => match call with
    | .set _ => none
    | .add record => some record

/-- The record is of the kind the action bits announce. -/
def Record.Matches (h : FancyHeader) : Record → Prop
  | .counters .. => h.hasMaximums = false
  | .maximums .. => h.hasCounters = false

/-- The node indices and the values of the records of counters. -/
def counterRecords (width : UInt8) (records : List Record) : List (Nat × List UInt32) :=
  records.filterMap fun record => match record with
    | .counters values index => some (index.toNat, (List.range width.toNat).map values)
    | .maximums .. => none

/-- The node indices and the values of the records of maxima. -/
def maximumRecords (width : UInt8) (records : List Record) : List (Nat × List UInt8) :=
  records.filterMap fun record => match record with
    | .counters .. => none
    | .maximums values index => some (index.toNat, (List.range width.toNat).map values)

/-- The header survives the wire: `Serialize` writes as many bytes as `GetSerializedSize` says, and whatever
payload follows, `Deserialize` gives the same header and leaves that payload. With nothing behind the header
a read of one byte more fails, so none of the payload is read. -/
def RoundTrips (width : UInt8) (calls : List Call) : Prop :=
  (build width calls).serialize.length = (build width calls).getSerializedSize ∧
  ∃ h : FancyHeader,
    (∀ payload, deserialize ((build width calls).serialize ++ payload) = some (h, payload)) ∧
    h.getSerializedSize = (build width calls).getSerializedSize ∧
    h.id = (build width calls).id ∧ h.action = (build width calls).action ∧ h.seq = (build width calls).seq ∧
    h.counter = (build width calls).counter ∧ h.nextHeader = (build width calls).nextHeader ∧
    (h.hasCounters = true → h.dataWidth = width ∧
      h.getCounters width.toNat = some (counterRecords width (addedRecords calls))) ∧
    (h.hasMaximums = true → h.dataWidth = width ∧
      h.getMaximums width.toNat = some (maximumRecords width (addedRecords calls)))

/-! ## The payload of a built header -/

/-- The bytes of a record. -/
def Record.bytes (width : UInt8) : Record → Bytes
  | .counters values index =>
    writeLE 2 index.toNat ++ ((List.range width.toNat).map values).flatMap fun x => writeLE 4 x.toNat
  | .maximums values index => writeLE 2 index.toNat ++ ((List.range width.toNat).map values).flatMap fun x => [x]

theorem Setter.run_data (setter : Setter) (h : FancyHeader) :
    (setter.run h).data = h.data ∧ (setter.run h).dataSize = h.dataSize ∧ (setter.run h).dataWidth = h.dataWidth := by
  cases setter <;> exact ⟨rfl, rfl, rfl⟩

theorem Call.run_add (record : Record) (h : FancyHeader) :
    ((Call.add record).run h).data = h.data ++ record.bytes h.dataWidth ∧
      ((Call.add record).run h).dataSize = h.dataSize + 1 ∧ ((Call.add record).run h).dataWidth = h.dataWidth := by
  cases record with
  | counters values index => simp [Call.run, setDataCounter, Record.bytes, List.flatMap_map]
  | maximums values index => simp [Call.run, setDataMaximums, Record.bytes]

/-- The payload after more calls. -/
theorem foldl_run_data (calls : List Call) (h : FancyHeader) :
    let h' := calls.foldl (fun h call => call.run h) h
    h'.data = h.data ++ (addedRecords calls).flatMap (Record.bytes h.dataWidth) ∧
      h'.dataSize = h.dataSize + .ofNat (addedRecords calls).length ∧ h'.dataWidth = h.dataWidth := by
  induction calls generalizing h with
  | nil => simp [addedRecords]
  | cons call calls ih =>
    obtain ⟨data, size, width⟩ := ih (call.run h)
    rw [List.foldl_cons]
    cases call with
    | set setter =>
      obtain ⟨data', size', width'⟩ := setter.run_data h
      simp only [Call.run] at data size width
      refine ⟨?_, ?_, ?_⟩
      · simpa only [Call.run, addedRecords, List.filterMap_cons_none, data', width'] using data
      · simpa only [Call.run, addedRecords, List.filterMap_cons_none, size'] using size
      · exact width.trans width'
    | add record =>
      obtain ⟨data', size', width'⟩ := Call.run_add record h
      have added : addedRecords (.add record :: calls) = record :: addedRecords calls := rfl
      refine ⟨?_, ?_, width.trans width'⟩
      · rw [data, data', width', added, List.flatMap_cons, List.append_assoc]
      · rw [size, size', added, List.length_cons, UInt16.add_assoc, Nat.add_comm, UInt16.ofNat_add]
        rfl

theorem build_data (width : UInt8) (calls : List Call) :
    (build width calls).data = (addedRecords calls).flatMap (Record.bytes width) ∧
      (build width calls).dataSize = .ofNat (addedRecords calls).length ∧ (build width calls).dataWidth = width := by
  obtain ⟨data, size, width'⟩ := foldl_run_data calls (({} : FancyHeader).setDataWidth width)
  refine ⟨?_, ?_, width'⟩
  · simpa [build, setDataWidth] using data
  · simpa [build, setDataWidth] using size

/-- Records of one kind, each written as its node and the entries of the node, are written as these are. -/
theorem records_bytes {α : Type} {records : List Record} {width : UInt8} (node : Record → Option (Nat × List α))
    (write : α → Bytes) (each : ∀ r ∈ records, ∃ x, node r = some x ∧ r.bytes width = writeLE 2 x.1 ++ x.2.flatMap write) :
    records.flatMap (Record.bytes width) = (records.filterMap node).flatMap (fun x => writeLE 2 x.1 ++ x.2.flatMap write) ∧
      (records.filterMap node).length = records.length := by
  induction records with
  | nil => exact ⟨rfl, rfl⟩
  | cons r records ih =>
    obtain ⟨bytes, length⟩ := ih fun r' mem => each r' (List.mem_cons_of_mem _ mem)
    obtain ⟨x, here, first⟩ := each r List.mem_cons_self
    rw [List.filterMap_cons_some here, List.flatMap_cons, List.flatMap_cons, bytes, first, List.length_cons, List.length_cons,
      length]
    exact ⟨rfl, rfl⟩

/-- The payload of records of one kind is as long as the size and the width announce. -/
theorem length_payload {records : List Record} {width : UInt8} {bytes : Nat}
    (each : ∀ r ∈ records, (r.bytes width).length = bytes * width.toNat + 2) :
    (records.flatMap (Record.bytes width)).length = records.length * (bytes * width.toNat + 2) := by
  rw [List.length_flatMap, List.map_congr_left each, List.map_const', List.sum_replicate_nat]

theorem length_bytes_counters (width : UInt8) (values : Nat → UInt32) (index : UInt16) :
    (Record.bytes width (.counters values index)).length = 4 * width.toNat + 2 := by
  simp only [Record.bytes, List.length_append, length_writeLE, List.length_flatMap, List.map_map, Function.comp_def,
    List.map_const', List.sum_replicate_nat, List.length_range]
  omega

theorem length_bytes_maximums (width : UInt8) (values : Nat → UInt8) (index : UInt16) :
    (Record.bytes width (.maximums values index)).length = 1 * width.toNat + 2 := by
  simp [Record.bytes, Nat.add_comm]

/-! ## Exactly the headers that come back -/

/-- A bit announces a payload, but no record was added: three bytes too many are read. -/
theorem deserialize_missing {h : FancyHeader} (announced : h.hasCounters = true ∨ h.hasMaximums = true)
    (missing : h.dataSize = 0) : deserialize (h.serialize ++ []) = none := by
  have fixed : h.serialize = h.fixedPart := by simp [serialize, missing]
  have read : ∀ bytes, readDataSize bytes h.bare [] = none := fun _ => rfl
  have none : readData h.bare [] = none := by
    cases counters : h.hasCounters with
    | true =>
      have counters' : h.bare.hasCounters = true := counters
      simp [readData, counters', read]
    | false =>
      have counters' : h.bare.hasCounters = false := counters
      have maximums' : h.bare.hasMaximums = true := by
        rcases announced with announced | announced
        · rw [counters] at announced; cases announced
        · exact announced
      simp [readData, counters', maximums', read]
  rw [fixed, deserialize_fixedPart, none, Option.map_none]

/-- A header without a payload. -/
theorem roundTrips_plain {width : UInt8} {calls : List Call} (counters : (build width calls).hasCounters = false)
    (maximums : (build width calls).hasMaximums = false) : RoundTrips width calls := by
  have size : (build width calls).getSerializedSize = 17 := by simp [getSerializedSize, counters, maximums]
  have length : (build width calls).serialize.length = 17 := by simp [serialize, counters, maximums]
  refine ⟨by rw [size, length], (build width calls).bare, fun payload => deserialize_plain counters maximums payload, ?_,
    rfl, rfl, rfl, rfl, rfl, ?_, ?_⟩
  · rw [size]; simp [getSerializedSize, bare]
  · intro announced
    rw [show (build width calls).bare.hasCounters = false from counters] at announced
    cases announced
  · intro announced
    rw [show (build width calls).bare.hasMaximums = false from maximums] at announced
    cases announced

theorem build_some (width : UInt8) {calls : List Call} (few : (addedRecords calls).length ≤ 65535)
    (added : addedRecords calls ≠ []) :
    (build width calls).dataSize.toNat = (addedRecords calls).length ∧ 0 < (build width calls).dataSize := by
  have size : (build width calls).dataSize.toNat = (addedRecords calls).length := by
    rw [(build_data width calls).2.1]
    exact UInt16.toNat_ofNat_of_lt' (show _ < 2 ^ 16 by omega)
  refine ⟨size, ?_⟩
  rw [UInt16.lt_iff_toNat_lt, size]
  exact List.length_pos_iff.2 added

/-- A header with a payload of one kind. -/
theorem roundTrips_payload {width : UInt8} {calls : List Call} (bytes : Nat)
    (kind : (build width calls).hasMaximums = !(build width calls).hasCounters)
    (few : (addedRecords calls).length ≤ 65535) (added : addedRecords calls ≠ [])
    (entry : (build width calls).entryBytes = bytes)
    (each : ∀ r ∈ addedRecords calls, (r.bytes width).length = bytes * width.toNat + 2)
    (counters : (build width calls).hasCounters = true →
      (build width calls).getCounters width.toNat = some (counterRecords width (addedRecords calls)))
    (maximums : (build width calls).hasMaximums = true →
      (build width calls).getMaximums width.toNat = some (maximumRecords width (addedRecords calls))) :
    RoundTrips width calls := by
  obtain ⟨data, -, width'⟩ := build_data width calls
  obtain ⟨size, positive⟩ := build_some width few added
  have length : (build width calls).data.length = (build width calls).dataSize.toNat *
      ((build width calls).entryBytes * (build width calls).dataWidth.toNat + 2) := by
    rw [data, size, entry, width']
    exact length_payload each
  refine ⟨?_, build width calls, fun payload => deserialize_payload kind positive length payload, rfl, rfl, rfl, rfl, rfl,
    rfl, fun announced => ⟨width', counters announced⟩, fun announced => ⟨width', maximums announced⟩⟩
  rw [serialize_payload kind positive, getSerializedSize_payload kind positive length]
  simp only [List.length_append, length_fixedPart, length_writeBE]
  omega

/-- Records of one kind are read back, node by node. -/
theorem read_records {α : Type} {width : UInt8} {calls : List Call} (node : Record → Option (Nat × List α)) (write : α → Bytes)
    {read : Bytes → Option (α × Bytes)} (exact_ : ∀ x rest, read (write x ++ rest) = some (x, rest))
    (few : (addedRecords calls).length ≤ 65535) (added : addedRecords calls ≠ [])
    (each : ∀ r ∈ addedRecords calls, ∃ x, node r = some x ∧ x.1 < 65536 ∧ x.2.length = width.toNat ∧
      r.bytes width = writeLE 2 x.1 ++ x.2.flatMap write) :
    (readMany (readRecord read width.toNat) (build width calls).dataSize.toNat (build width calls).data).map (·.1) =
      some ((addedRecords calls).filterMap node) := by
  obtain ⟨bytes, length⟩ := records_bytes node write fun r mem => (each r mem).imp fun x h => ⟨h.1, h.2.2.2⟩
  have shape : ∀ x ∈ (addedRecords calls).filterMap node, x.1 < 65536 ∧ x.2.length = width.toNat := by
    intro x found
    obtain ⟨r, mem, here⟩ := List.mem_filterMap.1 found
    obtain ⟨y, there, small, wide, -⟩ := each r mem
    obtain rfl := Option.some.inj (there.symm.trans here)
    exact ⟨small, wide⟩
  rw [(build_some width few added).1, (build_data width calls).1, bytes, ← length, readMany_readRecord exact_ shape,
    Option.map_some]

/-- **Which headers survive the wire**: all but those whose action announces a payload to which no record was added. -/
theorem roundTrips_iff (width : UInt8) (calls : List Call)
    (one : ¬((build width calls).hasCounters = true ∧ (build width calls).hasMaximums = true))
    (few : (addedRecords calls).length ≤ 65535)
    (matching : ∀ r ∈ addedRecords calls, r.Matches (build width calls)) :
    RoundTrips width calls ↔
      ((build width calls).hasCounters = false ∧ (build width calls).hasMaximums = false) ∨ addedRecords calls ≠ [] := by
  constructor
  · rintro ⟨-, h, read, -⟩
    by_contra neither
    simp only [not_or, not_and, Bool.not_eq_false, ne_eq, not_not] at neither
    obtain ⟨announced, missing⟩ := neither
    have zero : (build width calls).dataSize = 0 := by rw [(build_data width calls).2.1, missing]; rfl
    have bit : (build width calls).hasCounters = true ∨ (build width calls).hasMaximums = true := by
      cases counters : (build width calls).hasCounters with
      | true => exact .inl rfl
      | false => exact .inr (announced counters)
    have := read []
    rw [deserialize_missing bit zero] at this
    cases this
  · intro fine
    cases counters : (build width calls).hasCounters with
    | true =>
      have maximums : (build width calls).hasMaximums = false := by simpa [counters] using one
      have added : addedRecords calls ≠ [] := by simpa [counters] using fine
      have all : ∀ r ∈ addedRecords calls, ∃ values index, r = .counters values index := by
        intro r mem
        have kind := matching r mem
        cases r with
        | counters values index => exact ⟨values, index, rfl⟩
        | maximums values index => simp [Record.Matches, counters] at kind
      refine roundTrips_payload 4 (by rw [counters, maximums]; rfl) few added (by simp [entryBytes, counters]) ?_ ?_ ?_
      · intro r mem
        obtain ⟨values, index, rfl⟩ := all r mem
        exact length_bytes_counters width values index
      · intro _
        refine read_records _ _ readU32_writeLE few added fun r mem => ?_
        obtain ⟨values, index, rfl⟩ := all r mem
        exact ⟨_, rfl, index.toNat_lt, by simp, rfl⟩
      · intro announced
        rw [maximums] at announced
        cases announced
    | false =>
      cases maximums : (build width calls).hasMaximums with
      | false => exact roundTrips_plain counters maximums
      | true =>
        have added : addedRecords calls ≠ [] := by simpa [maximums] using fine
        have all : ∀ r ∈ addedRecords calls, ∃ values index, r = .maximums values index := by
          intro r mem
          have kind := matching r mem
          cases r with
          | counters values index => simp [Record.Matches, maximums] at kind
          | maximums values index => exact ⟨values, index, rfl⟩
        refine roundTrips_payload 1 (by rw [counters, maximums]; rfl) few added (by simp [entryBytes, counters]) ?_ ?_ ?_
        · intro r mem
          obtain ⟨values, index, rfl⟩ := all r mem
          exact length_bytes_maximums width values index
        · intro announced
          rw [counters] at announced
          cases announced
        · intro _
          have exact_ : ∀ (x : UInt8) rest, readU8 ([x] ++ rest) = some (x, rest) := fun _ _ => rfl
          refine read_records _ _ exact_ few added fun r mem => ?_
          obtain ⟨values, index, rfl⟩ := all r mem
          exact ⟨_, rfl, index.toNat_lt, by simp, rfl⟩

/-- A report of two nodes with one counter each. -/
def sampleCalls : List Call :=
  [.set (.action (GREY_COUNTER ||| MULTIPLE_COUNTERS)), .add (.counters (fun _ => 7) 0), .add (.counters (fun _ => 9) 1)]

theorem roundTrips_sample : RoundTrips 1 sampleCalls :=
  (roundTrips_iff 1 sampleCalls (by decide) (by decide) (by
    intro r mem
    have records : addedRecords sampleCalls = [.counters (fun _ => 7) 0, .counters (fun _ => 9) 1] := rfl
    rw [records] at mem
    simp only [List.mem_cons, List.not_mem_nil, or_false] at mem
    have none : (build 1 sampleCalls).hasMaximums = false := by decide
    obtain rfl | rfl := mem
    · exact none
    · exact none)).2 (.inr (List.cons_ne_nil _ _))

/-- The START of a tree without nodes: its action announces maxima and none are there. -/
def emptyCalls : List Call := [.set (.action (GREY_START ||| COUNTER_MAXIMUMS))]

/-- The bits, the number and the kind of the records are as they should be, and the header does not come back; the
first three bytes of an IPv4 header behind it would be taken for the size and the width of the payload. -/
theorem not_roundTrips_empty :
    ¬((build 2 emptyCalls).hasCounters = true ∧ (build 2 emptyCalls).hasMaximums = true) ∧
      (addedRecords emptyCalls).length ≤ 65535 ∧ (∀ r ∈ addedRecords emptyCalls, r.Matches (build 2 emptyCalls)) ∧
      ¬RoundTrips 2 emptyCalls := by
  refine ⟨by decide, by decide, by simp [emptyCalls, addedRecords], ?_⟩
  rintro ⟨-, h, read, -⟩
  have missing : deserialize ((build 2 emptyCalls).serialize ++ []) = none := by decide
  rw [read []] at missing
  cases missing

end FancyHeader

/-! ## The payloads of the zooming tree -/

/-- What a read loop gets: node, position in the node and value, in this order. -/
def triples {α : Type} (records : List (Nat × List α)) : List (Nat × Nat × α) :=
  records.flatMap fun r => r.2.zipIdx.map fun v => (r.1, v.2, v.1)

/-- The entries of a matrix with `n` rows, row by row. -/
def entries {α : Type} (n width : Nat) (values : Nat → Nat → α) : List (Nat × Nat × α) :=
  (List.range n).flatMap fun i => (List.range width).map fun j => (i, j, values i j)

theorem triples_records {α : Type} (n width : Nat) (values : Nat → Nat → α) :
    triples ((List.range n).map fun i => (i, (List.range width).map (values i))) = entries n width values := by
  have row : ∀ i, (((List.range width).map (values i)).zipIdx.map fun v => (i, v.2, v.1)) =
      (List.range width).map fun j => (i, j, values i j) := by
    intro i
    apply List.ext_getElem
    · simp
    · simp
  simp only [triples, entries, List.flatMap_map, row]

/-- Every node and cell comes once. -/
theorem entries_nodup {α : Type} (n width : Nat) (values : Nat → Nat → α) :
    ((entries n width values).map fun e => (e.1, e.2.1)).Nodup := by
  have cells : ((entries n width values).map fun e => (e.1, e.2.1)) = List.range n ×ˢ List.range width := by
    simp only [entries, List.map_flatMap, List.map_map, Function.comp_def]
    rfl
  rw [cells]
  exact List.nodup_range.product List.nodup_range

/-- A loop over the records of nodes `0 .. n-1` treats every node once. -/
theorem foldl_nodes {α : Type} (f : HashCounter → α → HashCounter) (xs : Nat → α) (tree : Tree) (n : Nat) :
    ((List.range n).map fun i => (i, xs i)).foldl (fun t r => Function.update t r.1 (f (t r.1) r.2)) tree =
      fun i => if i < n then f (tree i) (xs i) else tree i := by
  induction n with
  | zero => simp
  | succ n ih =>
    rw [List.range_succ, List.map_append, List.foldl_append, ih]
    funext i
    by_cases here : i = n
    · subst here; simp
    · have : i < n + 1 ↔ i < n := by omega
      simp [here, this]

section
variable (cfg : FancyConfig)

/-- The maxima of a START reach level 0 of the receiver's history. -/
theorem initReceiverStep_first (seq : Nat) (maxima : Nat → Nat → UInt8) (tree : Tree) {i j : Nat}
    (node : i < cfg.nodesInTree) (slot : j < cfg.layerSplit) :
    (initReceiverStep cfg seq true
      ((List.range cfg.nodesInTree).map fun i => (i, (List.range cfg.layerSplit).map (maxima i))) tree i).maxCells 0 j =
      maxima i j := by
  have step := foldl_nodes (fun n cells => n.setFirst cfg.layerSplit cells)
    (fun i => (List.range cfg.layerSplit).map (maxima i)) tree cfg.nodesInTree
  simp only [initReceiverStep, if_true, step]
  split <;> simp [resetNodes, node, slot, HashCounter.resetCounters, HashCounter.setFirst]

theorem pipelinedInitReceiverStep_first (maxima : Nat → Nat → UInt8) (tree : Tree) {i j : Nat}
    (node : i < cfg.nodesInTree) (slot : j < cfg.layerSplit) :
    (pipelinedInitReceiverStep cfg true
      ((List.range cfg.nodesInTree).map fun i => (i, (List.range cfg.layerSplit).map (maxima i))) tree i).maxCells 0 j =
      maxima i j := by
  have step := foldl_nodes (fun n cells => (n.shiftHistory cfg.treeDepth cfg.layerSplit).setFirst cfg.layerSplit cells)
    (fun i => (List.range cfg.layerSplit).map (maxima i)) tree cfg.nodesInTree
  simp only [pipelinedInitReceiverStep, if_true, step]
  simp [resetNodes, node, slot, HashCounter.resetCounters, HashCounter.setFirst]

variable {cfg}

/-- The payload of a report of the tree. -/
theorem sendGreyCounter_payload {p : FancyPortInfo} {r : FancyPortInfo × FancyHeader × List PortLog}
    (run : sendGreyCounter cfg cfg.treeId p = some r) :
    r.2.1.action = 0x34 ∧ r.2.1.dataSize = .ofNat cfg.nodesInTree ∧ r.2.1.dataWidth = .ofNat cfg.counterWidth ∧
      r.2.1.data = (List.range cfg.nodesInTree).flatMap fun i => writeLE 2 i ++
        ((List.range r.2.1.dataWidth.toNat).map (p.greyRecv.counterTree i).counters).flatMap fun x => writeLE 4 x.toNat := by
  simp only [sendGreyCounter, if_true] at run
  split at run
  · obtain rfl := Option.some.inj run
    rw [FancyHeader.addCounters_eq]
    refine ⟨?_, UInt16.zero_add _, rfl, rfl⟩
    show (((0 : UInt8) ||| (0x1f &&& GREY_COUNTER)) ||| (0x1f &&& (GREY_COUNTER ||| MULTIPLE_COUNTERS))) ||| 0x20 = 0x34
    decide
  · cases run

/-- The payload of a START of the tree. -/
theorem sendGreyAction_payload {p : FancyPortInfo} {r : FancyPortInfo × FancyHeader}
    (run : sendGreyAction cfg (GREY_START ||| COUNTER_MAXIMUMS) cfg.treeId p = some r) :
    r.2.action = GREY_START ||| COUNTER_MAXIMUMS ∧ r.2.dataSize = .ofNat cfg.nodesInTree ∧
      r.2.dataWidth = .ofNat cfg.layerSplit ∧
      r.2.data = (List.range cfg.nodesInTree).flatMap fun i => writeLE 2 i ++
        ((List.range r.2.dataWidth.toNat).map ((p.greySend.counterTree i).maxCells 0)).flatMap fun x => [x] := by
  simp only [sendGreyAction, and_self, if_true] at run
  split at run
  · obtain rfl := Option.some.inj run
    rw [FancyHeader.addMaximums_eq]
    refine ⟨?_, UInt16.zero_add _, rfl, rfl⟩
    show ((0 : UInt8) ||| (0x1f &&& (GREY_START ||| COUNTER_MAXIMUMS))) &&& 0xdf = GREY_START ||| COUNTER_MAXIMUMS
    decide
  · cases run

/-- A header with the payload of a report reads back with its counters. -/
theorem report_records {hdr : FancyHeader} {nodes width : Nat} (fits : width ≤ 255) (some_ : 1 ≤ nodes) (few : nodes ≤ 65535)
    (action : hdr.action = 0x34) (size : hdr.dataSize = .ofNat nodes) (hwidth : hdr.dataWidth = .ofNat width)
    {values : Nat → Nat → UInt32} (data : hdr.data = (List.range nodes).flatMap fun i => writeLE 2 i ++
      ((List.range hdr.dataWidth.toNat).map (values i)).flatMap fun x => writeLE 4 x.toNat) (payload : Bytes) :
    FancyHeader.deserialize (hdr.serialize ++ payload) = some (hdr, payload) ∧
      hdr.getCounters width = some ((List.range nodes).map fun i => (i, (List.range width).map (values i))) := by
  have counters : hdr.hasCounters = true := by rw [FancyHeader.hasCounters, action]; decide
  have maximums : hdr.hasMaximums = false := by rw [FancyHeader.hasMaximums, action]; decide
  have entry : ∀ x : UInt32, (writeLE 4 x.toNat).length = hdr.entryBytes := by
    intro x
    simp [FancyHeader.entryBytes, counters]
  refine ⟨FancyHeader.deserialize_records (by rw [counters, maximums]; rfl) entry size some_ few values data payload,
    FancyHeader.getCounters_records size few ?_ values data⟩
  rw [hwidth]
  exact UInt8.toNat_ofNat_of_lt' (show width < 2 ^ 8 by omega)

/-- A header with the payload of a START reads back with its maxima. -/
theorem start_records {hdr : FancyHeader} {nodes split : Nat} (fits : split ≤ 255) (some_ : 1 ≤ nodes) (few : nodes ≤ 65535)
    (action : hdr.action = GREY_START ||| COUNTER_MAXIMUMS) (size : hdr.dataSize = .ofNat nodes)
    (hwidth : hdr.dataWidth = .ofNat split) {values : Nat → Nat → UInt8}
    (data : hdr.data = (List.range nodes).flatMap fun i => writeLE 2 i ++
      ((List.range hdr.dataWidth.toNat).map (values i)).flatMap fun x => [x]) (payload : Bytes) :
    FancyHeader.deserialize (hdr.serialize ++ payload) = some (hdr, payload) ∧
      hdr.getMaximums split = some ((List.range nodes).map fun i => (i, (List.range split).map (values i))) := by
  have counters : hdr.hasCounters = false := by rw [FancyHeader.hasCounters, action]; decide
  have maximums : hdr.hasMaximums = true := by rw [FancyHeader.hasMaximums, action]; decide
  have entry : ∀ x : UInt8, [x].length = hdr.entryBytes := by
    intro x
    simp [FancyHeader.entryBytes, counters]
  refine ⟨FancyHeader.deserialize_records (by rw [counters, maximums]; rfl) entry size some_ few values data payload,
    FancyHeader.getMaximums_records size few ?_ values data⟩
  rw [hwidth]
  exact UInt8.toNat_ofNat_of_lt' (show split < 2 ^ 8 by omega)

/-- A report of the tree reads back with its counters. -/
theorem report_transfer (width : cfg.counterWidth ≤ 255) (some_ : 1 ≤ cfg.nodesInTree)
    (few : cfg.nodesInTree ≤ 65535) {p : FancyPortInfo} {r : FancyPortInfo × FancyHeader × List PortLog}
    (run : sendGreyCounter cfg cfg.treeId p = some r) (payload : Bytes) :
    FancyHeader.deserialize (r.2.1.serialize ++ payload) = some (r.2.1, payload) ∧
      r.2.1.getCounters cfg.counterWidth = some ((List.range cfg.nodesInTree).map fun i =>
        (i, (List.range cfg.counterWidth).map (p.greyRecv.counterTree i).counters)) := by
  obtain ⟨action, size, hwidth, data⟩ := sendGreyCounter_payload run
  exact report_records width some_ few action size hwidth data payload

/-- A START of the tree reads back with its maxima. -/
theorem start_transfer (split : cfg.layerSplit ≤ 255) (some_ : 1 ≤ cfg.nodesInTree)
    (few : cfg.nodesInTree ≤ 65535) {p : FancyPortInfo} {r : FancyPortInfo × FancyHeader}
    (run : sendGreyAction cfg (GREY_START ||| COUNTER_MAXIMUMS) cfg.treeId p = some r) (payload : Bytes) :
    FancyHeader.deserialize (r.2.serialize ++ payload) = some (r.2, payload) ∧
      r.2.getMaximums cfg.layerSplit = some ((List.range cfg.nodesInTree).map fun i =>
        (i, (List.range cfg.layerSplit).map ((p.greySend.counterTree i).maxCells 0))) := by
  obtain ⟨action, size, hwidth, data⟩ := sendGreyAction_payload run
  exact start_records split some_ few action size hwidth data payload

variable (cfg)

/-- **Transfer of the tree.** The counters a report was made from and the maxima a START was made from are
what the read loops of the other side get, every node and position once, and the maxima are what the receiver
zooms by; no byte behind the header is read. -/
theorem tree_transfer (width : cfg.counterWidth ≤ 255) (split : cfg.layerSplit ≤ 255) (some_ : 1 ≤ cfg.nodesInTree)
    (few : cfg.nodesInTree ≤ 65535) (p : FancyPortInfo) (payload : Bytes) :
    (∃ r hdr, sendGreyCounter cfg cfg.treeId p = some r ∧
      FancyHeader.deserialize (r.2.1.serialize ++ payload) = some (hdr, payload) ∧
      (hdr.getCounters cfg.counterWidth).map triples =
        some (entries cfg.nodesInTree cfg.counterWidth fun i => (p.greyRecv.counterTree i).counters)) ∧
    (∃ r hdr records, sendGreyAction cfg (GREY_START ||| COUNTER_MAXIMUMS) cfg.treeId p = some r ∧
      FancyHeader.deserialize (r.2.serialize ++ payload) = some (hdr, payload) ∧
      hdr.getMaximums cfg.layerSplit = some records ∧
      triples records = entries cfg.nodesInTree cfg.layerSplit (fun i => (p.greySend.counterTree i).maxCells 0) ∧
      ∀ seq tree i j, i < cfg.nodesInTree → j < cfg.layerSplit →
        (initReceiverStep cfg seq true records tree i).maxCells 0 j = (p.greySend.counterTree i).maxCells 0 j ∧
        (pipelinedInitReceiverStep cfg true records tree i).maxCells 0 j = (p.greySend.counterTree i).maxCells 0 j) ∧
    ((entries cfg.nodesInTree cfg.counterWidth fun i => (p.greyRecv.counterTree i).counters).map
      fun e => (e.1, e.2.1)).Nodup := by
  have ends : cfg.payloadEnds = true := by simp [FancyConfig.payloadEnds, some_, few]
  refine ⟨?_, ?_, entries_nodup ..⟩
  · obtain ⟨r, run⟩ : ∃ r, sendGreyCounter cfg cfg.treeId p = some r := by
      simp only [sendGreyCounter, ends, if_true]
      exact ⟨_, rfl⟩
    obtain ⟨read, counters⟩ := report_transfer width some_ few run payload
    refine ⟨r, r.2.1, run, read, ?_⟩
    rw [counters, Option.map_some, triples_records]
  · obtain ⟨r, run⟩ : ∃ r, sendGreyAction cfg (GREY_START ||| COUNTER_MAXIMUMS) cfg.treeId p = some r := by
      simp only [sendGreyAction, ends, if_true, and_self]
      exact ⟨_, rfl⟩
    obtain ⟨read, maximums⟩ := start_transfer split some_ few run payload
    refine ⟨r, r.2, _, run, read, maximums, triples_records .., ?_⟩
    intro seq tree i j node slot
    exact ⟨initReceiverStep_first cfg seq _ tree node slot, pipelinedInitReceiverStep_first cfg _ tree node slot⟩

/-- A tree of three nodes with three cells each. -/
def threeNodes : FancyConfig :=
    { smallConfig with treeDepth := 2, layerSplit := 2, counterWidth := 3, counterWidth_pos := by decide }

/-- A port that has counted and selected in every node. -/
def filledPort : FancyPortInfo where
  greyRecv := { counterTree := fun i => { counters := fun j => .ofNat (1000 * i + j + 1) } }
  greySend := { counterTree := fun i => { maxCells := fun h j => .ofNat (h + (i + j) % 3) } }

/-- What it has counted and selected arrives, in front of a byte that is left. -/
theorem tree_transfer_filled :
    (∃ r hdr, sendGreyCounter threeNodes threeNodes.treeId filledPort = some r ∧
      FancyHeader.deserialize (r.2.1.serialize ++ [69]) = some (hdr, [69]) ∧
      (hdr.getCounters 3).map triples = some [(0, 0, 1), (0, 1, 2), (0, 2, 3), (1, 0, 1001), (1, 1, 1002), (1, 2, 1003),
        (2, 0, 2001), (2, 1, 2002), (2, 2, 2003)]) ∧
    ∃ r hdr records, sendGreyAction threeNodes (GREY_START ||| COUNTER_MAXIMUMS) threeNodes.treeId filledPort = some r ∧
      FancyHeader.deserialize (r.2.serialize ++ [69]) = some (hdr, [69]) ∧ hdr.getMaximums 2 = some records ∧
      triples records = [(0, 0, 0), (0, 1, 1), (1, 0, 1), (1, 1, 2), (2, 0, 2), (2, 1, 0)] ∧
      (initReceiverStep threeNodes 0 true records (fun _ => {}) 1).maxCells 0 1 = 2 := by
  obtain ⟨report, start, -⟩ := tree_transfer threeNodes (by decide) (by decide) (by decide) (by decide) filledPort [69]
  obtain ⟨r, hdr, records, run, read, got, whole, zooms⟩ := start
  refine ⟨report, r, hdr, records, run, read, got, whole, ?_⟩
  rw [(zooms 0 (fun _ => {}) 1 1 (by decide) (by decide)).1]
  rfl

end

end Ns3Fancy.Switch

import Ns3Fancy.Link.Machine

/-!
# What the frames on a link mean

Every frame on a link comes from one of the machines, from a probe or is a packet. `Reads` says which message
of the session protocol a frame is, in terms of what the parser gets out of its bytes; the frames the
machines make are shown to read back as the messages they are meant to be.
-/

namespace Ns3Fancy.Link
open Switch Buffer Function Session
set_option autoImplicit false

/-- A message of a machine, a packet or a probe. Of a packet the machines see its flow, whether it is IPv4 and its
tag; the session of the wildcard machine it was counted for is not on the wire. -/
inductive Msg where
  | start (id q : Nat) (req : Request)
  | stop (id q : Nat)
  | ack (id q : Nat)
  | startAck (id q : Nat)
  | report (id q : Nat) (rep : Report)
  | data (flow : FiveTuple) (ip : Bool) (tag : Option (Nat × Nat)) (wild : Option Nat)
  | probe

section
variable (cfg : FancyConfig)

/-- The actions of the acknowledgement of a report, of the acknowledgement of START and of a report. -/
def ackAction : UInt8 := GREY_COUNTER ||| 0x40
def startAckAction : UInt8 := GREY_START ||| 0x60
def fsmReportAction (id : Nat) : UInt8 := reportAction cfg id ||| 0x20

/-- A frame with nothing but the header of a started machine. -/
structure Control (frame : Frame) (hdr : FancyHeader) (id q : Nat) (action : UInt8) : Prop where
  started : id ∈ startedIds cfg
  protocol : frame.protocol = FANCY
  parsed : parse frame = some (({ fancy := some hdr } : Headers cfg.ns3), [])
  next : hdr.nextHeader = 0
  id : hdr.id.toNat = id
  seq : hdr.seq.toNat = q
  action : hdr.action = action

/-- The tag of a packet: only a header with the count flag is one, and it is of a machine below the wildcard's. -/
def HasTag (headers : Headers cfg.ns3) (tag : Option (Nat × Nat)) : Prop :=
  match headers.fancy with
  | none => tag = none
  | some hdr => (hdr.action = 0 ∧ tag = none) ∨ (hdr.action = 0x80 ∧ hdr.nextHeader ≠ 0 ∧ headers.ipv4.isSome ∧
      hdr.id.toNat ≤ cfg.treeId ∧ tag = some (hdr.id.toNat, hdr.seq.toNat))

inductive Reads (frame : Frame) : Msg → Prop where
  | start {hdr : FancyHeader} {id q : Nat} {req : Request} : Control cfg frame hdr id q (startAction cfg id) →
      (id = cfg.treeId → cfg.initEnds = true → hdr.getMaximums cfg.layerSplit = some req) →
      Reads frame (.start id q req)
  | stop {hdr : FancyHeader} {id q : Nat} : Control cfg frame hdr id q GREY_STOP → Reads frame (.stop id q)
  | ack {hdr : FancyHeader} {id q : Nat} : Control cfg frame hdr id q ackAction → Reads frame (.ack id q)
  | startAck {hdr : FancyHeader} {id q : Nat} : Control cfg frame hdr id q startAckAction → Reads frame (.startAck id q)
  | report {hdr : FancyHeader} {id q : Nat} {rep : Report} : Control cfg frame hdr id q (fsmReportAction cfg id) →
      hdr.counter = rep.1 → (if id = cfg.treeId then cfg.exchangeEnds = true → hdr.getCounters cfg.counterWidth = some rep.2
        else rep.2 = []) → Reads frame (.report id q rep)
  | data {headers : Headers cfg.ns3} {payload : Bytes} {tag : Option (Nat × Nat)} {wild : Option Nat} :
      parse frame = some (headers, payload) → HasTag cfg headers tag →
      Reads frame (.data (getFlowFiveTuple headers) headers.ipv4.isSome tag wild)
  | probe {hdr : FancyHeader} : parse frame = some (({ fancy := some hdr } : Headers cfg.ns3), []) → hdr.action = 0 →
      hdr.nextHeader = 0 → Reads frame .probe

end

section
variable {cfg : FancyConfig}

/-! ## Frames of the machines -/

/-- What the parser makes of a control frame. -/
theorem parse_controlFrame {N : Ns3} {hdr hdr' : FancyHeader} (next : hdr'.nextHeader = 0)
    (read : FancyHeader.deserialize (hdr.serialize ++ []) = some (hdr', [])) :
    parse (controlFrame hdr) = some (({ fancy := some hdr' } : Headers N), []) := by
  have long : hdr.serialize.length = hdr.serialize.length - 1 + 1 := by
    have : 0 < hdr.serialize.length := by simp [FancyHeader.serialize]
    omega
  have zero : (0 : UInt16) ≠ FANCY := by decide
  rw [List.append_nil] at read
  rw [parse, controlFrame]
  simp only
  rw [long, doParser, if_pos rfl, read, Option.bind_some]
  simp only
  rw [next, doParser_standard zero]
  rfl

theorem parse_plain {N : Ns3} {hdr : FancyHeader} (next : hdr.nextHeader = 0) (counters : hdr.hasCounters = false)
    (maximums : hdr.hasMaximums = false) :
    parse (controlFrame hdr) = some (({ fancy := some hdr.bare } : Headers N), []) :=
  parse_controlFrame next (FancyHeader.deserialize_plain counters maximums [])

/-- A header without a payload. -/
theorem Control.plain {hdr : FancyHeader} {id q : Nat} {action : UInt8} (started : id ∈ startedIds cfg)
    (next : hdr.nextHeader = 0) (hid : hdr.id.toNat = id) (seq : hdr.seq.toNat = q) (act : hdr.action = action)
    (counters : (action >>> 4) &&& 1 == 1 ↔ False) (maximums : (action >>> 3) &&& 1 == 1 ↔ False) :
    Control cfg (controlFrame hdr) hdr.bare id q action where
  protocol := rfl
  parsed := parse_plain next (by simpa [FancyHeader.hasCounters, act] using counters)
    (by simpa [FancyHeader.hasMaximums, act] using maximums)
  next := next
  id := hid
  seq := seq
  action := act
  started := started

/-- Ids travel in 32 bits. -/
theorem toNat_ofNat_id {id : Nat} (small : id ≤ cfg.wildcardId) : (UInt32.ofNat id).toNat = id := by
  have fits := cfg.ids_fit
  have wild : cfg.wildcardId = cfg.numTopEntries + 1 := rfl
  exact UInt32.toNat_ofNat_of_lt' (show id < 2 ^ 32 by omega)

theorem nodes_of_payloadEnds (ends : cfg.payloadEnds = true) : 0 < cfg.nodesInTree ∧ cfg.nodesInTree ≤ 65535 := by
  simpa [FancyConfig.payloadEnds, Nat.pos_iff_ne_zero, Nat.one_le_iff_ne_zero] using ends

/-- A START of the tree reads back with its maxima. -/
theorem Control.maximums {hdr : FancyHeader} {q : Nat} (started : cfg.treeId ∈ startedIds cfg)
    (next : hdr.nextHeader = 0) (hid : hdr.id.toNat = cfg.treeId) (seq : hdr.seq.toNat = q)
    (act : hdr.action = GREY_START ||| COUNTER_MAXIMUMS) (size : hdr.dataSize = 0)
    (width : hdr.dataWidth = .ofNat cfg.layerSplit) (data : hdr.data = []) (ends : cfg.payloadEnds = true)
    (maxima : Nat → Nat → UInt8) :
    ∃ hdr', Control cfg (controlFrame (hdr.addMaximums maxima cfg.nodesInTree)) hdr' cfg.treeId q
        (startAction cfg cfg.treeId) ∧
      (cfg.initEnds = true → hdr'.getMaximums cfg.layerSplit =
        some ((List.range cfg.nodesInTree).map fun i => (i, (List.range cfg.layerSplit).map (maxima i)))) := by
  obtain ⟨positive, few⟩ := nodes_of_payloadEnds ends
  have whole := hdr.addMaximums_eq maxima cfg.nodesInTree
  have hsize : (hdr.addMaximums maxima cfg.nodesInTree).dataSize = .ofNat cfg.nodesInTree := by
    rw [whole]; simp [size]
  have hdata : (hdr.addMaximums maxima cfg.nodesInTree).data = (List.range cfg.nodesInTree).flatMap fun i =>
      writeLE 2 i ++ ((List.range (hdr.addMaximums maxima cfg.nodesInTree).dataWidth.toNat).map (maxima i)).flatMap
        fun x => [x] := by
    rw [whole]; simp [data]
  have hact : (hdr.addMaximums maxima cfg.nodesInTree).action = GREY_START ||| COUNTER_MAXIMUMS := by rw [whole]; exact act
  have kind : (hdr.addMaximums maxima cfg.nodesInTree).hasCounters = false := by
    rw [FancyHeader.hasCounters, hact]; decide
  have kind' : (hdr.addMaximums maxima cfg.nodesInTree).hasMaximums = true := by
    rw [FancyHeader.hasMaximums, hact]; decide
  have entry : ∀ x : UInt8, [x].length = (hdr.addMaximums maxima cfg.nodesInTree).entryBytes := by
    intro x
    simp [FancyHeader.entryBytes, kind]
  refine ⟨hdr.addMaximums maxima cfg.nodesInTree, ⟨started, rfl, ?_, ?_, ?_, ?_, ?_⟩, ?_⟩
  · exact parse_controlFrame (by rw [whole]; exact next)
      (FancyHeader.deserialize_records (by rw [kind, kind']; rfl) entry hsize positive few maxima hdata [])
  · rw [whole]; exact next
  · rw [whole]; exact hid
  · rw [whole]; exact seq
  · rw [hact, startAction, if_pos rfl]
  · intro init
    have fits : cfg.layerSplit ≤ 255 := by simpa [FancyConfig.initEnds] using init
    refine FancyHeader.getMaximums_records hsize few ?_ maxima hdata
    rw [whole]
    simp only [width]
    exact UInt8.toNat_ofNat_of_lt' (show cfg.layerSplit < 2 ^ 8 by omega)

/-- A report of the tree reads back with its counters. -/
theorem Reads.counters {hdr : FancyHeader} {q : Nat} {rep : Report} (started : cfg.treeId ∈ startedIds cfg)
    (next : hdr.nextHeader = 0) (hid : hdr.id.toNat = cfg.treeId) (seq : hdr.seq.toNat = q)
    (act : hdr.action = fsmReportAction cfg cfg.treeId) (size : hdr.dataSize = .ofNat cfg.nodesInTree)
    (width : hdr.dataWidth = .ofNat cfg.counterWidth) (counters : Nat → Nat → UInt32)
    (data : hdr.data = (List.range cfg.nodesInTree).flatMap fun i =>
      writeLE 2 i ++ ((List.range hdr.dataWidth.toNat).map (counters i)).flatMap fun x => writeLE 4 x.toNat)
    (ends : cfg.payloadEnds = true) (counter : hdr.counter = rep.1)
    (records : rep.2 = (List.range cfg.nodesInTree).map fun i => (i, (List.range cfg.counterWidth).map (counters i))) :
    Reads cfg (controlFrame hdr) (.report cfg.treeId q rep) := by
  obtain ⟨positive, few⟩ := nodes_of_payloadEnds ends
  have bits : hdr.action = 0x34 := by
    rw [act, fsmReportAction, reportAction, if_pos rfl]; decide
  have kind : hdr.hasCounters = true := by rw [FancyHeader.hasCounters, bits]; decide
  have kind' : hdr.hasMaximums = false := by rw [FancyHeader.hasMaximums, bits]; decide
  have entry : ∀ x : UInt32, (writeLE 4 x.toNat).length = hdr.entryBytes := by
    intro x
    simp [FancyHeader.entryBytes, kind]
  refine .report ⟨started, rfl, ?_, next, hid, seq, act⟩ counter ?_
  · exact parse_controlFrame next
      (FancyHeader.deserialize_records (by rw [kind, kind']; rfl) entry size positive few counters data [])
  · rw [if_pos rfl, records]
    intro exchange
    have fits : cfg.counterWidth ≤ 255 := by
      simp only [FancyConfig.exchangeEnds, Bool.and_eq_true, decide_eq_true_eq] at exchange
      exact exchange.1.1.1.1
    refine FancyHeader.getCounters_records size few ?_ counters data
    rw [width]
    exact UInt8.toNat_ofNat_of_lt' (show cfg.counterWidth < 2 ^ 8 by omega)

end

end Ns3Fancy.Link

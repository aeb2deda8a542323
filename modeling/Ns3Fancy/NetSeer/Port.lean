import Mathlib.Logic.Function.Basic
import Ns3Fancy.Switch.Config

/-!
# A NetSeer port

A port towards another switch numbers the packets it sends and keeps the flow of each in a ring
buffer. The other side notices a gap in the numbers and names it in a NACK; the port then looks the
missing numbers up in its ring buffer and reports those that are still there to its event cache.
The cache holds one flow a cell, with the losses counted since its last event.
-/

namespace Ns3Fancy.NetSeer
open Switch Buffer Function
set_option autoImplicit false

def NETSEER : UInt16 := 0xABCD

/-- The two actions a switch sets. -/
inductive NetSeerAction where
  | seq
  | nack
  deriving DecidableEq, Repr

structure NetSeerConfig where
  bufferSize : Nat
  eventCacheSize : Nat
  eventCounter : UInt32
  tmDropRate : Rat
  earlyStopCounter : Nat
  /-- The hash function with a given index, on a buffer. -/
  hash32 : Nat → Bytes → UInt32
  /-- Ring buffer and cache are indexed modulo their sizes. -/
  buffer_pos : 0 < bufferSize
  cache_pos : 0 < eventCacheSize

structure NetSeerHeader where
  action : NetSeerAction
  seq1 : UInt32 := 0
  seq2 : UInt32 := 0
  nextHeader : UInt16 := 0
  deriving DecidableEq, Repr

/-- A cell of the ring buffer, where `seq` is the number of the packet, or of the event cache, where it is a counter. -/
structure NetSeerPacketInfo where
  srcIp : UInt32 := 0
  dstIp : UInt32 := 0
  protocol : UInt8 := 0
  srcPort : UInt16 := 0
  dstPort : UInt16 := 0
  seq : UInt32 := 0
  reported : Bool := false
  deriving DecidableEq, Repr

/-- What a port keeps. Whether the other side is a switch is fixed by `Init` and is not repeated here. -/
structure NetSeerPortInfo where
  detectedCount : UInt32 := 0
  senderNextExpectedSeq : UInt32 := 0
  receiverNextExpectedSeq : UInt32 := 0
  eventCache : Nat → NetSeerPacketInfo := fun _ => {}
  ringBuffer : Nat → NetSeerPacketInfo := fun _ => {}

structure NetSeerFailureEventState where
  flow : FiveTuple
  numDrops : UInt32
  eventNumber : UInt32
  deriving DecidableEq, Repr

/-- What the ports of a switch share: the events logged and the prefixes seen in them. -/
structure NetSeerSimulationState where
  failureEvents : List NetSeerFailureEventState := []
  eventNumber : UInt32 := 0
  uniqueDetectedPrefixes : List UInt32 := []
  stopped : Bool := false

def setFailureEvent (flow : FiveTuple) (numDrops : UInt32) (sim : NetSeerSimulationState) : NetSeerSimulationState :=
  { sim with
    failureEvents := sim.failureEvents ++ [{ flow := flow, numDrops := numDrops, eventNumber := sim.eventNumber }]
    eventNumber := sim.eventNumber + 1 }

/-! ## Reports -/

def packetInfoToFiveTuple (packet : NetSeerPacketInfo) : FiveTuple where
  srcIp := packet.srcIp
  dstIp := packet.dstIp
  srcPort := packet.srcPort
  dstPort := packet.dstPort
  protocol := packet.protocol

def comparePacketInfos (pkt1 pkt2 : NetSeerPacketInfo) : Bool :=
  pkt1.srcIp == pkt2.srcIp && pkt1.dstIp == pkt2.dstIp && pkt1.srcPort == pkt2.srcPort && pkt1.dstPort == pkt2.dstPort &&
    pkt1.protocol == pkt2.protocol

theorem comparePacketInfos_iff (pkt1 pkt2 : NetSeerPacketInfo) :
    comparePacketInfos pkt1 pkt2 = true ↔ packetInfoToFiveTuple pkt1 = packetInfoToFiveTuple pkt2 := by
  simp only [comparePacketInfos, packetInfoToFiveTuple, Bool.and_eq_true, beq_iff_eq, FiveTuple.mk.injEq]
  tauto

section
variable (cfg : NetSeerConfig)

/-- The cell of a flow in the event cache. -/
def cacheIndex (flow : FiveTuple) : Nat := (cfg.hash32 0 (ipFiveTupleToBuffer flow)).toNat % cfg.eventCacheSize

/-- An event is logged and its prefix remembered. -/
def logEvent (flow : FiveTuple) (numDrops : UInt32) (sim : NetSeerSimulationState) : NetSeerSimulationState :=
  let sim := setFailureEvent flow numDrops sim
  { sim with uniqueDetectedPrefixes := sim.uniqueDetectedPrefixes.insert (flow.dstIp &&& 0xffffff00) }

/-- The early stop of the simulation. -/
def earlyStop (sim : NetSeerSimulationState) : NetSeerSimulationState :=
  if 0 < cfg.earlyStopCounter ∧ sim.uniqueDetectedPrefixes.length = cfg.earlyStopCounter then { sim with stopped := true }
  else sim

def reportPacket (packet : NetSeerPacketInfo) (r : NetSeerPortInfo × NetSeerSimulationState) :
    NetSeerPortInfo × NetSeerSimulationState :=
  let flow := packetInfoToFiveTuple packet
  let i := cacheIndex cfg flow
  let cell := r.1.eventCache i
  let q :=
    if comparePacketInfos cell packet then
      if cfg.eventCounter ≤ cell.seq + 1 then
        ({ r.1 with eventCache := update r.1.eventCache i { cell with seq := 0 } }, logEvent flow (cell.seq + 1) r.2)
      else ({ r.1 with eventCache := update r.1.eventCache i { cell with seq := cell.seq + 1 } }, r.2)
    else
      -- eviction: the new flow takes the cell, and the event
      ({ r.1 with
          eventCache := update r.1.eventCache i
            { cell with
              srcIp := packet.srcIp
              dstIp := packet.dstIp
              srcPort := packet.srcPort
              dstPort := packet.dstPort
              protocol := packet.protocol
              seq := 0 } },
        logEvent flow (cell.seq + 1) r.2)
  (q.1, earlyStop cfg q.2)

/-! ## Ring buffer -/

/-- What is kept of a packet: its flow without the identification, and its number. -/
def flowInfo (flow : FiveTuple) (seq : UInt32) (reported : Bool) : NetSeerPacketInfo where
  srcIp := flow.srcIp
  dstIp := flow.dstIp
  protocol := flow.protocol
  srcPort := flow.srcPort
  dstPort := flow.dstPort
  seq := seq
  reported := reported

def saveFlow (flow : FiveTuple) (port : NetSeerPortInfo) : NetSeerPortInfo :=
  { port with
    ringBuffer := update port.ringBuffer (port.senderNextExpectedSeq.toNat % cfg.bufferSize)
      (flowInfo flow port.senderNextExpectedSeq false) }

/-- One round of `CheckPacketLosses`; the last component lists the calls of `ReportPacket`. -/
def checkSeq (r : NetSeerPortInfo × NetSeerSimulationState × List NetSeerPacketInfo) (seq : UInt32) :
    NetSeerPortInfo × NetSeerSimulationState × List NetSeerPacketInfo :=
  let i := seq.toNat % cfg.bufferSize
  let cell := r.1.ringBuffer i
  if cell.seq = seq ∧ cell.reported = false then
    let packet := { cell with reported := true }
    let port :=
      { r.1 with ringBuffer := update r.1.ringBuffer i packet, detectedCount := r.1.detectedCount + 1 }
    let q := reportPacket cfg packet (port, r.2.1)
    (q.1, q.2, r.2.2 ++ [packet])
  else r

/-- The numbers from `seq1` up to `seq2`, which is not one of them. -/
def seqsBetween (seq1 seq2 : UInt32) : List UInt32 :=
  (List.range' seq1.toNat (seq2.toNat - seq1.toNat)).map UInt32.ofNat

def checkPacketLosses (seq1 seq2 : UInt32) (port : NetSeerPortInfo) (sim : NetSeerSimulationState) :
    NetSeerPortInfo × NetSeerSimulationState × List NetSeerPacketInfo :=
  (seqsBetween seq1 seq2).foldl (checkSeq cfg) (port, sim, [])

/-! ## Pipeline -/

/-- What the switch reads of a packet: its ethertype, the NETSEER header if there is one and the flow `GetFlowFiveTuple`
makes of the others. -/
structure Packet where
  protocol : UInt16 := IPV4
  netSeer : Option NetSeerHeader := none
  flow : FiveTuple := {}
  deriving DecidableEq, Repr

/-- The packet `SendNACK` makes. -/
def nackPacket (seq1 seq2 : UInt32) : Packet where
  protocol := NETSEER
  netSeer := some { action := .nack, seq1 := seq1, seq2 := seq2 }

/-- `nack` is the range of numbers to be named in a NACK. -/
structure IngressResult (P : Type) where
  port : NetSeerPortInfo
  outPort : Option P
  nack : Option (UInt32 × UInt32) := none

/-- What `DoIngress` does on the port a packet comes in by, after the forwarding tables have chosen `outPort`: a NACK returns
to the port it came from, a number that is not the expected one is answered by a NACK. -/
def doIngress {P : Type} (inPort : P) (outPort : Option P) (pkt : Packet) (port : NetSeerPortInfo) : IngressResult P :=
  match pkt.netSeer with
  | none => { port := port, outPort := outPort }
  | some header =>
    match header.action with
    | .nack => { port := port, outPort := some inPort }
    | .seq =>
      if header.seq1 ≠ port.receiverNextExpectedSeq then
        { port := { port with receiverNextExpectedSeq := header.seq1 + 1 }
          outPort := outPort
          nack := some (port.receiverNextExpectedSeq, header.seq1) }
      else
        { port := { port with receiverNextExpectedSeq := port.receiverNextExpectedSeq + 1 }, outPort := outPort }

/-- `packet` is `none` when it is dropped; `saved` is the number its flow was saved under; `reports` are the calls of
`ReportPacket`. -/
structure EgressResult where
  port : NetSeerPortInfo
  sim : NetSeerSimulationState
  packet : Option Packet
  saved : Option UInt32 := none
  reports : List NetSeerPacketInfo := []

/-- The packet with a NETSEER header: the one it came with, or a new one. -/
def withHeader (pkt : Packet) (port : NetSeerPortInfo) : Packet × NetSeerHeader :=
  match pkt.netSeer with
  | some header => (pkt, header)
  | none =>
    let header := { action := .seq, seq1 := port.senderNextExpectedSeq, nextHeader := pkt.protocol }
    ({ pkt with protocol := NETSEER, netSeer := some header }, header)

/-- What `DoEgress` does on the port a packet leaves by. -/
def doEgress (switchPort : Bool) (pkt : Packet) (port : NetSeerPortInfo) (sim : NetSeerSimulationState) : EgressResult :=
  if switchPort then
    let (pkt, header) := withHeader pkt port
    match header.action with
    | .nack =>
      let r := checkPacketLosses cfg header.seq1 header.seq2 port sim
      { port := r.1, sim := r.2.1, packet := none, reports := r.2.2 }
    | .seq =>
      let port' := saveFlow cfg pkt.flow port
      { port := { port' with senderNextExpectedSeq := port'.senderNextExpectedSeq + 1 }
        sim := sim
        packet := some pkt
        saved := some port.senderNextExpectedSeq }
  else
    { port := port
      sim := sim
      packet := some
        (match pkt.netSeer with
        | some header => { pkt with protocol := header.nextHeader, netSeer := none }
        | none => pkt) }

end

end Ns3Fancy.NetSeer

import Ns3Fancy.Switch.Tree
import Ns3Fancy.Switch.Packet
import Mathlib.Tactic.Simps.Basic

/-!
# The machines of a port

Each port towards another switch runs, for every machine id, a sender that counts what leaves
the port and a receiver that counts what arrives: ids below `numTopEntries` are dedicated
entries, `numTopEntries` is the zooming tree and the next one counts all traffic. This module
is the state of a port and the code that moves it: the two timers (`SendGreyAction`,
`SendGreyCounter`), the receiver's machine in the ingress box and the sender's in the egress box.

`none` is a call that does not come back (see the bounds of the tree module) or that reads past
the end of a payload.
-/

namespace Ns3Fancy.Switch
open Buffer Function
set_option autoImplicit false

/-! ## State -/

inductive GreyState where
  | idle | startAck | counting | waitCounterSend | waitCounterReceive | counterAck
  deriving DecidableEq, Repr

/-- The events a port schedules for its machines. -/
inductive Event where
  | sendGreyAction (action : UInt8) (id : Nat)
  | sendGreyCounter (id : Nat)
  deriving DecidableEq, Repr

/-- The scheduled events, with the handles `Simulator::Schedule` gave out for them. -/
structure EventQueue where
  next : Nat := 0
  pending : List (Nat × Event) := []

def EventQueue.schedule (ev : Event) (q : EventQueue) : EventQueue :=
  { next := q.next + 1, pending := q.pending ++ [(q.next, ev)] }

/-- `Simulator::Cancel`: without effect on a handle whose event has run. -/
def EventQueue.cancel (handle : Option Nat) (q : EventQueue) : EventQueue :=
  { q with pending := q.pending.filter fun e => some e.1 ≠ handle }

structure GreyInfo where
  localCounter : Nat → UInt64 := fun _ => 0
  greyState : Nat → GreyState := fun _ => .idle
  currentSEQ : Nat → UInt32 := fun _ => 0
  currentEvent : Nat → Option Nat := fun _ => none
  counterTree : Tree := fun _ => {}

@[simps localCounter greyState currentSEQ currentEvent] def GreyInfo.setGreyState (id : Nat) (state : GreyState)
    (g : GreyInfo) : GreyInfo :=
  { g with greyState := update g.greyState id state }

@[simps localCounter greyState currentSEQ currentEvent] def GreyInfo.setLocalCounter (id : Nat) (n : UInt64) (g : GreyInfo) :
    GreyInfo :=
  { g with localCounter := update g.localCounter id n }

@[simps localCounter greyState currentSEQ currentEvent] def GreyInfo.setCurrentSEQ (id : Nat) (seq : UInt32) (g : GreyInfo) :
    GreyInfo :=
  { g with currentSEQ := update g.currentSEQ id seq }

@[simps localCounter greyState currentSEQ currentEvent] def GreyInfo.setCurrentEvent (id : Nat) (handle : Option Nat)
    (g : GreyInfo) : GreyInfo :=
  { g with currentEvent := update g.currentEvent id handle }

@[simp] theorem GreyInfo.setGreyState_counterTree (id : Nat) (state : GreyState) (g : GreyInfo) :
    (g.setGreyState id state).counterTree = g.counterTree := rfl

@[simp] theorem GreyInfo.setLocalCounter_counterTree (id : Nat) (n : UInt64) (g : GreyInfo) :
    (g.setLocalCounter id n).counterTree = g.counterTree := rfl

@[simp] theorem GreyInfo.setCurrentSEQ_counterTree (id : Nat) (seq : UInt32) (g : GreyInfo) :
    (g.setCurrentSEQ id seq).counterTree = g.counterTree := rfl

@[simp] theorem GreyInfo.setCurrentEvent_counterTree (id : Nat) (handle : Option Nat) (g : GreyInfo) :
    (g.setCurrentEvent id handle).counterTree = g.counterTree := rfl

structure RerouteBloomFilter where
  set : Bool := false
  alreadyRerouted : List String := []

structure RerouteTopEntries where
  set : Bool := false
  alreadyRerouted : Bool := false

structure FancyPortInfo where
  greyRecv : GreyInfo := {}
  greySend : GreyInfo := {}
  reroute : Nat → RerouteBloomFilter := fun _ => {}
  rerouteTop : Nat → RerouteTopEntries := fun _ => {}
  failuresCount : UInt32 := 0
  rerouteCount : UInt32 := 0
  /-- the other side is a switch -/
  switchPort : Bool := true
  events : EventQueue := {}

/-- What the machines of a port did, for statements about whole runs. -/
inductive PortLog where
  /-- the sender counted a packet, for the tree in these cells -/
  | counted (id seq : Nat) (flow : FiveTuple) (cells : List (Nat × Nat))
  /-- the sender consumed a report: its own counter and cells, and the reported ones -/
  | consumed (id seq : Nat) (localCounter : UInt64) (localCells : Nat → Nat → UInt32) (counter : UInt64)
      (records : List (Nat × List UInt32)) (found : List Detection)
  /-- a STOP reached the receiver -/
  | gotStop (id seq : Nat)
  /-- the receiver sent a report -/
  | reported (id seq : Nat)

section
variable (cfg : FancyConfig)

/-! ## The reroute filter -/

/-- `GetBloomFilterHashes`: the cells of the flow's path, hashed. -/
def getBloomFilterHashes (flow : FiveTuple) : List Nat :=
  let s := (List.range cfg.treeDepth).map fun i => UInt8.ofNat (cfg.cellOf flow i)
  (List.range cfg.rerouteBloomFilterNumHashes).map fun i => cfg.getHash s i cfg.rerouteBloomFilterWidth

def isBloomFilterSet (p : FancyPortInfo) (hashIndexes : List Nat) : Bool :=
  hashIndexes.all fun h => (p.reroute h).set

/-- The indexes `SetBloomFilter` sets for a path. -/
def pathHashes (path : Bytes) : List Nat :=
  (List.range cfg.rerouteBloomFilterNumHashes).map fun i => cfg.getHash path i cfg.rerouteBloomFilterWidth

def setBloomFilter (path : Bytes) (p : FancyPortInfo) : FancyPortInfo :=
  { p with reroute := fun h => if h ∈ pathHashes cfg path then { p.reroute h with set := true } else p.reroute h }

/-- What a detection does to the port. -/
def applyDetection (p : FancyPortInfo) : Detection → FancyPortInfo
  | .failure _ _ path _ _ _ _ => { setBloomFilter cfg path p with failuresCount := p.failuresCount + 1 }
  | .topFailure id _ _ =>
    { p with
      rerouteTop := update p.rerouteTop id { p.rerouteTop id with set := true }
      failuresCount := p.failuresCount + 1 }
  | .softFailure id _ _ => { p with rerouteTop := update p.rerouteTop id { p.rerouteTop id with set := true } }
  | .collision _ _ _ _ | .partialFailure _ _ _ _ _ _ _ _ | .uniformFailure _ _ => p

/-! ## Timers -/

/-- Schedules the sender's next event and keeps its handle. -/
def scheduleSend (id : Nat) (ev : Event) (p : FancyPortInfo) : FancyPortInfo :=
  { p with events := p.events.schedule ev, greySend := p.greySend.setCurrentEvent id (some p.events.next) }

def scheduleRecv (id : Nat) (ev : Event) (p : FancyPortInfo) : FancyPortInfo :=
  { p with events := p.events.schedule ev, greyRecv := p.greyRecv.setCurrentEvent id (some p.events.next) }

/-- The action that opens a session of a machine. -/
def startAction (id : Nat) : UInt8 := if id = cfg.treeId then GREY_START ||| COUNTER_MAXIMUMS else GREY_START

/-- The action that reports the counters of a machine. -/
def reportAction (id : Nat) : UInt8 := if id = cfg.treeId then GREY_COUNTER ||| MULTIPLE_COUNTERS else GREY_COUNTER

/-- `SendGreyAction`, with the header of the packet it sends. -/
def sendGreyAction (action : UInt8) (id : Nat) (p : FancyPortInfo) : Option (FancyPortInfo × FancyHeader) :=
  let hdr := ({} : FancyHeader).setAction action |>.setFSMFlag false |>.setSeq (p.greySend.currentSEQ id).toUInt16
    |>.setId (.ofNat id)
  if action = GREY_START ||| COUNTER_MAXIMUMS ∧ id = cfg.treeId then
    if cfg.payloadEnds then
      let p := { p with greySend := (p.greySend.setLocalCounter id 0).setGreyState id .startAck }
      some (scheduleSend id (.sendGreyAction action id) p,
        (hdr.setDataWidth (.ofNat cfg.layerSplit)).addMaximums (fun i => (p.greySend.counterTree i).maxCells 0)
          cfg.nodesInTree)
    else none
  else if action = GREY_START then
    if cfg.treeEnableSoftDetections ∧ id = cfg.wildcardId then
      -- the wildcard machine skips the acknowledgement
      let p := { p with
        greySend := p.greySend.setGreyState id .counting
        events := p.events.cancel (p.greySend.currentEvent id) }
      some (scheduleSend id (.sendGreyAction GREY_STOP id) p, hdr)
    else
      let p := { p with greySend := (p.greySend.setLocalCounter id 0).setGreyState id .startAck }
      some (scheduleSend id (.sendGreyAction action id) p, hdr)
  else if action = GREY_STOP then
    let p := { p with greySend := p.greySend.setGreyState id .waitCounterReceive }
    some (scheduleSend id (.sendGreyAction action id) p, hdr)
  else some (p, hdr)

/-- `SendGreyCounter`, with the header of the packet it sends. -/
def sendGreyCounter (id : Nat) (p : FancyPortInfo) : Option (FancyPortInfo × FancyHeader × List PortLog) :=
  let hdr := ({} : FancyHeader).setAction GREY_COUNTER |>.setId (.ofNat id)
  let finish (hdr : FancyHeader) :=
    let hdr := hdr.setSeq (p.greyRecv.currentSEQ id).toUInt16 |>.setFSMFlag true
      |>.setCounter (p.greyRecv.localCounter id)
    let p := { p with greyRecv := p.greyRecv.setGreyState id .counterAck }
    some (scheduleRecv id (.sendGreyCounter id) p, hdr, [.reported id (p.greyRecv.currentSEQ id).toNat])
  if id = cfg.treeId then
    if cfg.payloadEnds then
      finish ((hdr.setAction (GREY_COUNTER ||| MULTIPLE_COUNTERS) |>.setDataWidth (.ofNat cfg.counterWidth)).addCounters
        (fun i => (p.greyRecv.counterTree i).counters) cfg.nodesInTree)
    else none
  else finish hdr

/-! ## The receiver -/

/-- A packet is counted for a machine, with the tree for the zooming machine. -/
def countPacket (sender : Bool) (id : Nat) (flow : FiveTuple) (g : GreyInfo) : Option GreyInfo :=
  let g' := g.setLocalCounter id (g.localCounter id + 1)
  if id = cfg.treeId then
    if cfg.pipeline && !cfg.countingEnds then none
    else some { g' with counterTree := treeCounting cfg sender (g.currentSEQ id).toNat flow g.counterTree }
  else some g'

variable {cfg}

/-- A control packet goes back out of the port it came from. -/
def PktInfo.bounce (hdr : FancyHeader) (m : PktInfo cfg.ns3) : PktInfo cfg.ns3 :=
  { m with internalPacket := true, outPort := m.inPort, headers := { m.headers with fancy := some hdr } }

/-- A control packet ends here. -/
def PktInfo.discard (hdr : FancyHeader) (m : PktInfo cfg.ns3) : PktInfo cfg.ns3 :=
  { m with dropFlag := true, headers := { m.headers with fancy := some hdr } }

variable (cfg)

/-- A START is accepted: the counters are cleared, the history is updated unless this is a repetition,
and the packet goes back as an acknowledgement. -/
def acceptStart (id : Nat) (shiftHistory : Bool) (hdr : FancyHeader) (p : FancyPortInfo) (m : PktInfo cfg.ns3) :
    Option (FancyPortInfo × PktInfo cfg.ns3) :=
  let recv := ((p.greyRecv.setLocalCounter id 0).setCurrentSEQ id hdr.seq.toUInt32).setGreyState id .counting
  let ack := hdr.resetActionField.setAction GREY_START |>.setAckFlag true |>.setFSMFlag true
  if id = cfg.treeId then
    if shiftHistory && !cfg.initEnds then none
    else (if shiftHistory then hdr.getMaximums cfg.layerSplit else some []).map fun records =>
      ({ p with greyRecv :=
          { recv with counterTree := treeInit cfg hdr.seq.toNat shiftHistory records recv.counterTree } },
        m.bounce (ack.setDataSize 0))
  else some ({ p with greyRecv := recv }, m.bounce ack)

/-- The receiver's machine on a control packet. -/
def receiverMachine (id : Nat) (hdr : FancyHeader) (p : FancyPortInfo) (m : PktInfo cfg.ns3) :
    Option (FancyPortInfo × PktInfo cfg.ns3) :=
  let drop := m.discard hdr.resetActionField
  let matches_ : Bool := hdr.seq.toUInt32 == p.greyRecv.currentSEQ id
  match p.greyRecv.greyState id with
  | .idle => if hdr.getAction = startAction cfg id then acceptStart cfg id true hdr p m else some (p, drop)
  | .counting =>
    if hdr.getAction = startAction cfg id then acceptStart cfg id false hdr p m
    else if hdr.getAction = GREY_STOP ∧ matches_ then
      let p := { p with greyRecv := p.greyRecv.setGreyState id .waitCounterSend }
      some (scheduleRecv id (.sendGreyCounter id) p, drop)
    else some (p, drop)
  | .waitCounterSend => some (p, drop)
  | .counterAck =>
    if hdr.getAction = GREY_COUNTER ∧ hdr.getAckFlag ∧ matches_ then
      some ({ p with
        events := p.events.cancel (p.greyRecv.currentEvent id)
        greyRecv := p.greyRecv.setGreyState id .idle }, drop)
    else if hdr.getAction = startAction cfg id then acceptStart cfg id true hdr p m
    else some (p, drop)
  | .startAck | .waitCounterReceive => some (p, { m with headers := { m.headers with fancy := some hdr.resetActionField } })

/-- The wildcard machine counts every IPv4 packet while it is counting. -/
def wildcardIngress (p : FancyPortInfo) (m : PktInfo cfg.ns3) : FancyPortInfo :=
  if cfg.treeEnableSoftDetections ∧ p.greyRecv.greyState cfg.wildcardId = .counting ∧ m.headers.ipv4.isSome then
    { p with greyRecv :=
      p.greyRecv.setLocalCounter cfg.wildcardId (p.greyRecv.localCounter cfg.wildcardId + 1) }
  else p

/-- A packet is counted if it carries the tag of the session its machine is counting for. -/
def ingressCount (hdr : FancyHeader) (flow : FiveTuple) (p : FancyPortInfo) : Option FancyPortInfo :=
  let id := hdr.id.toNat
  if p.greyRecv.greyState id = .counting ∧ hdr.getCountFlag ∧ hdr.seq.toUInt32 = p.greyRecv.currentSEQ id then
    (countPacket cfg false id flow p.greyRecv).map fun recv => { p with greyRecv := recv }
  else some p

/-- The ingress box up to the reroute block: counting, and the receiver's machine of the header's id. -/
def ingressMachines (p : FancyPortInfo) (m : PktInfo cfg.ns3) :
    Option (FancyPortInfo × PktInfo cfg.ns3 × List PortLog) :=
  let p := wildcardIngress cfg p m
  match m.headers.fancy with
  | none => some (p, m, [])
  | some received =>
    let id := received.id.toNat
    -- the count flag is reset just in case
    let hdr := received.setCountFlag false
    let m := { m with headers := { m.headers with fancy := some hdr } }
    if hdr.getAction = KEEP_ALIVE ∧ hdr.nextHeader = 0 then some (p, { m with outPort := none }, [])
    else if id ≤ cfg.wildcardId then
      (ingressCount cfg received m.flow p).bind fun p =>
        if hdr.getFSMFlag then some (p, { m with outPort := m.inPort }, [])
        else if hdr.getAction ≠ KEEP_ALIVE then
          (receiverMachine cfg id hdr p m).map fun r =>
            (r.1, r.2, if hdr.getAction = GREY_STOP then [.gotStop id hdr.seq.toNat] else [])
        else some (p, m, [])
    else some (p, m, [])

/-! ## The sender -/

/-- What a report of a dedicated entry or of the wildcard counter reveals. -/
def dedicatedDetections (id : Nat) (localCounter counter : UInt64) : List Detection :=
  if (cfg.rerouteMinCost : Cost) < cost cfg.costType (localCounter - counter).toNat localCounter.toNat then
    if id = cfg.wildcardId ∧ cfg.treeEnableSoftDetections then [.softFailure id localCounter counter]
    else [.topFailure id localCounter counter]
  else []

/-- What consuming a report does to the sender's machine: the counters start again, the session number
goes up, and the tree's next history is chosen. -/
def consumeReport (id : Nat) (hdr : FancyHeader) (p : FancyPortInfo) : Option (FancyPortInfo × List PortLog) :=
  let send := p.greySend
  let next := ((send.setLocalCounter id 0).setGreyState id .idle).setCurrentSEQ id (send.currentSEQ id + 1)
  let log := fun records found => PortLog.consumed id hdr.seq.toNat (send.localCounter id)
    (fun i => (send.counterTree i).counters) hdr.counter records found
  if id = cfg.treeId then
    if cfg.exchangeEnds then
      (hdr.getCounters cfg.counterWidth).bind fun records =>
        let r := treeExchange cfg hdr.seq.toNat records send.counterTree
        if cfg.climbEnds r.2 then
          some (r.2.foldl (applyDetection cfg) { p with greySend := { next with counterTree := r.1 } }, [log records r.2])
        else none
    else none
  else
    let found := dedicatedDetections cfg id (send.localCounter id) hdr.counter
    some (found.foldl (applyDetection cfg) { p with greySend := next }, [log [] found])

/-- The sender's machine on a packet from the receiver. -/
def senderMachine (id : Nat) (hdr : FancyHeader) (p : FancyPortInfo) (m : PktInfo cfg.ns3) :
    Option (FancyPortInfo × PktInfo cfg.ns3 × List PortLog) :=
  let reset := hdr.resetActionField
  let ack := reset.setAction GREY_COUNTER |>.setAckFlag true |>.setFSMFlag false
  match p.greySend.greyState id with
  | .idle =>
    -- the acknowledgement of the last report was lost
    if hdr.getAction = GREY_COUNTER ∧ hdr.seq.toUInt32 ≤ p.greySend.currentSEQ id then
      some (p, m.bounce (ack.setDataSize 0), [])
    else some (p, m.discard reset, [])
  | .startAck =>
    if hdr.getAction = GREY_START ∧ hdr.getAckFlag ∧ p.greySend.currentSEQ id = hdr.seq.toUInt32 then
      let p := { p with
        greySend := p.greySend.setGreyState id .counting
        events := p.events.cancel (p.greySend.currentEvent id) }
      some (scheduleSend id (.sendGreyAction GREY_STOP id) p, m.discard reset, [])
    else some (p, m.discard reset, [])
  | .counting => some (p, m.discard reset, [])
  | .waitCounterReceive =>
    if hdr.getAction = reportAction cfg id ∧ p.greySend.currentSEQ id = hdr.seq.toUInt32 then
      (consumeReport cfg id hdr { p with events := p.events.cancel (p.greySend.currentEvent id) }).map fun r =>
        (scheduleSend id (.sendGreyAction (startAction cfg id) id) r.1, m.bounce ack, r.2)
    else some (p, m.discard reset, [])
  | .waitCounterSend | .counterAck =>
    some (p, { m with headers := { m.headers with fancy := some reset } }, [])

/-- The first half of the egress box: packets of the other side's receiver. -/
def egressMachines (p : FancyPortInfo) (m : PktInfo cfg.ns3) : Option (FancyPortInfo × PktInfo cfg.ns3 × List PortLog) :=
  match m.headers.fancy with
  | some hdr => if !m.internalPacket && hdr.getFSMFlag then senderMachine cfg hdr.id.toNat hdr p m else some (p, m, [])
  | none => some (p, m, [])

/-- The tag of a counted packet: on the header an earlier hop left, or a new one. -/
def tagPacket (id : Nat) (seq : UInt16) (m : PktInfo cfg.ns3) : PktInfo cfg.ns3 :=
  match m.headers.fancy with
  | some hdr =>
    let hdr := (hdr.setCountFlag true).setId (.ofNat id)
    let hdr := if hdr.getAction = KEEP_ALIVE then hdr.setSeq seq else hdr
    { m with headers := { m.headers with fancy := some hdr } }
  | none =>
    let hdr := ({} : FancyHeader).setCountFlag true |>.setId (.ofNat id) |>.setNextHeader m.protocol |>.setSeq seq
    { m with protocol := FANCY, headers := { m.headers with fancy := some hdr } }

/-- Towards a host the FANCY header is taken off and the ethertype it kept comes back. -/
def stripPacket (hdr : FancyHeader) (m : PktInfo cfg.ns3) : PktInfo cfg.ns3 :=
  { m with
    protocol := hdr.nextHeader
    dropFlag := if hdr.nextHeader = 0 then true else m.dropFlag
    headers := { m.headers with fancy := none } }

/-- The wildcard machine counts every IPv4 packet that leaves towards a switch. -/
def wildcardEgress (p : FancyPortInfo) (m : PktInfo cfg.ns3) : FancyPortInfo × List PortLog :=
  let send := p.greySend
  let id := cfg.wildcardId
  if send.greyState id = .counting ∧ p.switchPort ∧ m.headers.ipv4.isSome then
    ({ p with greySend := send.setLocalCounter id (send.localCounter id + 1) },
      [.counted id (send.currentSEQ id).toNat m.flow []])
  else (p, [])

/-- The second half of the egress box: counting, tagging and stripping. -/
def egressCounting (p : FancyPortInfo) (m : PktInfo cfg.ns3) : Option (FancyPortInfo × PktInfo cfg.ns3 × List PortLog) :=
  let w := wildcardEgress cfg p m
  let p := w.1
  let send := p.greySend
  let id := m.id
  if send.greyState id = .counting ∧ p.switchPort ∧ m.headers.ipv4.isSome then
    let cells := if id = cfg.treeId then countedCells cfg (send.currentSEQ id).toNat m.flow send.counterTree else []
    (countPacket cfg true id m.flow send).map fun next =>
      ({ p with greySend := next }, tagPacket cfg id (send.currentSEQ id).toUInt16 m,
        w.2 ++ [.counted id (send.currentSEQ id).toNat m.flow cells])
  else
    match m.headers.fancy with
    | some hdr => if !p.switchPort then some (p, stripPacket cfg hdr m, w.2) else some (p, m, w.2)
    | none => some (p, m, w.2)

end

end Ns3Fancy.Switch

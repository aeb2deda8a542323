import Ns3Fancy.Switch.Port

/-!
# The pipeline of a switch

What happens to a packet between the port it arrives on and the port it leaves by: parser,
forwarding, ingress box with its reroute block, traffic manager, egress box, deparser and the
second traffic manager. A switch is its attributes and tables (`Node`) and the state of its
ports; the outcomes of the two error models for a packet are an input (`Luck`).
-/

namespace Ns3Fancy.Switch
open Buffer Function
set_option autoImplicit false

/-- `m_portsInfo`, by interface index. -/
abbrev Ports := Nat → FancyPortInfo

/-- The forwarding types of `DoIngress`; L2 forwarding does nothing there. -/
inductive Forwarding where
  | portForwarding (table : Nat → Option Nat)
  | l3SpecialForwarding (table : UInt32 → Option (Option Nat × Bool)) (gateway : Option Nat)
  | l2Forwarding

/-- The tables and rates of one switch. -/
structure Node (cfg : FancyConfig) where
  switchId : Nat
  forwarding : Forwarding
  /-- the interface indexes of its ports -/
  interfaces : List Nat
  tmDropRate : Rat
  failDropRate : Rat

/-- What the error models say about a packet. -/
structure Luck where
  tm : Bool := false
  fail : Bool := false

section
variable (cfg : FancyConfig)

/-! ## The reroute block -/

/-- The reroute state of a port catches a flow. -/
def catches (p : FancyPortInfo) (id : Nat) (flow : FiveTuple) : Bool :=
  cfg.rerouteEnabled &&
    if id < cfg.numTopEntries then (p.rerouteTop id).set
    else cfg.treeEnabled && isBloomFilterSet p (getBloomFilterHashes cfg flow)

/-- A flow that is caught is marked once, and counted. -/
def markRerouted (id : Nat) (flow : FiveTuple) (strFlow : String) (p : FancyPortInfo) : FancyPortInfo :=
  if id < cfg.numTopEntries then
    if (p.rerouteTop id).alreadyRerouted then p
    else { p with
      rerouteTop := update p.rerouteTop id { p.rerouteTop id with alreadyRerouted := true }
      rerouteCount := p.rerouteCount + 1 }
  else
    let indexes := getBloomFilterHashes cfg flow
    if strFlow ∈ (p.reroute (indexes.headD 0)).alreadyRerouted then p
    else { p with
      reroute := fun h =>
        if h ∈ indexes then { p.reroute h with alreadyRerouted := strFlow :: (p.reroute h).alreadyRerouted }
        else p.reroute h
      rerouteCount := p.rerouteCount + 1 }

/-- The end of the ingress box, on the port the packet leaves by. -/
def reroute (p : FancyPortInfo) (m : PktInfo cfg.ns3) : FancyPortInfo × PktInfo cfg.ns3 :=
  let strFlow := if m.strFlow = "" then cfg.packetStr m.flow else m.strFlow
  let id := cfg.matchTopEntriesTable strFlow
  let m := { m with strFlow := strFlow, id := id }
  if catches cfg p id m.flow then (markRerouted cfg id m.flow strFlow p, { m with dropFlag := true }) else (p, m)

/-- `IngressCounterBox`; a keep-alive leaves it without a port, so without the reroute block. -/
def ingressCounterBox (ports : Ports) (inPort : Nat) (m : PktInfo cfg.ns3) :
    Option (Ports × PktInfo cfg.ns3 × List PortLog) :=
  (ingressMachines cfg (ports inPort) m).map fun r =>
    let ports := update ports inPort r.1
    match r.2.1.outPort with
    | none => (ports, r.2)
    | some out => (update ports out (reroute cfg (ports out) r.2.1).1, (reroute cfg (ports out) r.2.1).2, r.2.2)

/-- The first half of `EgressCounterBox`: the machines of the port the packet came from. -/
def egressFrom (ports : Ports) (m : PktInfo cfg.ns3) : Option (Ports × PktInfo cfg.ns3 × List PortLog) :=
  match m.inPort with
  | none => some (ports, m, [])
  | some inPort => (egressMachines cfg (ports inPort) m).map fun r => (update ports inPort r.1, r.2)

/-- `EgressCounterBox`: after the machines, the counters of the port the packet leaves by. -/
def egressCounterBox (ports : Ports) (m : PktInfo cfg.ns3) : Option (Ports × PktInfo cfg.ns3 × List PortLog) :=
  (egressFrom cfg ports m).bind fun r => r.2.1.outPort.bind fun out =>
    (egressCounting cfg (r.1 out) r.2.1).map fun q => (update r.1 out q.1, q.2.1, r.2.2 ++ q.2.2)

variable {cfg}

/-! ## From port to port -/

namespace Node
variable (n : Node cfg)

/-- The forwarding at the start of `DoIngress`. -/
def forward (inPort : Nat) (m : PktInfo cfg.ns3) : PktInfo cfg.ns3 :=
  match n.forwarding with
  | .portForwarding table => { m with outPort := table inPort }
  | .l3SpecialForwarding table gateway =>
    match table m.flow.dstIp with
    | some (port, grayDrop) => { m with outPort := port, grayDrop := grayDrop }
    | none => { m with outPort := gateway, grayDrop := false }
  | .l2Forwarding => m

/-- `TrafficManager`: the copies of a packet that go on; those of a broadcast keep the headers and the in port only. The
source replicates a packet whose clone type is E2E, with the instance type 2. Nothing in FANCY asks for an E2E clone, so that
branch is left out; the clone type and port are cleared as they are there. -/
def trafficManager (m : PktInfo cfg.ns3) : List (PktInfo cfg.ns3) :=
  if m.dropFlag then []
  else if m.broadcastFlag then
    (n.interfaces.filter fun port => some port ≠ m.inPort).map fun port =>
      { inPort := m.inPort, outPort := some port, protocol := m.protocol, headers := m.headers }
  else if m.outPort.isNone then []
  else [{ m with cloneType := 0, cloneOutPort := none }]

/-- `DoTrafficManager`: emulated congestion drops everything but the packets of the machines. -/
def congested (luck : Luck) (m : PktInfo cfg.ns3) : Bool :=
  0 < n.tmDropRate && (m.headers.fancy.elim 0 FancyHeader.getAction == 0) && luck.tm

/-- `DoEgressTrafficManager`: the gray failure. -/
def failed (luck : Luck) (m : PktInfo cfg.ns3) : Bool :=
  match m.headers.ipv4 with
  | some ip => ((cfg.ns3.tos ip).toNat == n.switchId || m.grayDrop) && (n.failDropRate == 1 || luck.fail)
  | none => false

/-- `EgressTrafficManager` on a deparsed packet. -/
def egressTrafficManager (luck : Luck) (m : PktInfo cfg.ns3) (payload : Bytes) : List (Nat × Frame) :=
  match m.outPort with
  | none => []
  | some out =>
    if m.dropFlag || n.failed luck m then [] else [(out, { protocol := m.protocol, bytes := doDeparser m.headers payload })]

/-- One copy of a packet from the traffic manager to the wire. -/
def egress (luck : Luck) (payload : Bytes) (ports : Ports) (m : PktInfo cfg.ns3) :
    Option (Ports × List (Nat × Frame) × List PortLog) :=
  if n.congested luck m then some (ports, [], [])
  else (egressCounterBox cfg ports m).map fun r => (r.1, n.egressTrafficManager luck r.2.1 payload, r.2.2)

/-- All copies of a packet, one after the other. -/
def egressAll (luck : Luck) (payload : Bytes) : List (PktInfo cfg.ns3) → Ports →
    Option (Ports × List (Nat × Frame) × List PortLog)
  | [], ports => some (ports, [], [])
  | m :: ms, ports => (n.egress luck payload ports m).bind fun r =>
    (egressAll luck payload ms r.1).map fun q => (q.1, r.2.1 ++ q.2.1, r.2.2 ++ q.2.2)

/-- The metadata of a frame after the parser and the forwarding. -/
def arrival (inPort : Nat) (frame : Frame) (headers : Headers cfg.ns3) : PktInfo cfg.ns3 :=
  n.forward inPort
    { inPort := some inPort, protocol := frame.protocol, headers := headers, flow := getFlowFiveTuple headers }

/-- `ReceiveFromDevice`: the new state of the ports, the frames that leave and the ports they leave by. -/
def receiveFromDevice (luck : Luck) (inPort : Nat) (frame : Frame) (ports : Ports) :
    Option (Ports × List (Nat × Frame) × List PortLog) :=
  (parse frame).bind fun h => (ingressCounterBox cfg ports inPort (n.arrival inPort frame h.1)).bind fun r =>
    (n.egressAll luck h.2 (n.trafficManager r.2.1) r.1).map fun q => (q.1, q.2.1, r.2.2 ++ q.2.2)

/-- A packet the switch makes itself goes to the traffic manager. -/
def sendInternal (luck : Luck) (out : Nat) (hdr : FancyHeader) (ports : Ports) :
    Option (Ports × List (Nat × Frame) × List PortLog) :=
  n.egressAll luck []
    (n.trafficManager
      { outPort := some out, internalPacket := true, protocol := FANCY, headers := { fancy := some hdr } }) ports

/-- An event of port `i` runs: the machine moves and the packet it makes goes to the traffic manager. -/
def fire (luck : Luck) (i place : Nat) (ports : Ports) : Option (Ports × List (Nat × Frame) × List PortLog) :=
  (ports i).events.pending[place]?.bind fun e =>
    let p := { ports i with events := { (ports i).events with pending := (ports i).events.pending.eraseIdx place } }
    match e.2 with
    | .sendGreyAction action id =>
      (sendGreyAction cfg action id p).bind fun r => n.sendInternal luck i r.2 (update ports i r.1)
    | .sendGreyCounter id =>
      (sendGreyCounter cfg id p).bind fun r => n.sendInternal luck i r.2.1 (update ports i r.1)

end Node

/-! ## Start -/

variable (cfg)

/-- The machines `Init` starts: the dedicated entries, the tree and the wildcard counter. -/
def startedIds : List Nat :=
  List.range cfg.numTopEntries ++ (if cfg.treeEnabled then [cfg.treeId] else []) ++
    if cfg.treeEnableSoftDetections then [cfg.wildcardId] else []

/-- `Init` for one port: the machines start only if the other side is a switch. -/
def initPort (switchPort : Bool) : FancyPortInfo :=
  if switchPort then
    (startedIds cfg).foldl (fun p id => scheduleSend id (.sendGreyAction (startAction cfg id) id) p) {}
  else { switchPort := false }

end

end Ns3Fancy.Switch

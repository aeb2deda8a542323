import Ns3Fancy.NetSeer.Network
import Ns3Fancy.Switch.Packet

/-!
# NetSeer switches and their frames

The pipeline of a NetSeer switch on frames: parser, forwarding tables, ingress, traffic manager,
egress, deparser and the second traffic manager. A frame comes in by a port, and what leaves goes on
a link or to a host. What the machines keep is the same as in the network of numbered packets.
-/

namespace Ns3Fancy.NetSeer
open Switch Buffer Function
set_option autoImplicit false

/-! ## The header -/

def SEQ : UInt8 := 1
def NACK : UInt8 := 2

namespace Wire

/-- `NetSeerHeader`, with whatever action a frame may have. -/
structure Header where
  action : UInt8 := 0
  seq1 : UInt32 := 0
  seq2 : UInt32 := 0
  nextHeader : UInt16 := 0
  deriving DecidableEq, Repr

namespace Header

def getSerializedSize : Nat := 11

def serialize (h : Header) : Bytes :=
  writeBE 1 h.action.toNat ++ (writeBE 4 h.seq1.toNat ++ (writeBE 4 h.seq2.toNat ++ writeBE 2 h.nextHeader.toNat))

/-- `Deserialize`, with what `RemoveHeader` leaves of the packet. -/
def deserialize (bs : Bytes) : Option (Header × Bytes) := do
  let (action, r) ← readBE 1 bs
  let (seq1, r) ← readBE 4 r
  let (seq2, r) ← readBE 4 r
  let (next, _) ← readBE 2 r
  some ({ action := .ofNat action, seq1 := .ofNat seq1, seq2 := .ofNat seq2, nextHeader := .ofNat next },
    bs.drop getSerializedSize)

@[simp] theorem length_serialize (h : Header) : h.serialize.length = getSerializedSize := by
  simp [serialize, getSerializedSize]

theorem deserialize_serialize (h : Header) (rest : Bytes) : deserialize (h.serialize ++ rest) = some (h, rest) := by
  have drop : (h.serialize ++ rest).drop getSerializedSize = rest := List.drop_left' h.length_serialize
  rw [serialize] at drop
  simp only [List.append_assoc] at drop
  simp only [deserialize, serialize, List.append_assoc, readBE_writeBE, Option.bind_eq_bind, Option.bind_some,
    FancyHeader.ofNat8, FancyHeader.ofNat16, FancyHeader.ofNat32, drop]

end Header

/-! ## Parser and deparser -/

/-- `meta.headers`: the NETSEER header and those of the hosts. -/
structure Headers (N : Ns3) where
  netSeer : Option Header := none
  hosts : Switch.Headers N := {}

/-- `pkt_info`, as far as this pipeline uses it. -/
structure PktInfo (N : Ns3) where
  protocol : UInt16
  headers : Headers N
  flow : FiveTuple := {}
  grayDrop : Bool := false

section
variable {N : Ns3}

/-- The cases of `DoParser` other than NETSEER. -/
def parseHosts (protocol : UInt16) (headers : Headers N) (bs : Bytes) : Option (Headers N × Bytes) :=
  (parseStandard protocol headers.hosts bs).map fun r => ({ headers with hosts := r.1 }, r.2)

/-- `DoParser`; `fuel` is the packet's length, and every NETSEER header takes bytes off it. -/
def doParser : Nat → UInt16 → Headers N → Bytes → Option (Headers N × Bytes)
  | 0, protocol, headers, bs => if protocol = NETSEER then none else parseHosts protocol headers bs
  | fuel + 1, protocol, headers, bs =>
    if protocol = NETSEER then
      (Header.deserialize bs).bind fun r => doParser fuel r.1.nextHeader { headers with netSeer := some r.1 } r.2
    else parseHosts protocol headers bs

/-- The parser on a received frame. -/
def parse (frame : Frame) : Option (Headers N × Bytes) := doParser frame.bytes.length frame.protocol {} frame.bytes

/-- `DoDeparser`, in the order of `header_stack_reverse`. -/
def doDeparser (headers : Headers N) (payload : Bytes) : Bytes :=
  addHeader Header.serialize headers.netSeer (addHeader N.arp.write headers.hosts.arp
    (addHeader N.ipv4.write headers.hosts.ipv4 (addTransport headers.hosts payload)))

/-- The frame that is made of a packet. -/
def PktInfo.frame (m : PktInfo N) (payload : Bytes) : Frame :=
  { protocol := m.protocol, bytes := doDeparser m.headers payload }

/-- The number of a packet that is not a NACK. -/
def Headers.number (headers : Headers N) : Option UInt32 :=
  headers.netSeer.bind fun header => if header.action = SEQ then some header.seq1 else none

/-- What a NACK says is missing. -/
def Headers.range (headers : Headers N) : Option (UInt32 × UInt32) :=
  headers.netSeer.bind fun header => if header.action = NACK then some (header.seq1, header.seq2) else none

end

/-! ## Switches -/

/-- The forwarding types of `DoIngress`; L2 forwarding does nothing there. -/
inductive Forwarding (P : Type) where
  | portForwarding (table : P → Option P)
  | l3SpecialForwarding (table : UInt32 → Option (Option P × Bool)) (gateway : Option P)
  | l2Forwarding

/-- The out port, and whether the packet may be hit by a gray failure. -/
def Forwarding.route {P : Type} (inPort : P) (flow : FiveTuple) : Forwarding P → Option P × Bool
  | .portForwarding table => (table inPort, false)
  | .l3SpecialForwarding table gateway => (table flow.dstIp).getD (gateway, false)
  | .l2Forwarding => (none, false)

/-- A network with the attributes and tables of its switches; a table names ports of its own switch. -/
structure Fabric (P S : Type) extends Network P S where
  switchId : S → Nat
  failDropRate : S → Rat
  forwarding : S → Forwarding P
  own : ∀ p q flow, ((forwarding (owner p)).route p flow).1 = some q → owner q = owner p

/-- `wire p` is what has left port `p` and not arrived, oldest first. -/
structure State (P S : Type) where
  port : P → NetSeerPortInfo
  sim : S → NetSeerSimulationState
  wire : P → List Frame

/-- All ports are initialised and nothing has been sent. -/
def State.start {P S : Type} : State P S where
  port _ := {}
  sim _ := {}
  wire _ := []

/-- What the error models say about a packet in the two traffic managers, and about a NACK that answers it. -/
structure Luck where
  tm : Bool := false
  fail : Bool := false
  nack : Bool := false

inductive Label (P : Type) where
  | enter (inPort : P) (frame : Frame) (luck : Luck)
  | deliver (p : P) (luck : Luck)
  | lose (p : P) (i : Nat)

/-- What a step shows: what it does to the packets a port has numbered, frames that come from a host or go to one, and
frames that do not go on. -/
inductive Obs (P : Type) where
  | seen (o : Seen P)
  | entered (p : P) (frame : Frame)
  | handed (p : P) (frame : Frame)
  | dropped (frame : Frame)
  deriving DecidableEq

section
variable {P S : Type} [DecidableEq P] [DecidableEq S] {N : Ns3}

/-! ## Ingress and egress -/

/-- What `DoIngress` does after the forwarding tables have chosen `outPort`. -/
def doIngress (inPort : P) (outPort : Option P) (headers : Headers N) (port : NetSeerPortInfo) : IngressResult P :=
  match headers.netSeer with
  | none => { port := port, outPort := outPort }
  | some header =>
    if header.action = NACK then { port := port, outPort := some inPort }
    else if header.action = SEQ then
      if header.seq1 ≠ port.receiverNextExpectedSeq then
        { port := { port with receiverNextExpectedSeq := header.seq1 + 1 }
          outPort := outPort
          nack := some (port.receiverNextExpectedSeq, header.seq1) }
      else { port := { port with receiverNextExpectedSeq := port.receiverNextExpectedSeq + 1 }, outPort := outPort }
    else { port := port, outPort := outPort }

/-- `packet` is `none` when it is dropped. -/
structure EgressResult (N : Ns3) where
  port : NetSeerPortInfo
  sim : NetSeerSimulationState
  packet : Option (PktInfo N)
  events : List Event := []

/-- The packet with a NETSEER header: the one it came with, or a new one. -/
def withHeader (m : PktInfo N) (port : NetSeerPortInfo) : PktInfo N × Header :=
  match m.headers.netSeer with
  | some header => (m, header)
  | none =>
    let header := { action := SEQ, seq1 := port.senderNextExpectedSeq, nextHeader := m.protocol }
    ({ m with protocol := NETSEER, headers := { m.headers with netSeer := some header } }, header)

/-- What `DoEgress` does on the port a packet leaves by. -/
def doEgress (cfg : NetSeerConfig) (switchPort : Bool) (m : PktInfo N) (port : NetSeerPortInfo)
    (sim : NetSeerSimulationState) : EgressResult N :=
  if switchPort then
    let (m, header) := withHeader m port
    if header.action = NACK then
      let r := checkPacketLosses cfg header.seq1 header.seq2 port sim
      { port := r.1
        sim := r.2.1
        packet := none
        events := .checked header.seq1 header.seq2 port.senderNextExpectedSeq :: r.2.2.map .reported }
    else
      let port' := saveFlow cfg m.flow port
      { port := { port' with senderNextExpectedSeq := port'.senderNextExpectedSeq + 1 }
        sim := sim
        packet := some m
        events := [.sent m.flow header.seq1 port.senderNextExpectedSeq] }
  else
    { port := port
      sim := sim
      packet := some
        (match m.headers.netSeer with
        | some header => { m with protocol := header.nextHeader, headers := { m.headers with netSeer := none } }
        | none => m) }

/-! ## From port to port -/

variable (fab : Fabric P S)

def seenAt (p : P) (es : List Event) : List (Obs P) := (NetSeer.seenAt p es).map .seen

/-- What goes out of a port is on the link, or with the host. -/
def State.transmit (s : State P S) (p : P) (frame : Frame) : State P S × List (Obs P) :=
  if (fab.peer p).isSome then ({ s with wire := update s.wire p (s.wire p ++ [frame]) }, []) else (s, [.handed p frame])

/-- What a packet that leaves the wire of port `p` without going on shows of the numbers. -/
def lossEvents (p : P) (headers : Headers N) : List (Obs P) :=
  match headers.number, headers.range, fab.peer p with
  | some seq, _, _ => seenAt p [.lost seq]
  | none, some (seq1, seq2), some q => seenAt q [.nackLost seq1 seq2]
  | none, _, _ => []

/-- `DoEgressTrafficManager`: the gray failure. -/
def failed (p : P) (m : PktInfo N) (luck : Luck) : Bool :=
  match m.headers.hosts.ipv4 with
  | some ip =>
    ((N.tos ip).toNat == fab.switchId (fab.owner p) || m.grayDrop) && (fab.failDropRate (fab.owner p) == 1 || luck.fail)
  | none => false

def State.egressTrafficManager (s : State P S) (p : P) (m : PktInfo N) (payload : Bytes) (luck : Luck) :
    State P S × List (Obs P) :=
  if failed fab p m luck then
    (s, .dropped (m.frame payload) :: if (fab.peer p).isSome then lossEvents fab p m.headers else [])
  else s.transmit fab p (m.frame payload)

/-- From `Egress` to the wire. -/
def State.egress (s : State P S) (p : P) (m : PktInfo N) (payload : Bytes) (luck : Luck) : State P S × List (Obs P) :=
  let r := doEgress (fab.config (fab.owner p)) (fab.peer p).isSome m (s.port p) (s.sim (fab.owner p))
  let t := { s with port := update s.port p r.port, sim := update s.sim (fab.owner p) r.sim }
  match r.packet with
  | some m =>
    let u := t.egressTrafficManager fab p m payload luck
    (u.1, seenAt p r.events ++ u.2)
  | none => (t, seenAt p r.events)

/-- `DoTrafficManager`: emulated congestion. -/
def congested (p : P) (drop : Bool) : Bool := 0 < (fab.config (fab.owner p)).tmDropRate && drop

def State.trafficManager (s : State P S) (outPort : Option P) (m : PktInfo N) (payload : Bytes) (luck : Luck) :
    State P S × List (Obs P) :=
  match outPort with
  | none => (s, [.dropped (m.frame payload)])
  | some p =>
    if congested fab p luck.tm then
      (s, .dropped (m.frame payload) :: match m.headers.range with
        | some (seq1, seq2) => seenAt p [.nackLost seq1 seq2]
        | none => [])
    else s.egress fab p m payload luck

/-- The frame that `SendNACK` makes, of an empty packet. -/
def nackFrame (seq1 seq2 : UInt32) : Frame where
  protocol := NETSEER
  bytes := Header.serialize { action := NACK, seq1 := seq1, seq2 := seq2 }

/-- `SendNACK` on port `p`; internal packets skip `DoEgress` and have no IPv4 header. -/
def State.sendNACK (s : State P S) (p : P) (range : UInt32 × UInt32) (drop : Bool) : State P S × List (Obs P) :=
  let seen := fun es => match fab.peer p with
    | some q => seenAt q es
    | none => []
  if congested fab p drop then (s, seen [.nacked range.1 range.2, .nackLost range.1 range.2])
  else
    let t := s.transmit fab p (nackFrame range.1 range.2)
    (t.1, seen [.nacked range.1 range.2] ++ t.2)

/-- The port after `DoIngress`, and the NACK it asks for. -/
def State.answer (s : State P S) (inPort : P) (r : IngressResult P) (drop : Bool) : State P S × List (Obs P) :=
  let s := { s with port := update s.port inPort r.port }
  match r.nack with
  | some range => s.sendNACK fab inPort range drop
  | none => (s, [])

variable (N)

/-- `ReceiveFromDevice`. -/
def State.receive (s : State P S) (inPort : P) (frame : Frame) (luck : Luck) : Option (State P S × List (Obs P)) :=
  (parse (N := N) frame).map fun h =>
    let flow := getFlowFiveTuple h.1.hosts
    let route := (fab.forwarding (fab.owner inPort)).route inPort flow
    let m := { protocol := frame.protocol, headers := h.1, flow := flow, grayDrop := route.2 }
    let r := doIngress inPort route.1 h.1 (s.port inPort)
    let t := s.answer fab inPort r luck.nack
    let u := t.1.trafficManager fab r.outPort m h.2 luck
    (u.1, t.2 ++ u.2)

/-- The number a frame arrives with, seen by the port that sent it. -/
def arrivedEvents (p : P) (headers : Headers N) : List (Obs P) :=
  match headers.number with
  | some seq => seenAt p [.arrived seq]
  | none => []

def step : Lts.Step (State P S) (Label P) (Obs P)
  | .enter inPort frame luck, s =>
    if fab.peer inPort = none then (s.receive N fab inPort frame luck).map fun t => (t.1, .entered inPort frame :: t.2)
    else none
  | .deliver p luck, s =>
    match fab.peer p, s.wire p with
    | some q, frame :: rest =>
      (parse (N := N) frame).bind fun h =>
        (State.receive N fab { s with wire := update s.wire p rest } q frame luck).map fun t =>
          (t.1, arrivedEvents N p h.1 ++ t.2)
    | _, _ => none
  | .lose p i, s =>
    (s.wire p)[i]?.bind fun frame => (parse (N := N) frame).map fun h =>
      ({ s with wire := update s.wire p ((s.wire p).eraseIdx i) }, .dropped frame :: lossEvents fab p h.1)

end

end Wire

end Ns3Fancy.NetSeer

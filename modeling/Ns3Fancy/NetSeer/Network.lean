import Ns3Fancy.Lts.Run
import Ns3Fancy.NetSeer.Port

/-!
# Networks of NetSeer switches

Any number of switches, their ports, and FIFO links between ports. A packet enters by a port towards
a host, goes through the pipeline and leaves by the port the forwarding tables choose; at the other
end of a link the same happens again. The traffic manager and the links may drop packets. What a
step shows is kept apart by the port that numbers the packets it is about.
-/

namespace Ns3Fancy.NetSeer
open Switch Function
set_option autoImplicit false

variable {P S : Type} [DecidableEq P] [DecidableEq S]

/-- Ports, the switches they belong to, and the links; a port without a link is one towards a host. -/
structure Network (P S : Type) where
  owner : P → S
  peer : P → Option P
  config : S → NetSeerConfig
  peer_symm : ∀ p q, peer p = some q → peer q = some p
  peer_ne : ∀ p, peer p ≠ some p

/-- `wire p` is what has left port `p` and not arrived, oldest first. -/
structure State (P S : Type) where
  port : P → NetSeerPortInfo
  sim : S → NetSeerSimulationState
  wire : P → List Packet

/-- All ports are initialised and nothing has been sent. -/
def State.start : State P S where
  port _ := {}
  sim _ := {}
  wire _ := []

/-- `outPort` is what the forwarding tables say, `tmDrop` and `nackDrop` what the traffic manager decides about the packet
and about a NACK that answers it. -/
inductive Label (P : Type) where
  | enter (inPort : P) (outPort : Option P) (pkt : Packet) (tmDrop : Bool)
  | deliver (p : P) (outPort : Option P) (tmDrop nackDrop : Bool)
  | lose (p : P) (i : Nat)

/-- What a step shows about the packets a port has numbered. -/
inductive Event where
  /-- a packet left with the number `seq1` in its header, its flow saved under the number `saved` -/
  | sent (flow : FiveTuple) (seq1 saved : UInt32)
  | arrived (seq : UInt32)
  | lost (seq : UInt32)
  /-- the other side called `SendNACK` -/
  | nacked (seq1 seq2 : UInt32)
  | nackLost (seq1 seq2 : UInt32)
  /-- `CheckPacketLosses` was called; `next` was the next number to be used -/
  | checked (seq1 seq2 next : UInt32)
  /-- `ReportPacket` was called -/
  | reported (packet : NetSeerPacketInfo)
  deriving DecidableEq, Repr

structure Seen (P : Type) where
  port : P
  event : Event
  deriving DecidableEq, Repr

def seenAt (p : P) (es : List Event) : List (Seen P) := es.map fun e => { port := p, event := e }

/-- The number of a packet that is not a NACK. -/
def Packet.number (pkt : Packet) : Option UInt32 :=
  match pkt.netSeer with
  | some { action := .seq, seq1 := seq, .. } => some seq
  | _ => none

/-- What a NACK says is missing. -/
def Packet.range (pkt : Packet) : Option (UInt32 × UInt32) :=
  match pkt.netSeer with
  | some { action := .nack, seq1 := seq1, seq2 := seq2, .. } => some (seq1, seq2)
  | _ => none

section
variable (net : Network P S)

/-- Only links are of interest: what leaves towards a host is gone. -/
def State.transmit (s : State P S) (p : P) (pkt : Packet) : State P S :=
  if (net.peer p).isSome then { s with wire := update s.wire p (s.wire p ++ [pkt]) } else s

/-- What `DoEgress` shows on a port towards a switch. -/
def egressEvents (pkt : Packet) (port : NetSeerPortInfo) (r : EgressResult) : List Event :=
  match r.saved with
  | some saved => [.sent pkt.flow (withHeader pkt port).2.seq1 saved]
  | none =>
    match pkt.range with
    | some (seq1, seq2) => .checked seq1 seq2 port.senderNextExpectedSeq :: r.reports.map .reported
    | none => []

/-- From `Egress` to the wire. -/
def State.egress (s : State P S) (p : P) (pkt : Packet) : State P S × List (Seen P) :=
  let r := doEgress (net.config (net.owner p)) (net.peer p).isSome pkt (s.port p) (s.sim (net.owner p))
  let t := { s with port := update s.port p r.port, sim := update s.sim (net.owner p) r.sim }
  (match r.packet with
    | some pkt => t.transmit net p pkt
    | none => t,
  if (net.peer p).isSome then seenAt p (egressEvents pkt (s.port p) r) else [])

/-- Whether the traffic manager of a port's switch may drop. -/
def mayDrop (p : P) : Prop := 0 < (net.config (net.owner p)).tmDropRate

instance (p : P) : Decidable (mayDrop net p) := inferInstanceAs (Decidable (_ < _))

def State.trafficManager (s : State P S) (outPort : Option P) (pkt : Packet) (drop : Bool) :
    Option (State P S × List (Seen P)) :=
  match outPort with
  | none => some (s, [])
  | some p =>
    if drop then
      if mayDrop net p then
        some (s, match pkt.range with
          | some (seq1, seq2) => seenAt p [.nackLost seq1 seq2]
          | none => [])
      else none
    else some (s.egress net p pkt)

/-- `SendNACK` on port `p`; internal packets skip `DoEgress`. -/
def State.sendNACK (s : State P S) (p : P) (range : UInt32 × UInt32) (drop : Bool) : Option (State P S × List (Seen P)) :=
  let seen := fun es => match net.peer p with
    | some q => seenAt q es
    | none => []
  if drop then
    if mayDrop net p then some (s, seen [.nacked range.1 range.2, .nackLost range.1 range.2]) else none
  else some (s.transmit net p (nackPacket range.1 range.2), seen [.nacked range.1 range.2])

/-- The port after `DoIngress`, and the NACK it asks for. -/
def State.answer (s : State P S) (inPort : P) (r : IngressResult P) (nackDrop : Bool) :
    Option (State P S × List (Seen P)) :=
  let s := { s with port := update s.port inPort r.port }
  match r.nack with
  | some range => s.sendNACK net inPort range nackDrop
  | none => some (s, [])

def State.ingress (s : State P S) (inPort : P) (outPort : Option P) (pkt : Packet) (tmDrop nackDrop : Bool) :
    Option (State P S × List (Seen P)) :=
  let r := doIngress inPort outPort pkt (s.port inPort)
  (s.answer net inPort r nackDrop).bind fun t =>
    (t.1.trafficManager net r.outPort pkt tmDrop).map fun u => (u.1, t.2 ++ u.2)

/-- What leaves the wire of port `p` without going on. -/
def lossEvents (p : P) (pkt : Packet) : List (Seen P) :=
  match pkt.number, pkt.range, net.peer p with
  | some seq, _, _ => seenAt p [.lost seq]
  | none, some (seq1, seq2), some q => seenAt q [.nackLost seq1 seq2]
  | none, _, _ => []

def step : Lts.Step (State P S) (Label P) (Seen P)
  | .enter inPort outPort pkt tmDrop, s =>
    if net.peer inPort = none ∧ pkt.netSeer = none ∧ ∀ q ∈ outPort, net.owner q = net.owner inPort then
      s.ingress net inPort outPort pkt tmDrop false
    else none
  | .deliver p outPort tmDrop nackDrop, s =>
    match net.peer p, s.wire p with
    | some q, pkt :: rest =>
      if ∀ r ∈ outPort, net.owner r = net.owner q then
        (State.ingress net { s with wire := update s.wire p rest } q outPort pkt tmDrop nackDrop).map fun t =>
          (t.1, (match pkt.number with
            | some seq => seenAt p [.arrived seq]
            | none => []) ++ t.2)
      else none
    | _, _ => none
  | .lose p i, s =>
    (s.wire p)[i]?.map fun pkt => ({ s with wire := update s.wire p ((s.wire p).eraseIdx i) }, lossEvents net p pkt)

/-- The events of one port. -/
def events (p : P) (tr : List (Seen P)) : List Event := tr.flatMap fun o => if o.port = p then [o.event] else []

end

end Ns3Fancy.NetSeer

import Ns3Fancy.Lts.Run
import Ns3Fancy.Switch.PortKind

/-!
# Two switches and the link between them

The system the machines work in: two ports with equal attributes and the two wires between them. What the
rest of each switch does shows at the port as packets that leave by it. A step is a timer that fires, a
packet that leaves, a frame that is delivered or a frame that is lost; timers fire at any moment, so
delays are arbitrary and messages may be sent again without need.
-/

namespace Ns3Fancy.Link
open Switch Buffer Function
set_option autoImplicit false

/-- What a port does with a packet or a timer. -/
structure Outcome where
  port : FancyPortInfo
  /-- the frames that leave by the port -/
  sent : List Frame := []
  /-- the reroute block took a packet of the machines -/
  dropped : Bool := false
  log : List PortLog := []

section
variable (cfg : FancyConfig)

/-! ## One port -/

/-- A frame with nothing but a FANCY header. -/
def controlFrame (hdr : FancyHeader) : Frame := { protocol := FANCY, bytes := hdr.serialize }

/-- One of the port's events runs. -/
def runEvent (p : FancyPortInfo) : Event → Option Outcome
  | .sendGreyAction action id =>
    (sendGreyAction cfg action id p).map fun r => { port := r.1, sent := [controlFrame r.2] }
  | .sendGreyCounter id =>
    (sendGreyCounter cfg id p).map fun r => { port := r.1, sent := [controlFrame r.2.1], log := r.2.2 }

/-- The way of a packet that leaves by the port it came from, after the machines of the ingress box: the reroute
block, then the egress box. -/
def turnBack (p : FancyPortInfo) (m : PktInfo cfg.ns3) (payload : Bytes) (log : List PortLog) : Option Outcome :=
  let r := reroute cfg p m
  if r.2.dropFlag then some { port := r.1, dropped := !m.dropFlag, log := log }
  else (egressMachines cfg r.1 r.2).bind fun q => (egressCounting cfg q.1 q.2.1).map fun e =>
    { port := e.1
      sent := if e.2.1.dropFlag then [] else [{ protocol := e.2.1.protocol, bytes := doDeparser e.2.1.headers payload }]
      log := log ++ (q.2.2 ++ e.2.2) }

/-- The metadata of a frame that arrives at the port, which is port 0 of its switch; port 1 stands for the rest of the
switch, where forwarding sends it. -/
def arrived (frame : Frame) (headers : Headers cfg.ns3) : PktInfo cfg.ns3 :=
  { inPort := some 0, outPort := some 1, protocol := frame.protocol, headers := headers,
    flow := getFlowFiveTuple headers }

/-- A frame arrives at the port. -/
def receive (p : FancyPortInfo) (frame : Frame) : Option Outcome :=
  (parse frame).bind fun h => (ingressMachines cfg p (arrived cfg frame h.1)).bind fun r =>
    if r.2.1.outPort = some 0 then turnBack cfg r.1 r.2.1 h.2 r.2.2 else some { port := r.1, log := r.2.2 }

/-- A packet as a host sends it. -/
abbrev HostPacket := { p : Packet cfg.ns3 // p.WellFormed }

/-- The metadata of a packet from elsewhere in the switch that leaves by the port: an earlier switch may have put a
FANCY header with its own id and session in front of it. -/
def outgoing (pkt : HostPacket cfg) (earlier : Option (UInt32 × UInt16)) : PktInfo cfg.ns3 :=
  { inPort := some 1
    outPort := some 0
    protocol := if earlier.isSome then FANCY else pkt.val.protocol
    headers := { pkt.val.headers with
      fancy := earlier.map fun e => { id := e.1, seq := e.2, nextHeader := pkt.val.protocol } }
    flow := getFlowFiveTuple pkt.val.headers }

/-- A packet leaves by the port, unless the reroute block takes it. -/
def emit (p : FancyPortInfo) (pkt : HostPacket cfg) (earlier : Option (UInt32 × UInt16)) : Option Outcome :=
  let r := reroute cfg p (outgoing cfg pkt earlier)
  if r.2.dropFlag then some { port := r.1 }
  else (egressCounting cfg r.1 r.2).map fun e =>
    { port := e.1
      sent := [{ protocol := e.2.1.protocol, bytes := doDeparser e.2.1.headers pkt.val.payload }]
      log := e.2.2 }

/-! ## The system -/

/-- Both ports, and the wires out of them, oldest frame first. -/
structure System where
  port : Bool → FancyPortInfo
  wire : Bool → List Frame

/-- `d` is the port a step is about, or the one a wire leaves. -/
inductive Label where
  | fire (d : Bool) (i : Nat)
  | probe (d : Bool)
  | egress (d : Bool) (pkt : HostPacket cfg) (earlier : Option (UInt32 × UInt16)) (lost : Bool)
  | deliver (d : Bool)
  | lose (d : Bool) (i : Nat)

/-- What a step shows: the log of a port, and whether a packet it counted is lost. -/
structure Seen where
  side : Bool
  log : PortLog
  lost : Bool := false

/-- The port `d` has done something; what it sent goes on the wire. -/
def System.after (s : System) (d : Bool) (o : Outcome) : System :=
  { port := update s.port d o.port, wire := update s.wire d (s.wire d ++ o.sent) }

def Outcome.seen (o : Outcome) (d : Bool) (lost : Bool) : List Seen := o.log.map fun l => { side := d, log := l, lost := lost }

def step : Lts.Step System (Label cfg) Seen
  | .fire d i, s =>
    (s.port d).events.pending[i]?.bind fun e =>
      (runEvent cfg { s.port d with events := { (s.port d).events with pending := (s.port d).events.pending.eraseIdx i } }
        e.2).map fun o => (s.after d o, o.seen d false)
  | .probe d, s => some ({ s with wire := update s.wire d (s.wire d ++ [controlFrame {}]) }, [])
  | .egress d pkt earlier lost, s =>
    (emit cfg (s.port d) pkt earlier).map fun o =>
      (s.after d (if lost then { o with sent := [] } else o), o.seen d lost)
  | .deliver d, s =>
    match s.wire d with
    | [] => none
    | frame :: rest =>
      (receive cfg (s.port !d) frame).map fun o =>
        ({ s with wire := update s.wire d rest }.after (!d) o, o.seen (!d) false)
  | .lose d i, s => some ({ s with wire := update s.wire d ((s.wire d).eraseIdx i) }, [])

/-- Both switches have run `Init`. -/
def System.start : System := { port := fun _ => initPort cfg true, wire := fun _ => [] }

/-- A step on which the reroute block takes a packet of the machines. -/
def Drops (l : Label cfg) (s : System) : Prop :=
  ∃ d frame rest o, l = .deliver d ∧ s.wire d = frame :: rest ∧ receive cfg (s.port !d) frame = some o ∧
    o.dropped = true

/-- A step that loses no packet of the machines: only `egress` may lose the packet that leaves. -/
def Lossless (l : Label cfg) (s : System) : Prop := (∀ d i, l ≠ .lose d i) ∧ ¬Drops cfg l s

/-- `Lossless`, computed. -/
def losslessStep (l : Label cfg) (s : System) : Bool :=
  match l with
  | .lose _ _ => false
  | .deliver d => (s.wire d).head?.all fun frame => (receive cfg (s.port !d) frame).all fun o => !o.dropped
  | _ => true

theorem lossless_of_losslessStep {l : Label cfg} {s : System} (check : losslessStep cfg l s = true) : Lossless cfg l s := by
  constructor
  · rintro d i rfl
    cases check
  · rintro ⟨d, frame, rest, o, rfl, wire, received, dropped⟩
    simp [losslessStep, wire, received, dropped] at check

end

end Ns3Fancy.Link

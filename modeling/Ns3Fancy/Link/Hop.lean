import Ns3Fancy.Link.Renaming

/-!
# A switch works port by port

Seen from its ports a switch does with a frame what the link model says: the port the frame comes in by receives it, and then at
most one packet leaves, by the port that forwarding chose. The reroute block may mark that port for a control packet which ends
at the switch anyway; it is marked as for a packet without a flow.
-/

namespace Ns3Fancy.Link
open Switch Buffer Function
set_option autoImplicit false

section
variable {cfg : FancyConfig} {p : FancyPortInfo} {id : Nat} {hdr : FancyHeader}

/-! ## One frame -/

/-- A packet without a flow, as the reroute block takes a control packet for. -/
def noFlow (cfg : FancyConfig) : HostPacket cfg :=
  ⟨{ protocol := IPV6 }, by constructor <;> simp <;> decide⟩

theorem reroute_fst_congr {m m' : PktInfo cfg.ns3} (flow : m.flow = m'.flow) (strFlow : m.strFlow = m'.strFlow) :
    (reroute cfg p m).1 = (reroute cfg p m').1 := by
  simp only [reroute, flow, strFlow, apply_ite Prod.fst]

/-- The mark that the reroute block leaves on a port for a packet without a flow. -/
theorem PassesOn.mark {ports : Ports} {k : Nat} {m : PktInfo cfg.ns3} (flow : m.flow = {}) (strFlow : m.strFlow = "") :
    PassesOn cfg ports (some k) (update ports k (reroute cfg (ports k) m).1, [], []) := by
  have empty : getFlowFiveTuple (noFlow cfg).val.headers = {} := getFlowFiveTuple_of_none rfl
  have marked : (reroute cfg (ports k) m).1 = (reroute cfg (ports k) (outgoing cfg (noFlow cfg) none)).1 :=
    reroute_fst_congr (flow.trans empty.symm) strFlow
  have emitted := emit_eq (ports k) (noFlow cfg) none
  cases caught : (reroute cfg (ports k) (outgoing cfg (noFlow cfg) none)).2.dropFlag with
  | true =>
    rw [if_pos caught] at emitted
    rw [marked]
    exact @PassesOn.leaves cfg ports (some k) k (noFlow cfg) none false _ rfl emitted
  | false =>
    rw [marked, reroute_fst_of_passed caught, update_eq_self]
    exact .stays

/-- The packets a sender counts are counted where they leave; all else that a port logs is about frames that come in. -/
def atEgress : PortLog → Bool
  | .counted _ _ _ _ => true
  | .consumed _ _ _ _ _ _ _ | .gotStop _ _ | .reported _ _ => false

theorem ingressMachines_log {m : PktInfo cfg.ns3} {r : FancyPortInfo × PktInfo cfg.ns3 × List PortLog}
    (run : ingressMachines cfg p m = some r) : ∀ l ∈ r.2.2, atEgress l = false := by
  simp only [ingressMachines] at run
  split at run
  · cases run
    simp
  split at run
  · cases run
    simp
  split at run
  · obtain ⟨q, -, run⟩ := Option.bind_eq_some_iff.1 run
    split at run
    · cases run
      simp
    split at run
    · obtain ⟨r', -, rfl⟩ := Option.map_eq_some_iff.1 run
      intro l mem
      simp only at mem
      split at mem
      · rw [List.mem_singleton.1 mem]
        rfl
      · cases mem
    · cases run
      simp
  · cases run
    simp

theorem egressMachines_log {m : PktInfo cfg.ns3} {r : FancyPortInfo × PktInfo cfg.ns3 × List PortLog}
    (run : egressMachines cfg p m = some r) : ∀ l ∈ r.2.2, atEgress l = false := by
  have consumed : ∀ {id : Nat} {hdr : FancyHeader} {p : FancyPortInfo} {c : FancyPortInfo × List PortLog},
      consumeReport cfg id hdr p = some c → ∀ l ∈ c.2, atEgress l = false := by
    intro id hdr p c run
    simp only [consumeReport] at run
    split at run
    · split at run
      · obtain ⟨records, -, run⟩ := Option.bind_eq_some_iff.1 run
        split at run <;> cases run
        simp [atEgress]
      · cases run
    · cases run
      simp [atEgress]
  have machine : ∀ {id : Nat} {hdr : FancyHeader}, senderMachine cfg id hdr p m = some r →
      ∀ l ∈ r.2.2, atEgress l = false := by
    intro id hdr run
    simp only [senderMachine] at run
    split at run
    · split at run <;> cases run <;> simp
    · split at run <;> cases run <;> simp
    · cases run
      simp
    · split at run
      · obtain ⟨c, report, rfl⟩ := Option.map_eq_some_iff.1 run
        exact consumed report
      · cases run
        simp
    all_goals
      cases run
      simp
  unfold egressMachines at run
  split at run
  · split at run
    · exact machine run
    · cases run
      simp
  · cases run
    simp

theorem turnBack_log {m : PktInfo cfg.ns3} (switch : p.switchPort = true) (noIp : m.headers.ipv4 = none) {payload : Bytes}
    {log : List PortLog} (before : ∀ l ∈ log, atEgress l = false) {o : Outcome} (run : turnBack cfg p m payload log = some o) :
    ∀ l ∈ o.log, atEgress l = false := by
  obtain ⟨headers, -, -⟩ := reroute_snd p m
  have flag := switchPort_reroute p m
  simp only [turnBack] at run
  split at run
  · cases run
    exact before
  · obtain ⟨q, machines, run⟩ := Option.bind_eq_some_iff.1 run
    obtain ⟨-, -, ip⟩ := egressMachines_meta machines
    have noIp' : q.2.1.headers.ipv4 = none := ip.trans (by rw [headers, noIp])
    rw [egressCounting_control ((switchPort_egressMachines machines).trans (flag.trans switch)) noIp'] at run
    cases run
    intro l mem
    rcases List.mem_append.1 mem with here | there
    · exact before l here
    · exact egressMachines_log machines l (by simpa using there)

/-- The packet behind the FANCY header of a frame, as its host sent it but for the length of a UDP header. Messages of the
machines and keep-alives carry none. -/
def content (N : Ns3) (frame : Frame) : Option Frame :=
  (parse frame : Option (Headers N × Bytes)).bind fun h =>
    match h.1.fancy with
    | none => some (frame.sansLength N)
    | some hdr =>
      if hdr.nextHeader = 0 then none
      else some { protocol := hdr.nextHeader, bytes := doDeparser ({ h.1 with fancy := none } : Headers N).sansLength h.2 }

/-- Seen from its ports, a switch has handled a frame: the port it came in by received it, and then it is gone or a packet has
left. Only one of the two sends or counts. -/
inductive Hopped (cfg : FancyConfig) (ports : Ports) (inPort : Nat) (frame : Frame) (out : Option Nat)
    (r : Ports × List (Nat × Frame) × List PortLog) : Prop where
  | intro {o : Outcome} {e : Ports × List (Nat × Frame) × List PortLog} (received : receive cfg (ports inPort) frame = some o)
      (passes : PassesOn cfg (update ports inPort o.port) out e)
      (whole : r = (e.1, o.sent.map (Prod.mk inPort) ++ e.2.1, o.log ++ e.2.2)) (ingress : ∀ l ∈ o.log, atEgress l = false)
      (one : o.sent = [] ∨ e.2.2 = []) (empty : content cfg.ns3 frame = none → e.2.1 = []) :
      Hopped cfg ports inPort frame out r

section
variable {n : Node cfg} {luck : Luck} {i : Nat} {ports : Ports} {frame : Frame} {headers : Headers cfg.ns3} {payload : Bytes}
  {q : FancyPortInfo × PktInfo cfg.ns3 × List PortLog}

/-- What a switch does with a frame once the machines of the port it came in by have seen it. -/
theorem receiveFromDevice_eq (parsed : parse frame = some (headers, payload))
    (machines : ingressMachines cfg (ports i) (arrived cfg frame headers) = some q) {m : PktInfo cfg.ns3}
    (same : m = placed (hop i (n.arrival i frame headers).outPort) (n.arrival i frame headers).grayDrop q.2.1) :
    n.receiveFromDevice luck i frame ports = (match m.outPort with
      | none => n.egressAll luck payload (n.trafficManager m) (update ports i q.1)
      | some k => n.egressAll luck payload (n.trafficManager (reroute cfg (update ports i q.1 k) m).2)
          (update (update ports i q.1) k (reroute cfg (update ports i q.1 k) m).1)).map
        fun e : Ports × List (Nat × Frame) × List PortLog => (e.1, e.2.1, q.2.2 ++ e.2.2) := by
  have box : ingressMachines cfg (ports i) (n.arrival i frame headers) = some (q.1, m, q.2.2) := by
    rw [arrival_eq, ingressMachines_placed, machines, same]
    rfl
  rw [Node.receiveFromDevice, parsed, Option.bind_some, ingressCounterBox, box, Option.map_some, Option.bind_some]
  cases m.outPort <;> rfl

/-- The frame turns back. -/
theorem Hopped.back (parsed : parse frame = some (headers, payload))
    (machines : ingressMachines cfg (ports i) (arrived cfg frame headers) = some q) (switch : (ports i).switchPort = true)
    (control : IsControl q.2.1) (fromHere : q.2.1.inPort = some 0) (back : q.2.1.outPort = some 0) (out : Option Nat)
    {r : Ports × List (Nat × Frame) × List PortLog} (run : n.receiveFromDevice luck i frame ports = some r) :
    Hopped cfg ports i frame out r := by
  have kind := switchPort_ingressMachines machines
  have target : (placed (hop i (n.arrival i frame headers).outPort) (n.arrival i frame headers).grayDrop q.2.1).outPort =
      some i := by
    rw [placed_outPort, back]
    rfl
  have here : (update ports i q.1 i).switchPort = true := by
    rw [update_self]
    exact kind.trans switch
  rw [receiveFromDevice_eq parsed machines rfl] at run
  simp only [target, reroute_placed] at run
  rw [egressAll_turnBack n luck here control fromHere back payload q.2.2, update_self] at run
  obtain ⟨o, turned, rfl⟩ := Option.map_eq_some_iff.1 run
  have received : receive cfg (ports i) frame = some o := by
    rw [receive, parsed, Option.bind_some, machines, Option.bind_some, if_pos back]
    exact turned
  have ingress := turnBack_log (kind.trans switch) control.noIp (ingressMachines_log machines) turned
  refine .intro received .stays ?_ ingress (Or.inr rfl) fun _ => rfl
  rw [update_idem, List.append_nil, List.append_nil]

/-- The frame is a control packet that ends with the machines. -/
theorem Hopped.ends (parsed : parse frame = some (headers, payload))
    (machines : ingressMachines cfg (ports i) (arrived cfg frame headers) = some q) (dropped : q.2.1.dropFlag = true)
    (notBack : q.2.1.outPort = some 1) (noIp : headers.ipv4 = none)
    {r : Ports × List (Nat × Frame) × List PortLog} (run : n.receiveFromDevice luck i frame ports = some r) :
    Hopped cfg ports i frame (n.arrival i frame headers).outPort r := by
  obtain ⟨passed, -⟩ := ingressMachines_passed machines
  have flow : q.2.1.flow = {} := passed.flow.trans (getFlowFiveTuple_of_none noIp)
  have received : receive cfg (ports i) frame = some { port := q.1, log := q.2.2 } := by
    rw [receive, parsed, Option.bind_some, machines, Option.bind_some, if_neg (by rw [notBack]; decide)]
  have target : (placed (hop i (n.arrival i frame headers).outPort) (n.arrival i frame headers).grayDrop q.2.1).outPort =
      (n.arrival i frame headers).outPort := by
    rw [placed_outPort, notBack]
    rfl
  rw [receiveFromDevice_eq parsed machines rfl] at run
  generalize (n.arrival i frame headers).grayDrop = gray at *
  generalize (n.arrival i frame headers).outPort = out at *
  simp only [target] at run
  cases out with
  | none =>
    simp only at run
    rw [trafficManager_dropped n (m := placed (hop i none) gray q.2.1) dropped] at run
    cases run
    exact .intro received .stays rfl (ingressMachines_log machines) (Or.inr rfl) fun _ => rfl
  | some k =>
    simp only at run
    have gone : (reroute cfg (update ports i q.1 k) (placed (hop i (some k)) gray q.2.1)).2.dropFlag = true := by
      rw [reroute_placed, placed_dropFlag, reroute_dropFlag _ flow passed.strFlow, dropped, Bool.true_or]
    rw [trafficManager_dropped n gone] at run
    cases run
    refine .intro received (.mark (m := q.2.1) flow passed.strFlow) ?_ (ingressMachines_log machines) (Or.inr rfl) fun _ => rfl
    rw [reroute_placed, List.append_nil]
    rfl

/-- The frame ends at the port it came in by. -/
theorem Hopped.nowhere (parsed : parse frame = some (headers, payload))
    (machines : ingressMachines cfg (ports i) (arrived cfg frame headers) = some q) (none : q.2.1.outPort = none)
    (out : Option Nat) {r : Ports × List (Nat × Frame) × List PortLog} (run : n.receiveFromDevice luck i frame ports = some r) :
    Hopped cfg ports i frame out r := by
  obtain ⟨passed, -⟩ := ingressMachines_passed machines
  have received : receive cfg (ports i) frame = some { port := q.1, log := q.2.2 } := by
    rw [receive, parsed, Option.bind_some, machines, Option.bind_some, if_neg (by rw [none]; decide)]
  have target : (placed (hop i (n.arrival i frame headers).outPort) (n.arrival i frame headers).grayDrop q.2.1).outPort =
      Option.none := by
    rw [placed_outPort, none]
    rfl
  have quiet : n.trafficManager (placed (hop i (n.arrival i frame headers).outPort)
    (n.arrival i frame headers).grayDrop q.2.1) =
      [] := by
    have single : q.2.1.broadcastFlag = false := passed.broadcastFlag
    simp only [Node.trafficManager, target, placed_broadcastFlag, single, Option.isNone_none, Bool.false_eq_true, if_false,
      if_true, ite_self]
  rw [receiveFromDevice_eq parsed machines rfl] at run
  simp only [target, quiet, Node.egressAll, Option.map_some, Option.some.injEq] at run
  subst run
  exact .intro received .stays rfl (ingressMachines_log machines) (Or.inr rfl) fun _ => rfl

/-- The frame carries a packet that goes on. -/
theorem Hopped.onward {pkt : HostPacket cfg} {earlier : Option (UInt32 × UInt16)}
    (parsed : parse frame = some (headers, pkt.val.payload))
    (machines : ingressMachines cfg (ports i) (arrived cfg frame headers) = some q)
    (same : q.2.1 = { outgoing cfg pkt earlier with inPort := some 0, outPort := some 1 })
    (carries : content cfg.ns3 frame ≠ none)
    {r : Ports × List (Nat × Frame) × List PortLog} (run : n.receiveFromDevice luck i frame ports = some r) :
    Hopped cfg ports i frame (n.arrival i frame headers).outPort r := by
  have received : receive cfg (ports i) frame = some { port := q.1, log := q.2.2 } := by
    rw [receive, parsed, Option.bind_some, machines, Option.bind_some, if_neg (by rw [same]; simp)]
  have turned : ∀ out gray, placed (hop i out) gray q.2.1 = placed (Link.onward i out) gray (outgoing cfg pkt earlier) := by
    intro out gray
    rw [same]
    rfl
  rw [receiveFromDevice_eq parsed machines rfl, turned] at run
  generalize (n.arrival i frame headers).grayDrop = gray at *
  generalize (n.arrival i frame headers).outPort = out at *
  have target : (placed (Link.onward i out) gray (outgoing cfg pkt earlier)).outPort = out := rfl
  simp only [target] at run
  obtain ⟨e, passes, rfl⟩ := Option.map_eq_some_iff.1 run
  refine .intro received ?_ rfl (ingressMachines_log machines) (Or.inl rfl) fun none => absurd none carries
  cases out with
  | none =>
    cases passes
    exact .stays
  | some k =>
    simp only [reroute_placed] at passes
    exact egressAll_emit n luck passes

end

/-! ## The frames on the links -/

/-- The headers of a packet between two switches: a FANCY header of an earlier switch, with or without the count flag. -/
def taggedHeaders (pkt : HostPacket cfg) (earlier : Option (UInt32 × UInt16)) (count : Bool) : Headers cfg.ns3 :=
  { pkt.val.headers with
    fancy := earlier.map fun e => FancyHeader.setCountFlag count { id := e.1, seq := e.2, nextHeader := pkt.val.protocol } }

/-- The frame of a packet between two switches. -/
def carrying (pkt : HostPacket cfg) (earlier : Option (UInt32 × UInt16)) (count : Bool) : Frame :=
  { protocol := if earlier.isSome then FANCY else pkt.val.protocol
    bytes := doDeparser (taggedHeaders pkt earlier count) pkt.val.payload }

theorem taggedHeaders_none (pkt : HostPacket cfg) (count : Bool) : taggedHeaders pkt none count = pkt.val.headers := by
  simp only [taggedHeaders, Option.map_none, ← pkt.property.noFancy]

theorem carrying_none (pkt : HostPacket cfg) (count : Bool) : carrying pkt none count = pkt.val.frame := by
  rw [carrying, taggedHeaders_none]
  rfl

/-- The header that an earlier switch has left says what is behind it. -/
theorem earlier_tags (pkt : HostPacket cfg) (e : UInt32 × UInt16) (count : Bool) :
    (FancyHeader.setCountFlag count { id := e.1, seq := e.2, nextHeader := pkt.val.protocol }).Tags pkt.val :=
  FancyHeader.Tags.setCountFlag ⟨Or.inl rfl, rfl⟩ count

theorem carrying_some (pkt : HostPacket cfg) (e : UInt32 × UInt16) (count : Bool) :
    carrying pkt (some e) count =
      { protocol := FANCY
        bytes := (FancyHeader.setCountFlag count { id := e.1, seq := e.2, nextHeader := pkt.val.protocol }).serialize ++
          pkt.val.frame.bytes } := by
  simp only [carrying, taggedHeaders, Option.isSome_some, if_true, Option.map_some, Packet.frame, doDeparser,
    pkt.property.noFancy]
  rfl

/-- The packet as the next switch reads it. -/
def HostPacket.reread (pkt : HostPacket cfg) : HostPacket cfg := ⟨pkt.val.reread, pkt.property.reread⟩

theorem parse_carrying (pkt : HostPacket cfg) (earlier : Option (UInt32 × UInt16)) (count : Bool) :
    parse (carrying pkt earlier count) = some (taggedHeaders pkt.reread earlier count, pkt.val.payload) := by
  cases earlier with
  | none =>
    rw [carrying_none, taggedHeaders_none]
    exact parse_frame pkt.property
  | some e =>
    rw [carrying_some]
    exact parse_tagged pkt.property (earlier_tags pkt e count)

/-- A frame carries the packet in it, unless the header makes it a keep-alive. -/
theorem content_carrying (pkt : HostPacket cfg) (earlier : Option (UInt32 × UInt16)) (count : Bool) :
    content cfg.ns3 (carrying pkt earlier count) =
      if earlier.isSome ∧ pkt.val.protocol = 0 then none else some (pkt.val.frame.sansLength cfg.ns3) := by
  rw [content, parse_carrying, Option.bind_some]
  cases earlier with
  | none =>
    simp only [carrying_none, taggedHeaders_none, pkt.reread.property.noFancy, Option.isSome_none, Bool.false_eq_true,
      false_and, if_false]
  | some e =>
    have tagged : (taggedHeaders pkt.reread (some e) count).fancy =
        some (FancyHeader.setCountFlag count { id := e.1, seq := e.2, nextHeader := pkt.val.protocol }) := rfl
    have next : (FancyHeader.setCountFlag count { id := e.1, seq := e.2, nextHeader := pkt.val.protocol }).nextHeader =
        pkt.val.protocol := rfl
    have bare : ({ taggedHeaders pkt.reread (some e) count with fancy := none } : Headers cfg.ns3) = pkt.reread.val.headers :=
      taggedHeaders_none pkt.reread count
    have length : pkt.reread.val.headers.sansLength = pkt.val.headers.sansLength := Headers.sansLength_reread _ _
    simp only [tagged, next, bare, length, sansLength_frame pkt.property, Option.isSome_some, true_and]
    rfl

/-- A keep-alive ends at the port it comes in by, whatever is behind its header. -/
theorem ingressMachines_keepAlive {m : PktInfo cfg.ns3} (fancy : m.headers.fancy = some hdr)
    (idle : (hdr.setCountFlag false).getAction = KEEP_ALIVE) (next : hdr.nextHeader = 0)
    {q : FancyPortInfo × PktInfo cfg.ns3 × List PortLog} (machines : ingressMachines cfg p m = some q) :
    q.2.1.outPort = none := by
  have same : (hdr.setCountFlag false).nextHeader = hdr.nextHeader := rfl
  simp only [ingressMachines, fancy, idle, same, next, and_self, if_true] at machines
  cases machines
  rfl

/-- What the machines of the port leave of a packet that comes in by it. -/
theorem ingressMachines_carrying {pkt : HostPacket cfg} {earlier : Option (UInt32 × UInt16)} {count : Bool}
    {q : FancyPortInfo × PktInfo cfg.ns3 × List PortLog}
    (machines : ingressMachines cfg p (arrived cfg (carrying pkt earlier count) (taggedHeaders pkt earlier count)) = some q) :
    q.2.1.outPort = none ∨ q.2.1 = { outgoing cfg pkt earlier with inPort := some 0, outPort := some 1 } := by
  cases earlier with
  | none =>
    have none : (arrived cfg (carrying pkt none count) (taggedHeaders pkt none count)).headers.fancy = none := rfl
    simp only [ingressMachines, none] at machines
    cases machines
    exact Or.inr rfl
  | some e =>
    have fancy : (arrived cfg (carrying pkt (some e) count) (taggedHeaders pkt (some e) count)).headers.fancy =
        some (FancyHeader.setCountFlag count { id := e.1, seq := e.2, nextHeader := pkt.val.protocol }) := rfl
    have reset : FancyHeader.setCountFlag false (FancyHeader.setCountFlag count
        { id := e.1, seq := e.2, nextHeader := pkt.val.protocol }) =
        { id := e.1, seq := e.2, nextHeader := pkt.val.protocol } := by
      have bits : (0x80 : UInt8) &&& 0x7f = 0 := by decide
      cases count <;> simp [FancyHeader.setCountFlag, bits]
    have idle : FancyHeader.getAction { id := e.1, seq := e.2, nextHeader := pkt.val.protocol } = KEEP_ALIVE := by
      simp only [FancyHeader.getAction]
      decide
    have data : FancyHeader.getFSMFlag { id := e.1, seq := e.2, nextHeader := pkt.val.protocol } = false := by
      simp only [FancyHeader.getFSMFlag]
      decide
    simp only [ingressMachines, fancy, reset, idle, data, ne_eq, not_true_eq_false, Bool.false_eq_true, if_false] at machines
    split at machines
    · cases machines
      exact Or.inl rfl
    · split at machines
      · obtain ⟨p', -, machines⟩ := Option.bind_eq_some_iff.1 machines
        cases machines
        exact Or.inr rfl
      · cases machines
        exact Or.inr rfl

/-- **A packet comes to a switch.** -/
theorem receiveFromDevice_carrying {n : Node cfg} {luck : Luck} {i : Nat} {ports : Ports} {pkt : HostPacket cfg}
    {earlier : Option (UInt32 × UInt16)} {count : Bool} {r : Ports × List (Nat × Frame) × List PortLog}
    (run : n.receiveFromDevice luck i (carrying pkt earlier count) ports = some r) :
    Hopped cfg ports i (carrying pkt earlier count)
      (n.arrival i (carrying pkt earlier count) (taggedHeaders pkt.reread earlier count)).outPort r := by
  have parsed : parse (carrying pkt earlier count) = some (taggedHeaders pkt.reread earlier count, pkt.reread.val.payload) :=
    parse_carrying pkt earlier count
  cases machines : ingressMachines cfg (ports i) (arrived cfg (carrying pkt earlier count)
    (taggedHeaders pkt.reread earlier count))
    with
  | none =>
    rw [Node.receiveFromDevice, parsed, Option.bind_some, ingressCounterBox, arrival_eq, ingressMachines_placed,
      machines] at run
    cases run
  | some q =>
    rcases @ingressMachines_carrying _ _ pkt.reread earlier count q machines with gone | same
    · exact .nowhere parsed machines gone _ run
    · refine .onward parsed machines same ?_ run
      intro empty
      obtain ⟨tagged, next⟩ : earlier.isSome ∧ pkt.val.protocol = 0 := by
        simpa [content_carrying] using empty
      obtain ⟨e, rfl⟩ := Option.isSome_iff_exists.1 tagged
      have idle : FancyHeader.getAction (FancyHeader.setCountFlag false (FancyHeader.setCountFlag count
          { id := e.1, seq := e.2, nextHeader := pkt.val.protocol })) = KEEP_ALIVE := by
        cases count <;> simp only [FancyHeader.getAction, FancyHeader.setCountFlag] <;> decide
      have gone := ingressMachines_keepAlive rfl idle next machines
      rw [same] at gone
      cases gone

/-- The receiver's machine answers a control packet, or it ends there. -/
theorem receiverMachine_packet {m : PktInfo cfg.ns3} {r : FancyPortInfo × PktInfo cfg.ns3}
    (receiving : isReceiving (p.greyRecv.greyState id) = true) (run : receiverMachine cfg id hdr p m = some r) :
    (∃ ack : FancyHeader, ack.getAction ≠ 0 ∧ r.2 = m.bounce ack) ∨ ∃ ended, r.2 = m.discard ended := by
  have accepted : ∀ shift, acceptStart cfg id shift hdr p m = some r →
      ∃ ack : FancyHeader, ack.getAction ≠ 0 ∧ r.2 = m.bounce ack := by
    intro shift run
    have acts : ∀ size, FancyHeader.getAction ((((hdr.resetActionField.setAction GREY_START).setAckFlag true).setFSMFlag
        true).setDataSize size) ≠ 0 := by
      intro size
      have bits : ((((0 : UInt8) ||| (0x1f &&& GREY_START)) ||| 0x40) ||| 0x20) &&& 0x1f ≠ 0 := by decide
      exact bits
    simp only [acceptStart] at run
    split at run
    · split at run
      · cases run
      · obtain ⟨records, -, rfl⟩ := Option.map_eq_some_iff.1 run
        exact ⟨_, acts 0, rfl⟩
    · cases run
      exact ⟨_, acts hdr.dataSize, rfl⟩
  cases state : p.greyRecv.greyState id with
  | idle =>
    simp only [receiverMachine, state] at run
    split at run
    · exact Or.inl (accepted _ run)
    · cases run
      exact Or.inr ⟨_, rfl⟩
  | counting =>
    simp only [receiverMachine, state] at run
    split at run
    · exact Or.inl (accepted _ run)
    · split at run <;> cases run <;> exact Or.inr ⟨_, rfl⟩
  | waitCounterSend =>
    simp only [receiverMachine, state] at run
    cases run
    exact Or.inr ⟨_, rfl⟩
  | counterAck =>
    simp only [receiverMachine, state] at run
    split at run
    · cases run
      exact Or.inr ⟨_, rfl⟩
    · split at run
      · exact Or.inl (accepted _ run)
      · cases run
        exact Or.inr ⟨_, rfl⟩
  | startAck | waitCounterReceive =>
    rw [state] at receiving
    cases receiving

/-- **A control packet comes to a switch.** -/
theorem receiveFromDevice_control {n : Node cfg} {luck : Luck} {i sent : Nat} {ports : Ports} {frame : Frame} {action : UInt8}
    (settled : Settled cfg (ports i)) (control : Control cfg frame hdr id sent action) (unset : action &&& 0x7f = action)
    (acts : action &&& 0x1f ≠ 0) {r : Ports × List (Nat × Frame) × List PortLog}
    (run : n.receiveFromDevice luck i frame ports = some r) :
    Hopped cfg ports i frame (n.arrival i frame { fancy := some hdr }).outPort r := by
  have parsed := control.parsed
  have arrives := ingressMachines_arrived (p := ports i) control unset acts
  cases machines : ingressMachines cfg (ports i) (arrived cfg frame { fancy := some hdr }) with
  | none =>
    rw [Node.receiveFromDevice, parsed, Option.bind_some, ingressCounterBox, arrival_eq, ingressMachines_placed,
      machines] at run
    cases run
  | some q =>
    rw [machines] at arrives
    split at arrives
    · cases arrives
      refine .back parsed machines settled.towardsSwitch ⟨rfl, ?_, rfl, rfl, rfl⟩ rfl rfl _ run
      show hdr.getAction ≠ 0
      rw [FancyHeader.getAction, control.action]
      exact acts
    · obtain ⟨s, moved, rfl⟩ := Option.map_eq_some_iff.1 arrives.symm
      rcases receiverMachine_packet (settled.recvState id).1 moved with ⟨ack, answers, bounced⟩ | ⟨ended, discarded⟩
      · refine .back parsed machines settled.towardsSwitch ?_ ?_ ?_ _ run
        · rw [bounced]
          exact ⟨rfl, answers, rfl, rfl, rfl⟩
        · rw [bounced]
          rfl
        · rw [bounced]
          rfl
      · exact .ends parsed machines (by rw [discarded]; rfl) (by rw [discarded]; rfl) rfl run

/-- **A probe comes to a switch.** -/
theorem receiveFromDevice_probe {n : Node cfg} {luck : Luck} {i : Nat} {ports : Ports} {frame : Frame}
    (parsed : parse frame = some (({ fancy := some hdr } : Headers cfg.ns3), [])) (action : hdr.action = 0)
    (next : hdr.nextHeader = 0) {r : Ports × List (Nat × Frame) × List PortLog}
    (run : n.receiveFromDevice luck i frame ports = some r) (out : Option Nat) : Hopped cfg ports i frame out r := by
  have idle : (hdr.setCountFlag false).getAction = KEEP_ALIVE := by
    rw [getAction_setCountFlag, FancyHeader.getAction, action]
    decide
  cases machines : ingressMachines cfg (ports i) (arrived cfg frame { fancy := some hdr }) with
  | none =>
    rw [Node.receiveFromDevice, parsed, Option.bind_some, ingressCounterBox, arrival_eq, ingressMachines_placed,
      machines] at run
    cases run
  | some q =>
    exact .nowhere parsed machines (ingressMachines_keepAlive rfl idle next machines) _ run

/-! ## Packets that a switch makes itself -/

/-- The packet of a header that the switch makes. -/
def ownPacket (cfg : FancyConfig) (out : Nat) (hdr : FancyHeader) : PktInfo cfg.ns3 :=
  { outPort := some out, internalPacket := true, protocol := FANCY, headers := { fancy := some hdr } }

theorem sendInternal_eq (n : Node cfg) (luck : Luck) (i : Nat) (hdr : FancyHeader) (ports : Ports) :
    n.sendInternal luck i hdr ports = n.egress luck [] ports (ownPacket cfg i hdr) := by
  simp only [Node.sendInternal, Node.trafficManager, Bool.false_eq_true, if_false, Option.isNone_some, Node.egressAll_singleton]
  rfl

/-- A packet of the switch touches the port it leaves by and no other. -/
theorem sendInternal_local {n : Node cfg} {luck : Luck} {i : Nat} {ports : Ports}
    {r : Ports × List (Nat × Frame) × List PortLog} (run : n.sendInternal luck i hdr ports = some r) :
    ∃ port, ∃ frames : List Frame, r.1 = update ports i port ∧ r.2.1 = frames.map (Prod.mk i) := by
  rw [sendInternal_eq, Node.egress] at run
  split at run
  · cases run
    exact ⟨ports i, [], (update_eq_self i ports).symm, rfl⟩
  · obtain ⟨e, boxed, rfl⟩ := Option.map_eq_some_iff.1 run
    obtain ⟨c, counting, rfl⟩ := Option.map_eq_some_iff.1 boxed
    have exit : c.2.1.outPort = some i := egressCounting_outPort counting
    simp only [Node.egressTrafficManager, exit]
    split
    · exact ⟨_, [], rfl, rfl⟩
    · exact ⟨_, [_], rfl, rfl⟩

/-- Emulated congestion drops a packet of the switch. -/
theorem sendInternal_congested {n : Node cfg} {luck : Luck} {i : Nat} {ports : Ports}
    (congested : n.congested luck (ownPacket cfg i hdr) = true) : n.sendInternal luck i hdr ports = some (ports, [], []) := by
  rw [sendInternal_eq, Node.egress, if_pos congested]

/-- A control packet of the switch leaves as it is. -/
theorem sendInternal_control {n : Node cfg} {luck : Luck} {i : Nat} {ports : Ports} (switch : (ports i).switchPort = true)
    (calm : n.congested luck (ownPacket cfg i hdr) = false) :
    n.sendInternal luck i hdr ports = some (ports, [(i, controlFrame hdr)], []) := by
  have counting : egressCounting cfg (ports i) (ownPacket cfg i hdr) = some (ports i, ownPacket cfg i hdr, []) :=
    egressCounting_control switch rfl
  have box : egressCounterBox cfg ports (ownPacket cfg i hdr) = some (ports, ownPacket cfg i hdr, []) := by
    have source : (ownPacket cfg i hdr).inPort = none := rfl
    have target : (ownPacket cfg i hdr).outPort = some i := rfl
    simp only [egressCounterBox, egressFrom, source, target, Option.bind_some, counting, Option.map_some, update_eq_self,
      List.append_nil]
  rw [sendInternal_eq, Node.egress, calm, if_neg Bool.false_ne_true, box, Option.map_some]
  simp only [Node.egressTrafficManager, Node.failed, ownPacket, Bool.or_self, Bool.false_eq_true, if_false, controlFrame,
    doDeparser, addTransport_fancy, addHeader, List.append_nil]

theorem ownPacket_calm (n : Node cfg) (luck : Luck) (i : Nat) (acts : hdr.getAction ≠ 0) :
    n.congested luck (ownPacket cfg i hdr) = false :=
  IsControl.not_congested (m := ownPacket cfg i hdr) ⟨rfl, acts, rfl, rfl, rfl⟩ n luck

theorem sendGreyAction_acts {action : UInt8} (known : action = startAction cfg id ∨ action = GREY_STOP)
    {r : FancyPortInfo × FancyHeader} (run : sendGreyAction cfg action id p = some r) : r.2.getAction ≠ 0 := by
  have bits : ((0 : UInt8) ||| (0x1f &&& action)) &&& 0xdf &&& 0x1f ≠ 0 := by
    rcases known with rfl | rfl
    · rw [startAction]
      split <;> decide
    · decide
  simp only [sendGreyAction] at run
  split at run
  · split at run <;> cases run
    rw [FancyHeader.getAction, FancyHeader.addMaximums_eq]
    exact bits
  split at run
  · split at run <;> cases run <;> exact bits
  split at run <;> cases run <;> exact bits

theorem sendGreyCounter_acts {r : FancyPortInfo × FancyHeader × List PortLog} (run : sendGreyCounter cfg id p = some r) :
    r.2.1.getAction ≠ 0 := by
  simp only [sendGreyCounter] at run
  split at run
  · split at run <;> cases run
    have bits : ((((0 : UInt8) ||| (0x1f &&& GREY_COUNTER)) ||| (0x1f &&& (GREY_COUNTER ||| MULTIPLE_COUNTERS))) ||| 0x20) &&&
        0x1f ≠ 0 := by decide
    rw [FancyHeader.getAction, FancyHeader.addCounters_eq]
    exact bits
  · cases run
    have bits : (((0 : UInt8) ||| (0x1f &&& GREY_COUNTER)) ||| 0x20) &&& 0x1f ≠ 0 := by decide
    exact bits

/-- **A timer of a port fires.** -/
theorem fire_eq {n : Node cfg} {luck : Luck} {i place : Nat} {ports : Ports} (settled : Settled cfg (ports i)) :
    n.fire luck i place ports = (ports i).events.pending[place]?.bind fun e =>
      (runEvent cfg { ports i with events := { (ports i).events with pending := (ports i).events.pending.eraseIdx place } }
        e.2).map fun o => (update ports i o.port, o.sent.map (Prod.mk i), []) := by
  unfold Node.fire
  refine Option.bind_congr fun e at_ => ?_
  obtain ⟨u, ev⟩ := e
  cases ev with
  | sendGreyAction action id =>
    obtain ⟨-, -, next⟩ := settled.sends u action id (List.mem_of_getElem? at_)
    have known : action = startAction cfg id ∨ action = GREY_STOP := by
      rw [next]
      cases (ports i).greySend.greyState id <;> simp [nextAction]
    simp only [runEvent]
    rw [Option.map_map, Option.map_eq_bind]
    refine Option.bind_congr fun r ran => ?_
    refine sendInternal_control ?_ (ownPacket_calm n luck i (sendGreyAction_acts known ran))
    rw [update_self]
    exact (switchPort_sendGreyAction ran).trans settled.towardsSwitch
  | sendGreyCounter id =>
    simp only [runEvent]
    rw [Option.map_map, Option.map_eq_bind]
    refine Option.bind_congr fun r ran => ?_
    refine sendInternal_control ?_ (ownPacket_calm n luck i (sendGreyCounter_acts ran))
    rw [update_self]
    exact (switchPort_sendGreyCounter ran).trans settled.towardsSwitch

/-- On a port without machines a timer touches no other port either. -/
theorem fire_local {n : Node cfg} {luck : Luck} {i place : Nat} {ports : Ports}
    {r : Ports × List (Nat × Frame) × List PortLog} (run : n.fire luck i place ports = some r) :
    ∃ port, ∃ frames : List Frame, r.1 = update ports i port ∧ r.2.1 = frames.map (Prod.mk i) := by
  obtain ⟨⟨u, ev⟩, -, run⟩ := Option.bind_eq_some_iff.1 run
  have moved : ∀ {port : FancyPortInfo} {hdr : FancyHeader}, n.sendInternal luck i hdr (update ports i port) = some r →
      ∃ port, ∃ frames : List Frame, r.1 = update ports i port ∧ r.2.1 = frames.map (Prod.mk i) := by
    intro port hdr run
    obtain ⟨port', frames, same, sent⟩ := sendInternal_local run
    exact ⟨port', frames, by rw [same, update_idem], sent⟩
  cases ev with
  | sendGreyAction action id =>
    obtain ⟨s, -, run⟩ := Option.bind_eq_some_iff.1 run
    exact moved run
  | sendGreyCounter id =>
    obtain ⟨s, -, run⟩ := Option.bind_eq_some_iff.1 run
    exact moved run

/-! ## What is on its way between two switches -/

/-- The message is not a packet. -/
def Msg.isControl : Msg → Bool
  | .data _ _ _ _ => false
  | .start _ _ _ | .stop _ _ | .ack _ _ | .startAck _ _ | .report _ _ _ | .probe => true

/-- A frame that is no packet says so by its header. -/
theorem Reads.content_eq_none {frame : Frame} {msg : Msg} (reads : Reads cfg frame msg) (isControl : msg.isControl = true) :
    content cfg.ns3 frame = none := by
  have empty : ∀ {h : FancyHeader}, parse frame = some (({ fancy := some h } : Headers cfg.ns3), []) → h.nextHeader = 0 →
      content cfg.ns3 frame = none := by
    intro h parsed next
    simp only [content, parsed, Option.bind_some, next, if_true]
  cases reads with
  | start control => exact empty control.parsed control.next
  | stop control => exact empty control.parsed control.next
  | ack control => exact empty control.parsed control.next
  | startAck control => exact empty control.parsed control.next
  | report control => exact empty control.parsed control.next
  | data => cases isControl
  | probe parsed action next => exact empty parsed next

/-- A frame between two switches: a packet behind at most one FANCY header, or a message of the machines. -/
inductive Sound (cfg : FancyConfig) (frame : Frame) : Prop where
  | packet (pkt : HostPacket cfg) (earlier : Option (UInt32 × UInt16)) (count : Bool) (tag : Option (Nat × Nat)) :
      HasTag cfg (taggedHeaders pkt earlier count) tag → frame = carrying pkt earlier count → Sound cfg frame
  | control (msg : Msg) : msg.isControl = true → Reads cfg frame msg → Sound cfg frame

/-- The port by which forwarding sends a frame on. -/
def leavesBy (n : Node cfg) (inPort : Nat) (frame : Frame) : Option Nat :=
  (parse frame : Option (Headers cfg.ns3 × Bytes)).bind fun h => (n.arrival inPort frame h.1).outPort

theorem leavesBy_carrying (n : Node cfg) (i : Nat) (pkt : HostPacket cfg) (earlier : Option (UInt32 × UInt16)) (count : Bool) :
    leavesBy n i (carrying pkt earlier count) =
      (n.arrival i (carrying pkt earlier count) (taggedHeaders pkt.reread earlier count)).outPort := by
  rw [leavesBy, parse_carrying]
  rfl

/-- **A frame comes to a switch from another one.** -/
theorem receiveFromDevice_sound {n : Node cfg} {luck : Luck} {i : Nat} {ports : Ports} {frame : Frame}
    (settled : Settled cfg (ports i)) (sound : Sound cfg frame) {r : Ports × List (Nat × Frame) × List PortLog}
    (run : n.receiveFromDevice luck i frame ports = some r) : Hopped cfg ports i frame (leavesBy n i frame) r := by
  have leaves : ∀ {headers : Headers cfg.ns3} {payload : Bytes}, parse frame = some (headers, payload) →
      leavesBy n i frame = (n.arrival i frame headers).outPort := by
    intro headers payload parsed
    rw [leavesBy, parsed]
    rfl
  have machines : ∀ {hdr : FancyHeader} {id sent : Nat} {action : UInt8}, Control cfg frame hdr id sent action →
      action &&& 0x7f = action → action &&& 0x1f ≠ 0 → Hopped cfg ports i frame (leavesBy n i frame) r := by
    intro hdr id sent action control unset acts
    rw [leaves control.parsed]
    exact receiveFromDevice_control settled control unset acts run
  cases sound with
  | packet pkt earlier count tag hasTag same =>
    subst same
    rw [leavesBy_carrying]
    exact receiveFromDevice_carrying run
  | control msg isControl reads =>
    cases reads with
    | @start _ id _ _ control =>
      obtain ⟨unset, act, nonzero, -, -⟩ := startAction_bits cfg id
      exact machines control unset (by rw [act]; exact nonzero)
    | stop control => exact machines control (by decide) (by decide)
    | ack control => exact machines control (by decide) (by decide)
    | startAck control => exact machines control (by decide) (by decide)
    | @report _ id _ _ control =>
      obtain ⟨unset, acts, -⟩ := fsmReportAction_bits cfg id
      exact machines control unset acts
    | data => cases isControl
    | probe parsed action next =>
      rw [leaves parsed]
      exact receiveFromDevice_probe parsed action next run _

variable (cfg) in
/-- The machines of a port send messages only. -/
def IsMessage (frame : Frame) : Prop := ∃ msg : Msg, msg.isControl = true ∧ Reads cfg frame msg

theorem IsMessage.sound {frame : Frame} (message : IsMessage cfg frame) : Sound cfg frame := by
  obtain ⟨msg, control, reads⟩ := message
  exact .control msg control reads

theorem IsMessage.content_eq_none {frame : Frame} (message : IsMessage cfg frame) : content cfg.ns3 frame = none := by
  obtain ⟨msg, control, reads⟩ := message
  exact reads.content_eq_none control

theorem isMessage_of_reads {frames : List Frame} {msgs : List Msg} (reads : List.Forall₂ (Reads cfg) frames msgs)
    (control : ∀ msg ∈ msgs, msg.isControl = true) : ∀ f ∈ frames, IsMessage cfg f := by
  induction reads with
  | nil => simp
  | cons read _ ih =>
    obtain ⟨first, others⟩ := List.forall_mem_cons.1 control
    exact List.forall_mem_cons.2 ⟨⟨_, first, read⟩, ih others⟩

theorem isControl_ofBwd (id : Nat) (m : Session.Bwd Report) : (Msg.ofBwd id m).isControl = true := by
  cases m <;> rfl

theorem isControl_ofFwd (id : Nat) {m : Session.Fwd FiveTuple Request} (control : ∀ tag flow, m ≠ .data tag flow) :
    (Msg.ofFwd id m).isControl = true := by
  cases m with
  | data tag flow => exact absurd rfl (control tag flow)
  | start | stop | ack => rfl

/-- **A port that takes a frame** stays settled and answers with messages. -/
theorem Settled.receive_sound {frame : Frame} (settled : Settled cfg p) (sound : Sound cfg frame) {o : Outcome}
    (run : receive cfg p frame = some o) : Settled cfg o.port ∧ ∀ f ∈ o.sent, IsMessage cfg f := by
  have fwd : ∀ {id : Nat} {m : Session.Fwd FiveTuple Request}, HandledFwd cfg p id m o →
      Settled cfg o.port ∧ ∀ f ∈ o.sent, IsMessage cfg f := by
    intro id m handled
    refine ⟨handled.settled, ?_⟩
    rcases handled.answers with ⟨-, reads⟩ | ⟨-, none, -⟩
    · refine isMessage_of_reads reads fun msg mem => ?_
      obtain ⟨m, -, rfl⟩ := List.mem_map.1 mem
      exact isControl_ofBwd id m
    · intro f mem
      rw [none] at mem
      cases mem
  have bwd : ∀ {id : Nat} {m : Session.Bwd Report}, HandledBwd cfg p id m o →
      Settled cfg o.port ∧ ∀ f ∈ o.sent, IsMessage cfg f := by
    intro id m handled
    cases handled with
    | taken _ settled _ _ none =>
      refine ⟨settled, fun f mem => ?_⟩
      rw [none] at mem
      cases mem
    | handled _ settled _ _ reads =>
      refine ⟨settled, isMessage_of_reads reads fun msg mem => ?_⟩
      obtain ⟨m, answer, rfl⟩ := List.mem_map.1 mem
      exact isControl_ofFwd id (handle_control _ _ _ _ m answer)
  have packet : ∀ {msg : Msg}, HandledPacket cfg p msg o → Settled cfg o.port ∧ ∀ f ∈ o.sent, IsMessage cfg f := by
    intro msg handled
    refine ⟨handled.settled, fun f mem => ?_⟩
    rw [handled.sent] at mem
    cases mem
  cases sound with
  | packet pkt earlier count tag hasTag same =>
    subst same
    exact packet (settled.receive_data none (parse_carrying pkt earlier count) hasTag run)
  | control msg isControl reads =>
    cases reads with
    | start control payload => exact fwd (settled.receive_start control payload run)
    | stop control => exact fwd (settled.receive_stop control run)
    | ack control => exact fwd (settled.receive_ack control run)
    | startAck control => exact bwd (settled.receive_startAck control run)
    | report control counter payload => exact bwd (settled.receive_report control counter payload run)
    | data => cases isControl
    | probe parsed action next => exact packet (settled.receive_probe parsed action next run)

/-- **A port whose timer fires** stays settled and sends messages. -/
theorem Settled.fire_sound (settled : Settled cfg p) {i : Nat} {e : Nat × Event} {o : Outcome}
    (at_ : p.events.pending[i]? = some e)
    (run : runEvent cfg { p with events := { p.events with pending := p.events.pending.eraseIdx i } } e.2 = some o) :
    Settled cfg o.port ∧ ∀ f ∈ o.sent, IsMessage cfg f := by
  obtain ⟨u, ev⟩ := e
  cases ev with
  | sendGreyAction action id =>
    obtain ⟨settled', -, -, -, reads⟩ := settled.runEvent_send at_ run
    refine ⟨settled', isMessage_of_reads reads fun msg mem => ?_⟩
    rw [List.mem_singleton.1 mem]
    exact isControl_ofFwd id fun tag flow => fire_control _ _ _ tag flow
  | sendGreyCounter id =>
    obtain ⟨f, -, settled', -, -, -, reads⟩ := settled.runEvent_recv at_ run
    refine ⟨settled', isMessage_of_reads reads fun msg mem => ?_⟩
    rw [List.mem_singleton.1 mem]
    exact isControl_ofBwd id f.2

/-- A packet that leaves untagged. -/
theorem untagged_sound (pkt : HostPacket cfg) (earlier : Option (UInt32 × UInt16)) {m : PktInfo cfg.ns3}
    (headers : m.headers = (outgoing cfg pkt earlier).headers) (protocol : m.protocol = (outgoing cfg pkt earlier).protocol) :
    Sound cfg { protocol := m.protocol, bytes := doDeparser m.headers pkt.val.payload } := by
  have reset : ∀ e : UInt32 × UInt16, FancyHeader.setCountFlag false { id := e.1, seq := e.2, nextHeader := pkt.val.protocol } =
      { id := e.1, seq := e.2, nextHeader := pkt.val.protocol } := by
    intro e
    simp [FancyHeader.setCountFlag]
  have same : taggedHeaders pkt earlier false = (outgoing cfg pkt earlier).headers := by
    simp only [taggedHeaders, outgoing, reset]
  refine .packet pkt earlier false none ?_ ?_
  · cases earlier with
    | none => exact rfl
    | some e =>
      have action := congrArg FancyHeader.action (reset e)
      exact Or.inl ⟨action, rfl⟩
  · rw [carrying, same, headers, protocol]
    rfl

/-- A packet that leaves with the tag of a machine. -/
theorem tagged_sound (pkt : HostPacket cfg) (earlier : Option (UInt32 × UInt16)) {id : Nat} (small : id ≤ cfg.treeId)
    (seq : UInt16) {m : PktInfo cfg.ns3} (ip : m.headers.ipv4.isSome) (headers : m.headers = (outgoing cfg pkt earlier).headers)
    (protocol : m.protocol = (outgoing cfg pkt earlier).protocol) :
    Sound cfg { protocol := (tagPacket cfg id seq m).protocol
                bytes := doDeparser (tagPacket cfg id seq m).headers pkt.val.payload } := by
  have ip' : pkt.val.headers.ipv4.isSome := by
    rw [headers] at ip
    exact ip
  have next : pkt.val.protocol ≠ 0 := by
    rw [pkt.property.ipv4.1 ip']
    decide
  have hid : (UInt32.ofNat id).toNat = id := toNat_ofNat_id (Nat.le_succ_of_le small)
  have tagged : (tagPacket cfg id seq m).protocol = FANCY ∧
      (tagPacket cfg id seq m).headers = taggedHeaders pkt (some (.ofNat id, seq)) true := by
    cases earlier with
    | none =>
      have none : m.headers.fancy = none := by rw [headers]; rfl
      have protocol' : m.protocol = pkt.val.protocol := protocol
      simp only [tagPacket, none]
      exact ⟨trivial, by rw [headers, protocol']; rfl⟩
    | some e =>
      have fancy : m.headers.fancy = some { id := e.1, seq := e.2, nextHeader := pkt.val.protocol } := by rw [headers]; rfl
      have idle : FancyHeader.getAction ((FancyHeader.setCountFlag true
        { id := e.1, seq := e.2, nextHeader := pkt.val.protocol })
          |>.setId (.ofNat id)) = KEEP_ALIVE := by
        simp only [FancyHeader.getAction, FancyHeader.setCountFlag, FancyHeader.setId]
        decide
      simp only [tagPacket, fancy, idle, if_true]
      exact ⟨protocol, by rw [headers]; rfl⟩
  obtain ⟨ethertype, tag⟩ := tagged
  refine .packet pkt (some (.ofNat id, seq)) true (some (id, seq.toNat)) ?_ ?_
  · refine Or.inr ⟨?_, next, ip', ?_, ?_⟩
    · simp only [FancyHeader.setCountFlag]
      decide
    · exact hid.symm ▸ small
    · rw [← hid]
      simp [FancyHeader.setCountFlag]
  · rw [ethertype, tag]
    rfl

/-- **A packet that leaves by a port towards a switch** leaves the port settled, and in a sound frame. -/
theorem Settled.emit_sound (settled : Settled cfg p) {pkt : HostPacket cfg} {earlier : Option (UInt32 × UInt16)} {o : Outcome}
    (run : Link.emit cfg p pkt earlier = some o) : Settled cfg o.port ∧ ∀ f ∈ o.sent, Sound cfg f := by
  constructor
  · cases settled.emit run with
    | taken settled' => exact settled'
    | left settled' => exact settled'
  · obtain ⟨hid, -⟩ := reroute_outgoing (p := p) pkt earlier
    obtain ⟨headers, protocol, -⟩ := reroute_snd p (outgoing cfg pkt earlier)
    have kind := (switchPort_reroute p (outgoing cfg pkt earlier)).trans settled.towardsSwitch
    rw [emit_eq] at run
    generalize reroute cfg p (outgoing cfg pkt earlier) = r at *
    split at run
    · cases run
      simp
    · obtain ⟨e, counting, rfl⟩ := Option.map_eq_some_iff.1 run
      intro f mem
      rw [List.mem_singleton.1 mem]
      rcases egressCounting_some kind counting with ⟨rfl, -⟩ | ⟨g, -, -, ip, rfl⟩
      · exact untagged_sound pkt earlier headers protocol
      · have small : r.2.id ≤ cfg.treeId := by
          rw [hid]
          exact machineOf_le _
        exact tagged_sound pkt earlier small _ ip headers protocol

/-- What a port logs of a packet that leaves is that it is counted; it logs nothing of one that does not leave. -/
theorem emit_log {pkt : HostPacket cfg} {earlier : Option (UInt32 × UInt16)} {o : Outcome}
    (run : emit cfg p pkt earlier = some o) : (∀ l ∈ o.log, atEgress l = true) ∧ (o.log = [] ∨ o.sent ≠ []) := by
  rw [emit_eq] at run
  generalize reroute cfg p (outgoing cfg pkt earlier) = r at *
  split at run
  · cases run
    exact ⟨by simp, Or.inl rfl⟩
  · obtain ⟨e, counting, rfl⟩ := Option.map_eq_some_iff.1 run
    refine ⟨?_, Or.inr (List.cons_ne_nil _ _)⟩
    have wild : ∀ l ∈ (wildcardEgress cfg r.1 r.2).2, atEgress l = true := by
      simp only [wildcardEgress]
      split <;> simp [atEgress]
    simp only [egressCounting] at counting
    split at counting
    · obtain ⟨next, -, rfl⟩ := Option.map_eq_some_iff.1 counting
      intro l mem
      rcases List.mem_append.1 mem with here | there
      · exact wild l here
      · rw [List.mem_singleton.1 there]
        rfl
    split at counting
    · split at counting <;> cases counting <;> exact wild
    · cases counting
      exact wild

end

end Ns3Fancy.Link

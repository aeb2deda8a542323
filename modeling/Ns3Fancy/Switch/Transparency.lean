import Ns3Fancy.Switch.Standard

/-!
# The pipeline is transparent

A switch may put a FANCY header in front of a packet, retag the one an earlier switch put there,
pass it along or take it off. Between switches the packet is therefore either as its host sent it
or behind one such header, which keeps its ethertype; at the port of a host the header is gone.
-/

namespace Ns3Fancy.Switch
open Buffer Function
set_option autoImplicit false

section
variable {N : Ns3} {p : Packet N}

/-- The headers of data packets: no action, no flag but the count flag, and the packet's ethertype. -/
structure FancyHeader.Tags (hdr : FancyHeader) (p : Packet N) : Prop where
  action : hdr.action = 0 ∨ hdr.action = 0x80
  next : hdr.nextHeader = p.protocol

/-- A packet on the wire between two switches. -/
inductive Carries (p : Packet N) : Frame → Prop where
  | plain : Carries p p.frame
  | tagged {hdr : FancyHeader} : hdr.Tags p → Carries p { protocol := FANCY, bytes := hdr.serialize ++ p.frame.bytes }

/-- A packet inside a switch. -/
inductive Holds (p : Packet N) (m : PktInfo N) : Prop where
  | plain : m.headers = p.headers → m.protocol = p.protocol → Holds p m
  | tagged (hdr : FancyHeader) : m.headers = { p.headers with fancy := some hdr } → m.protocol = FANCY → hdr.Tags p →
      Holds p m

namespace FancyHeader.Tags
variable {hdr : FancyHeader}

/-- A tag is the header of a counted packet: no action, no flag of the machines and no payload. -/
theorem getAction (h : hdr.Tags p) : hdr.getAction = KEEP_ALIVE := by
  rcases h.action with action | action <;> simp only [FancyHeader.getAction, action] <;> decide

theorem getFSMFlag (h : hdr.Tags p) : hdr.getFSMFlag = false := by
  rcases h.action with action | action <;> simp only [FancyHeader.getFSMFlag, action] <;> decide

theorem hasCounters (h : hdr.Tags p) : hdr.hasCounters = false := by
  rcases h.action with action | action <;> simp only [FancyHeader.hasCounters, action] <;> decide

theorem hasMaximums (h : hdr.Tags p) : hdr.hasMaximums = false := by
  rcases h.action with action | action <;> simp only [FancyHeader.hasMaximums, action] <;> decide

theorem reread (h : hdr.Tags p) : hdr.Tags p.reread := ⟨h.action, h.next⟩

theorem bare (h : hdr.Tags p) : hdr.bare.Tags p := ⟨h.action, h.next⟩

/-- What a hop writes to a tag, the count flag, the id and the number, leaves it a tag. -/
theorem setCountFlag (h : hdr.Tags p) (flag : Bool) : (hdr.setCountFlag flag).Tags p := by
  refine ⟨?_, h.next⟩
  rcases h.action with action | action <;> cases flag <;> simp only [FancyHeader.setCountFlag, action] <;> decide

theorem setId (h : hdr.Tags p) (id : UInt32) : (hdr.setId id).Tags p := ⟨h.action, h.next⟩

theorem setSeq (h : hdr.Tags p) (seq : UInt16) : (hdr.setSeq seq).Tags p := ⟨h.action, h.next⟩

end FancyHeader.Tags

/-! ## Parser and deparser -/

/-- The parser takes a tag off and finds the packet behind it. -/
theorem parse_tagged (h : p.WellFormed) {hdr : FancyHeader} (tags : hdr.Tags p) :
    parse { protocol := FANCY, bytes := hdr.serialize ++ p.frame.bytes } =
      some ({ p.reread.headers with fancy := some hdr.bare }, p.payload) := by
  have long : (hdr.serialize ++ p.frame.bytes).length = (hdr.serialize ++ p.frame.bytes).length - 1 + 1 := by
    have : 0 < hdr.serialize.length := by simp [FancyHeader.serialize]
    simp only [List.length_append]
    omega
  rw [parse, long, doParser, if_pos rfl, FancyHeader.deserialize_plain tags.hasCounters tags.hasMaximums,
    Option.bind_some, show hdr.bare.nextHeader = p.protocol from tags.next, Packet.frame, doParser_doDeparser h]

/-- The metadata of a frame that carries a packet. -/
theorem Carries.parse (h : p.WellFormed) {frame : Frame} (carries : Carries p frame) :
    ∃ headers, parse frame = some (headers, p.payload) ∧
      ∀ m : PktInfo N, m.headers = headers → m.protocol = frame.protocol → Holds p.reread m := by
  cases carries with
  | plain => exact ⟨p.reread.headers, parse_frame h, fun m headers protocol => .plain headers protocol⟩
  | tagged tags => exact ⟨_, parse_tagged h tags, fun m headers protocol => .tagged _ headers protocol tags.bare.reread⟩

/-- The deparser writes what the packet holds. -/
theorem Holds.deparse (h : p.WellFormed) {m : PktInfo N} (holds : Holds p m) :
    Carries p { protocol := m.protocol, bytes := doDeparser m.headers p.payload } := by
  cases holds with
  | plain headers protocol =>
    rw [headers, protocol]
    exact .plain
  | tagged hdr headers protocol tags =>
    have bytes : doDeparser m.headers p.payload = hdr.serialize ++ p.frame.bytes := by
      rw [headers, Packet.frame]
      simp only [doDeparser, h.noFancy]
      rfl
    rw [protocol, bytes]
    exact .tagged tags

/-- The other fields of the packet information do not matter. -/
theorem Holds.of_eq {m m' : PktInfo N} (holds : Holds p m) (headers : m'.headers = m.headers)
    (protocol : m'.protocol = m.protocol) : Holds p m' := by
  cases holds with
  | plain headers' protocol' => exact .plain (headers.trans headers') (protocol.trans protocol')
  | tagged hdr headers' protocol' tags => exact .tagged hdr (headers.trans headers') (protocol.trans protocol') tags

end

/-! ## The stages of a switch -/

section
variable {cfg : FancyConfig} {p : Packet cfg.ns3} {m : PktInfo cfg.ns3}

/-- Counting keeps the kind of the port. -/
theorem switchPort_ingressCount {hdr : FancyHeader} {flow : FiveTuple} {port q : FancyPortInfo}
    (h : ingressCount cfg hdr flow port = some q) : q.switchPort = port.switchPort := by
  simp only [ingressCount] at h
  split at h
  · obtain ⟨recv, -, rfl⟩ := Option.map_eq_some_iff.1 h
    rfl
  · cases h
    rfl

/-- The ingress machines leave alone what a packet holds. -/
theorem Holds.ingressMachines (noFancy : p.headers.fancy = none) (holds : Holds p m) {port : FancyPortInfo}
    {r : FancyPortInfo × PktInfo cfg.ns3 × List PortLog} (h : ingressMachines cfg port m = some r) :
    Holds p r.2.1 ∧ r.2.1.broadcastFlag = m.broadcastFlag ∧ r.1.switchPort = port.switchPort := by
  have flag : (wildcardIngress cfg port m).switchPort = port.switchPort := by
    simp only [wildcardIngress, apply_ite FancyPortInfo.switchPort, ite_self]
  cases holds with
  | plain headers protocol =>
    have none : m.headers.fancy = none := by rw [headers, noFancy]
    simp only [Switch.ingressMachines, none] at h
    cases h
    exact ⟨.plain headers protocol, rfl, flag⟩
  | tagged hdr headers protocol tags =>
    have tags' := tags.setCountFlag false
    have holds' : ∀ m' : PktInfo cfg.ns3, m'.headers = { m.headers with fancy := some (hdr.setCountFlag false) } →
        m'.protocol = m.protocol → Holds p m' := fun m' headers' protocol' =>
      .tagged _ (by rw [headers', headers]) (protocol'.trans protocol) tags'
    have fancy : m.headers.fancy = some hdr := by rw [headers]
    simp only [Switch.ingressMachines, fancy, tags'.getFSMFlag, tags'.getAction, ne_eq, not_true_eq_false,
      Bool.false_eq_true, if_false] at h
    split at h
    · cases h
      exact ⟨holds' _ rfl rfl, rfl, flag⟩
    · split at h
      · obtain ⟨q, counted, h⟩ := Option.bind_eq_some_iff.1 h
        cases h
        exact ⟨holds' _ rfl rfl, rfl, (switchPort_ingressCount counted).trans flag⟩
      · cases h
        exact ⟨holds' _ rfl rfl, rfl, flag⟩

/-- The reroute block may mark a packet, and leaves its headers alone. -/
theorem reroute_snd (port : FancyPortInfo) (m : PktInfo cfg.ns3) :
    (reroute cfg port m).2.headers = m.headers ∧ (reroute cfg port m).2.protocol = m.protocol ∧
      (reroute cfg port m).2.broadcastFlag = m.broadcastFlag := by
  refine ⟨?_, ?_, ?_⟩ <;> simp only [reroute, apply_ite Prod.snd]
  · simp only [apply_ite PktInfo.headers, ite_self]
  · simp only [apply_ite PktInfo.protocol, ite_self]
  · simp only [apply_ite PktInfo.broadcastFlag, ite_self]

/-- The egress machines answer packets of the exchange only. -/
theorem Holds.egressMachines (noFancy : p.headers.fancy = none) (holds : Holds p m) (port : FancyPortInfo) :
    egressMachines cfg port m = some (port, m, []) := by
  cases holds with
  | plain headers protocol =>
    have none : m.headers.fancy = none := by rw [headers, noFancy]
    simp [Switch.egressMachines, none]
  | tagged hdr headers protocol tags =>
    have fancy : m.headers.fancy = some hdr := by rw [headers]
    simp [Switch.egressMachines, fancy, tags.getFSMFlag]

/-- Tagging keeps the packet, with its ethertype. -/
theorem Holds.tagPacket (noFancy : p.headers.fancy = none) (holds : Holds p m) (id : Nat) (seq : UInt16) :
    Holds p (tagPacket cfg id seq m) := by
  cases holds with
  | plain headers protocol =>
    have none : m.headers.fancy = none := by rw [headers, noFancy]
    simp only [Switch.tagPacket, none]
    exact .tagged _ (by rw [headers]) rfl ⟨Or.inr rfl, protocol⟩
  | tagged hdr headers protocol tags =>
    have fancy : m.headers.fancy = some hdr := by rw [headers]
    have tags' := (tags.setCountFlag true).setId (.ofNat id)
    simp only [Switch.tagPacket, fancy, tags'.getAction, if_true]
    exact .tagged _ (by rw [headers]) protocol (tags'.setSeq seq)

/-- The counting half of the egress box: towards a switch the packet stays as it is or behind a header, towards a
host it comes out as it was. -/
theorem Holds.egressCounting (noFancy : p.headers.fancy = none) (holds : Holds p m) {port : FancyPortInfo}
    {r : FancyPortInfo × PktInfo cfg.ns3 × List PortLog} (h : egressCounting cfg port m = some r) :
    r.2.1.outPort = m.outPort ∧ Holds p r.2.1 ∧
      (port.switchPort = false → r.2.1.headers = p.headers ∧ r.2.1.protocol = p.protocol) := by
  have tagged : ∀ id seq, (Switch.tagPacket cfg id seq m).outPort = m.outPort := by
    intro id seq
    simp only [Switch.tagPacket]
    split <;> rfl
  have flag : (wildcardEgress cfg port m).1.switchPort = port.switchPort := by
    simp only [wildcardEgress]
    split <;> rfl
  simp only [Switch.egressCounting, flag] at h
  split at h
  · rename_i counting
    obtain ⟨next, -, rfl⟩ := Option.map_eq_some_iff.1 h
    exact ⟨tagged _ _, holds.tagPacket noFancy _ _, fun host => by simp [host] at counting⟩
  · cases holds with
    | plain headers protocol =>
      have none : m.headers.fancy = none := by rw [headers, noFancy]
      simp only [none] at h
      cases h
      exact ⟨rfl, .plain headers protocol, fun _ => ⟨headers, protocol⟩⟩
    | tagged hdr headers protocol tags =>
      have fancy : m.headers.fancy = some hdr := by rw [headers]
      simp only [fancy] at h
      split at h
      · cases h
        have stripped : ({ m.headers with fancy := none } : Headers cfg.ns3) = p.headers := by
          rw [headers, ← noFancy]
        exact ⟨rfl, .plain stripped tags.next, fun _ => ⟨stripped, tags.next⟩⟩
      · rename_i switch
        cases h
        exact ⟨rfl, .tagged hdr headers protocol tags, fun host => by simp [host] at switch⟩

theorem switchPort_reroute (port : FancyPortInfo) (m : PktInfo cfg.ns3) :
    (reroute cfg port m).1.switchPort = port.switchPort := by
  have marked : ∀ id flow strFlow, (markRerouted cfg id flow strFlow port).switchPort = port.switchPort := by
    intro id flow strFlow
    simp only [markRerouted]
    split <;> split <;> rfl
  simp only [reroute, apply_ite Prod.fst, apply_ite FancyPortInfo.switchPort, marked, ite_self]

/-! ## One hop -/

/-- A port that keeps its kind is put back among the others. -/
theorem switchPort_update {ports : Ports} {i : Nat} {port : FancyPortInfo}
    (same : port.switchPort = (ports i).switchPort) (j : Nat) :
    (update ports i port j).switchPort = (ports j).switchPort := by
  by_cases here : j = i
  · subst here; rw [update_self, same]
  · rw [update_of_ne here]

/-- A packet keeps what it holds through the ingress box, -/
theorem Holds.ingressCounterBox (noFancy : p.headers.fancy = none) (holds : Holds p m) {inPort : Nat} {ports : Ports}
    {r : Ports × PktInfo cfg.ns3 × List PortLog} (h : ingressCounterBox cfg ports inPort m = some r) :
    Holds p r.2.1 ∧ r.2.1.broadcastFlag = m.broadcastFlag ∧ ∀ i, (r.1 i).switchPort = (ports i).switchPort := by
  obtain ⟨q, machine, rfl⟩ := Option.map_eq_some_iff.1 h
  obtain ⟨holds', broadcast, flag⟩ := holds.ingressMachines noFancy machine
  have flags : ∀ i, (update ports inPort q.1 i).switchPort = (ports i).switchPort := switchPort_update flag
  cases out : q.2.1.outPort with
  | none =>
    simp only
    exact ⟨holds', broadcast, flags⟩
  | some o =>
    obtain ⟨headers, protocol, broadcast'⟩ := reroute_snd (update ports inPort q.1 o) q.2.1
    simp only
    refine ⟨holds'.of_eq headers protocol, broadcast'.trans broadcast, fun i => ?_⟩
    rw [switchPort_update (switchPort_reroute ..), flags]

/-- and through the egress box, which may tag it. -/
theorem Holds.egressCounterBox (noFancy : p.headers.fancy = none) (holds : Holds p m) {ports : Ports}
    {r : Ports × PktInfo cfg.ns3 × List PortLog} (h : egressCounterBox cfg ports m = some r) :
    ∃ out, r.2.1.outPort = some out ∧ Holds p r.2.1 ∧
      ((ports out).switchPort = false → r.2.1.headers = p.headers ∧ r.2.1.protocol = p.protocol) := by
  have machines : ∃ ports', egressFrom cfg ports m = some (ports', m, []) ∧
      ∀ i, (ports' i).switchPort = (ports i).switchPort := by
    simp only [egressFrom]
    split
    · exact ⟨ports, rfl, fun _ => rfl⟩
    · rename_i i _
      rw [holds.egressMachines noFancy]
      exact ⟨_, rfl, switchPort_update rfl⟩
  obtain ⟨ports', machine, flags⟩ := machines
  rw [Switch.egressCounterBox, machine, Option.bind_some] at h
  obtain ⟨out, hout, h⟩ := Option.bind_eq_some_iff.1 h
  obtain ⟨q, counted, rfl⟩ := Option.map_eq_some_iff.1 h
  obtain ⟨same, holds', host⟩ := holds.egressCounting noFancy counted
  rw [flags] at host
  exact ⟨out, same.trans hout, holds', host⟩

/-- What leaves the switch of one copy of a packet. -/
theorem Holds.egress (wf : p.WellFormed) (holds : Holds p m) {n : Node cfg} {luck : Luck} {ports : Ports}
    {r : Ports × List (Nat × Frame) × List PortLog} (h : n.egress luck p.payload ports m = some r) {out : Nat}
    {frame : Frame} (mem : (out, frame) ∈ r.2.1) :
    Carries p frame ∧ ((ports out).switchPort = false → frame = p.frame) := by
  simp only [Node.egress] at h
  split at h
  · cases h
    simp at mem
  · obtain ⟨t, box, rfl⟩ := Option.map_eq_some_iff.1 h
    obtain ⟨o, leaves, held, host⟩ := holds.egressCounterBox wf.noFancy box
    simp only [Node.egressTrafficManager, leaves] at mem
    split at mem
    · simp at mem
    · simp only [List.mem_singleton, Prod.mk.injEq] at mem
      obtain ⟨rfl, rfl⟩ := mem
      refine ⟨held.deparse wf, fun toHost => ?_⟩
      obtain ⟨headers, protocol⟩ := host toHost
      rw [headers, protocol, Packet.frame]

theorem Node.egressAll_singleton (n : Node cfg) (luck : Luck) (payload : Bytes) (m : PktInfo cfg.ns3) (ports : Ports) :
    n.egressAll luck payload [m] ports = n.egress luck payload ports m := by
  simp [Node.egressAll]

/-- Forwarding chooses a port and reads nothing but the flow. -/
theorem arrival_data (n : Node cfg) (inPort : Nat) (frame : Frame) (headers : Headers cfg.ns3) :
    (n.arrival inPort frame headers).headers = headers ∧ (n.arrival inPort frame headers).protocol = frame.protocol ∧
      (n.arrival inPort frame headers).broadcastFlag = false := by
  simp only [Node.arrival, Node.forward]
  split
  · exact ⟨rfl, rfl, rfl⟩
  · split <;> exact ⟨rfl, rfl, rfl⟩
  · exact ⟨rfl, rfl, rfl⟩

/-- **One hop.** What a switch sends on of a packet still carries it, as the switch has read it, and at the port of a host it
is in the frame of a host. -/
theorem Carries.hop (wf : p.WellFormed) {n : Node cfg} {luck : Luck} {inPort : Nat} {frame : Frame}
    (carries : Carries p frame) {ports ports' : Ports} {sent : List (Nat × Frame)} {log : List PortLog}
    (received : n.receiveFromDevice luck inPort frame ports = some (ports', sent, log)) {out : Nat} {frame' : Frame}
    (mem : (out, frame') ∈ sent) : Carries p.reread frame' ∧ ((ports out).switchPort = false → frame' = p.reread.frame) := by
  obtain ⟨headers, parsed, holds⟩ := carries.parse wf
  have wf := wf.reread
  simp only [Node.receiveFromDevice, parsed, Option.bind_some] at received
  obtain ⟨r, box, received⟩ := Option.bind_eq_some_iff.1 received
  obtain ⟨q, left, received⟩ := Option.map_eq_some_iff.1 received
  obtain ⟨rfl, rfl, rfl⟩ := Prod.mk.inj received |>.imp id Prod.mk.inj
  obtain ⟨arrived, protocol, single⟩ := arrival_data n inPort frame headers
  obtain ⟨holds', broadcast, flags⟩ := (holds _ arrived protocol).ingressCounterBox wf.noFancy box
  rw [← flags]
  -- the traffic manager lets at most one copy through
  simp only [Node.trafficManager, broadcast, single, Bool.false_eq_true, if_false] at left
  split at left
  · cases left
    simp at mem
  · split at left
    · cases left
      simp at mem
    · rw [Node.egressAll_singleton] at left
      refine Holds.egress wf ?_ left mem
      exact holds'.of_eq rfl rfl

end

/-! ## Chains -/

/-- A frame that goes through a chain of switches comes out at a host: at every switch it is received in some state
of the ports and leaves by a port towards the next one. -/
inductive Chain (N : Ns3) : Frame → Frame → Prop where
  | last {cfg : FancyConfig} {n : Node cfg} {luck : Luck} {inPort out : Nat} {ports ports' : Ports}
      {sent : List (Nat × Frame)} {log : List PortLog} {frame frame' : Frame} :
      cfg.ns3 = N → n.receiveFromDevice luck inPort frame ports = some (ports', sent, log) →
      (out, frame') ∈ sent → (ports out).switchPort = false → Chain N frame frame'
  | hop {cfg : FancyConfig} {n : Node cfg} {luck : Luck} {inPort out : Nat} {ports ports' : Ports}
      {sent : List (Nat × Frame)} {log : List PortLog} {frame frame' frame'' : Frame} :
      cfg.ns3 = N → n.receiveFromDevice luck inPort frame ports = some (ports', sent, log) →
      (out, frame') ∈ sent → (ports out).switchPort = true → Chain N frame' frame'' → Chain N frame frame''

/-- By induction on the switches of the chain. -/
theorem Carries.chain {N : Ns3} {p : Packet N} (wf : p.WellFormed) {frame frame' : Frame} (h : Chain N frame frame')
    (carries : Carries p frame) : frame'.protocol = p.protocol ∧ frame'.sansLength N = p.frame.sansLength N ∧
      (p.reread = p → frame' = p.frame) := by
  induction h generalizing p with
  | last env received mem host =>
    subst env
    obtain rfl := (carries.hop wf received mem).2 host
    exact ⟨rfl, sansLength_frame_reread wf, fun same => by rw [same]⟩
  | hop env received mem _ _ ih =>
    subst env
    obtain ⟨protocol, same, whole⟩ := ih wf.reread (carries.hop wf received mem).1
    refine ⟨protocol, same.trans (sansLength_frame_reread wf), fun undone => ?_⟩
    rw [undone] at whole
    exact whole undone

/-- **Transparency.** Whatever the states of the machines at every switch of a chain, a packet that reaches the host
at its end is in the frame in which it was sent, but for the length of a UDP header. If taking off its UDP header undoes putting
it in front, the frame is the same: same ethertype, and bytes that parse to the same headers and the same payload. -/
theorem chain_transparent {N : Ns3} (p : Packet N) (wf : p.WellFormed) (frame : Frame) (h : Chain N p.frame frame) :
    frame.protocol = p.protocol ∧ frame.sansLength N = p.frame.sansLength N ∧
      ((∀ udp, p.headers.udp = some udp → N.udp.reread udp p.payload = udp) →
        frame = p.frame ∧ parse frame = some (p.headers, p.payload)) := by
  obtain ⟨protocol, same, whole⟩ := Carries.plain.chain wf h
  refine ⟨protocol, same, fun undone => ?_⟩
  have reread := reread_of_undone undone
  obtain rfl := whole reread
  rw [parse_frame wf, reread]
  exact ⟨rfl, rfl⟩

/-! An IPv4 packet over two switches; the first one counts it in the tree, the second is next to the host. -/

def plainIp : Packet standardNs3 where
  protocol := IPV4
  headers := { ipv4 := some ⟨List.replicate 20 0, rfl⟩ }
  payload := [1, 2]

/-- A switch that forwards from port 0 to port 1. -/
def throughNode : Node smallConfig where
  switchId := 1
  forwarding := .portForwarding fun _ => some 1
  interfaces := [0, 1]
  tmDropRate := 0
  failDropRate := 0

/-- A port whose tree machine is counting for session 3. -/
def countingPort : FancyPortInfo :=
  { greySend := { greyState := fun _ => .counting, currentSEQ := fun _ => 3 } }

/-- The packet between the two switches. -/
def taggedIp : Frame :=
  { protocol := FANCY
    bytes := ({ action := 0x80, seq := 3, nextHeader := IPV4 } : FancyHeader).serialize ++ plainIp.frame.bytes }

theorem chain_transparent_two : Chain standardNs3 plainIp.frame plainIp.frame ∧
    parse plainIp.frame = some (plainIp.headers, plainIp.payload) := by
  have first : (throughNode.receiveFromDevice {} 0 plainIp.frame fun _ => countingPort).map (·.2.1) =
      some [(1, taggedIp)] := by decide
  have second : (throughNode.receiveFromDevice {} 0 taggedIp fun _ => initPort smallConfig false).map (·.2.1) =
      some [(1, plainIp.frame)] := by decide
  obtain ⟨⟨ports, _, log⟩, received, rfl⟩ := Option.map_eq_some_iff.1 first
  obtain ⟨⟨ports', _, log'⟩, received', rfl⟩ := Option.map_eq_some_iff.1 second
  have chain : Chain standardNs3 plainIp.frame plainIp.frame :=
    .hop rfl received (List.mem_singleton.2 rfl) rfl (.last rfl received' (List.mem_singleton.2 rfl) rfl)
  have wf : plainIp.WellFormed := by constructor <;> decide
  obtain ⟨-, -, whole⟩ := chain_transparent plainIp wf plainIp.frame chain
  exact ⟨chain, (whole fun _ udp => nomatch udp).2⟩

end Ns3Fancy.Switch

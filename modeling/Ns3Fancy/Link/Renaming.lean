import Ns3Fancy.Link.Simulation
import Ns3Fancy.Switch.Isolation

/-!
# A port of a switch and a port of a link

The link model numbers the ports of a switch from the point of view of one of them. The machines do not look at port numbers, so
the pipeline does the same under any numbering. A packet that turns back or goes on from port to port leaves as the link model
says.
-/

namespace Ns3Fancy.Link
open Switch Buffer Function
set_option autoImplicit false

/-- The packet with its ports renamed, as a switch with other ports has it. -/
@[simps] def placed {N : Ns3} (rename : Nat → Option Nat) (gray : Bool) (m : PktInfo N) : PktInfo N :=
  { m with inPort := m.inPort.bind rename, outPort := m.outPort.bind rename, grayDrop := gray }

section
variable {cfg : FancyConfig} {p : FancyPortInfo} {id : Nat} {hdr : FancyHeader} {rename : Nat → Option Nat} {gray : Bool}

theorem acceptStart_placed (shift : Bool) (m : PktInfo cfg.ns3) :
    acceptStart cfg id shift hdr p (placed rename gray m) =
      (acceptStart cfg id shift hdr p m).map fun r => (r.1, placed rename gray r.2) := by
  simp only [acceptStart]
  split
  · split
    · rfl
    · simp only [Option.map_map]
      rfl
  · rfl

theorem receiverMachine_placed (m : PktInfo cfg.ns3) :
    receiverMachine cfg id hdr p (placed rename gray m) =
      (receiverMachine cfg id hdr p m).map fun r => (r.1, placed rename gray r.2) := by
  cases state : p.greyRecv.greyState id <;> simp only [receiverMachine, state]
  · split
    · exact acceptStart_placed true m
    · rfl
  · rfl
  · split
    · exact acceptStart_placed false m
    · split <;> rfl
  · rfl
  · rfl
  · split
    · rfl
    · split
      · exact acceptStart_placed true m
      · rfl

theorem ingressMachines_placed (m : PktInfo cfg.ns3) :
    ingressMachines cfg p (placed rename gray m) =
      (ingressMachines cfg p m).map fun r => (r.1, placed rename gray r.2.1, r.2.2) := by
  have wildcard : wildcardIngress cfg p (placed rename gray m) = wildcardIngress cfg p m := rfl
  simp only [ingressMachines, wildcard, placed_headers, placed_flow]
  cases m.headers.fancy with
  | none => rfl
  | some received =>
    simp only
    split
    · rfl
    split
    · simp only [Option.map_bind]
      refine Option.bind_congr fun q _ => ?_
      simp only [comp_apply]
      split
      · rfl
      split
      · exact (congrArg (Option.map _) (receiverMachine_placed _)).trans (by simp only [Option.map_map]; rfl)
      · rfl
    · rfl

theorem reroute_placed (m : PktInfo cfg.ns3) :
    reroute cfg p (placed rename gray m) = ((reroute cfg p m).1, placed rename gray (reroute cfg p m).2) := by
  simp only [reroute, placed_strFlow, placed_flow]
  generalize (if m.strFlow = "" then cfg.packetStr m.flow else m.strFlow) = name
  split <;> rfl

theorem senderMachine_placed (m : PktInfo cfg.ns3) :
    senderMachine cfg id hdr p (placed rename gray m) =
      (senderMachine cfg id hdr p m).map fun r => (r.1, placed rename gray r.2.1, r.2.2) := by
  cases state : p.greySend.greyState id <;> simp only [senderMachine, state]
  · split <;> rfl
  · split <;> rfl
  · rfl
  · rfl
  · split
    · simp only [Option.map_map]
      rfl
    · rfl
  · rfl

theorem egressMachines_placed (m : PktInfo cfg.ns3) :
    egressMachines cfg p (placed rename gray m) =
      (egressMachines cfg p m).map fun r => (r.1, placed rename gray r.2.1, r.2.2) := by
  simp only [egressMachines, placed_headers, placed_internalPacket]
  cases m.headers.fancy with
  | none => rfl
  | some hdr =>
    simp only
    split
    · exact senderMachine_placed m
    · rfl

theorem egressCounting_placed (m : PktInfo cfg.ns3) :
    egressCounting cfg p (placed rename gray m) =
      (egressCounting cfg p m).map fun r => (r.1, placed rename gray r.2.1, r.2.2) := by
  have wildcard : wildcardEgress cfg p (placed rename gray m) = wildcardEgress cfg p m := rfl
  have tagged : ∀ id seq, tagPacket cfg id seq (placed rename gray m) = placed rename gray (tagPacket cfg id seq m) := by
    intro id seq
    simp only [tagPacket, placed_headers]
    cases m.headers.fancy <;> rfl
  simp only [egressCounting, wildcard, tagged, placed_headers, placed_id, placed_flow]
  split
  · simp only [Option.map_map]
    rfl
  · cases m.headers.fancy with
    | none => rfl
    | some hdr =>
      simp only
      split <;> rfl


/-! ## The rest of the pipeline -/

/-- The ports of the link model: port 0 is the one a frame came in by, port 1 the one that forwarding chose. -/
def hop (inPort : Nat) (out : Option Nat) : Nat → Option Nat
  | 0 => some inPort
  | _ => out

theorem arrival_eq (n : Node cfg) (inPort : Nat) (frame : Frame) (headers : Headers cfg.ns3) :
    n.arrival inPort frame headers = placed (hop inPort (n.arrival inPort frame headers).outPort)
      (n.arrival inPort frame headers).grayDrop (arrived cfg frame headers) := by
  unfold Node.arrival Node.forward
  split
  · rfl
  · simp only
    split <;> rfl
  · rfl

/-- What the reroute block does to a packet that it lets through. -/
theorem reroute_fst_of_passed {m : PktInfo cfg.ns3} (passed : (reroute cfg p m).2.dropFlag = false) :
    (reroute cfg p m).1 = p := by
  revert passed
  unfold reroute
  lift_lets
  intro strFlow id m' passed
  split at passed
  · cases passed
  · rename_i free
    rw [if_neg free]

/-- A packet of the machines. -/
structure IsControl (m : PktInfo cfg.ns3) : Prop where
  noIp : m.headers.ipv4 = none
  acts : m.headers.fancy.elim 0 FancyHeader.getAction ≠ 0
  single : m.broadcastFlag = false
  noClone : m.cloneType = 0 ∧ m.cloneOutPort = none

theorem IsControl.not_congested {m : PktInfo cfg.ns3} (control : IsControl m) (n : Node cfg) (luck : Luck) :
    n.congested luck m = false := by
  simp only [Node.congested, beq_eq_false_iff_ne.2 control.acts, Bool.and_false, Bool.false_and]

theorem reroute_clones (p : FancyPortInfo) (m : PktInfo cfg.ns3) :
    (reroute cfg p m).2.cloneType = m.cloneType ∧ (reroute cfg p m).2.cloneOutPort = m.cloneOutPort := by
  unfold reroute
  lift_lets
  intro strFlow id m'
  split <;> exact ⟨rfl, rfl⟩

theorem reroute_inPort (p : FancyPortInfo) (m : PktInfo cfg.ns3) : (reroute cfg p m).2.inPort = m.inPort := by
  simp only [reroute, apply_ite Prod.snd, apply_ite PktInfo.inPort, ite_self]

theorem IsControl.reroute {m : PktInfo cfg.ns3} (control : IsControl m) : IsControl (reroute cfg p m).2 := by
  obtain ⟨headers, -, broadcast⟩ := reroute_snd p m
  have clones := reroute_clones p m
  exact ⟨by rw [headers]; exact control.noIp, by rw [headers]; exact control.acts, broadcast.trans control.single,
    clones.1.trans control.noClone.1, clones.2.trans control.noClone.2⟩

/-- One packet that is no broadcast and that nothing has dropped goes through the traffic manager as it is. -/
theorem trafficManager_single (n : Node cfg) {m : PktInfo cfg.ns3} (kept : m.dropFlag = false)
    (single : m.broadcastFlag = false)
    (noClone : m.cloneType = 0 ∧ m.cloneOutPort = none) {k : Nat} (leaves : m.outPort = some k) : n.trafficManager m = [m] := by
  have same : { m with cloneType := 0, cloneOutPort := none } = m := by
    obtain ⟨type, port⟩ := noClone
    rw [← type, ← port]
  rw [Node.trafficManager, if_neg (by simp [kept]), if_neg (by simp [single]), if_neg (by simp [leaves]), same]

theorem trafficManager_dropped (n : Node cfg) {m : PktInfo cfg.ns3} (dropped : m.dropFlag = true) :
    n.trafficManager m = [] := by
  rw [Node.trafficManager, if_pos dropped]

/-- **The way back**: a packet of the machines leaves by the port it came from as `turnBack` says. -/
theorem egressAll_turnBack (n : Node cfg) (luck : Luck) {i : Nat} {out : Option Nat} {ports : Ports} {m : PktInfo cfg.ns3}
    (switch : (ports i).switchPort = true) (control : IsControl m) (fromHere : m.inPort = some 0) (back : m.outPort = some 0)
    (payload : Bytes) (log : List PortLog) :
    ((n.egressAll luck payload (n.trafficManager (placed (hop i out) gray (reroute cfg (ports i) m).2))
        (update ports i (reroute cfg (ports i) m).1)).map fun q => (q.1, q.2.1, log ++ q.2.2)) =
      (turnBack cfg (ports i) m payload log).map fun o => (update ports i o.port, o.sent.map (Prod.mk i), o.log) := by
  have flag := switchPort_reroute (ports i) m
  have control' := control.reroute (p := ports i)
  have target : (reroute cfg (ports i) m).2.outPort = some 0 := (reroute_outPort _ _).trans back
  have source : (reroute cfg (ports i) m).2.inPort = some 0 := (reroute_inPort _ _).trans fromHere
  simp only [turnBack]
  generalize reroute cfg (ports i) m = r at *
  cases dropped : r.2.dropFlag with
  | true =>
    rw [trafficManager_dropped n (m := placed (hop i out) gray r.2) dropped]
    simp only [Node.egressAll, Option.map_some, if_true, List.append_nil, List.map_nil]
  | false =>
    have one : n.trafficManager (placed (hop i out) gray r.2) = [placed (hop i out) gray r.2] :=
      trafficManager_single n dropped control'.single control'.noClone (show r.2.outPort.bind _ = some i by rw [target]; rfl)
    have calm : n.congested luck (placed (hop i out) gray r.2) = false := control'.not_congested n luck
    have here : (placed (hop i out) gray r.2).inPort = some i := by
      rw [placed_inPort, source]
      rfl
    rw [one, Node.egressAll_singleton]
    simp only [Node.egress, calm, Bool.false_eq_true, if_false, egressCounterBox, egressFrom, here, update_self,
      egressMachines_placed, Option.map_map, Option.bind_map, Option.map_bind]
    refine Option.bind_congr fun q machines => ?_
    obtain ⟨target', -, ip⟩ := egressMachines_meta machines
    have leaves : q.2.1.outPort = some 0 := by
      rcases target' with same | ⟨-, same⟩
      · exact same.trans target
      · exact same.trans source
    have stays : (q.2.1.outPort.bind (hop i out)) = some i := by rw [leaves]; rfl
    have noIp : q.2.1.headers.ipv4 = none := ip.trans control'.noIp
    have counting := egressCounting_control ((switchPort_egressMachines machines).trans (flag.trans switch)) noIp
    simp only [comp_apply, placed_outPort, stays, Option.bind_some, update_self, egressCounting_placed, counting,
      Option.map_some, update_idem]
    have sound : n.failed luck (placed (hop i out) gray q.2.1) = false := by
      simp only [Node.failed, placed_headers, noIp]
    have exit : (placed (hop i out) gray q.2.1).outPort = some i := stays
    simp only [Node.egressTrafficManager, exit, sound, Bool.or_false, placed_dropFlag, placed_protocol, placed_headers]
    split <;> rfl

/-- What becomes of a frame after the port it came in by: nothing, or one packet leaves by a port that forwarding chose. -/
inductive PassesOn (cfg : FancyConfig) (ports : Ports) (out : Option Nat) :
    Ports × List (Nat × Frame) × List PortLog → Prop where
  | stays : PassesOn cfg ports out (ports, [], [])
  | leaves {k : Nat} {pkt : HostPacket cfg} {earlier : Option (UInt32 × UInt16)} {lost : Bool} {o : Outcome} : out = some k →
      emit cfg (ports k) pkt earlier = some o →
      PassesOn cfg ports out (update ports k o.port, if lost then [] else o.sent.map (Prod.mk k), o.log)

/-- The ports of the link model for a packet that leaves: port 1 is the one it came in by, port 0 the one it leaves by. -/
def onward (inPort : Nat) (out : Option Nat) : Nat → Option Nat
  | 0 => out
  | _ => some inPort

theorem emit_eq (p : FancyPortInfo) (pkt : HostPacket cfg) (earlier : Option (UInt32 × UInt16)) :
    emit cfg p pkt earlier =
      if (reroute cfg p (outgoing cfg pkt earlier)).2.dropFlag then
        some { port := (reroute cfg p (outgoing cfg pkt earlier)).1 }
      else (egressCounting cfg (reroute cfg p (outgoing cfg pkt earlier)).1 (reroute cfg p (outgoing cfg pkt earlier)).2).map
        fun e => { port := e.1
                   sent := [{ protocol := e.2.1.protocol, bytes := doDeparser e.2.1.headers pkt.val.payload }]
                   log := e.2.2 } := rfl

theorem egressCounting_outPort {m : PktInfo cfg.ns3} {r : FancyPortInfo × PktInfo cfg.ns3 × List PortLog}
    (run : egressCounting cfg p m = some r) : r.2.1.outPort = m.outPort := by
  have tagged : ∀ id seq, (tagPacket cfg id seq m).outPort = m.outPort := by
    intro id seq
    simp only [tagPacket]
    split <;> rfl
  simp only [egressCounting] at run
  split at run
  · obtain ⟨next, -, rfl⟩ := Option.map_eq_some_iff.1 run
    exact tagged _ _
  split at run
  · split at run <;> cases run <;> rfl
  · cases run
    rfl

/-- No packet of a host is of the other side's receiver. -/
theorem egressMachines_outgoing {pkt : HostPacket cfg} {earlier : Option (UInt32 × UInt16)} {m : PktInfo cfg.ns3}
    (headers : m.headers = (outgoing cfg pkt earlier).headers) : egressMachines cfg p m = some (p, m, []) := by
  have fancy : m.headers.fancy =
      earlier.map fun e => { id := e.1, seq := e.2, nextHeader := pkt.val.protocol } := by rw [headers]; rfl
  cases earlier with
  | none => simp only [egressMachines, fancy, Option.map_none]
  | some e =>
    have data : FancyHeader.getFSMFlag { id := e.1, seq := e.2, nextHeader := pkt.val.protocol } = false := by
      simp only [FancyHeader.getFSMFlag]
      decide
    simp only [egressMachines, fancy, Option.map_some, data, Bool.and_false, Bool.false_eq_true, if_false]

/-- **The way on**: a packet from elsewhere leaves by the port that forwarding chose as `emit` says, unless emulated congestion
takes it before the egress box or a gray failure after it. -/
theorem egressAll_emit (n : Node cfg) (luck : Luck) {i k : Nat} {ports : Ports} {pkt : HostPacket cfg}
    {earlier : Option (UInt32 × UInt16)} {q : Ports × List (Nat × Frame) × List PortLog}
    (run : n.egressAll luck pkt.val.payload
      (n.trafficManager (placed (onward i (some k)) gray (reroute cfg (ports k) (outgoing cfg pkt earlier)).2))
      (update ports k (reroute cfg (ports k) (outgoing cfg pkt earlier)).1) = some q) : PassesOn cfg ports (some k) q := by
  obtain ⟨headers, -, broadcast⟩ := reroute_snd (ports k) (outgoing cfg pkt earlier)
  have passed := @reroute_fst_of_passed cfg (ports k) (outgoing cfg pkt earlier)
  have clones := reroute_clones (ports k) (outgoing cfg pkt earlier)
  have target : (reroute cfg (ports k) (outgoing cfg pkt earlier)).2.outPort = some 0 := reroute_outPort _ _
  have source := reroute_inPort (ports k) (outgoing cfg pkt earlier)
  have emitted := emit_eq (ports k) pkt earlier
  generalize reroute cfg (ports k) (outgoing cfg pkt earlier) = r at *
  cases dropped : r.2.dropFlag with
  | true =>
    rw [trafficManager_dropped n (m := placed (onward i (some k)) gray r.2) dropped] at run
    cases run
    rw [dropped, if_pos rfl] at emitted
    exact @PassesOn.leaves cfg ports (some k) k pkt earlier false _ rfl emitted
  | false =>
    have unmarked := passed dropped
    obtain ⟨p₀, m⟩ := r
    subst unmarked
    rw [if_neg (by rw [dropped]; exact Bool.false_ne_true)] at emitted
    have one : n.trafficManager (placed (onward i (some k)) gray m) = [placed (onward i (some k)) gray m] :=
      trafficManager_single n dropped broadcast clones (show m.outPort.bind _ = some k by rw [target]; rfl)
    rw [one, Node.egressAll_singleton, update_eq_self] at run
    simp only [Node.egress] at run
    split at run
    · cases run
      exact .stays
    have here : (placed (onward i (some k)) gray m).inPort = some i := by
      rw [placed_inPort, source]
      rfl
    have noMachine : egressMachines cfg (ports i) (placed (onward i (some k)) gray m) =
        some (ports i, placed (onward i (some k)) gray m, []) := by
      rw [egressMachines_placed, egressMachines_outgoing headers]
      rfl
    have leaves : (placed (onward i (some k)) gray m).outPort = some k := by
      rw [placed_outPort, target]
      rfl
    simp only [egressCounterBox, egressFrom, here, noMachine, Option.map_some, update_eq_self, Option.bind_some, leaves,
      egressCounting_placed, Option.map_map] at run
    obtain ⟨e, counting, rfl⟩ := Option.map_eq_some_iff.1 run
    have exit : (placed (onward i (some k)) gray e.2.1).outPort = some k := by
      rw [placed_outPort, egressCounting_outPort counting, target]
      rfl
    rw [counting, Option.map_some] at emitted
    have through : n.egressTrafficManager luck (placed (onward i (some k)) gray e.2.1) pkt.val.payload =
        if e.2.1.dropFlag || n.failed luck (placed (onward i (some k)) gray e.2.1) then []
        else [(k, { protocol := e.2.1.protocol, bytes := doDeparser e.2.1.headers pkt.val.payload })] := by
      simp only [Node.egressTrafficManager, exit]
      rfl
    have left := @PassesOn.leaves cfg ports (some k) k pkt earlier
      (e.2.1.dropFlag || n.failed luck (placed (onward i (some k)) gray e.2.1)) _ rfl emitted
    simpa only [comp_apply, through, List.nil_append, List.map_cons, List.map_nil] using left

end

end Ns3Fancy.Link

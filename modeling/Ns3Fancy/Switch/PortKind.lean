import Ns3Fancy.Switch.Transparency
import Ns3Fancy.Switch.ControlReroute

/-!
# The kind of a port

`Init` notes whether the other side of a port is a switch. No packet and no event changes that.
-/

namespace Ns3Fancy.Switch
open Buffer Function
set_option autoImplicit false

section
variable {cfg : FancyConfig} {p : FancyPortInfo} {m : PktInfo cfg.ns3}

/-! ## One port -/

/-- A START leaves the kind of the port alone, and so does all the port does with a packet. -/
theorem switchPort_acceptStart {id : Nat} {shift : Bool} {hdr : FancyHeader} {r : FancyPortInfo × PktInfo cfg.ns3}
    (run : acceptStart cfg id shift hdr p m = some r) : r.1.switchPort = p.switchPort := by
  simp only [acceptStart] at run
  split at run
  · split at run
    · cases run
    · obtain ⟨records, -, rfl⟩ := Option.map_eq_some_iff.1 run
      rfl
  · cases run
    rfl

theorem switchPort_receiverMachine {id : Nat} {hdr : FancyHeader} {r : FancyPortInfo × PktInfo cfg.ns3}
    (run : receiverMachine cfg id hdr p m = some r) : r.1.switchPort = p.switchPort := by
  simp only [receiverMachine] at run
  split at run
  · split at run
    · exact switchPort_acceptStart run
    · cases run
      rfl
  · split at run
    · exact switchPort_acceptStart run
    split at run <;> cases run <;> rfl
  · cases run
    rfl
  · split at run
    · cases run
      rfl
    split at run
    · exact switchPort_acceptStart run
    · cases run
      rfl
  all_goals
    cases run
    rfl

/-- The machines of the ingress leave the kind of the port alone. -/
theorem switchPort_ingressMachines {r : FancyPortInfo × PktInfo cfg.ns3 × List PortLog}
    (run : ingressMachines cfg p m = some r) : r.1.switchPort = p.switchPort := by
  have wildcard : (wildcardIngress cfg p m).switchPort = p.switchPort := by
    simp only [wildcardIngress, apply_ite FancyPortInfo.switchPort, ite_self]
  simp only [ingressMachines] at run
  split at run
  · cases run
    exact wildcard
  split at run
  · cases run
    exact wildcard
  split at run
  · obtain ⟨q, counted, run⟩ := Option.bind_eq_some_iff.1 run
    have flag := (switchPort_ingressCount counted).trans wildcard
    split at run
    · cases run
      exact flag
    split at run
    · obtain ⟨r', machine, rfl⟩ := Option.map_eq_some_iff.1 run
      exact (switchPort_receiverMachine machine).trans flag
    · cases run
      exact flag
  · cases run
    exact wildcard

/-- Consuming a report writes counters, trees and reroute flags only. -/
theorem switchPort_consumeReport {id : Nat} {hdr : FancyHeader} {r : FancyPortInfo × List PortLog}
    (run : consumeReport cfg id hdr p = some r) : r.1.switchPort = p.switchPort := by
  simp only [consumeReport] at run
  split at run
  · split at run
    · obtain ⟨records, -, run⟩ := Option.bind_eq_some_iff.1 run
      split at run <;> cases run
      exact (sameMachines_applyDetection cfg _ _).2
    · cases run
  · cases run
    exact (sameMachines_applyDetection cfg _ _).2

theorem switchPort_senderMachine {id : Nat} {hdr : FancyHeader} {r : FancyPortInfo × PktInfo cfg.ns3 × List PortLog}
    (run : senderMachine cfg id hdr p m = some r) : r.1.switchPort = p.switchPort := by
  simp only [senderMachine] at run
  split at run
  · split at run <;> cases run <;> rfl
  · split at run <;> cases run <;> rfl
  · cases run
    rfl
  · split at run
    · obtain ⟨r', consumed, rfl⟩ := Option.map_eq_some_iff.1 run
      have flag := switchPort_consumeReport consumed
      exact flag
    · cases run
      rfl
  all_goals
    cases run
    rfl

/-- The machines of the egress leave it alone, too. -/
theorem switchPort_egressMachines {r : FancyPortInfo × PktInfo cfg.ns3 × List PortLog}
    (run : egressMachines cfg p m = some r) : r.1.switchPort = p.switchPort := by
  unfold egressMachines at run
  split at run
  · split at run
    · exact switchPort_senderMachine run
    · cases run
      rfl
  · cases run
    rfl

/-- Counting a packet looks at the kind of the port and keeps it. -/
theorem switchPort_egressCounting {r : FancyPortInfo × PktInfo cfg.ns3 × List PortLog}
    (run : egressCounting cfg p m = some r) : r.1.switchPort = p.switchPort := by
  have wildcard : (wildcardEgress cfg p m).1.switchPort = p.switchPort := by
    simp only [wildcardEgress]
    split <;> rfl
  simp only [egressCounting] at run
  split at run
  · obtain ⟨next, -, rfl⟩ := Option.map_eq_some_iff.1 run
    exact wildcard
  split at run
  · split at run <;> cases run <;> exact wildcard
  · cases run
    exact wildcard

/-- Towards a switch the egress box leaves a packet without IPv4 header alone. -/
theorem egressCounting_control (switch : p.switchPort = true) {m : PktInfo cfg.ns3} (noIp : m.headers.ipv4 = none) :
    egressCounting cfg p m = some (p, m, []) := by
  have wildcard : wildcardEgress cfg p m = (p, []) := by simp [wildcardEgress, noIp]
  simp only [egressCounting, wildcard, noIp, switch]
  cases m.headers.fancy <;> simp

/-- The events of the machines keep the kind of their port. -/
theorem switchPort_sendGreyAction {action : UInt8} {id : Nat} {r : FancyPortInfo × FancyHeader}
    (run : sendGreyAction cfg action id p = some r) : r.1.switchPort = p.switchPort := by
  simp only [sendGreyAction] at run
  split at run
  · split at run <;> cases run
    rfl
  split at run
  · split at run <;> cases run <;> rfl
  split at run <;> cases run <;> rfl

theorem switchPort_sendGreyCounter {id : Nat} {r : FancyPortInfo × FancyHeader × List PortLog}
    (run : sendGreyCounter cfg id p = some r) : r.1.switchPort = p.switchPort := by
  simp only [sendGreyCounter] at run
  split at run
  · split at run <;> cases run
    rfl
  · cases run
    rfl

end

/-! ## All ports -/

/-- Every port is towards what it was towards. -/
def SameKinds (ports ports' : Ports) : Prop := ∀ i, (ports' i).switchPort = (ports i).switchPort

/-- Two steps that keep the kinds, one after the other. -/
theorem SameKinds.trans {ports ports' ports'' : Ports} (h : SameKinds ports ports') (h' : SameKinds ports' ports'') :
    SameKinds ports ports'' := fun i => (h' i).trans (h i)

section
variable {cfg : FancyConfig} {ports : Ports} {m : PktInfo cfg.ns3}

/-- The ingress box writes two ports and keeps the kind of both. -/
theorem sameKinds_ingressCounterBox {inPort : Nat} {r : Ports × PktInfo cfg.ns3 × List PortLog}
    (run : ingressCounterBox cfg ports inPort m = some r) : SameKinds ports r.1 := by
  obtain ⟨q, machine, rfl⟩ := Option.map_eq_some_iff.1 run
  have first : SameKinds ports (update ports inPort q.1) := switchPort_update (switchPort_ingressMachines machine)
  cases out : q.2.1.outPort with
  | none => exact first
  | some o => exact first.trans (switchPort_update (switchPort_reroute ..))

/-- So does the egress box. -/
theorem sameKinds_egressCounterBox {r : Ports × PktInfo cfg.ns3 × List PortLog}
    (run : egressCounterBox cfg ports m = some r) : SameKinds ports r.1 := by
  obtain ⟨q, machine, run⟩ := Option.bind_eq_some_iff.1 run
  obtain ⟨out, -, run⟩ := Option.bind_eq_some_iff.1 run
  obtain ⟨t, counted, rfl⟩ := Option.map_eq_some_iff.1 run
  have first : SameKinds ports q.1 := by
    unfold egressFrom at machine
    split at machine
    · cases machine
      exact fun _ => rfl
    · obtain ⟨s, sender, rfl⟩ := Option.map_eq_some_iff.1 machine
      exact switchPort_update (switchPort_egressMachines sender)
  exact first.trans (switchPort_update (switchPort_egressCounting counted))

variable {n : Node cfg} {luck : Luck}

theorem sameKinds_egress {payload : Bytes} {r : Ports × List (Nat × Frame) × List PortLog}
    (run : n.egress luck payload ports m = some r) : SameKinds ports r.1 := by
  unfold Node.egress at run
  split at run
  · cases run
    exact fun _ => rfl
  · obtain ⟨q, box, rfl⟩ := Option.map_eq_some_iff.1 run
    exact sameKinds_egressCounterBox box

/-- By induction on the copies that the traffic manager lets go on. -/
theorem sameKinds_egressAll {payload : Bytes} {copies : List (PktInfo cfg.ns3)}
    {r : Ports × List (Nat × Frame) × List PortLog} (run : n.egressAll luck payload copies ports = some r) :
    SameKinds ports r.1 := by
  induction copies generalizing ports r with
  | nil =>
    cases run
    exact fun _ => rfl
  | cons m copies ih =>
    obtain ⟨q, first, run⟩ := Option.bind_eq_some_iff.1 run
    obtain ⟨t, rest, rfl⟩ := Option.map_eq_some_iff.1 run
    have kinds := ih rest
    exact (sameKinds_egress first).trans kinds

/-- **A received frame changes the kind of no port.** -/
theorem sameKinds_receiveFromDevice {inPort : Nat} {frame : Frame} {r : Ports × List (Nat × Frame) × List PortLog}
    (run : n.receiveFromDevice luck inPort frame ports = some r) : SameKinds ports r.1 := by
  obtain ⟨h, -, run⟩ := Option.bind_eq_some_iff.1 run
  obtain ⟨q, box, run⟩ := Option.bind_eq_some_iff.1 run
  obtain ⟨t, left, rfl⟩ := Option.map_eq_some_iff.1 run
  have kinds := sameKinds_egressAll left
  exact (sameKinds_ingressCounterBox box).trans kinds

/-- **Nor does an event.** -/
theorem sameKinds_fire {i place : Nat} {r : Ports × List (Nat × Frame) × List PortLog}
    (run : n.fire luck i place ports = some r) : SameKinds ports r.1 := by
  obtain ⟨e, -, run⟩ := Option.bind_eq_some_iff.1 run
  simp only at run
  split at run
  · obtain ⟨q, action, run⟩ := Option.bind_eq_some_iff.1 run
    have flag := switchPort_sendGreyAction action
    exact SameKinds.trans (switchPort_update flag) (sameKinds_egressAll run)
  · obtain ⟨q, action, run⟩ := Option.bind_eq_some_iff.1 run
    have flag := switchPort_sendGreyCounter action
    exact SameKinds.trans (switchPort_update flag) (sameKinds_egressAll run)

/-- A port that `Init` has started is towards what it is attached to. -/
theorem switchPort_initPort (towards : Bool) : (initPort cfg towards).switchPort = towards := by
  have scheduled : ∀ (ids : List Nat) (p : FancyPortInfo),
      (ids.foldl (fun p id => scheduleSend id (.sendGreyAction (startAction cfg id) id) p) p).switchPort = p.switchPort := by
    intro ids
    induction ids with
    | nil => exact fun _ => rfl
    | cons id ids ih => exact fun p => ih _
  cases towards with
  | true => exact scheduled _ _
  | false => rfl

end

end Ns3Fancy.Switch

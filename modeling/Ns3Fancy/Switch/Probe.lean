import Ns3Fancy.Switch.PortKind

/-!
# Probes and the state of a link

A switch sends a probe on a port towards a switch when it has sent nothing there for a while, and takes the link for dead
when nothing has come from it for a while. Every frame counts, so the times are set where frames leave and arrive.
-/

namespace Ns3Fancy.Switch
open Buffer Function
set_option autoImplicit false

/-- The times of a port, and when its two events are due; a port towards a host has no events. -/
structure PortTimes where
  lastTimeReceived : Nat := 0
  lastTimeSent : Nat := 0
  linkState : Bool := true
  probeDue : Option Nat := none
  checkDue : Option Nat := none

/-- A switch with the times of its ports. -/
structure TimedSwitch where
  ports : Ports
  times : Nat → PortTimes

/-- `last_time_received`, the first line of the ingress box. -/
def received (now inPort : Nat) (times : Nat → PortTimes) : Nat → PortTimes :=
  update times inPort { times inPort with lastTimeReceived := now }

/-- `last_time_sent`, once for each frame that leaves: a frame that fails has returned before. -/
def sentOut (now : Nat) (sent : List (Nat × Frame)) (times : Nat → PortTimes) : Nat → PortTimes :=
  sent.foldl (fun times f => update times f.1 { times f.1 with lastTimeSent := now }) times

section
variable {cfg : FancyConfig} (n : Node cfg)

/-- A frame arrives; the frames that leave are returned. -/
def Node.receiveAt (now : Nat) (luck : Luck) (inPort : Nat) (frame : Frame) (t : TimedSwitch) :
    Option (TimedSwitch × List (Nat × Frame)) :=
  (n.receiveFromDevice luck inPort frame t.ports).map fun r =>
    ({ ports := r.1, times := sentOut now r.2.1 (received now inPort t.times) }, r.2.1)

/-- An event of a machine runs. -/
def Node.fireAt (now : Nat) (luck : Luck) (port place : Nat) (t : TimedSwitch) :
    Option (TimedSwitch × List (Nat × Frame)) :=
  (n.fire luck port place t.ports).map fun r => ({ ports := r.1, times := sentOut now r.2.1 t.times }, r.2.1)

/-- The packet of a probe: a FANCY header with no header after it. -/
def probeHeader : FancyHeader := ({} : FancyHeader).setAction KEEP_ALIVE

/-- `SendProbe`. -/
def Node.sendProbe (delay now : Nat) (luck : Luck) (port : Nat) (t : TimedSwitch) :
    Option (TimedSwitch × List (Nat × Frame)) :=
  let times := update t.times port { t.times port with probeDue := some (now + delay) }
  if delay ≤ now - (t.times port).lastTimeSent then
    (n.sendInternal luck port probeHeader t.ports).map fun r => ({ ports := r.1, times := sentOut now r.2.1 times }, r.2.1)
  else some ({ t with times := times }, [])

end

/-- The link is down when nothing has come for longer than the delay, and up again when something has. -/
def PortTimes.check (delay now : Nat) (info : PortTimes) : PortTimes :=
  let silence := now - info.lastTimeReceived
  let state := if delay < silence then false else info.linkState
  { info with
    linkState := if state = false ∧ silence < delay then true else state
    checkDue := some (now + delay) }

/-- `CheckPortState`. -/
def checkPortState (delay now port : Nat) (t : TimedSwitch) : TimedSwitch :=
  { t with times := update t.times port ((t.times port).check delay now) }

/-- `Init` of the ports at time zero: towards a switch the first call of `SendProbe` is made at once. -/
def initTimes (startSystem : Nat) (switchPort : Bool) : PortTimes :=
  if switchPort then { probeDue := some 0, checkDue := some startSystem } else {}

/-- The next call of `SendProbe`. -/
def TimedSwitch.rearm (port due : Nat) (t : TimedSwitch) : TimedSwitch :=
  { t with times := update t.times port { t.times port with probeDue := some due } }

/-! ## What leaves sets the time -/

theorem sentOut_apply (now : Nat) (sent : List (Nat × Frame)) (times : Nat → PortTimes) (port : Nat) :
    sentOut now sent times port =
      { times port with lastTimeSent := if port ∈ sent.map (·.1) then now else (times port).lastTimeSent } := by
  induction sent generalizing times with
  | nil => rfl
  | cons f sent ih =>
    unfold sentOut at ih ⊢
    rw [List.foldl_cons, ih]
    by_cases here : port = f.1
    · subst here
      simp only [update_self, ite_self, List.map_cons, List.mem_cons, true_or, if_true]
    · simp only [update_of_ne here, List.map_cons, List.mem_cons, here, false_or]

@[simp] theorem received_self (now port : Nat) (times : Nat → PortTimes) :
    received now port times port = { times port with lastTimeReceived := now } := update_self ..

theorem received_other {now inPort port : Nat} (other : port ≠ inPort) (times : Nat → PortTimes) :
    received now inPort times port = times port := update_of_ne other _ _

section
variable {cfg : FancyConfig} {n : Node cfg}

/-- **A probe leaves towards a switch whatever the error models say**: it is no IPv4 packet, and nothing is dropped for
congestion. -/
theorem sendInternal_probe (noCongestion : n.tmDropRate = 0) {ports : Ports} {port : Nat}
    (towards : (ports port).switchPort = true) (luck : Luck) :
    n.sendInternal luck port probeHeader ports =
      some (ports, [(port, { protocol := FANCY, bytes := probeHeader.serialize })], []) := by
  let m : PktInfo cfg.ns3 :=
    { outPort := some port, internalPacket := true, protocol := FANCY, headers := { fancy := some probeHeader } }
  have calm : n.congested luck m = false := by
    simp only [Node.congested, noCongestion, lt_self_iff_false, decide_false, Bool.false_and]
  have box : egressCounterBox cfg ports m = some (ports, m, []) := by
    have counting := egressCounting_control (m := m) towards rfl
    simp only [egressCounterBox, egressFrom, Option.bind_some, m] at counting ⊢
    simp only [counting, Option.map_some, update_eq_self, List.append_nil]
  have one : n.egress luck [] ports m = some (ports, [(port, { protocol := FANCY, bytes := probeHeader.serialize })], []) := by
    simp only [Node.egress, calm, Bool.false_eq_true, if_false, box, Option.map_some]
    simp only [Node.egressTrafficManager, Node.failed, Bool.or_self, Bool.false_eq_true, if_false, doDeparser,
      addTransport_fancy, addHeader, List.append_nil, m]
  simp only [Node.sendInternal, Node.trafficManager, Bool.false_eq_true, if_false, Option.isNone_some]
  exact (Node.egressAll_singleton ..).trans one

/-- A probe is sent, or not, before the next call is scheduled just as well as after it. -/
theorem sendProbe_eq (delay now : Nat) (luck : Luck) (port : Nat) (t : TimedSwitch) :
    n.sendProbe delay now luck port t =
      (if delay ≤ now - (t.times port).lastTimeSent then
        (n.sendInternal luck port probeHeader t.ports).map fun r =>
          (({ ports := r.1, times := sentOut now r.2.1 t.times } : TimedSwitch), r.2.1)
      else some (t, [])).map fun r => (r.1.rearm port (now + delay), r.2) := by
  have commutes : ∀ sent, sentOut now sent (update t.times port { t.times port with probeDue := some (now + delay) }) =
      update (sentOut now sent t.times) port { sentOut now sent t.times port with probeDue := some (now + delay) } := by
    intro sent
    funext p
    rw [sentOut_apply]
    by_cases here : p = port
    · subst here
      simp only [update_self, sentOut_apply]
    · simp only [update_of_ne here, sentOut_apply]
  unfold Node.sendProbe
  split
  · simp only [commutes, Option.map_map]
    rfl
  · rfl

end

end Ns3Fancy.Switch

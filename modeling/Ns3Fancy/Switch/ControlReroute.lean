import Ns3Fancy.Switch.Standard

/-!
# Control packets and the reroute block

The reroute block at the end of the ingress box runs for every packet with an out port, so also
for a control packet that the machines send back to where it came from. Such a packet has no
IPv4 header: its flow is all zero, and the block treats it as a packet of that flow.
-/

namespace Ns3Fancy.Switch
open Buffer Function
set_option autoImplicit false

/-! ## The machines do not look at the reroute state -/

/-- The port with another reroute state. -/
def FancyPortInfo.withReroute (bloom : Nat → RerouteBloomFilter) (top : Nat → RerouteTopEntries)
    (p : FancyPortInfo) : FancyPortInfo := { p with reroute := bloom, rerouteTop := top }

/-- The same attributes with another top-entries table. -/
def FancyConfig.withTop (cfg : FancyConfig) (prefixes : List UInt32) : FancyConfig := { cfg with topPrefixes := prefixes }

/-- Two ports whose machines are in the same state. -/
structure SameMachines (p p' : FancyPortInfo) : Prop where
  recv : p.greyRecv = p'.greyRecv
  send : p.greySend = p'.greySend
  events : p.events = p'.events

section
variable {cfg : FancyConfig}

/-- Two ports with equal machines may differ in their reroute state only. -/
theorem SameMachines.refl (p : FancyPortInfo) : SameMachines p p := ⟨rfl, rfl, rfl⟩

theorem SameMachines.symm {p p' : FancyPortInfo} (h : SameMachines p p') : SameMachines p' p :=
  ⟨h.recv.symm, h.send.symm, h.events.symm⟩

theorem SameMachines.trans {p p' p'' : FancyPortInfo} (h : SameMachines p p') (h' : SameMachines p' p'') :
    SameMachines p p'' :=
  ⟨h.recv.trans h'.recv, h.send.trans h'.send, h.events.trans h'.events⟩

/-- Writing the reroute state leaves the machines alone. -/
theorem sameMachines_withReroute (bloom : Nat → RerouteBloomFilter) (top : Nat → RerouteTopEntries)
    (p : FancyPortInfo) : SameMachines p (p.withReroute bloom top) := ⟨rfl, rfl, rfl⟩

/-- The reroute block moves no machine. -/
theorem sameMachines_reroute (p : FancyPortInfo) (m : PktInfo cfg.ns3) : SameMachines p (reroute cfg p m).1 := by
  have marked : ∀ id flow strFlow, SameMachines p (markRerouted cfg id flow strFlow p) := by
    intro id flow strFlow
    simp only [markRerouted]
    split <;> split <;> exact ⟨rfl, rfl, rfl⟩
  unfold reroute
  lift_lets
  intro strFlow id m
  split
  · exact marked _ _ _
  · exact .refl p

/-- Nor does what an exchange reports. -/
theorem sameMachines_applyDetection (cfg : FancyConfig) (found : List Detection) (p : FancyPortInfo) :
    SameMachines p (found.foldl (applyDetection cfg) p) ∧
      (found.foldl (applyDetection cfg) p).switchPort = p.switchPort := by
  induction found generalizing p with
  | nil => exact ⟨.refl p, rfl⟩
  | cons d ds ih =>
    have one : SameMachines p (applyDetection cfg p d) ∧ (applyDetection cfg p d).switchPort = p.switchPort := by
      cases d <;> exact ⟨⟨rfl, rfl, rfl⟩, rfl⟩
    obtain ⟨same, flag⟩ := ih (applyDetection cfg p d)
    exact ⟨one.1.trans same, flag.trans one.2⟩

variable (bloom : Nat → RerouteBloomFilter) (top : Nat → RerouteTopEntries)

/-- No function of the ingress reads the reroute state, starting with the answer to a START. -/
theorem acceptStart_withReroute (id : Nat) (shift : Bool) (hdr : FancyHeader) (p : FancyPortInfo)
    (m : PktInfo cfg.ns3) :
    acceptStart cfg id shift hdr (p.withReroute bloom top) m =
      (acceptStart cfg id shift hdr p m).map fun r => (r.1.withReroute bloom top, r.2) := by
  simp only [acceptStart]
  split
  · split
    · rfl
    · simp only [Option.map_map]
      rfl
  · rfl

theorem ingressCount_withReroute (hdr : FancyHeader) (flow : FiveTuple) (p : FancyPortInfo) :
    ingressCount cfg hdr flow (p.withReroute bloom top) =
      (ingressCount cfg hdr flow p).map (FancyPortInfo.withReroute bloom top) := by
  have recv : (p.withReroute bloom top).greyRecv = p.greyRecv := rfl
  simp only [ingressCount, recv]
  split
  · rw [Option.map_map]
    rfl
  · rfl

/-- The receiver does the same whatever the reroute state. -/
theorem receiverMachine_withReroute (id : Nat) (hdr : FancyHeader) (p : FancyPortInfo) (m : PktInfo cfg.ns3) :
    receiverMachine cfg id hdr (p.withReroute bloom top) m =
      (receiverMachine cfg id hdr p m).map fun r => (r.1.withReroute bloom top, r.2) := by
  have recv : (p.withReroute bloom top).greyRecv = p.greyRecv := rfl
  simp only [receiverMachine, recv]
  split
  · split
    · exact acceptStart_withReroute bloom top ..
    · rfl
  · split
    · exact acceptStart_withReroute bloom top ..
    · split <;> rfl
  · rfl
  · split
    · rfl
    · split
      · exact acceptStart_withReroute bloom top ..
      · rfl
  · rfl
  · rfl

theorem wildcardIngress_withReroute (p : FancyPortInfo) (m : PktInfo cfg.ns3) :
    wildcardIngress cfg (p.withReroute bloom top) m = (wildcardIngress cfg p m).withReroute bloom top := by
  simp only [wildcardIngress, apply_ite (FancyPortInfo.withReroute bloom top)]
  rfl

/-- So do all machines of the ingress. -/
theorem ingressMachines_withReroute (p : FancyPortInfo) (m : PktInfo cfg.ns3) :
    ingressMachines cfg (p.withReroute bloom top) m =
      (ingressMachines cfg p m).map fun r => (r.1.withReroute bloom top, r.2) := by
  simp only [ingressMachines, wildcardIngress_withReroute]
  generalize wildcardIngress cfg p m = p
  cases m.headers.fancy with
  | none => rfl
  | some received =>
    simp only
    split
    · rfl
    · split
      · rw [ingressCount_withReroute, Option.bind_map, Option.map_bind]
        congr 1
        funext q
        simp only [comp_apply]
        split
        · rfl
        · split
          · rw [receiverMachine_withReroute, Option.map_map, Option.map_map]
            rfl
          · rfl
      · rfl

/-! ## Nor at the top-entries table -/

/-- Zooming does not read the list of top entries. -/
theorem zoom_withTop (prefixes : List UInt32) (tree : Tree) (hist : Nat → Nat) (flow : FiveTuple) (levels : Nat) :
    zoom (cfg.withTop prefixes) tree hist flow levels = zoom cfg tree hist flow levels := by
  induction levels with
  | zero => rfl
  | succ l ih =>
    simp only [zoom, ih]
    rfl

theorem treeCounting_withTop (prefixes : List UInt32) (sender : Bool) (seq : Nat) (flow : FiveTuple) (tree : Tree) :
    treeCounting (cfg.withTop prefixes) sender seq flow tree = treeCounting cfg sender seq flow tree := by
  have history : countHistory (cfg.withTop prefixes) sender flow = countHistory cfg sender flow := by
    funext tree historyLevel
    simp only [countHistory, zoom_withTop]
    rfl
  simp only [treeCounting, pipelinedPacketCounting, packetCounting, history, zoom_withTop]
  rfl

theorem ingressCount_withTop (prefixes : List UInt32) (hdr : FancyHeader) (flow : FiveTuple) (p : FancyPortInfo) :
    ingressCount (cfg.withTop prefixes) hdr flow p = ingressCount cfg hdr flow p := by
  simp only [ingressCount, countPacket, treeCounting_withTop]
  rfl

/-- Another top-entries table changes nothing for the machines. -/
theorem ingressMachines_withTop (prefixes : List UInt32) (p : FancyPortInfo) (m : PktInfo cfg.ns3) :
    ingressMachines (cfg.withTop prefixes) p m = ingressMachines cfg p m := by
  simp only [ingressMachines, ingressCount_withTop]
  rfl

/-! ## What happens to a control packet -/

/-- The count flag is no bit of the action. -/
theorem getAction_setCountFlag (h : FancyHeader) : (h.setCountFlag false).getAction = h.getAction := by
  simp only [FancyHeader.setCountFlag, FancyHeader.getAction, Bool.false_eq_true, if_false, UInt8.and_assoc]
  rfl

theorem getFSMFlag_setCountFlag (h : FancyHeader) : (h.setCountFlag false).getFSMFlag = h.getFSMFlag := by
  have bits : ∀ a : BitVec 8, ((a &&& 0x7f#8) >>> 5) &&& 1#8 = (a >>> 5) &&& 1#8 := by decide
  have same : ((h.action &&& 0x7f) >>> 5) &&& (1 : UInt8) = (h.action >>> 5) &&& 1 :=
    UInt8.eq_of_toBitVec_eq (bits h.action.toBitVec)
  simp only [FancyHeader.setCountFlag, FancyHeader.getFSMFlag, Bool.false_eq_true, if_false, same]

variable (cfg)

/-- The port a control packet is to leave by when the machines are done with it: the one it came from
when they answer it, the one forwarding chose (`out`) when they do not know it, none when it ends with them. -/
def exitPort (p : FancyPortInfo) (hdr : FancyHeader) (inPort : Nat) (out : Option Nat) : Option Nat :=
  if hdr.getAction = KEEP_ALIVE ∧ hdr.nextHeader = 0 then none
  else if hdr.id.toNat ≤ cfg.wildcardId then
    if hdr.getFSMFlag then some inPort
    else if hdr.getAction = KEEP_ALIVE then out
    else
      match p.greyRecv.greyState hdr.id.toNat with
      | .idle | .counting | .counterAck => if hdr.getAction = startAction cfg hdr.id.toNat then some inPort else none
      | .waitCounterSend => none
      | .startAck | .waitCounterReceive => out
  else out

/-- The reroute state of a port catches control packets: their flow is the all-zero one. -/
def catchesControl (p : FancyPortInfo) : Bool :=
  catches cfg p (cfg.matchTopEntriesTable (cfg.packetStr {})) {}

variable {cfg}

/-- Where a packet is after the machines: nowhere if they dropped it. -/
def PktInfo.exit {N : Ns3} (m : PktInfo N) : Option Nat := if m.dropFlag then none else m.outPort

/-- Counting moves no machine. -/
theorem ingressCount_greyState {hdr : FancyHeader} {flow : FiveTuple} {p q : FancyPortInfo}
    (h : ingressCount cfg hdr flow p = some q) : q.greyRecv.greyState = p.greyRecv.greyState := by
  simp only [ingressCount] at h
  split at h
  · obtain ⟨g, counted, rfl⟩ := Option.map_eq_some_iff.1 h
    simp only [countPacket] at counted
    split at counted
    · split at counted
      · cases counted
      · cases counted; rfl
    · cases counted; rfl
  · cases h; rfl

/-- A START is no report. -/
theorem startAction_ne_counter (id : Nat) : GREY_COUNTER ≠ startAction cfg id := by
  simp only [startAction]
  split <;> decide

/-- The answer to a START turns back, with the flag and the flow of the packet. -/
theorem acceptStart_exit {id : Nat} {shift : Bool} {hdr : FancyHeader} {p : FancyPortInfo} {m : PktInfo cfg.ns3}
    {r : FancyPortInfo × PktInfo cfg.ns3} (h : acceptStart cfg id shift hdr p m = some r) :
    r.2.dropFlag = m.dropFlag ∧ r.2.outPort = m.inPort ∧ r.2.flow = m.flow ∧ r.2.strFlow = m.strFlow := by
  simp only [acceptStart] at h
  split at h
  · split at h
    · cases h
    · obtain ⟨records, -, rfl⟩ := Option.map_eq_some_iff.1 h
      exact ⟨rfl, rfl, rfl, rfl⟩
  · cases h
    exact ⟨rfl, rfl, rfl, rfl⟩

/-- One answer of the receiver's machine. -/
theorem receiverMachine_exit {hdr : FancyHeader} {p : FancyPortInfo} {m : PktInfo cfg.ns3} {inPort : Nat}
    (arrived : m.inPort = some inPort) (kept : m.dropFlag = false) {r : FancyPortInfo × PktInfo cfg.ns3}
    (h : receiverMachine cfg hdr.id.toNat hdr p m = some r) :
    (r.2.exit = match p.greyRecv.greyState hdr.id.toNat with
      | .idle | .counting | .counterAck => if hdr.getAction = startAction cfg hdr.id.toNat then some inPort else none
      | .waitCounterSend => none
      | .startAck | .waitCounterReceive => m.outPort) ∧ r.2.flow = m.flow ∧ r.2.strFlow = m.strFlow := by
  have accepted : ∀ shift, acceptStart cfg hdr.id.toNat shift hdr p m = some r →
      r.2.exit = some inPort ∧ r.2.flow = m.flow ∧ r.2.strFlow = m.strFlow := by
    intro shift h
    obtain ⟨drop, out, rest⟩ := acceptStart_exit h
    refine ⟨?_, rest⟩
    rw [PktInfo.exit, drop, kept, out, arrived]
    rfl
  have dropped : ∀ q, some (q, m.discard hdr.resetActionField) = some r →
      r.2.exit = none ∧ r.2.flow = m.flow ∧ r.2.strFlow = m.strFlow := by
    rintro q ⟨⟩
    exact ⟨rfl, rfl, rfl⟩
  simp only [receiverMachine] at h
  cases state : p.greyRecv.greyState hdr.id.toNat with
  | idle =>
    simp only [state] at h ⊢
    split at h
    · rename_i start; rw [if_pos start]; exact accepted true h
    · rename_i other; rw [if_neg other]; exact dropped _ h
  | counting =>
    simp only [state] at h ⊢
    split at h
    · rename_i start; rw [if_pos start]; exact accepted false h
    · rename_i other
      rw [if_neg other]
      split at h <;> exact dropped _ h
  | waitCounterSend =>
    simp only [state] at h ⊢
    exact dropped _ h
  | counterAck =>
    simp only [state] at h ⊢
    split at h
    · rename_i ack
      rw [if_neg (by rw [ack.1]; exact startAction_ne_counter _)]
      exact dropped _ h
    · split at h
      · rename_i start; rw [if_pos start]; exact accepted true h
      · rename_i other; rw [if_neg other]; exact dropped _ h
  | startAck | waitCounterReceive =>
    simp only [state] at h ⊢
    cases h
    exact ⟨by rw [PktInfo.exit]; simp [kept], rfl, rfl⟩

/-- The machines leave a control packet where `exitPort` says. -/
theorem ingressMachines_exit {p : FancyPortInfo} {m : PktInfo cfg.ns3} {hdr : FancyHeader} {inPort : Nat}
    (fancy : m.headers.fancy = some hdr) (noIp : m.headers.ipv4 = none) (arrived : m.inPort = some inPort)
    (kept : m.dropFlag = false) {r : FancyPortInfo × PktInfo cfg.ns3 × List PortLog}
    (h : ingressMachines cfg p m = some r) :
    r.2.1.exit = exitPort cfg p hdr inPort m.outPort ∧ r.2.1.flow = m.flow ∧ r.2.1.strFlow = m.strFlow := by
  have wildcard : wildcardIngress cfg p m = p := by simp [wildcardIngress, noIp]
  simp only [ingressMachines, wildcard, fancy, getAction_setCountFlag, getFSMFlag_setCountFlag] at h
  have next : (hdr.setCountFlag false).nextHeader = hdr.nextHeader := rfl
  simp only [exitPort, next] at h ⊢
  split at h
  · rename_i alive
    cases h
    rw [if_pos alive]
    exact ⟨by simp [PktInfo.exit], rfl, rfl⟩
  · rename_i notAlive
    rw [if_neg notAlive]
    split at h
    · rename_i small
      rw [if_pos small]
      obtain ⟨q, counted, h⟩ := Option.bind_eq_some_iff.1 h
      have state := ingressCount_greyState counted
      split at h
      · rename_i fsm
        cases h
        rw [if_pos fsm]
        exact ⟨by simp [PktInfo.exit, kept, arrived], rfl, rfl⟩
      · rename_i notFsm
        rw [if_neg notFsm]
        split at h
        · rename_i action
          rw [if_neg action]
          obtain ⟨s, machine, rfl⟩ := Option.map_eq_some_iff.1 h
          have answer := @receiverMachine_exit cfg (hdr.setCountFlag false) _ _ _ arrived kept _ machine
          have sameId : (hdr.setCountFlag false).id = hdr.id := rfl
          simpa only [getAction_setCountFlag, state, sameId] using answer
        · rename_i action
          cases h
          rw [if_pos (not_not.1 action)]
          exact ⟨by simp [PktInfo.exit, kept], rfl, rfl⟩
    · rename_i big
      cases h
      rw [if_neg big]
      exact ⟨by simp [PktInfo.exit, kept], rfl, rfl⟩

/-! ## Independence -/

/-- Two runs of the ingress box that do the same with the packet and with the machines. -/
structure SameDecision {N : Ns3} (r r' : Ports × PktInfo N × List PortLog) : Prop where
  drop : r.2.1.dropFlag = r'.2.1.dropFlag
  out : r.2.1.outPort = r'.2.1.outPort
  machines : ∀ i, SameMachines (r.1 i) (r'.1 i)

/-- The reroute block drops a packet of the empty flow exactly if the flags catch that flow. -/
theorem reroute_dropFlag (p : FancyPortInfo) {m : PktInfo cfg.ns3} (flow : m.flow = {}) (strFlow : m.strFlow = "") :
    (reroute cfg p m).2.dropFlag = (m.dropFlag || catchesControl cfg p) := by
  simp only [reroute, catchesControl, strFlow, if_true, flow]
  split <;> rename_i caught <;> simp [caught]

theorem reroute_outPort (p : FancyPortInfo) (m : PktInfo cfg.ns3) : (reroute cfg p m).2.outPort = m.outPort := by
  simp only [reroute, apply_ite Prod.snd, apply_ite PktInfo.outPort, ite_self]

/-- The ingress box on a packet of the all-zero flow: what the machines leave of it, and the reroute block
where it is to leave. -/
theorem ingressCounterBox_some {ports : Ports} {inPort : Nat} {m : PktInfo cfg.ns3}
    {q : FancyPortInfo × PktInfo cfg.ns3 × List PortLog}
    (h : ingressMachines cfg (ports inPort) m = some q)
    (flow : q.2.1.flow = {}) (strFlow : q.2.1.strFlow = "") :
    ∃ r, ingressCounterBox cfg ports inPort m = some r ∧ r.2.1.outPort = q.2.1.outPort ∧
      r.2.1.dropFlag = (q.2.1.dropFlag || q.2.1.outPort.any fun out => catchesControl cfg (update ports inPort q.1 out)) ∧
      ∀ i, SameMachines (update ports inPort q.1 i) (r.1 i) := by
  simp only [ingressCounterBox, h, Option.map_some, Option.some.injEq, exists_eq_left']
  cases out : q.2.1.outPort with
  | none => exact ⟨out, by simp, fun i => .refl _⟩
  | some o =>
    refine ⟨by rw [reroute_outPort, out], by simp [reroute_dropFlag _ flow strFlow], fun i => ?_⟩
    by_cases same : i = o
    · subst same
      simpa using sameMachines_reroute ..
    · simpa [update_of_ne same] using SameMachines.refl _

/-- The ingress machines leave the reroute state alone. -/
theorem ingressMachines_reroute {p : FancyPortInfo} {m : PktInfo cfg.ns3}
    {q : FancyPortInfo × PktInfo cfg.ns3 × List PortLog} (h : ingressMachines cfg p m = some q) :
    q.1.reroute = p.reroute ∧ q.1.rerouteTop = p.rerouteTop := by
  have commute := ingressMachines_withReroute p.reroute p.rerouteTop p m
  have self : p.withReroute p.reroute p.rerouteTop = p := rfl
  rw [self, h, Option.map_some, Option.some.injEq] at commute
  exact ⟨congrArg (fun r => r.1.reroute) commute, congrArg (fun r => r.1.rerouteTop) commute⟩

theorem catchesControl_congr {p p' : FancyPortInfo} (bloom : p.reroute = p'.reroute) (top : p.rerouteTop = p'.rerouteTop) :
    catchesControl cfg p = catchesControl cfg p' := by
  simp only [catchesControl, catches, isBloomFilterSet, bloom, top]

/-- An exchange packet arrives with an empty flow. -/
theorem arrival_control (n : Node cfg) (inPort : Nat) (frame : Frame) {headers : Headers cfg.ns3}
    (noIp : headers.ipv4 = none) :
    (n.arrival inPort frame headers).inPort = some inPort ∧ (n.arrival inPort frame headers).dropFlag = false ∧
      (n.arrival inPort frame headers).headers = headers ∧ (n.arrival inPort frame headers).flow = {} ∧
      (n.arrival inPort frame headers).strFlow = "" := by
  have flow := getFlowFiveTuple_of_none noIp
  simp only [Node.arrival, Node.forward, flow]
  split
  · exact ⟨rfl, rfl, rfl, rfl, rfl⟩
  · split <;> exact ⟨rfl, rfl, rfl, rfl, rfl⟩
  · exact ⟨rfl, rfl, rfl, rfl, rfl⟩

/-- **When rerouting leaves control packets alone.** Take a packet with a FANCY header and without an IPv4 header,
and two states of a switch that differ only in the reroute state of the ports and the top-entries table. The
ingress box decides the same about the packet in both, and the machines make the same transition, exactly when
the two reroute states agree about control packets at the port the packet is to leave by. -/
theorem control_independent_iff (n : Node cfg) (prefixes : List UInt32) (bloom : Nat → Nat → RerouteBloomFilter)
    (top : Nat → Nat → RerouteTopEntries) (ports : Ports) (inPort : Nat) (frame : Frame)
    (headers : Headers cfg.ns3) (hdr : FancyHeader) (fancy : headers.fancy = some hdr) (noIp : headers.ipv4 = none) :
    let ports' : Ports := fun i => (ports i).withReroute (bloom i) (top i)
    let m := n.arrival inPort frame headers
    let box := ingressCounterBox cfg ports inPort m
    let box' := ingressCounterBox (cfg.withTop prefixes) ports' inPort m
    box.isSome = box'.isSome ∧ ∀ r r', box = some r → box' = some r' →
      (SameDecision r r' ↔ ∀ out, exitPort cfg (ports inPort) hdr inPort m.outPort = some out →
        catchesControl cfg (ports out) = catchesControl (cfg.withTop prefixes) (ports' out)) := by
  intro ports' m box box'
  obtain ⟨arrived, kept, same, flow, strFlow⟩ := arrival_control n inPort frame noIp
  have fancy' : m.headers.fancy = some hdr := by rw [same, fancy]
  have noIp' : m.headers.ipv4 = none := by rw [same, noIp]
  have commute := @ingressMachines_withReroute cfg (bloom inPort) (top inPort) (ports inPort) m
  have machine' : ingressMachines (cfg.withTop prefixes) (ports' inPort) m =
      (ingressMachines cfg (ports inPort) m).map fun r =>
        (r.1.withReroute (bloom inPort) (top inPort), r.2) := (ingressMachines_withTop prefixes _ m).trans commute
  cases machine : ingressMachines cfg (ports inPort) m with
  | none =>
    have stuck : box = none := by simp only [box, ingressCounterBox, machine, Option.map_none]
    have stuck' : box' = none := by
      rw [machine] at machine'
      simp only [box', ingressCounterBox, machine']
      rfl
    simp [stuck, stuck']
  | some q =>
    rw [machine] at machine'
    obtain ⟨exit, flow', strFlow'⟩ := ingressMachines_exit fancy' noIp' arrived kept machine
    obtain ⟨r, hr, out, drop, machines⟩ := ingressCounterBox_some machine (flow'.trans flow) (strFlow'.trans strFlow)
    obtain ⟨r', hr', out', drop', machines'⟩ := ingressCounterBox_some machine' (flow'.trans flow) (strFlow'.trans strFlow)
    obtain ⟨bloomKept, topKept⟩ := ingressMachines_reroute machine
    -- the reroute state the block looks at is still that of the two states
    have caught : ∀ o, catchesControl cfg (update ports inPort q.1 o) = catchesControl cfg (ports o) := by
      intro o
      by_cases here : o = inPort
      · subst here; rw [update_self]; exact catchesControl_congr bloomKept topKept
      · rw [update_of_ne here]
    have caught' : ∀ o, catchesControl (cfg.withTop prefixes)
        (update ports' inPort (q.1.withReroute (bloom inPort) (top inPort)) o) =
          catchesControl (cfg.withTop prefixes) (ports' o) := by
      intro o
      by_cases here : o = inPort
      · subst here; rw [update_self]; rfl
      · rw [update_of_ne here]
    have sameMachines : ∀ i, SameMachines (r.1 i) (r'.1 i) := by
      intro i
      refine (machines i).symm.trans (.trans ?_ (machines' i))
      by_cases here : i = inPort
      · subst here; rw [update_self, update_self]; exact sameMachines_withReroute ..
      · rw [update_of_ne here, update_of_ne here]; exact sameMachines_withReroute ..
    have decision : SameDecision r r' ↔ r.2.1.dropFlag = r'.2.1.dropFlag :=
      ⟨fun h => h.drop, fun h => ⟨h, out.trans out'.symm, sameMachines⟩⟩
    refine ⟨by rw [show box = some r from hr, show box' = some r' from hr']; rfl, ?_⟩
    intro a a' ha ha'
    obtain rfl : r = a := Option.some.inj (hr.symm.trans ha)
    obtain rfl : r' = a' := Option.some.inj (hr'.symm.trans ha')
    have exit' : exitPort cfg (ports inPort) hdr inPort m.outPort = q.2.1.exit := exit.symm
    rw [decision, drop, drop', exit', PktInfo.exit]
    simp only [caught, caught']
    cases dropped : q.2.1.dropFlag <;> cases leaves : q.2.1.outPort <;> simp

end

/-! A START acknowledgement reaches a port, once with an empty reroute filter and once with the entry set that
the all-zero flow hashes to. -/

def startAckHeader : FancyHeader := ({} : FancyHeader).setAction GREY_START |>.setAckFlag true |>.setFSMFlag true

def startAckFrame : Frame := { protocol := FANCY, bytes := startAckHeader.serialize }

def smallNode : Node smallConfig where
  switchId := 1
  forwarding := .portForwarding fun _ => none
  interfaces := [0]
  tmDropRate := 0
  failDropRate := 0

def freshPorts : Ports := fun _ => initPort smallConfig true

/-- The filter after a detection of a flow that shares the all-zero flow's entry. -/
def zeroCaught : Nat → Nat → RerouteBloomFilter := fun _ h => { set := h == 0 }

/-- The filter after a detection of another flow, which has every other entry. -/
def otherCaught : Nat → Nat → RerouteBloomFilter := fun _ h => { set := h != 0 }

/-- A filter that does not catch the all-zero flow, and a table in which every entry is set. -/
theorem control_independent_filled :
    let m := smallNode.arrival 0 startAckFrame { fancy := some startAckHeader }
    ∃ r r', ingressCounterBox smallConfig freshPorts 0 m = some r ∧
      ingressCounterBox (smallConfig.withTop [1])
        (fun i => (freshPorts i).withReroute (otherCaught i) (fun _ => { set := true })) 0 m = some r' ∧ SameDecision r r' := by
  intro m
  have returns : (ingressCounterBox smallConfig freshPorts 0 m).isSome := by decide
  obtain ⟨r, hr⟩ := Option.isSome_iff_exists.1 returns
  have independent := control_independent_iff smallNode [1] otherCaught (fun _ _ => { set := true }) freshPorts 0
    startAckFrame { fancy := some startAckHeader } startAckHeader rfl rfl
  obtain ⟨r', hr'⟩ := Option.isSome_iff_exists.1 (independent.1 ▸ returns)
  exact ⟨r, r', hr, hr', (independent.2 r r' hr hr').2 fun out _ => by rfl⟩

theorem control_dropped :
    let m := smallNode.arrival 0 startAckFrame { fancy := some startAckHeader }
    ∃ r r', ingressCounterBox smallConfig freshPorts 0 m = some r ∧
      ingressCounterBox smallConfig (fun i => (freshPorts i).withReroute (zeroCaught i) (freshPorts i).rerouteTop)
        0 m = some r' ∧ ¬SameDecision r r' := by
  intro m
  have passes : (ingressCounterBox smallConfig freshPorts 0 m).map (fun r => r.2.1.dropFlag) = some false := by decide
  have dropped : (ingressCounterBox smallConfig
      (fun i => (freshPorts i).withReroute (zeroCaught i) (freshPorts i).rerouteTop) 0 m).map
      (fun r => r.2.1.dropFlag) = some true := by decide
  obtain ⟨r, hr, drop⟩ := Option.map_eq_some_iff.1 passes
  obtain ⟨r', hr', drop'⟩ := Option.map_eq_some_iff.1 dropped
  refine ⟨r, r', hr, hr', fun same => ?_⟩
  have equal := same.drop
  simp only [drop, drop'] at equal
  cases equal

end Ns3Fancy.Switch

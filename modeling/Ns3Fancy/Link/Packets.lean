import Ns3Fancy.Link.Receive

/-!
# Packets that arrive and leave

A packet moves the machines that meter it: the machine of its tag or of its table entry and, for IPv4, the
wildcard machine. What a message means to one machine is `Msg.fwdFor` and `Msg.bwdFor`.
-/

namespace Ns3Fancy.Link
open Switch Buffer Function Session
set_option autoImplicit false

section
variable (cfg : FancyConfig)

/-- The message of a machine's sender that a message is. -/
def Msg.fwdFor (id : Nat) : Msg → Option (Fwd FiveTuple Request)
  | .start i q req => if i = id then some (.start q req) else none
  | .stop i q => if i = id then some (.stop q) else none
  | .ack i q => if i = id then some (.ack q) else none
  | .data flow ip tag wild =>
    if id = cfg.wildcardId then if ip then some (.data wild flow) else none
    else tag.bind fun t => if t.1 = id then some (.data (some t.2) flow) else none
  | .startAck _ _ | .report _ _ _ | .probe => none

/-- The message of a machine's receiver that a message is. -/
def Msg.bwdFor (id : Nat) : Msg → Option (Bwd Report)
  | .startAck i q => if i = id then some (.startAck q) else none
  | .report i q rep => if i = id then some (.report q rep) else none
  | .start _ _ _ | .stop _ _ | .ack _ _ | .data _ _ _ _ | .probe => none

/-- The receiver of a machine after a message. -/
def Msg.received (id : Nat) (msg : Msg) (r : Receiver Count) : Receiver Count :=
  match msg.fwdFor cfg id with
  | some m => (r.handle (variant cfg id) (meter cfg id) m).1
  | none => r

end

section
variable {cfg : FancyConfig} {p : FancyPortInfo}

/-! ## Packets that arrive -/

/-- A packet is counted for a machine. -/
theorem countPacket_some {sender : Bool} {id : Nat} {flow : FiveTuple} {g g' : GreyInfo}
    (counted : countPacket cfg sender id flow g = some g') :
    OffId cfg id g g' ∧ g'.greyState = g.greyState ∧ g'.currentSEQ = g.currentSEQ ∧
      count cfg id g' = ((count cfg id g).1 + 1,
        if id = cfg.treeId then treeCounting cfg sender (g.currentSEQ id).toNat flow (count cfg id g).2
        else (count cfg id g).2) := by
  have off : OffId cfg id g (g.setLocalCounter id (g.localCounter id + 1)) := (OffId.refl _).setLocalCounter _
  simp only [countPacket] at counted
  split at counted
  · rename_i isTree
    split at counted
    · cases counted
    · cases counted
      exact ⟨off.setTree _ isTree, rfl, rfl, by simp [count, isTree]⟩
  · rename_i notTree
    cases counted
    exact ⟨off, rfl, rfl, by simp [count, notTree]⟩

/-- The receivers after the wildcard machine has seen a packet. -/
theorem Settled.wildcardIngress (h : Settled cfg p) (m : PktInfo cfg.ns3) (wild : Option Nat) :
    Settled cfg (wildcardIngress cfg p m) ∧ senders cfg (wildcardIngress cfg p m) = senders cfg p ∧
      receivers cfg (wildcardIngress cfg p m) = update (receivers cfg p) cfg.wildcardId
        (if m.headers.ipv4.isSome then ((receiverView cfg cfg.wildcardId p).handle (variant cfg cfg.wildcardId)
          (meter cfg cfg.wildcardId) (.data wild m.flow)).1 else receiverView cfg cfg.wildcardId p) := by
  have untagged : (variant cfg cfg.wildcardId).tagged = false := by simp [variant]
  have notTree : cfg.wildcardId ≠ cfg.treeId := Nat.succ_ne_self _
  by_cases counting : p.greyRecv.greyState cfg.wildcardId = .counting
  · have soft : cfg.treeEnableSoftDetections = true :=
      started_wildcard ((h.recvState _).2 (by rw [counting]; simp))
    have phase : (receiverView cfg cfg.wildcardId p).phase = .counting := by simp [receiverView, counting, receiverPhase]
    by_cases ip : m.headers.ipv4.isSome
    · have hit : cfg.treeEnableSoftDetections ∧ p.greyRecv.greyState cfg.wildcardId = .counting ∧
          m.headers.ipv4.isSome := ⟨soft, counting, ip⟩
      have off : OffId cfg cfg.wildcardId p.greyRecv (p.greyRecv.setLocalCounter cfg.wildcardId
          (p.greyRecv.localCounter cfg.wildcardId + 1)) := (OffId.refl _).setLocalCounter _
      rw [Switch.wildcardIngress, if_pos hit, if_pos ip]
      refine ⟨h.setRecv rfl h.numbers h.recvState, rfl, ?_⟩
      rw [receiverView_setRecv off]
      congr 1
      simp only [Receiver.handle, phase, untagged, true_or, and_self, if_true]
      simp [receiverView, count, meter, notTree, counting, receiverPhase]
    · have miss : ¬(cfg.treeEnableSoftDetections ∧ p.greyRecv.greyState cfg.wildcardId = .counting ∧
          m.headers.ipv4.isSome) := fun hit => ip hit.2.2
      rw [Switch.wildcardIngress, if_neg miss, if_neg ip]
      exact ⟨h, rfl, (update_eq_self _ _).symm⟩
  · have miss : ¬(cfg.treeEnableSoftDetections ∧ p.greyRecv.greyState cfg.wildcardId = .counting ∧
        m.headers.ipv4.isSome) := fun hit => counting hit.2.1
    have phase : (receiverView cfg cfg.wildcardId p).phase ≠ .counting := receiverPhase_counting.not.2 counting
    have ignores : ((receiverView cfg cfg.wildcardId p).handle (variant cfg cfg.wildcardId) (meter cfg cfg.wildcardId)
        (.data wild m.flow)).1 = receiverView cfg cfg.wildcardId p := by
      simp [Receiver.handle, phase]
    rw [Switch.wildcardIngress, if_neg miss, ignores, ite_self]
    exact ⟨h, rfl, (update_eq_self _ _).symm⟩

/-- The receivers after the machine of a tag has seen a packet. -/
theorem Settled.ingressCount (h : Settled cfg p) {hdr : FancyHeader} {flow : FiveTuple} {p' : FancyPortInfo}
    (flag : hdr.getCountFlag = true) (below : hdr.id.toNat ≤ cfg.treeId)
    (run : ingressCount cfg hdr flow p = some p') :
    Settled cfg p' ∧ senders cfg p' = senders cfg p ∧
      receivers cfg p' = update (receivers cfg p) hdr.id.toNat ((receiverView cfg hdr.id.toNat p).handle
        (variant cfg hdr.id.toNat) (meter cfg hdr.id.toNat) (.data (some hdr.seq.toNat) flow)).1 := by
  have notWildcard : hdr.id.toNat ≠ cfg.wildcardId := Nat.ne_of_lt (Nat.lt_succ_of_le below)
  have tagged : (variant cfg hdr.id.toNat).tagged = true := by simp [variant, notWildcard]
  have seq : hdr.seq.toUInt32 = p.greyRecv.currentSEQ hdr.id.toNat ↔
      some hdr.seq.toNat = some (receiverView cfg hdr.id.toNat p).seq := by
    rw [← UInt32.toNat_inj, UInt16.toNat_toUInt32, Option.some.injEq]
    rfl
  have counting : p.greyRecv.greyState hdr.id.toNat = .counting ↔ (receiverView cfg hdr.id.toNat p).phase = .counting := by
    simp only [receiverView]
    cases p.greyRecv.greyState hdr.id.toNat <;> simp [receiverPhase]
  simp only [Switch.ingressCount, flag, true_and, seq, counting] at run
  simp only [Receiver.handle, tagged, Bool.true_eq_false, false_or]
  split at run
  · rename_i hit
    obtain ⟨g, counted, rfl⟩ := Option.map_eq_some_iff.1 run
    obtain ⟨off, states, numbers, metered⟩ := countPacket_some counted
    refine ⟨h.setRecv off.currentEvent (by rw [numbers]; exact h.numbers) (by rw [states]; exact h.recvState), rfl, ?_⟩
    rw [receiverView_setRecv off, if_pos hit]
    congr 1
    simp only [receiverView, states, numbers, metered, off.currentEvent]
    rfl
  · rename_i miss
    cases run
    rw [if_neg miss]
    exact ⟨h, rfl, (update_eq_self _ _).symm⟩

/-- What a port did with a packet that arrived: each receiver that meters it counted it, and it went on to the rest of
the switch. -/
structure HandledPacket (cfg : FancyConfig) (p : FancyPortInfo) (msg : Msg) (o : Outcome) : Prop where
  settled : Settled cfg o.port
  senders : senders cfg o.port = Link.senders cfg p
  receivers : ∀ j, receivers cfg o.port j = msg.received cfg j (Link.receivers cfg p j)
  sent : o.sent = []
  log : o.log = []

/-- **A packet that arrives at a port.** -/
theorem Settled.receive_data (h : Settled cfg p) {frame : Frame} {headers : Headers cfg.ns3} {payload : Bytes}
    {tag : Option (Nat × Nat)} (wild : Option Nat) (parsed : parse frame = some (headers, payload))
    (tagged : HasTag cfg headers tag) {o : Outcome} (run : receive cfg p frame = some o) :
    HandledPacket cfg p (.data (getFlowFiveTuple headers) headers.ipv4.isSome tag wild) o := by
  obtain ⟨settled, senders, receivers⟩ := h.wildcardIngress (arrived cfg frame headers) wild
  generalize port : Switch.wildcardIngress cfg p (arrived cfg frame headers) = p₁ at settled senders receivers
  have wildcard : ∀ j, Link.receivers cfg p₁ j =
      (Msg.data (getFlowFiveTuple headers) headers.ipv4.isSome none wild).received cfg j (Link.receivers cfg p j) := by
    intro j
    rw [receivers]
    by_cases here : j = cfg.wildcardId
    · subst here
      rw [update_self]
      by_cases ip : headers.ipv4.isSome <;> simp [Msg.received, Msg.fwdFor, arrived, ip, Link.receivers]
    · rw [update_of_ne here]
      simp [Msg.received, Msg.fwdFor, here]
  -- a packet without a tag goes on as it is
  have untagged : o = { port := p₁ } → tag = none →
      HandledPacket cfg p (.data (getFlowFiveTuple headers) headers.ipv4.isSome tag wild) o := by
    rintro rfl rfl
    exact ⟨settled, senders, wildcard, rfl, rfl⟩
  rw [receive, parsed, Option.bind_some] at run
  simp only [ingressMachines, port] at run
  cases fancy : headers.fancy with
  | none =>
    simp only [HasTag, fancy] at tagged
    simp only [arrived, fancy, Option.bind_some] at run
    exact untagged (by simpa using run.symm) tagged
  | some hdr =>
    simp only [HasTag, fancy] at tagged
    simp only [arrived, fancy] at run
    rcases tagged with ⟨action, none⟩ | ⟨action, next, ip, below, rfl⟩
    · have flag : hdr.getCountFlag = false := by rw [FancyHeader.getCountFlag, action]; decide
      have clear : (hdr.setCountFlag false).action = 0 := by
        simp only [FancyHeader.setCountFlag, action]; decide
      have keepAlive : (hdr.setCountFlag false).getAction = KEEP_ALIVE := by rw [FancyHeader.getAction, clear]; decide
      have notFsm : (hdr.setCountFlag false).getFSMFlag = false := by rw [FancyHeader.getFSMFlag, clear]; decide
      have counts : ∀ flow, Switch.ingressCount cfg hdr flow p₁ = some p₁ := by
        intro flow
        simp [Switch.ingressCount, flag]
      refine untagged ?_ none
      simp only [keepAlive, notFsm, counts, Option.bind_some, true_and, ne_eq, not_true_eq_false, Bool.false_eq_true,
        if_false] at run
      split at run
      · simpa using run.symm
      · split at run <;> simpa using run.symm
    · have flag : hdr.getCountFlag = true := by rw [FancyHeader.getCountFlag, action]; decide
      have clear : (hdr.setCountFlag false).action = 0 := by
        simp only [FancyHeader.setCountFlag, action]; decide
      have keepAlive : (hdr.setCountFlag false).getAction = KEEP_ALIVE := by rw [FancyHeader.getAction, clear]; decide
      have notFsm : (hdr.setCountFlag false).getFSMFlag = false := by rw [FancyHeader.getFSMFlag, clear]; decide
      have notProbe : (hdr.setCountFlag false).nextHeader ≠ 0 := next
      have known : hdr.id.toNat ≤ cfg.wildcardId := Nat.le_succ_of_le below
      simp only [keepAlive, notFsm, notProbe, known, true_and, ne_eq, not_true_eq_false, Bool.false_eq_true, if_false,
        if_true] at run
      cases counted : Switch.ingressCount cfg hdr (getFlowFiveTuple headers) p₁ with
      | none => simp [counted] at run
      | some p₂ =>
        obtain ⟨settled', senders', receivers'⟩ := settled.ingressCount flag below counted
        obtain rfl : o = { port := p₂ } := by simpa [counted] using run.symm
        refine ⟨settled', senders'.trans senders, fun j => ?_, rfl, rfl⟩
        have notWildcard : hdr.id.toNat ≠ cfg.wildcardId := Nat.ne_of_lt (Nat.lt_succ_of_le below)
        rw [receivers']
        by_cases here : j = hdr.id.toNat
        · subst here
          have old := wildcard hdr.id.toNat
          simp only [Msg.received, Msg.fwdFor, notWildcard, if_false, Option.bind_none] at old
          rw [update_self]
          simp only [Msg.received, Msg.fwdFor, notWildcard, if_false, Option.bind_some, if_true, ← old]
          rfl
        · rw [update_of_ne here, wildcard j]
          simp [Msg.received, Msg.fwdFor, Ne.symm here]

/-- **A probe that arrives at a port.** -/
theorem Settled.receive_probe (h : Settled cfg p) {frame : Frame} {hdr : FancyHeader}
    (parsed : parse frame = some (({ fancy := some hdr } : Headers cfg.ns3), [])) (action : hdr.action = 0)
    (next : hdr.nextHeader = 0) {o : Outcome} (run : receive cfg p frame = some o) : HandledPacket cfg p .probe o := by
  have wildcard : Switch.wildcardIngress cfg p (arrived cfg frame { fancy := some hdr }) = p := by
    simp [Switch.wildcardIngress, arrived]
  have clear : (hdr.setCountFlag false).action = 0 := by
    simp only [FancyHeader.setCountFlag, action]; decide
  have keepAlive : (hdr.setCountFlag false).getAction = KEEP_ALIVE ∧ (hdr.setCountFlag false).nextHeader = 0 :=
    ⟨by rw [FancyHeader.getAction, clear]; decide, next⟩
  rw [receive, parsed, Option.bind_some] at run
  simp only [ingressMachines, wildcard] at run
  simp only [arrived, if_pos keepAlive, Option.bind_some] at run
  obtain rfl : o = { port := p } := by simpa using run.symm
  exact ⟨h, rfl, fun _ => rfl, rfl, rfl⟩

/-! ## Packets that leave -/

/-- The machine of a flow's table entry. -/
def machineOf (cfg : FancyConfig) (flow : FiveTuple) : Nat := cfg.matchTopEntriesTable (cfg.packetStr flow)

/-- The machines that meter a packet. -/
def Meters (cfg : FancyConfig) (flow : FiveTuple) (ip : Bool) (id : Nat) : Prop :=
  ip = true ∧ (id = cfg.wildcardId ∨ id = machineOf cfg flow)

instance (flow : FiveTuple) (ip : Bool) (id : Nat) : Decidable (Meters cfg flow ip id) :=
  inferInstanceAs (Decidable (_ ∧ _))

theorem machineOf_le (flow : FiveTuple) : machineOf cfg flow ≤ cfg.treeId := cfg.matchTopEntriesTable_le _

theorem machineOf_ne (flow : FiveTuple) : machineOf cfg flow ≠ cfg.wildcardId :=
  Nat.ne_of_lt (Nat.lt_succ_of_le (machineOf_le flow))

theorem sender_counting (cfg : FancyConfig) (p : FancyPortInfo) (id : Nat) :
    p.greySend.greyState id = .counting ↔ (senderView cfg id p).phase = .counting :=
  senderPhase_counting.symm

/-- The senders after the wildcard machine has counted a packet. -/
theorem Settled.wildcardEgress (h : Settled cfg p) (m : PktInfo cfg.ns3) :
    Settled cfg (wildcardEgress cfg p m).1 ∧ receivers cfg (wildcardEgress cfg p m).1 = receivers cfg p ∧
      senders cfg (wildcardEgress cfg p m).1 = update (senders cfg p) cfg.wildcardId
        (if m.headers.ipv4.isSome then ((senderView cfg cfg.wildcardId p).emit (variant cfg cfg.wildcardId)
          (meter cfg cfg.wildcardId) m.flow).1 else senderView cfg cfg.wildcardId p) ∧
      (wildcardEgress cfg p m).2 =
        if m.headers.ipv4.isSome ∧ (senderView cfg cfg.wildcardId p).phase = .counting then
          [.counted cfg.wildcardId (senderView cfg cfg.wildcardId p).seq m.flow []] else [] := by
  have notTree : cfg.wildcardId ≠ cfg.treeId := Nat.succ_ne_self _
  by_cases hit : p.greySend.greyState cfg.wildcardId = .counting ∧ p.switchPort ∧ m.headers.ipv4.isSome
  · obtain ⟨counting, -, ip⟩ := id hit
    have phase : (senderView cfg cfg.wildcardId p).phase = .counting := (sender_counting cfg p _).1 counting
    have off : OffId cfg cfg.wildcardId p.greySend (p.greySend.setLocalCounter cfg.wildcardId
        (p.greySend.localCounter cfg.wildcardId + 1)) := (OffId.refl _).setLocalCounter _
    rw [Switch.wildcardEgress, if_pos hit, if_pos ip, if_pos ⟨ip, phase⟩]
    refine ⟨h.setSend rfl rfl, rfl, ?_, rfl⟩
    rw [senders_setSend off, Sender.emit, if_pos phase]
    congr 1
    simp [senderView, count, meter, notTree]
  · have quiet : m.headers.ipv4.isSome → ¬(senderView cfg cfg.wildcardId p).phase = .counting := fun ip phase =>
      hit ⟨(sender_counting cfg p _).2 phase, h.towardsSwitch, ip⟩
    have same : (if m.headers.ipv4.isSome then ((senderView cfg cfg.wildcardId p).emit (variant cfg cfg.wildcardId)
        (meter cfg cfg.wildcardId) m.flow).1 else senderView cfg cfg.wildcardId p) = senderView cfg cfg.wildcardId p := by
      split
      · rename_i ip
        rw [Sender.emit, if_neg (quiet ip)]
      · rfl
    rw [Switch.wildcardEgress, if_neg hit, same, if_neg fun both => quiet both.1 both.2]
    exact ⟨h, rfl, (update_eq_self _ _).symm, rfl⟩

/-- What leaves the egress box when the port leads to a switch. -/
theorem egressCounting_some (switch : p.switchPort = true) {m : PktInfo cfg.ns3}
    {r : FancyPortInfo × PktInfo cfg.ns3 × List PortLog} (run : egressCounting cfg p m = some r) :
    (r = ((wildcardEgress cfg p m).1, m, (wildcardEgress cfg p m).2) ∧
      ¬((wildcardEgress cfg p m).1.greySend.greyState m.id = .counting ∧ m.headers.ipv4.isSome)) ∨
    ∃ g, countPacket cfg true m.id m.flow (wildcardEgress cfg p m).1.greySend = some g ∧
      (wildcardEgress cfg p m).1.greySend.greyState m.id = .counting ∧ m.headers.ipv4.isSome ∧
      r = ({ (wildcardEgress cfg p m).1 with greySend := g },
        tagPacket cfg m.id ((wildcardEgress cfg p m).1.greySend.currentSEQ m.id).toUInt16 m,
        (wildcardEgress cfg p m).2 ++
          [.counted m.id ((wildcardEgress cfg p m).1.greySend.currentSEQ m.id).toNat m.flow
            (if m.id = cfg.treeId then countedCells cfg ((wildcardEgress cfg p m).1.greySend.currentSEQ m.id).toNat m.flow
              (wildcardEgress cfg p m).1.greySend.counterTree else [])]) := by
  have flag : (wildcardEgress cfg p m).1.switchPort = true := by
    simp only [Switch.wildcardEgress]
    split <;> exact switch
  simp only [egressCounting] at run
  split at run
  · rename_i hit
    obtain ⟨g, counted, rfl⟩ := Option.map_eq_some_iff.1 run
    exact Or.inr ⟨g, counted, hit.1, hit.2.2, rfl⟩
  · rename_i miss
    refine Or.inl ⟨?_, fun hit => miss ⟨hit.1, flag, hit.2⟩⟩
    split at run
    · rw [if_neg (by simp [flag])] at run
      exact (Option.some.inj run).symm
    · exact (Option.some.inj run).symm

theorem Reads.tagged {pkt : Packet cfg.ns3} (wf : pkt.WellFormed) {hdr : FancyHeader} (tags : hdr.Tags pkt)
    {tag : Option (Nat × Nat)} (hasTag : HasTag cfg { pkt.headers with fancy := some hdr.bare } tag)
    (wild : Option Nat) : Reads cfg { protocol := FANCY, bytes := hdr.serialize ++ pkt.frame.bytes }
      (.data (getFlowFiveTuple pkt.headers) pkt.headers.ipv4.isSome tag wild) := by
  have reads := @Reads.data cfg _ _ _ _ wild (parse_tagged wf tags) hasTag
  rw [← getFlowFiveTuple_reread pkt.headers pkt.payload]
  exact reads

/-- The frame of a packet that leaves untagged. -/
theorem reads_untagged (pkt : HostPacket cfg) (earlier : Option (UInt32 × UInt16)) (wild : Option Nat)
    {m : PktInfo cfg.ns3} (headers : m.headers = (outgoing cfg pkt earlier).headers)
    (protocol : m.protocol = (outgoing cfg pkt earlier).protocol) :
    Reads cfg { protocol := m.protocol, bytes := doDeparser m.headers pkt.val.payload }
      (.data (getFlowFiveTuple pkt.val.headers) pkt.val.headers.ipv4.isSome none wild) := by
  obtain ⟨pkt, wf⟩ := pkt
  rw [headers, protocol]
  cases earlier with
  | none =>
    have plain : ({ pkt.headers with fancy := none } : Headers cfg.ns3) = pkt.headers := by rw [← wf.noFancy]
    simp only [outgoing, Option.map_none, Option.isSome_none, Bool.false_eq_true, if_false, plain]
    have reads := @Reads.data cfg _ _ _ none wild (parse_frame wf) (by rw [HasTag, wf.reread.noFancy])
    rw [← getFlowFiveTuple_reread pkt.headers pkt.payload]
    exact reads
  | some e =>
    have tags : FancyHeader.Tags { id := e.1, seq := e.2, nextHeader := pkt.protocol } pkt := ⟨Or.inl rfl, rfl⟩
    have bytes : doDeparser ({ pkt.headers with fancy := some { id := e.1, seq := e.2, nextHeader := pkt.protocol } } :
        Headers cfg.ns3) pkt.payload =
        FancyHeader.serialize { id := e.1, seq := e.2, nextHeader := pkt.protocol } ++ pkt.frame.bytes := by
      simp only [Packet.frame, doDeparser, wf.noFancy]
      rfl
    simp only [outgoing, Option.map_some, Option.isSome_some, if_true, bytes]
    exact .tagged wf tags (Or.inl ⟨rfl, rfl⟩) wild

/-- The frame of a packet that leaves with a tag. -/
theorem reads_tagged (pkt : HostPacket cfg) (earlier : Option (UInt32 × UInt16)) (wild : Option Nat) {id : Nat}
    (small : id ≤ cfg.treeId) (seq : UInt16) {m : PktInfo cfg.ns3} (ip : m.headers.ipv4.isSome)
    (headers : m.headers = (outgoing cfg pkt earlier).headers)
    (protocol : m.protocol = (outgoing cfg pkt earlier).protocol) :
    Reads cfg { protocol := (tagPacket cfg id seq m).protocol
                bytes := doDeparser (tagPacket cfg id seq m).headers pkt.val.payload }
      (.data (getFlowFiveTuple pkt.val.headers) pkt.val.headers.ipv4.isSome (some (id, seq.toNat)) wild) := by
  obtain ⟨pkt, wf⟩ := pkt
  have ip' : pkt.headers.ipv4.isSome := by rw [headers] at ip; exact ip
  have next : pkt.protocol ≠ 0 := by rw [wf.ipv4.1 ip']; decide
  have known : id ≤ cfg.wildcardId := Nat.le_succ_of_le small
  have hid : (UInt32.ofNat id).toNat = id := toNat_ofNat_id known
  have tagged : ∃ hdr : FancyHeader, (tagPacket cfg id seq m).protocol = FANCY ∧
      (tagPacket cfg id seq m).headers = { pkt.headers with fancy := some hdr } ∧ hdr.action = 0x80 ∧
      hdr.nextHeader = pkt.protocol ∧ hdr.id = .ofNat id ∧ hdr.seq = seq := by
    cases earlier with
    | none =>
      have none : m.headers.fancy = none := by rw [headers]; rfl
      have protocol' : m.protocol = pkt.protocol := protocol
      simp only [tagPacket, none]
      exact ⟨_, trivial, by rw [headers]; rfl, rfl, protocol', rfl, rfl⟩
    | some e =>
      have fancy : m.headers.fancy = some { id := e.1, seq := e.2, nextHeader := pkt.protocol } := by rw [headers]; rfl
      have idle : FancyHeader.getAction (((FancyHeader.setCountFlag true { id := e.1, seq := e.2, nextHeader := pkt.protocol })
          |>.setId (.ofNat id))) = KEEP_ALIVE := by
        simp only [FancyHeader.getAction, FancyHeader.setCountFlag, FancyHeader.setId]; decide
      simp only [tagPacket, fancy, idle, if_true]
      refine ⟨_, protocol, by rw [headers]; rfl, ?_, rfl, rfl, rfl⟩
      simp only [FancyHeader.setSeq, FancyHeader.setId, FancyHeader.setCountFlag]
      decide
  obtain ⟨hdr, hprotocol, hheaders, action, hnext, hdrId, hdrSeq⟩ := tagged
  have bytes : doDeparser ({ pkt.headers with fancy := some hdr } : Headers cfg.ns3) pkt.payload =
      hdr.serialize ++ pkt.frame.bytes := by
    simp only [Packet.frame, doDeparser, wf.noFancy]
    rfl
  have tags : hdr.Tags pkt := ⟨Or.inr action, hnext⟩
  rw [hprotocol, hheaders, bytes]
  refine .tagged wf tags (Or.inr ⟨action, fun zero => next (hnext.symm.trans zero), ip', ?_, ?_⟩) wild
  · rw [show hdr.bare.id = .ofNat id from hdrId, hid]; exact small
  · rw [show hdr.bare.id = .ofNat id from hdrId, hid, show hdr.bare.seq = seq from hdrSeq]

/-- The session a sender counts for, as it travels. -/
def sessionTag (s : Sender Count) : Option Nat := if s.phase = .counting then some (s.seq % 65536) else none

theorem emit_snd (id : Nat) (s : Sender Count) (flow : FiveTuple) :
    (s.emit (variant cfg id) (meter cfg id) flow).2 = .data (sessionTag s) flow := by
  simp only [Sender.emit, sessionTag]
  split <;> rfl

/-- The tag of a packet that leaves. -/
def leavingTag (cfg : FancyConfig) (p : FancyPortInfo) (flow : FiveTuple) (ip : Bool) : Option (Nat × Nat) :=
  if ip then (sessionTag (senders cfg p (machineOf cfg flow))).map fun q => (machineOf cfg flow, q) else none

/-- What a packet that leaves is to each machine. -/
theorem fwdFor_leaving (p : FancyPortInfo) (flow : FiveTuple) (ip : Bool) (j : Nat) :
    (Msg.data flow ip (leavingTag cfg p flow ip) (sessionTag (senders cfg p cfg.wildcardId))).fwdFor cfg j =
      if Meters cfg flow ip j ∧ (j = cfg.wildcardId ∨ (senders cfg p j).phase = .counting) then
        some ((senders cfg p j).emit (variant cfg j) (meter cfg j) flow).2 else none := by
  rw [emit_snd]
  by_cases here : j = cfg.wildcardId
  · subst here
    simp [Msg.fwdFor, Meters]
  · by_cases meters : ip = true ∧ j = machineOf cfg flow
    · obtain ⟨rfl, rfl⟩ := meters
      by_cases phase : (senders cfg p (machineOf cfg flow)).phase = .counting <;>
        simp [Msg.fwdFor, here, leavingTag, sessionTag, phase, Meters]
    · have miss : ¬(Meters cfg flow ip j ∧ (j = cfg.wildcardId ∨ (senders cfg p j).phase = .counting)) :=
        fun hit => meters ⟨hit.1.1, hit.1.2.resolve_left here⟩
      rw [if_neg miss]
      simp only [Msg.fwdFor, here, if_false, Option.bind_eq_none_iff, leavingTag]
      intro t mem
      split at mem
      · rename_i isIp
        obtain ⟨q, -, rfl⟩ := Option.map_eq_some_iff.1 mem
        exact if_neg fun same => meters ⟨isIp, same.symm⟩
      · cases mem

/-- What a port did with a packet to send: the reroute block took it, or the machines that meter it counted it and it
left. -/
inductive Emitted (cfg : FancyConfig) (p : FancyPortInfo) (flow : FiveTuple) (ip : Bool) (o : Outcome) : Prop where
  | taken : Settled cfg o.port → receivers cfg o.port = receivers cfg p → senders cfg o.port = senders cfg p →
      o.sent = [] → o.log = [] → Emitted cfg p flow ip o
  | left : Settled cfg o.port → receivers cfg o.port = receivers cfg p →
      (∀ j, senders cfg o.port j = if Meters cfg flow ip j then
        ((senders cfg p j).emit (variant cfg j) (meter cfg j) flow).1 else senders cfg p j) →
      List.Forall₂ (Reads cfg) o.sent
        [.data flow ip (leavingTag cfg p flow ip) (sessionTag (senders cfg p cfg.wildcardId))] →
      (∀ j lost, o.log.flatMap (logObs cfg j lost) =
        if Meters cfg flow ip j ∧ (senders cfg p j).phase = .counting then [.counted (senders cfg p j).seq flow lost]
        else []) →
      (∀ seq f cells, .counted cfg.treeId seq f cells ∈ o.log → seq = (senders cfg p cfg.treeId).seq ∧ f = flow ∧
        cells = countedCells cfg seq flow (senders cfg p cfg.treeId).data.2) →
      Emitted cfg p flow ip o

theorem outgoing_flow (pkt : HostPacket cfg) (earlier : Option (UInt32 × UInt16)) :
    (outgoing cfg pkt earlier).flow = getFlowFiveTuple pkt.val.headers := rfl

/-- What the reroute block adds to a packet it lets through. -/
theorem reroute_outgoing (pkt : HostPacket cfg) (earlier : Option (UInt32 × UInt16)) :
    (reroute cfg p (outgoing cfg pkt earlier)).2.id = machineOf cfg (getFlowFiveTuple pkt.val.headers) ∧
      (reroute cfg p (outgoing cfg pkt earlier)).2.flow = getFlowFiveTuple pkt.val.headers := by
  have empty : (outgoing cfg pkt earlier).strFlow = "" := rfl
  constructor
  · simp only [reroute, empty, if_true, apply_ite Prod.snd, apply_ite PktInfo.id, ite_self]
    rfl
  · simp only [reroute, apply_ite Prod.snd, apply_ite PktInfo.flow, ite_self]
    rfl

/-- A port when the wildcard machine has counted a packet, and what it logged. -/
structure WildCounted (cfg : FancyConfig) (p : FancyPortInfo) (flow : FiveTuple) (ip : Bool) (p' : FancyPortInfo)
    (log : List PortLog) : Prop where
  settled : Settled cfg p'
  receivers_eq : receivers cfg p' = receivers cfg p
  senders_eq : senders cfg p' = update (senders cfg p) cfg.wildcardId
    (if ip then ((senders cfg p cfg.wildcardId).emit (variant cfg cfg.wildcardId) (meter cfg cfg.wildcardId) flow).1
      else senders cfg p cfg.wildcardId)
  logged : log = if ip ∧ (senders cfg p cfg.wildcardId).phase = .counting then
    [.counted cfg.wildcardId (senders cfg p cfg.wildcardId).seq flow []] else []

namespace WildCounted
variable {p' : FancyPortInfo} {flow : FiveTuple} {ip : Bool} {log : List PortLog} {sent : List Frame}

theorem other (w : WildCounted cfg p flow ip p' log) {j : Nat} (ne : j ≠ cfg.wildcardId) :
    senders cfg p' j = senders cfg p j := by
  rw [w.senders_eq, update_of_ne ne]

theorem obs (w : WildCounted cfg p flow ip p' log) (j : Nat) (lost : Bool) : log.flatMap (logObs cfg j lost) =
    if j = cfg.wildcardId ∧ ip ∧ (senders cfg p j).phase = .counting then
      [.counted (senders cfg p j).seq flow lost] else [] := by
  rw [w.logged]
  by_cases here : j = cfg.wildcardId
  · subst here
    split <;> simp_all [logObs]
  · have miss : ¬(j = cfg.wildcardId ∧ ip ∧ (senders cfg p j).phase = .counting) := fun hit => here hit.1
    rw [if_neg miss]
    split <;> simp [logObs, Ne.symm here]

theorem no_cells (w : WildCounted cfg p flow ip p' log) (seq : Nat) (f : FiveTuple) (cells : List (Nat × Nat)) :
    .counted cfg.treeId seq f cells ∉ log := by
  intro mem
  rw [w.logged] at mem
  split at mem <;> simp [FancyAttributes.treeId, FancyConfig.wildcardId] at mem

/-- The packet leaves without a tag if the machine of its table entry does not count. -/
theorem uncounted (w : WildCounted cfg p flow ip p' log)
    (idle : ip → ¬(senders cfg p (machineOf cfg flow)).phase = .counting)
    (reads : List.Forall₂ (Reads cfg) sent [.data flow ip none (sessionTag (senders cfg p cfg.wildcardId))]) :
    Emitted cfg p flow ip { port := p', sent := sent, log := log } := by
  have untagged : leavingTag cfg p flow ip = none := by
    simp only [leavingTag, sessionTag]
    split
    · rename_i isIp
      rw [if_neg (idle isIp), Option.map_none]
    · rfl
  refine .left w.settled w.receivers_eq ?_ ?_ ?_ fun seq f cells mem => absurd mem (w.no_cells seq f cells)
  · intro j
    dsimp only
    rw [w.senders_eq]
    by_cases here : j = cfg.wildcardId
    · subst here
      simp [Meters]
    · rw [update_of_ne here]
      split
      · rename_i meters
        obtain ⟨isIp, rfl⟩ := And.imp_right (Or.resolve_left · here) meters
        rw [Sender.emit, if_neg (idle isIp)]
      · rfl
  · rw [untagged]
    exact reads
  · intro j lost
    dsimp only
    rw [w.obs]
    by_cases here : j = cfg.wildcardId
    · simp [Meters, here]
    · rw [if_neg fun hit => here hit.1, if_neg]
      rintro ⟨⟨isIp, same⟩, phase⟩
      obtain rfl := same.resolve_left here
      exact idle isIp phase

/-- If it counts, the packet leaves with its tag. -/
theorem counted (w : WildCounted cfg p flow ip p' log) (isIp : ip = true)
    (phase : (senders cfg p (machineOf cfg flow)).phase = .counting) {g : GreyInfo}
    (counted : countPacket cfg true (machineOf cfg flow) flow p'.greySend = some g)
    (reads : List.Forall₂ (Reads cfg) sent [.data flow ip
      (some (machineOf cfg flow, (p'.greySend.currentSEQ (machineOf cfg flow)).toUInt16.toNat))
      (sessionTag (senders cfg p cfg.wildcardId))]) :
    Emitted cfg p flow ip
      { port := { p' with greySend := g }
        sent := sent
        log := log ++ [.counted (machineOf cfg flow) (p'.greySend.currentSEQ (machineOf cfg flow)).toNat flow
          (if machineOf cfg flow = cfg.treeId then
            countedCells cfg (p'.greySend.currentSEQ (machineOf cfg flow)).toNat flow p'.greySend.counterTree else [])] } := by
  have notWildcard : machineOf cfg flow ≠ cfg.wildcardId := machineOf_ne flow
  have seq : (p'.greySend.currentSEQ (machineOf cfg flow)).toNat = (senders cfg p (machineOf cfg flow)).seq :=
    congrArg Sender.seq (w.other notWildcard)
  have data : count cfg (machineOf cfg flow) p'.greySend = (senders cfg p (machineOf cfg flow)).data :=
    congrArg Sender.data (w.other notWildcard)
  have tag : leavingTag cfg p flow ip =
      some (machineOf cfg flow, (p'.greySend.currentSEQ (machineOf cfg flow)).toUInt16.toNat) := by
    rw [UInt32.toNat_toUInt16, seq]
    simp [leavingTag, sessionTag, isIp, phase]
  obtain ⟨off, states, numbers, metered⟩ := countPacket_some counted
  have moved : senders cfg { p' with greySend := g } = update (senders cfg p') (machineOf cfg flow)
      ((senders cfg p (machineOf cfg flow)).emit (variant cfg (machineOf cfg flow)) (meter cfg (machineOf cfg flow))
        flow).1 := by
    rw [senders_setSend off]
    congr 1
    have phase' : senderPhase (g.greyState (machineOf cfg flow)) = .counting := by
      rw [states]
      exact (congrArg Sender.phase (w.other notWildcard)).trans phase
    simp only [Sender.emit, phase, if_true, senderView, phase', numbers, metered, seq, data]
    rfl
  refine .left (w.settled.setSend off.currentEvent states) w.receivers_eq ?_ ?_ ?_ ?_
  · intro j
    dsimp only
    rw [moved]
    by_cases here : j = machineOf cfg flow
    · subst here
      simp [Meters, isIp]
    · rw [update_of_ne here, w.senders_eq]
      by_cases wild : j = cfg.wildcardId
      · subst wild
        simp [Meters, isIp]
      · rw [update_of_ne wild, if_neg fun hit => (hit.2.resolve_left wild |> here)]
  · rw [tag]
    exact reads
  · intro j lost
    dsimp only
    rw [List.flatMap_append, w.obs, List.flatMap_singleton]
    simp only [logObs, seq]
    by_cases here : j = machineOf cfg flow
    · subst here
      simp [notWildcard, Meters, isIp, phase]
    · simp [Ne.symm here, here, Meters, isIp]
  · intro k f cells mem
    rcases List.mem_append.1 mem with mem | mem
    · exact absurd mem (w.no_cells k f cells)
    · simp only [List.mem_singleton, PortLog.counted.injEq] at mem
      obtain ⟨isTree, rfl, rfl, rfl⟩ := mem
      have tree := congrArg Prod.snd data
      simp only [count, ← isTree, if_true] at tree
      rw [if_pos isTree.symm, tree, ← isTree]
      simp only [← isTree] at seq
      exact ⟨seq, rfl, rfl⟩

end WildCounted

/-- The wildcard machine counts a packet that the reroute block has let through. -/
theorem Settled.wildCounted {p₀ : FancyPortInfo} (settled : Settled cfg p₀) (same : SameMachines p p₀) (m : PktInfo cfg.ns3) :
    WildCounted cfg p m.flow m.headers.ipv4.isSome (Switch.wildcardEgress cfg p₀ m).1 (Switch.wildcardEgress cfg p₀ m).2 := by
  obtain ⟨settled', receivers', senders', log⟩ := settled.wildcardEgress m
  rw [receivers_congr same] at receivers'
  rw [senders_congr same, ← senderView_congr same] at senders'
  rw [← senderView_congr same] at log
  exact ⟨settled', receivers', senders', log⟩

/-- **A packet that leaves by a port.** -/
theorem Settled.emit (h : Settled cfg p) {pkt : HostPacket cfg} {earlier : Option (UInt32 × UInt16)} {o : Outcome}
    (run : Link.emit cfg p pkt earlier = some o) :
    Emitted cfg p (getFlowFiveTuple pkt.val.headers) pkt.val.headers.ipv4.isSome o := by
  obtain ⟨hid, hflow⟩ := reroute_outgoing (p := p) pkt earlier
  obtain ⟨headers, protocol, -⟩ := reroute_snd p (outgoing cfg pkt earlier)
  have same := sameMachines_reroute p (outgoing cfg pkt earlier)
  have settled := h.congr same (switchPort_reroute p (outgoing cfg pkt earlier))
  simp only [Link.emit] at run
  generalize reroute cfg p (outgoing cfg pkt earlier) = r at *
  obtain ⟨p₀, m⟩ := r
  dsimp only at hid hflow headers protocol same settled run
  have ip : m.headers.ipv4.isSome = pkt.val.headers.ipv4.isSome := by rw [headers]; rfl
  split at run
  · cases run
    exact .taken settled (receivers_congr same) (senders_congr same) rfl rfl
  · obtain ⟨e, counting, rfl⟩ := Option.map_eq_some_iff.1 run
    have w := settled.wildCounted same m
    rw [hflow, ip] at w
    have entry : (Switch.wildcardEgress cfg p₀ m).1.greySend.greyState m.id = .counting ↔
        (senders cfg p (machineOf cfg (getFlowFiveTuple pkt.val.headers))).phase = .counting := by
      rw [sender_counting cfg, hid, ← w.other (machineOf_ne _)]
      rfl
    rcases egressCounting_some settled.towardsSwitch counting with ⟨rfl, quiet⟩ | ⟨g, counted, busy, isIp, rfl⟩
    · rw [entry, ip] at quiet
      exact w.uncounted (fun isIp phase => quiet ⟨phase, isIp⟩) (.cons (reads_untagged pkt earlier _ headers protocol) .nil)
    · have reads := reads_tagged pkt earlier (sessionTag (senders cfg p cfg.wildcardId))
        (machineOf_le (getFlowFiveTuple pkt.val.headers))
        ((Switch.wildcardEgress cfg p₀ m).1.greySend.currentSEQ
          (machineOf cfg (getFlowFiveTuple pkt.val.headers))).toUInt16 isIp
        headers protocol
      have phase := entry.1 busy
      rw [hid, hflow] at counted
      simp only [hid, hflow]
      exact w.counted (ip.symm.trans isIp) phase counted (.cons reads .nil)

end

end Ns3Fancy.Link

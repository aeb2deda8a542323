import Ns3Fancy.Link.Discipline
import Ns3Fancy.Session.Progress

/-!
# No dead states on a link

The other direction of the simulation: a step that a session can take without loss can be taken by the link, which
first works off the frames that are in the way. This needs the loops of the tree to end and the reroute blocks to leave
control packets alone; without a START of the wildcard machine lost, no machine is ever stuck.
-/

namespace Ns3Fancy.Link
open Switch Buffer Function Session
set_option autoImplicit false

/-- The loops over the tree end, if there is one. -/
structure LoopsEnd (cfg : FancyConfig) : Prop where
  payload : cfg.treeEnabled = true → cfg.payloadEnds = true
  init : cfg.treeEnabled = true → cfg.initEnds = true
  counting : cfg.treeEnabled = true → cfg.pipeline = true → cfg.countingEnds = true
  exchange : cfg.treeEnabled = true → cfg.exchangeEnds = true
  climb : cfg.treeEnabled = true → 1 ≤ cfg.layerSplit ∨ cfg.treeDepth ≤ 1

section
variable (cfg : FancyConfig)

/-- A step that loses nothing. -/
def NoLoss (l : Label cfg) (s : System) : Prop := Lossless cfg l s ∧ ∀ d pkt earlier, l ≠ .egress d pkt earlier true

/-- However the link goes on without loss, the reroute blocks leave control packets alone. -/
def Calm (s : System) : Prop :=
  ∀ s' tr, Lts.Run (Link.step cfg) (NoLoss cfg) s s' tr → ∀ e, catchesControl cfg (s'.port e) = false

/-- The link can go on without loss to a state that the session of machine `id` in direction `d` sees as `P`. -/
def Continues (d : Bool) (id : Nat) (s : System) (P : MachinePair) : Prop :=
  ∃ s' F tr, Lts.Run (Link.step cfg) (NoLoss cfg) s s' tr ∧ Wired cfg s' F ∧ view cfg d id s' F = P

/-- A START of the machine is lost on the wire. -/
def LosesStart (d : Bool) (id : Nat) (l : Label cfg) (s : System) : Prop :=
  ∃ i frame, l = .lose d i ∧ (s.wire d)[i]? = some frame ∧ StartFor cfg id frame

/-- The sender of machine `id` at port `d` consumed a report of session `k`. -/
def Consumes (d : Bool) (id k : Nat) (tr : List Seen) : Prop :=
  ∃ x ∈ tr, x.side = d ∧ ∃ local_ cells reported records found, x.log = .consumed id k local_ cells reported records found

/-- The link can go on without loss until the sender has consumed the report of its session and started the next one. -/
def Advances (d : Bool) (id : Nat) (s : System) : Prop :=
  ∃ s' tr, Lts.Run (Link.step cfg) (NoLoss cfg) s s' tr ∧ Consumes d id ((s.port d).greySend.currentSEQ id).toNat tr ∧
    (s'.port d).greySend.currentSEQ id = (s.port d).greySend.currentSEQ id + 1 ∧
    (s'.port d).greySend.greyState id ≠ .idle

end

section
variable {cfg : FancyConfig} {s : System} {F : Bool → List Msg} {d e : Bool} {id : Nat} {l : Label cfg}
variable {p : FancyPortInfo} {q : Nat} {frame : Frame} {hdr : FancyHeader} {action : UInt8}

/-! ## Steps that are enabled -/

theorem sendGreyAction_enabled (loops : LoopsEnd cfg) (started : id ∈ startedIds cfg) (action : UInt8)
    (p : FancyPortInfo) : ∃ r, sendGreyAction cfg action id p = some r := by
  simp only [sendGreyAction]
  split
  · rename_i isTree
    rw [if_pos (loops.payload (started_tree (isTree.2 ▸ started)))]
    exact ⟨_, rfl⟩
  · split
    · split <;> exact ⟨_, rfl⟩
    · split <;> exact ⟨_, rfl⟩

theorem sendGreyCounter_enabled (loops : LoopsEnd cfg) (started : id ∈ startedIds cfg) (p : FancyPortInfo) :
    ∃ r, sendGreyCounter cfg id p = some r := by
  simp only [sendGreyCounter]
  split
  · rename_i isTree
    rw [if_pos (loops.payload (started_tree (isTree ▸ started)))]
    exact ⟨_, rfl⟩
  · exact ⟨_, rfl⟩

/-- An accepted START comes back, if its payload can be read. -/
theorem acceptStart_enabled {shift : Bool}
    (payload : id = cfg.treeId → cfg.initEnds = true ∧ ∃ req, hdr.getMaximums cfg.layerSplit = some req)
    (m : PktInfo cfg.ns3) :
    ∃ p' ack, acceptStart cfg id shift hdr p m = some (p', m.bounce ack) ∧ p'.switchPort = p.switchPort := by
  simp only [acceptStart]
  split
  · rename_i isTree
    obtain ⟨init, req, read⟩ := payload isTree
    rw [read, init]
    cases shift <;> exact ⟨_, _, rfl, rfl⟩
  · exact ⟨_, _, rfl, rfl⟩

/-- The receiver's machine comes back: the packet ends there or goes back as the machine's own. -/
theorem Settled.receiverMachine_enabled (h : Settled cfg p)
    (payload : hdr.getAction = startAction cfg id → id = cfg.treeId →
      cfg.initEnds = true ∧ ∃ req, hdr.getMaximums cfg.layerSplit = some req) (m : PktInfo cfg.ns3) :
    ∃ p' m', receiverMachine cfg id hdr p m = some (p', m') ∧ p'.switchPort = p.switchPort ∧
      ((∃ ack, m' = m.bounce ack) ∨ ∃ hdr', m' = m.discard hdr') := by
  have accepts : ∀ shift, hdr.getAction = startAction cfg id → ∃ p' m', acceptStart cfg id shift hdr p m = some (p', m') ∧
      p'.switchPort = p.switchPort ∧ ((∃ ack, m' = m.bounce ack) ∨ ∃ hdr', m' = m.discard hdr') := by
    intro shift isStart
    obtain ⟨p', ack, accepted, flag⟩ := acceptStart_enabled (payload isStart) m
    exact ⟨p', _, accepted, flag, Or.inl ⟨ack, rfl⟩⟩
  have ends : ∀ p' : FancyPortInfo, p'.switchPort = p.switchPort →
      ∃ p'' m', some (p', m.discard hdr.resetActionField) = some (p'', m') ∧ p''.switchPort = p.switchPort ∧
        ((∃ ack, m' = m.bounce ack) ∨ ∃ hdr', m' = m.discard hdr') := fun p' flag => ⟨p', _, rfl, flag, Or.inr ⟨_, rfl⟩⟩
  simp only [receiverMachine]
  cases state : p.greyRecv.greyState id with
  | idle =>
    simp only
    split
    · exact accepts _ ‹_›
    · exact ends _ rfl
  | counting =>
    simp only
    split
    · exact accepts _ ‹_›
    · split <;> exact ends _ rfl
  | waitCounterSend => exact ends _ rfl
  | counterAck =>
    simp only
    split
    · exact ends _ rfl
    · split
      · exact accepts _ ‹_›
      · exact ends _ rfl
  | startAck | waitCounterReceive =>
    have receiving := (h.recvState id).1
    simp [state, isReceiving] at receiving

/-- A message for the receiver's machine is taken. -/
theorem Settled.receive_fwd_enabled (h : Settled cfg p) (control : Control cfg frame hdr id q action)
    (unset : action &&& 0x7f = action) (acts : action &&& 0x1f ≠ 0) (notFsm : (action >>> 5) &&& 1 ≠ 1)
    (payload : hdr.getAction = startAction cfg id → id = cfg.treeId →
      cfg.initEnds = true ∧ ∃ req, hdr.getMaximums cfg.layerSplit = some req) : ∃ o, receive cfg p frame = some o := by
  rw [receive_fwd control unset acts notFsm]
  obtain ⟨p', m', moved, flag, packet⟩ := h.receiverMachine_enabled payload (arrived cfg frame { fancy := some hdr })
  rw [moved, Option.bind_some]
  rcases packet with ⟨ack, rfl⟩ | ⟨hdr', rfl⟩
  · obtain ⟨o, turned, -⟩ := @turnBack_bounced cfg p' ack (flag.trans h.towardsSwitch)
      ((arrived cfg frame { fancy := some hdr }).bounce ack) rfl rfl rfl control.protocol
      (if action &&& 0x1f = GREY_STOP then [.gotStop id q] else [])
    exact ⟨o, (if_pos rfl).trans turned⟩
  · exact ⟨_, if_neg (by simp [PktInfo.discard, arrived])⟩

/-- The sender's machine comes back, if the report can be read. -/
theorem Settled.senderMachine_enabled (h : Settled cfg p) (payload : hdr.getAction = reportAction cfg id → id = cfg.treeId →
      cfg.exchangeEnds = true ∧ (∀ found, cfg.climbEnds found = true) ∧
        ∃ records, hdr.getCounters cfg.counterWidth = some records) (m : PktInfo cfg.ns3) :
    ∃ r, senderMachine cfg id hdr p m = some r := by
  simp only [senderMachine]
  cases state : p.greySend.greyState id with
  | idle =>
    simp only
    split <;> exact ⟨_, rfl⟩
  | startAck =>
    simp only
    split <;> exact ⟨_, rfl⟩
  | counting => exact ⟨_, rfl⟩
  | waitCounterReceive =>
    simp only
    split
    · rename_i report
      simp only [consumeReport]
      split
      · rename_i isTree
        obtain ⟨ends, climbs, records, read⟩ := payload report.1 isTree
        rw [if_pos ends, read, Option.bind_some, if_pos (climbs _)]
        exact ⟨_, rfl⟩
      · exact ⟨_, rfl⟩
    · exact ⟨_, rfl⟩
  | waitCounterSend | counterAck =>
    have sending := (h.sendState id).1
    simp [state, isSending] at sending

/-- A message for the sender's machine is taken. -/
theorem Settled.receive_bwd_enabled (h : Settled cfg p) (control : Control cfg frame hdr id q action)
    (unset : action &&& 0x7f = action) (acts : action &&& 0x1f ≠ 0) (fsm : (action >>> 5) &&& 1 = 1) {m : Bwd Report}
    (machine : ∀ p', Settled cfg p' → ∀ pkt, Returned cfg hdr pkt → ∀ r,
      senderMachine cfg id hdr p' pkt = some r → Sent cfg p' id m r)
    (payload : hdr.getAction = reportAction cfg id → id = cfg.treeId →
      cfg.exchangeEnds = true ∧ (∀ found, cfg.climbEnds found = true) ∧
        ∃ records, hdr.getCounters cfg.counterWidth = some records) :
    ∃ o, receive cfg p frame = some o := by
  have settled := h.congr (sameMachines_reroute p (returning cfg frame hdr)) (switchPort_reroute p (returning cfg frame hdr))
  rw [receive_returning control unset acts fsm]
  split
  · exact ⟨_, rfl⟩
  · rename_i passed
    simp only [Bool.not_eq_true] at passed
    obtain ⟨r, moved⟩ := settled.senderMachine_enabled payload (reroute cfg p (returning cfg frame hdr)).2
    have sent := machine _ settled _ (returned_of_passed control passed) r moved
    rw [moved, Option.bind_some, egressCounting_control sent.settled.towardsSwitch sent.noIp]
    exact ⟨_, rfl⟩

/-- A packet is counted. -/
theorem Settled.ingressCount_enabled (h : Settled cfg p) (loops : LoopsEnd cfg) (hdr : FancyHeader) (flow : FiveTuple) :
    ∃ p', Switch.ingressCount cfg hdr flow p = some p' := by
  simp only [Switch.ingressCount]
  split
  · rename_i counts
    have started := (h.recvState hdr.id.toNat).2 (by rw [counts.1]; simp)
    simp only [countPacket]
    split
    · rename_i isTree
      have treeOn := started_tree (isTree ▸ started)
      cases pipelined : cfg.pipeline
      · exact ⟨_, rfl⟩
      · rw [loops.counting treeOn pipelined]
        exact ⟨_, rfl⟩
    · exact ⟨_, rfl⟩
  · exact ⟨_, rfl⟩

/-- A packet that is not of the machines is taken, and goes on to the rest of the switch. -/
theorem Settled.receive_keepAlive_enabled (h : Settled cfg p) (loops : LoopsEnd cfg) {headers : Headers cfg.ns3}
    {payload : Bytes} (parsed : parse frame = some (headers, payload))
    (keepAlive : ∀ hdr, headers.fancy = some hdr → hdr.action = 0 ∨ hdr.action = 0x80) :
    ∃ o, receive cfg p frame = some o ∧ o.dropped = false := by
  obtain ⟨settled, -⟩ := h.wildcardIngress (arrived cfg frame headers) none
  rw [receive, parsed, Option.bind_some]
  simp only [ingressMachines]
  generalize Switch.wildcardIngress cfg p (arrived cfg frame headers) = p₁ at settled
  cases fancy : headers.fancy with
  | none => simp [arrived, fancy]
  | some hdr =>
    have clear : (hdr.setCountFlag false).action = 0 := by
      simp only [FancyHeader.setCountFlag]
      rcases keepAlive hdr fancy with action | action <;> rw [action] <;> decide
    have act : (hdr.setCountFlag false).getAction = KEEP_ALIVE := by rw [FancyHeader.getAction, clear]; decide
    have notFsm : (hdr.setCountFlag false).getFSMFlag = false := by rw [FancyHeader.getFSMFlag, clear]; decide
    obtain ⟨p₂, counted⟩ := settled.ingressCount_enabled loops hdr (getFlowFiveTuple headers)
    simp only [arrived, fancy, act, notFsm, counted, true_and, ne_eq, not_true_eq_false, Bool.false_eq_true, if_false,
      Option.bind_some]
    split
    · simp
    · split <;> simp

/-- The reroute block takes a packet of the machines only if it catches control packets. -/
theorem receive_control_kept {headers : Headers cfg.ns3} {payload : Bytes}
    (parsed : parse frame = some (headers, payload)) (fancy : headers.fancy = some hdr) (noIp : headers.ipv4 = none)
    (calm : catchesControl cfg p = false) {o : Outcome} (run : receive cfg p frame = some o) : o.dropped = false := by
  rw [receive, parsed, Option.bind_some] at run
  obtain ⟨r, machines, run⟩ := Option.bind_eq_some_iff.1 run
  obtain ⟨-, flow, strFlow⟩ := ingressMachines_exit (m := arrived cfg frame headers) fancy noIp rfl rfl machines
  obtain ⟨bloom, top⟩ := ingressMachines_reroute machines
  rw [show (arrived cfg frame headers).flow = {} from getFlowFiveTuple_of_none noIp] at flow
  split at run
  · simp only [turnBack] at run
    split at run
    · rename_i dropped
      rw [reroute_dropFlag _ flow strFlow, catchesControl_congr bloom top, calm, Bool.or_false] at dropped
      cases run
      simp [dropped]
    · obtain ⟨e, -, run⟩ := Option.bind_eq_some_iff.1 run
      obtain ⟨x, -, rfl⟩ := Option.map_eq_some_iff.1 run
      rfl
  · cases run
    rfl

/-- **A frame is taken.** Whatever is on the wire of a link, the port it reaches does something with it, and the reroute
block lets it pass as long as it does not catch control packets. -/
theorem Settled.receive_enabled (h : Settled cfg p) (loops : LoopsEnd cfg) (calm : catchesControl cfg p = false)
    {msg : Msg} (read : Reads cfg frame msg) : ∃ o, receive cfg p frame = some o ∧ o.dropped = false := by
  have kept : ∀ {hdr id q action}, Control cfg frame hdr id q action → (∃ o, receive cfg p frame = some o) →
      ∃ o, receive cfg p frame = some o ∧ o.dropped = false := fun control ⟨o, run⟩ =>
    ⟨o, run, receive_control_kept control.parsed rfl rfl calm run⟩
  cases read with
  | @start hdr id q req control payload =>
    obtain ⟨unset, act, nonzero, notStop, notFsm⟩ := startAction_bits cfg id
    refine kept control (h.receive_fwd_enabled control unset (by rw [act]; exact nonzero) notFsm fun _ isTree => ?_)
    have init := loops.init (started_tree (isTree ▸ control.started))
    exact ⟨init, req, payload isTree init⟩
  | @stop hdr id q control =>
    refine kept control (h.receive_fwd_enabled control (by decide) (by decide) (by decide) fun isStart _ => ?_)
    rw [FancyHeader.getAction, control.action] at isStart
    exact absurd isStart.symm (startAction_bits cfg id).2.2.2.1
  | @ack hdr id q control =>
    refine kept control (h.receive_fwd_enabled control (by decide) (by decide) (by decide) fun isStart _ => ?_)
    rw [FancyHeader.getAction, control.action] at isStart
    exact absurd isStart (startAction_ne_counter id)
  | @startAck hdr id q control =>
    refine kept control (h.receive_bwd_enabled (m := .startAck q) control (by decide) (by decide) (by decide)
      (fun _ settled _ packet _ moved => settled.senderMachine_startAck control packet moved) fun isReport _ => ?_)
    rw [FancyHeader.getAction, control.action, reportAction] at isReport
    split at isReport <;> exact absurd isReport (by decide)
  | @report hdr id q rep control counter payload =>
    obtain ⟨unset, acts, fsm⟩ := fsmReportAction_bits cfg id
    refine kept control (h.receive_bwd_enabled (m := .report q rep) control unset acts fsm
      (fun _ settled _ packet _ moved => settled.senderMachine_report control counter payload packet moved)
      fun _ isTree => ?_)
    have enabled := started_tree (isTree ▸ control.started)
    rw [if_pos isTree] at payload
    refine ⟨loops.exchange enabled, fun found => ?_, rep.2, payload (loops.exchange enabled)⟩
    rcases loops.climb enabled with split | depth
    · simp [FancyConfig.climbEnds, split]
    · simp [FancyConfig.climbEnds, depth]
  | @data headers payload tag wild parsed tagged =>
    refine h.receive_keepAlive_enabled loops parsed fun hdr fancy => ?_
    simp only [HasTag, fancy] at tagged
    rcases tagged with ⟨action, -⟩ | ⟨action, -⟩
    · exact Or.inl action
    · exact Or.inr action
  | @probe hdr parsed action next =>
    refine h.receive_keepAlive_enabled loops parsed fun hdr' fancy => ?_
    cases fancy
    exact Or.inl action

/-! ## What a delivery does to the sessions -/

/-- A message has been delivered: to the session it belongs to it was the next step, to the others nothing happened. -/
def Delivered (cfg : FancyConfig) (e : Bool) (msg : Msg) (s : System) (F : Bool → List Msg) (s' : System)
    (F' : Bool → List Msg) : Prop :=
  ∀ d id,
    (e = d → if (msg.fwdFor cfg id).isSome then
        ∃ os, Session.step (variant cfg id) (meter cfg id) .deliverF (view cfg d id s F) = some (view cfg d id s' F', os)
      else view cfg d id s' F' = view cfg d id s F) ∧
    (e = !d → if (msg.bwdFor id).isSome then
        ∃ os, Session.step (variant cfg id) (meter cfg id) .deliverB (view cfg d id s F) = some (view cfg d id s' F', os)
      else view cfg d id s' F' = view cfg d id s F)

section
variable {rest : List Frame} {msg : Msg} {restF : List Msg} {o : Outcome}

theorem delivered_fwd {j : Nat} {m : Fwd FiveTuple Request} (hF : F e = .ofFwd j m :: restF)
    (control : ∀ tag flow, m ≠ .data tag flow) (handled : HandledFwd cfg (s.port !e) j m o) (kept : o.dropped = false) :
    Settled cfg o.port ∧ ∃ ms, List.Forall₂ (Reads cfg) o.sent ms ∧
      Delivered cfg e (.ofFwd j m) s F ((s.popped e rest).after (!e) o)
      (appended (update F e restF) (!e) ms) := by
  obtain ⟨settled, senders, receivers, log, answers⟩ := handled
  have sent := (answers.resolve_right fun taken => by simp [kept] at taken).2
  refine ⟨settled, _, sent, fun d id => ⟨?_, ?_⟩⟩
  · rintro rfl
    rw [view_after_receiver, view_popped_fwd, receivers, fwdFor_ofFwd control]
    by_cases here : j = id
    · subst here
      have hfwd : (view cfg e j s F).fwd = m :: restF.filterMap (Msg.fwdFor cfg j) := by
        simp [view, hF, fwdFor_ofFwd control]
      simp only [if_true, Option.isSome_some, update_self, Session.step, hfwd]
      exact ⟨_, by simp [view, List.filterMap_map, Link.receivers]; rfl⟩
    · simp [here, Ne.symm here, view, hF, fwdFor_ofFwd control, List.filterMap_map]
  · rintro rfl
    rw [Bool.not_not] at *
    rw [view_after_sender, view_popped_bwd, senders]
    simp [view, hF, List.filterMap_map]

theorem delivered_bwd {j : Nat} {m : Bwd Report} (hF : F e = .ofBwd j m :: restF)
    (handled : HandledBwd cfg (s.port !e) j m o) (kept : o.dropped = false) :
    Settled cfg o.port ∧ ∃ ms, List.Forall₂ (Reads cfg) o.sent ms ∧
      Delivered cfg e (.ofBwd j m) s F ((s.popped e rest).after (!e) o)
      (appended (update F e restF) (!e) ms) := by
  cases handled with
  | taken dropped => simp [kept] at dropped
  | handled _ settled receivers senders sent log others =>
    refine ⟨settled, _, sent, fun d id => ⟨?_, ?_⟩⟩
    · rintro rfl
      rw [view_after_receiver, view_popped_fwd, receivers]
      simp [view, hF, List.filterMap_map]
    · rintro rfl
      rw [Bool.not_not] at *
      rw [view_after_sender, view_popped_bwd, senders, bwdFor_ofBwd, fwdFor_answers _ _ (handle_control _ _ _ _)]
      by_cases here : j = id
      · subst here
        have hbwd : (view cfg d j s F).bwd = m :: restF.filterMap (Msg.bwdFor j) := by simp [view, hF]
        simp only [if_true, Option.isSome_some, update_self, Session.step, hbwd]
        exact ⟨_, rfl⟩
      · simp [here, Ne.symm here, view, hF]

theorem delivered_packet (hF : F e = msg :: restF)
    (packet : (∃ flow ip tag wild, msg = .data flow ip tag wild) ∨ msg = .probe)
    (handled : HandledPacket cfg (s.port !e) msg o) :
    Settled cfg o.port ∧ ∃ ms, List.Forall₂ (Reads cfg) o.sent ms ∧ Delivered cfg e msg s F ((s.popped e rest).after (!e) o)
      (appended (update F e restF) (!e) ms) := by
  obtain ⟨settled, senders, receivers, sent, log⟩ := handled
  have noBwd : ∀ id, msg.bwdFor id = none := by
    rcases packet with ⟨flow, ip, tag, wild, rfl⟩ | rfl <;> exact fun _ => rfl
  refine ⟨settled, [], by rw [sent]; exact .nil, fun d id => ⟨?_, ?_⟩⟩
  · rintro rfl
    rw [view_after_receiver, view_popped_fwd, receivers, Msg.received]
    cases isMsg : msg.fwdFor cfg id with
    | none => simp [view, hF, isMsg]
    | some m =>
      have hfwd : (view cfg e id s F).fwd = m :: restF.filterMap (Msg.fwdFor cfg id) := by simp [view, hF, isMsg]
      have quiet : ∀ x : Receiver Count, (x.handle (variant cfg id) (meter cfg id) m).2 = [] := by
        intro x
        obtain ⟨tag, flow, rfl⟩ := fwdFor_packet packet isMsg
        simp only [Receiver.handle]
        split <;> rfl
      simp only [Option.isSome_some, if_true, Session.step, hfwd, quiet]
      exact ⟨m.seen, by simp [view]⟩
  · rintro rfl
    rw [Bool.not_not] at *
    rw [view_after_sender, view_popped_bwd, senders]
    simp [view, hF, noBwd]

/-- **A frame is delivered.** -/
theorem Wired.delivered (w : Wired cfg s F) (loops : LoopsEnd cfg) (calm : catchesControl cfg (s.port !e) = false)
    (hF : F e = msg :: restF) : ∃ s' F' os, Link.step cfg (.deliver e) s = some (s', os) ∧
      Lossless cfg (.deliver e) s ∧ Wired cfg s' F' ∧ F' e = restF ∧ Delivered cfg e msg s F s' F' := by
  obtain ⟨frame, rest, hwire, read⟩ := w.head hF
  obtain ⟨msg', restF', hF', -, w'⟩ := w.popped hwire
  obtain ⟨rfl, rfl⟩ : msg' = msg ∧ restF' = restF := List.cons.inj (hF'.symm.trans hF)
  obtain ⟨o, run, kept⟩ := (w.settled !e).receive_enabled loops calm read
  have hstep : Link.step cfg (.deliver e) s = some ((s.popped e rest).after (!e) o, o.seen (!e) false) := by
    simp only [Link.step, hwire, run]
    rfl
  have lossless : Lossless cfg (.deliver e) s := by
    refine ⟨by simp, ?_⟩
    rintro ⟨d, frame', rest', o', same, hwire', run', dropped⟩
    cases same
    obtain ⟨rfl, rfl⟩ := List.cons.inj (hwire'.symm.trans hwire)
    obtain rfl : o' = o := Option.some.inj (run'.symm.trans run)
    simp [kept] at dropped
  have settled := w.settled !e
  obtain ⟨settled', ms, sent, delivered⟩ : Settled cfg o.port ∧ ∃ ms, List.Forall₂ (Reads cfg) o.sent ms ∧
      Delivered cfg e msg' s F ((s.popped e rest).after (!e) o) (appended (update F e restF') (!e) ms) := by
    cases read with
    | start control payload =>
      exact delivered_fwd (m := .start _ _) hF (by simp) (settled.receive_start control payload run) kept
    | stop control => exact delivered_fwd (m := .stop _) hF (by simp) (settled.receive_stop control run) kept
    | ack control => exact delivered_fwd (m := .ack _) hF (by simp) (settled.receive_ack control run) kept
    | startAck control => exact delivered_bwd (m := .startAck _) hF (settled.receive_startAck control run) kept
    | report control counter payload =>
      exact delivered_bwd (m := .report _ _) hF (settled.receive_report control counter payload run) kept
    | @data headers payload tag wild parsed tagged =>
      exact delivered_packet hF (Or.inl ⟨_, _, _, _, rfl⟩) (settled.receive_data wild parsed tagged run)
    | probe parsed action next => exact delivered_packet hF (Or.inr rfl) (settled.receive_probe parsed action next run)
  refine ⟨_, _, _, hstep, lossless, w'.after settled' sent (!e), ?_, delivered⟩
  have other : e ≠ (!e) := by cases e <;> decide
  simp [appended, other]

end

/-! ## Continuations -/

theorem Calm.now (calm : Calm cfg s) (e : Bool) : catchesControl cfg (s.port e) = false := calm s [] .nil e

theorem Calm.step (calm : Calm cfg s) {s' : System} {os : List Seen} (good : NoLoss cfg l s)
    (hstep : Link.step cfg l s = some (s', os)) : Calm cfg s' := fun s'' _ run =>
  calm s'' _ ((Lts.Run.single good hstep).trans run)

theorem Continues.after {s' : System} {os : List Seen} {P : MachinePair} (good : NoLoss cfg l s)
    (hstep : Link.step cfg l s = some (s', os)) : Continues cfg d id s' P → Continues cfg d id s P :=
  fun ⟨s'', F, _, run, w, same⟩ => ⟨s'', F, _, (Lts.Run.single good hstep).trans run, w, same⟩

/-- The sender's timer can fire. -/
theorem Wired.follow_fireS (w : Wired cfg s F) (loops : LoopsEnd cfg) (started : id ∈ startedIds cfg) {P : MachinePair}
    {os : List (Obs FiveTuple Report Closing)}
    (hstep : Session.step (variant cfg id) (meter cfg id) .fireS (view cfg d id s F) = some (P, os)) :
    Continues cfg d id s P := by
  obtain ⟨⟨u, ev⟩, mem, action, rfl⟩ := (w.settled d).running id started
  obtain ⟨i, at_⟩ := List.getElem?_of_mem mem
  obtain ⟨r, ran⟩ := sendGreyAction_enabled loops started action
    { s.port d with events := { (s.port d).events with pending := (s.port d).events.pending.eraseIdx i } }
  have run : runEvent cfg { s.port d with events :=
      { (s.port d).events with pending := (s.port d).events.pending.eraseIdx i } } (.sendGreyAction action id) =
        some { port := r.1, sent := [controlFrame r.2] } := by
    simp only [runEvent, ran, Option.map_some]
  obtain ⟨settled, log, receivers, senders, sent⟩ := (w.settled d).runEvent_send at_ run
  have fired : Link.step cfg (.fire d i) s = some (s.after d { port := r.1, sent := [controlFrame r.2] }, []) := by
    simp only [Link.step, at_, Option.bind_some, run, Option.map_some]
    rfl
  have good : NoLoss cfg (.fire d i) s := ⟨⟨by simp, by rintro ⟨_, _, _, _, same, _⟩; cases same⟩, by simp⟩
  refine ⟨_, _, _, .single good fired, w.after settled sent d, ?_⟩
  rw [view_after_sender, senders, update_self]
  cases hstep
  simp [fwdFor_ofFwd (fire_control _ _ _), view, Link.senders]

/-- The receiver's last timer can fire. -/
theorem Wired.follow_fireR (w : Wired cfg s F) (loops : LoopsEnd cfg) {P : MachinePair}
    {os : List (Obs FiveTuple Report Closing)}
    (hstep : Session.step (variant cfg id) (meter cfg id) (.fireR false) (view cfg d id s F) = some (P, os)) :
    Continues cfg d id s P := by
  obtain ⟨f, hf, same⟩ := Option.map_eq_some_iff.1 hstep
  cases same
  have armed : (view cfg d id s F).r.armed = true := by
    by_contra off
    simp [Receiver.fire, off] at hf
  simp only [view, Link.receivers, receiverView, List.any_eq_true, beq_iff_eq] at armed
  obtain ⟨u, timer, current⟩ := armed
  obtain ⟨i, at_⟩ := List.getElem?_of_mem (mem_reportTimers.1 timer)
  have started := (w.settled !d).counters u id (mem_reportTimers.1 timer)
  obtain ⟨r, ran⟩ := sendGreyCounter_enabled loops started
    { s.port !d with events := { (s.port !d).events with pending := (s.port !d).events.pending.eraseIdx i } }
  have run : runEvent cfg { s.port !d with events :=
      { (s.port !d).events with pending := (s.port !d).events.pending.eraseIdx i } } (.sendGreyCounter id) =
        some { port := r.1, sent := [controlFrame r.2.1], log := r.2.2 } := by
    simp only [runEvent, ran, Option.map_some]
  obtain ⟨f', fired, settled, log, senders, receivers, sent⟩ := (w.settled !d).runEvent_recv at_ run
  have same : f' = f := by
    rw [← current] at fired
    simp only [ne_eq, not_true_eq_false, decide_false] at fired
    exact Option.some.inj (fired.symm.trans hf)
  subst same
  have moved : Link.step cfg (.fire (!d) i) s =
      some (s.after (!d) { port := r.1, sent := [controlFrame r.2.1], log := r.2.2 },
        Outcome.seen { port := r.1, sent := [controlFrame r.2.1], log := r.2.2 } (!d) false) := by
    simp only [Link.step, at_, Option.bind_some, run, Option.map_some]
  have good : NoLoss cfg (.fire (!d) i) s := ⟨⟨by simp, by rintro ⟨_, _, _, _, same, _⟩; cases same⟩, by simp⟩
  refine ⟨_, _, _, .single good moved, w.after settled sent (!d), ?_⟩
  rw [view_after_receiver, receivers, update_self]
  simp [view]

/-- The next message on a wire can be delivered, after what is in its way: a frame in front of it is no message of the
session, so the session stays as it is. -/
theorem Wired.follow_deliver (w : Wired cfg s F) (loops : LoopsEnd cfg) (calm : Calm cfg s) (e : Bool)
    {l : Session.Label FiveTuple}
    (empty : ∀ {s F}, F e = [] → Session.step (variant cfg id) (meter cfg id) l (view cfg d id s F) = none)
    (front : ∀ {s F s' F' msg}, Delivered cfg e msg s F s' F' →
      (∃ os, Session.step (variant cfg id) (meter cfg id) l (view cfg d id s F) = some (view cfg d id s' F', os)) ∨
        view cfg d id s' F' = view cfg d id s F)
    {P : MachinePair} {os : List (Obs FiveTuple Report Closing)}
    (hstep : Session.step (variant cfg id) (meter cfg id) l (view cfg d id s F) = some (P, os)) :
    Continues cfg d id s P := by
  generalize hF : F e = ms
  induction ms generalizing s F with
  | nil =>
    rw [empty hF] at hstep
    cases hstep
  | cons msg restF ih =>
    obtain ⟨s', F', os', moved, lossless, w', rest, delivered⟩ := w.delivered loops (calm.now !e) hF
    have good : NoLoss cfg (.deliver e) s := ⟨lossless, by simp⟩
    rcases front delivered with ⟨os'', same⟩ | same
    · rw [hstep] at same
      cases same
      exact ⟨s', F', _, .single good moved, w', rfl⟩
    · refine .after good moved (ih w' (calm.step good moved) ?_ rest)
      rw [same]
      exact hstep

theorem Wired.follow_deliverF (w : Wired cfg s F) (loops : LoopsEnd cfg) (calm : Calm cfg s) {P : MachinePair}
    {os : List (Obs FiveTuple Report Closing)}
    (hstep : Session.step (variant cfg id) (meter cfg id) .deliverF (view cfg d id s F) = some (P, os)) :
    Continues cfg d id s P := by
  refine w.follow_deliver loops calm d (fun none => ?_) (fun delivered => ?_) hstep
  · simp [Session.step, view, none]
  · have here := (delivered d id).1 rfl
    split at here
    · exact Or.inl here
    · exact Or.inr here

theorem Wired.follow_deliverB (w : Wired cfg s F) (loops : LoopsEnd cfg) (calm : Calm cfg s) {P : MachinePair}
    {os : List (Obs FiveTuple Report Closing)}
    (hstep : Session.step (variant cfg id) (meter cfg id) .deliverB (view cfg d id s F) = some (P, os)) :
    Continues cfg d id s P := by
  refine w.follow_deliver loops calm (!d) (fun none => ?_) (fun delivered => ?_) hstep
  · simp [Session.step, view, none]
  · have here := (delivered d id).2 rfl
    split at here
    · exact Or.inl here
    · exact Or.inr here

/-- **The link follows a session.** What a session can reach by deliveries and timers, the link can reach. -/
theorem Wired.follow (w : Wired cfg s F) (loops : LoopsEnd cfg) (calm : Calm cfg s) (started : id ∈ startedIds cfg)
    {P : MachinePair} (reach : Reach (variant cfg id) (meter cfg id) (view cfg d id s F) P) : Continues cfg d id s P := by
  obtain ⟨tr, run⟩ := reach
  induction run with
  | nil => exact ⟨s, F, [], .nil, w, rfl⟩
  | @snoc t u tr os l _ orderly hstep ih =>
    obtain ⟨s', F', tr', run, w', rfl⟩ := ih
    have calm' : Calm cfg s' := fun s'' _ more => calm s'' _ (run.trans more)
    have next : Continues cfg d id s' u := by
      cases l with
      | fireS => exact w'.follow_fireS loops started hstep
      | fireR late =>
        cases late with
        | false => exact w'.follow_fireR loops hstep
        | true => cases orderly
      | deliverF => exact w'.follow_deliverF loops calm' hstep
      | deliverB => exact w'.follow_deliverB loops calm' hstep
      | egress | loseF | loseB => cases orderly
    obtain ⟨s'', F'', tr'', run', w'', same⟩ := next
    exact ⟨s'', F'', _, run.trans run', w'', same⟩

/-! ## No dead states -/

theorem consumed_mem_image {k : Nat} {rep : Report} {ws : List Closing} {tr : List Seen}
    (mem : .consumed k rep ws ∈ tr.flatMap (image cfg d id)) : Consumes d id k tr := by
  obtain ⟨⟨side, log, lost⟩, there, mem⟩ := List.mem_flatMap.1 mem
  refine ⟨_, there, ?_⟩
  cases log with
  | consumed i seq local_ cells reported records found =>
    by_cases here : i = id
    · subst here
      simp only [image, logObs, if_true, List.mem_filter, List.mem_singleton, bySender, Obs.consumed.injEq, beq_iff_eq] at mem
      obtain ⟨⟨rfl, -⟩, own⟩ := mem
      exact ⟨by simpa using own.symm, _, _, _, _, _, rfl⟩
    · simp [image, logObs, here] at mem
  | gotStop i q => by_cases here : i = id <;> simp [image, logObs, here] at mem
  | counted i seq flow cells => by_cases here : i = id <;> simp [image, logObs, here] at mem
  | reported i q => by_cases here : i = id <;> simp [image, logObs, here] at mem

/-- A START the session loses is one the link loses. -/
theorem losesStart_of_causes {label : Session.Label FiveTuple} {P : MachinePair} (cause : Causes cfg d id s F l label P)
    (loses : label.losesStart P) : LosesStart cfg d id l s := by
  obtain ⟨k, q, req, rfl, there⟩ := loses
  obtain ⟨rfl, i, frame, msg, fwd, rfl, at_, read, isFwd, there'⟩ := cause
  obtain rfl : fwd = .start q req := Option.some.inj (there'.symm.trans there)
  obtain rfl := fwdFor_eq_start isFwd
  cases read with
  | start control payload => exact ⟨i, frame, rfl, at_, control.startFor⟩

/-- A live session can be closed by the link. -/
theorem Wired.advances (w : Wired cfg s F) (loops : LoopsEnd cfg) (calm : Calm cfg s) (started : id ∈ startedIds cfg)
    (live : Live (variant cfg id) (view cfg d id s F)) (small : ((s.port d).greySend.currentSEQ id).toNat < 65536) :
    Advances cfg d id s := by
  obtain ⟨P, reach, next, begun⟩ := live.progress (Nat.zero_lt_succ _) (M := meter cfg id) small
  obtain ⟨s', F', tr', more, w', rfl⟩ := w.follow loops calm started reach
  obtain ⟨F'', -, session⟩ := w.anySession d id more
  have seq : ((s'.port d).greySend.currentSEQ id).toNat = ((s.port d).greySend.currentSEQ id).toNat + 1 := next
  obtain ⟨rep, ws, consumed⟩ := consumed_of_run session (Nat.le_refl _)
    (show (view cfg d id s F).s.seq < (view cfg d id s' F'').s.seq from Nat.lt_of_lt_of_eq (Nat.lt_succ_self _) seq.symm)
  refine ⟨s', tr', more, consumed_mem_image consumed, ?_, fun idle => begun ?_⟩
  · refine UInt32.toNat.inj (seq.trans ?_)
    rw [UInt32.toNat_add]
    exact (Nat.mod_eq_of_lt (by simp; omega)).symm
  · simp [view, Link.senders, senderView, idle, senderPhase]

/-- In a run that loses no START of the wildcard machine the sessions stay alive. -/
theorem live_of_run (d : Bool) (id : Nat) {tr : List Seen}
    (run : Lts.Run (Link.step cfg) (fun l s => id = cfg.wildcardId → ¬LosesStart cfg d id l s) (System.start cfg) s tr) :
    ∃ F, Wired cfg s F ∧ Live (variant cfg id) (view cfg d id s F) := by
  have carried : ∀ s F l label P, Wired cfg s F → (id = cfg.wildcardId → ¬LosesStart cfg d id l s) →
      Causes cfg d id s F l label P → label.harmless (variant cfg id) P := by
    intro s F l label P _ good cause unacked loses
    exact good (by simpa [variant] using unacked) (losesStart_of_causes cause loses)
  obtain ⟨F, w, session⟩ := session_of_run d id carried run
  exact ⟨F, w, .of_run (Nat.zero_lt_succ _) session⟩

/-- **No dead state.** Whatever control packets were lost, as long as no START of the wildcard machine was among them,
the link can go on without loss until the sender of any machine has consumed the report of its session and started the
next one. -/
theorem no_dead_state (loops : LoopsEnd cfg) (d : Bool) {id : Nat} (started : id ∈ startedIds cfg) {tr : List Seen}
    (run : Lts.Run (Link.step cfg) (fun l s => id = cfg.wildcardId → ¬LosesStart cfg d id l s) (System.start cfg) s tr)
    (calm : Calm cfg s) (small : ((s.port d).greySend.currentSEQ id).toNat < 65536) : Advances cfg d id s := by
  obtain ⟨F, w, live⟩ := live_of_run d id run
  exact w.advances loops calm started live small

/-! The tree machine loses its START and goes on; the wildcard machine does not send it again. -/

def lostStart (cfg : FancyConfig) : List (Label cfg) := [.fire false 0, .lose false 0]

def treeOnly : FancyConfig := { smallConfig with rerouteEnabled := false }

theorem no_dead_state_tree : ∃ s tr, Lts.exec (Link.step treeOnly) (lostStart treeOnly) (System.start treeOnly) = some (s, tr) ∧
    Advances treeOnly false 0 s := by
  obtain ⟨⟨s, tr⟩, run⟩ := Option.isSome_iff_exists.1 (show (Lts.exec (Link.step treeOnly) (lostStart treeOnly)
    (System.start treeOnly)).isSome by decide +kernel)
  refine ⟨s, tr, run, ?_⟩
  have facts : (Lts.exec (Link.step treeOnly) (lostStart treeOnly) (System.start treeOnly)).map
      (fun r => ((r.1.port false).greySend.currentSEQ 0).toNat) = some 0 := by decide +kernel
  rw [run, Option.map_some, Option.some.injEq] at facts
  refine no_dead_state ⟨by decide, by decide, by decide, by decide, by decide⟩ false (by decide)
    (Lts.Run.of_exec (fun _ _ isWildcard => absurd isWildcard (by decide)) run) (fun _ _ _ _ => rfl) ?_
  rw [facts]
  decide

def wildcardOnly : FancyConfig :=
  { smallConfig with treeEnabled := false, treeEnableSoftDetections := true, rerouteEnabled := false }

theorem wildcard_dead : ∃ s tr, Lts.Run (Link.step wildcardOnly) (fun _ _ => True) (System.start wildcardOnly) s tr ∧
    ((s.port false).greySend.currentSEQ wildcardOnly.wildcardId).toNat < 65536 ∧
    ¬Advances wildcardOnly false wildcardOnly.wildcardId s := by
  have lost : ∃ s tr, Lts.Run (Link.step wildcardOnly) (fun _ _ => True) (System.start wildcardOnly) s tr ∧
      ((s.port false).greySend.greyState 1, ((s.port false).greySend.currentSEQ 1).toNat,
        (s.port true).greyRecv.greyState 1, (reportTimers 1 (s.port true).events).length, (s.wire false).length,
        (s.wire true).length) = (.counting, 0, .idle, 0, 0, 0) :=
    Lts.Run.exists_of_guarded (lostStart wildcardOnly) (by decide +kernel)
  obtain ⟨s, tr, run, facts⟩ := lost
  simp only [Prod.mk.injEq, List.length_eq_zero_iff] at facts
  obtain ⟨counting, seq, idle, timers, fwd, bwd⟩ := facts
  obtain ⟨F, w, -⟩ := (wired_start wildcardOnly).anySession false 1 run
  have noFwd : F false = [] := by
    have reads := w.reads false
    rw [fwd] at reads
    exact List.forall₂_nil_left_iff.1 reads
  have noBwd : F true = [] := by
    have reads := w.reads true
    rw [bwd] at reads
    exact List.forall₂_nil_left_iff.1 reads
  have dead : (view wildcardOnly false 1 s F).Dead := by
    refine ⟨Or.inl ?_, ?_, ⟨?_, ?_⟩, ?_, ?_⟩
    · simp [view, Link.senders, senderView, counting, senderPhase]
    · simp [view, Link.receivers, receiverView, idle, receiverPhase]
    · simp [view, Link.receivers, receiverView, timers]
    · simp [view, Link.receivers, receiverView, timers]
    · simp [view, noFwd, startNumbers]
    · simp [view, noBwd]
  refine ⟨s, tr, run, by rw [show wildcardOnly.wildcardId = 1 from rfl, seq]; decide, ?_⟩
  rintro ⟨s', tr', more, -, next, -⟩
  obtain ⟨F', w', session⟩ := w.anySession false 1 more
  have same : ((s'.port false).greySend.currentSEQ 1).toNat = ((s.port false).greySend.currentSEQ 1).toNat :=
    dead.of_run session
  have moved := congrArg UInt32.toNat next
  rw [UInt32.toNat_add, show wildcardOnly.wildcardId = 1 from rfl, same, seq] at moved
  cases moved

end

end Ns3Fancy.Link

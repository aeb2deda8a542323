import Ns3Fancy.Link.Moves

/-!
# Frames that arrive

A frame that arrives at a port is handled by the machine it is for: a message of the other side's sender by the
receiver, a message of the other side's receiver by the sender, and a packet by the receivers that count it.
-/

namespace Ns3Fancy.Link
open Switch Buffer Function Session
set_option autoImplicit false

section
variable {cfg : FancyConfig} {p : FancyPortInfo} {id q : Nat} {frame : Frame} {hdr : FancyHeader} {action : UInt8}

/-! ## The way of a control packet -/

theorem setCountFlag_of_unset {h : FancyHeader} (unset : h.action &&& 0x7f = h.action) : h.setCountFlag false = h := by
  obtain ⟨id, action, seq, counter, next, size, width, data⟩ := h
  simp only [FancyHeader.setCountFlag, Bool.false_eq_true, if_false]
  simp only at unset
  rw [unset]

theorem getCountFlag_of_unset {h : FancyHeader} (unset : h.action &&& 0x7f = h.action) : h.getCountFlag = false := by
  have bits : ∀ a : BitVec 8, a &&& 0x7f#8 = a → (a >>> 7) &&& 1#8 ≠ 1#8 := by decide
  simp only [FancyHeader.getCountFlag, beq_eq_false_iff_ne]
  exact fun set => bits h.action.toBitVec (congrArg UInt8.toBitVec unset) (congrArg UInt8.toBitVec set)

/-- The metadata of a control packet that arrives. -/
theorem ingressMachines_arrived (control : Control cfg frame hdr id q action) (unset : action &&& 0x7f = action)
    (acts : action &&& 0x1f ≠ 0) :
    ingressMachines cfg p (arrived cfg frame { fancy := some hdr }) =
      if hdr.getFSMFlag then some (p, { arrived cfg frame { fancy := some hdr } with outPort := some 0 }, [])
      else (receiverMachine cfg id hdr p (arrived cfg frame { fancy := some hdr })).map fun r =>
        (r.1, r.2, if hdr.getAction = GREY_STOP then [.gotStop id q] else []) := by
  have same : hdr.setCountFlag false = hdr := setCountFlag_of_unset (by rw [control.action, unset])
  have flag : hdr.getCountFlag = false := getCountFlag_of_unset (by rw [control.action, unset])
  have act : hdr.getAction ≠ KEEP_ALIVE := by rw [FancyHeader.getAction, control.action]; exact acts
  have wildcard : wildcardIngress cfg p (arrived cfg frame { fancy := some hdr }) = p := by
    simp [wildcardIngress, arrived]
  have count : ∀ flow, ingressCount cfg hdr flow p = some p := by
    intro flow
    simp [ingressCount, flag]
  have small := started_le control.started
  simp only [ingressMachines, wildcard]
  simp only [arrived, same, act, false_and, if_false, control.id, small, if_true, count,
    Option.bind_some, ne_eq, not_false_eq_true, control.seq]

/-- A packet of the machines on its way back: the reroute block may take it. -/
theorem turnBack_bounced (switch : p.switchPort = true) {m : PktInfo cfg.ns3} (kept : m.dropFlag = false)
    (internal : m.internalPacket = true) (headers : m.headers = { fancy := some hdr }) (protocol : m.protocol = FANCY)
    (log : List PortLog) :
    ∃ o, turnBack cfg p m [] log = some o ∧ SameMachines p o.port ∧ o.port.switchPort = true ∧ o.log = log ∧
      ((o.dropped = false ∧ o.sent = [controlFrame hdr]) ∨ (o.dropped = true ∧ o.sent = [])) := by
  have same := sameMachines_reroute p m
  have flag := switchPort_reroute p m
  obtain ⟨headers', protocol', -⟩ := reroute_snd p m
  have internal' : (reroute cfg p m).2.internalPacket = true := by
    simp only [reroute, apply_ite Prod.snd, apply_ite PktInfo.internalPacket, internal, ite_self]
  simp only [turnBack]
  split
  · exact ⟨_, rfl, same, flag.trans switch, rfl, Or.inr ⟨by simp [kept], rfl⟩⟩
  · rename_i passed
    have machines : egressMachines cfg (reroute cfg p m).1 (reroute cfg p m).2 =
        some ((reroute cfg p m).1, (reroute cfg p m).2, []) := by
      simp only [egressMachines, internal', Bool.not_true, Bool.false_and, Bool.false_eq_true, if_false]
      split <;> rfl
    have counting := egressCounting_control (flag.trans switch)
      (show (reroute cfg p m).2.headers.ipv4 = none by rw [headers', headers])
    simp only [machines, Option.bind_some, counting, Option.map_some]
    refine ⟨_, rfl, same, flag.trans switch, by simp, Or.inl ⟨rfl, ?_⟩⟩
    simp only [passed, Bool.false_eq_true, if_false, protocol', protocol, headers', headers, controlFrame]
    simp [doDeparser, addHeader]

/-! ## Messages of the other side's sender -/

/-- What the port logs of a message of the other side's sender. -/
def fwdLog (id : Nat) : Fwd FiveTuple Request → List PortLog
  | .stop q => [.gotStop id q]
  | _ => []

/-- What a port did with a message of the other side's sender: its receiver handled it, and the answers left unless the
reroute block took them. -/
structure HandledFwd (cfg : FancyConfig) (p : FancyPortInfo) (id : Nat) (m : Fwd FiveTuple Request) (o : Outcome) :
    Prop where
  settled : Settled cfg o.port
  senders : senders cfg o.port = Link.senders cfg p
  receivers : receivers cfg o.port =
    update (Link.receivers cfg p) id ((receiverView cfg id p).handle (variant cfg id) (meter cfg id) m).1
  log : o.log = fwdLog id m
  answers : (o.dropped = false ∧ List.Forall₂ (Reads cfg) o.sent
      (((receiverView cfg id p).handle (variant cfg id) (meter cfg id) m).2.map (.ofBwd id))) ∨
    (o.dropped = true ∧ o.sent = [] ∧ ((receiverView cfg id p).handle (variant cfg id) (meter cfg id) m).2 ≠ [])

theorem receivers_congr {p' : FancyPortInfo} (same : SameMachines p p') : receivers cfg p' = receivers cfg p :=
  funext fun j => (receiverView_congr same j).symm

theorem senders_congr {p' : FancyPortInfo} (same : SameMachines p p') : senders cfg p' = senders cfg p :=
  funext fun j => (senderView_congr same j).symm

/-- A message the receiver ignores ends at the port. -/
theorem HandledFwd.ignored (h : Settled cfg p) {m : Fwd FiveTuple Request}
    (ignores : (receiverView cfg id p).handle (variant cfg id) (meter cfg id) m = (receiverView cfg id p, [])) :
    HandledFwd cfg p id m { port := p, log := fwdLog id m } where
  settled := h
  senders := rfl
  receivers := by rw [ignores]; exact (update_eq_self id _).symm
  log := rfl
  answers := Or.inl ⟨rfl, by rw [ignores]; exact .nil⟩

/-- States of the receivers after one of them moved. -/
theorem Settled.recvStates (h : Settled cfg p) (started : id ∈ startedIds cfg) {g : GreyInfo}
    (off : OffId cfg id p.greyRecv g) (state : isReceiving (g.greyState id) = true) :
    ∀ j, isReceiving (g.greyState j) = true ∧ (g.greyState j ≠ .idle → j ∈ startedIds cfg) := by
  intro j
  by_cases here : j = id
  · subst here; exact ⟨state, fun _ => started⟩
  · rw [off.greyState j here]; exact h.recvState j

theorem Settled.recvNumbers (h : Settled cfg p) {g : GreyInfo} (off : OffId cfg id p.greyRecv g)
    (small : (g.currentSEQ id).toNat < 65536) : ∀ j, (g.currentSEQ j).toNat < 65536 := by
  intro j
  by_cases here : j = id
  · subst here; exact small
  · rw [off.currentSEQ j here]; exact h.numbers j

/-- A repeated START leaves the history alone, whatever it carries. -/
theorem treeInit_again (seq : Nat) (records records' : Request) (tree : Tree) :
    treeInit cfg seq false records tree = treeInit cfg seq false records' tree := by
  simp [treeInit, pipelinedInitReceiverStep, initReceiverStep]

/-- The port and the packet after an accepted START. -/
theorem acceptStart_some {req : Request} {shift : Bool} (control : Control cfg frame hdr id q (startAction cfg id))
    (payload : id = cfg.treeId → cfg.initEnds = true → hdr.getMaximums cfg.layerSplit = some req)
    {r : FancyPortInfo × PktInfo cfg.ns3}
    (accepted : acceptStart cfg id shift hdr p (arrived cfg frame { fancy := some hdr }) = some r) :
    ∃ g ack, r.1 = { p with greyRecv := g } ∧ OffId cfg id p.greyRecv g ∧ g.greyState id = .counting ∧
      (g.currentSEQ id).toNat = q ∧
      count cfg id g = (meter cfg id).init q shift req (count cfg id p.greyRecv) ∧
      r.2 = (arrived cfg frame { fancy := some hdr }).bounce ack ∧
      Control cfg (controlFrame ack) ack.bare id q startAckAction := by
  have seq : hdr.seq.toUInt32.toNat = q := by rw [UInt16.toNat_toUInt32, control.seq]
  have bits : (((0 : UInt8) ||| (0x1f &&& GREY_START)) ||| 0x40) ||| 0x20 = startAckAction := by decide
  have acknowledged : ∀ size, Control cfg
    (controlFrame (((hdr.resetActionField.setAction GREY_START).setAckFlag true).setFSMFlag
      true |>.setDataSize size)) (FancyHeader.bare (((hdr.resetActionField.setAction GREY_START).setAckFlag true).setFSMFlag
      true |>.setDataSize size)) id q startAckAction := fun size =>
    .plain control.started control.next control.id control.seq bits (by decide) (by decide)
  have off : OffId cfg id p.greyRecv
      (((p.greyRecv.setLocalCounter id 0).setCurrentSEQ id hdr.seq.toUInt32).setGreyState id .counting) :=
    (((OffId.refl _).setLocalCounter _).setCurrentSEQ _).setGreyState _
  simp only [acceptStart] at accepted
  split at accepted
  · rename_i isTree
    split at accepted
    · cases accepted
    · rename_i ends
      obtain ⟨records, read, rfl⟩ := Option.map_eq_some_iff.1 accepted
      refine ⟨_, _, rfl, off.setTree _ isTree, by simp, by simpa using seq, ?_, rfl, acknowledged 0⟩
      have same : treeInit cfg q shift records p.greyRecv.counterTree = treeInit cfg q shift req p.greyRecv.counterTree := by
        cases shift with
        | false => exact treeInit_again ..
        | true =>
          have init : cfg.initEnds = true := by simpa using ends
          rw [if_pos rfl, payload isTree init, Option.some.injEq] at read
          rw [read]
      simp [count, meter, isTree, control.seq]
      exact same
  · rename_i notTree
    simp only [Option.some.injEq] at accepted
    subst accepted
    refine ⟨_, _, rfl, off, by simp, by simpa using seq, ?_, rfl, acknowledged hdr.dataSize⟩
    simp [count, meter, notTree]

/-- A message for the receiver's machine. -/
theorem receive_fwd (control : Control cfg frame hdr id q action) (unset : action &&& 0x7f = action)
    (acts : action &&& 0x1f ≠ 0) (notFsm : (action >>> 5) &&& 1 ≠ 1) :
    receive cfg p frame = (receiverMachine cfg id hdr p (arrived cfg frame { fancy := some hdr })).bind fun r =>
      let log := if action &&& 0x1f = GREY_STOP then [.gotStop id q] else []
      if r.2.outPort = some 0 then turnBack cfg r.1 r.2 [] log else some { port := r.1, log := log } := by
  have fsm : hdr.getFSMFlag = false := by
    rw [FancyHeader.getFSMFlag, control.action, beq_eq_false_iff_ne]; exact notFsm
  have act : hdr.getAction = action &&& 0x1f := by rw [FancyHeader.getAction, control.action]
  rw [receive, control.parsed, Option.bind_some]
  simp only [ingressMachines_arrived control unset acts, fsm, Bool.false_eq_true, if_false, Option.bind_map, act]
  rfl

theorem startAction_bits (cfg : FancyConfig) (id : Nat) : startAction cfg id &&& 0x7f = startAction cfg id ∧
    startAction cfg id &&& 0x1f = startAction cfg id ∧ startAction cfg id ≠ 0 ∧ startAction cfg id ≠ GREY_STOP ∧
    (startAction cfg id >>> 5) &&& 1 ≠ 1 := by
  simp only [startAction]
  split <;> decide

/-- An accepted START. -/
theorem HandledFwd.accepted (h : Settled cfg p) {req : Request} (control : Control cfg frame hdr id q (startAction cfg id))
    (payload : id = cfg.treeId → cfg.initEnds = true → hdr.getMaximums cfg.layerSplit = some req)
    (open_ : (receiverView cfg id p).phase ≠ .waitSend) {shift : Bool}
    (left : shift = decide ((receiverView cfg id p).phase ≠ .counting)) {o : Outcome}
    (run : (acceptStart cfg id shift hdr p (arrived cfg frame { fancy := some hdr })).bind (fun r =>
      if r.2.outPort = some 0 then turnBack cfg r.1 r.2 [] [] else some { port := r.1, log := [] }) = some o) :
    HandledFwd cfg p id (.start q req) o := by
  obtain ⟨r, accepted, turned⟩ := Option.bind_eq_some_iff.1 run
  obtain ⟨g, ack, port, off, state, seq, metered, packet, acknowledged⟩ := acceptStart_some control payload accepted
  have out : r.2.outPort = some 0 := by rw [packet]; rfl
  have small : q < 65536 := by rw [← control.seq]; exact hdr.seq.toNat_lt
  have settled : Settled cfg r.1 := by
    rw [port]
    exact h.setRecv off.currentEvent (h.recvNumbers off (by rw [seq]; exact small))
      (h.recvStates control.started off (by rw [state]; rfl))
  have handle : (receiverView cfg id p).handle (variant cfg id) (meter cfg id) (.start q req) =
      ((receiverView cfg id p).open (meter cfg id) q req, [.startAck q]) := if_neg open_
  have view : receiverView cfg id r.1 = (receiverView cfg id p).open (meter cfg id) q req := by
    rw [port, Receiver.open, ← left]
    simp only [receiverView, state, receiverPhase, seq, metered, off.currentEvent]
  rw [if_pos out] at turned
  obtain ⟨o', turned', same, flag, log, sent⟩ := turnBack_bounced settled.towardsSwitch
    (show r.2.dropFlag = false by rw [packet]; rfl) (show r.2.internalPacket = true by rw [packet]; rfl)
    (show r.2.headers = { fancy := some ack } by rw [packet]; rfl)
    (show r.2.protocol = FANCY by rw [packet]; exact control.protocol) []
  obtain rfl : o' = o := Option.some.inj (turned'.symm.trans turned)
  refine ⟨settled.congr same (flag.trans settled.towardsSwitch.symm), ?_, ?_, log, ?_⟩
  · rw [senders_congr same, port]; rfl
  · have moved := receiverView_setRecv off
    rw [← port] at moved
    rw [receivers_congr same, moved, view, handle]
  · rw [handle]
    rcases sent with ⟨kept, sent⟩ | ⟨dropped, sent⟩
    · exact Or.inl ⟨kept, by rw [sent]; exact .cons (.startAck acknowledged) .nil⟩
    · exact Or.inr ⟨dropped, sent, by simp⟩

/-- **START at a port.** -/
theorem Settled.receive_start (h : Settled cfg p) {req : Request}
    (control : Control cfg frame hdr id q (startAction cfg id))
    (payload : id = cfg.treeId → cfg.initEnds = true → hdr.getMaximums cfg.layerSplit = some req) {o : Outcome}
    (run : receive cfg p frame = some o) : HandledFwd cfg p id (.start q req) o := by
  obtain ⟨unset, act, nonzero, notStop, notFsm⟩ := startAction_bits cfg id
  have action : hdr.getAction = startAction cfg id := by rw [FancyHeader.getAction, control.action, act]
  rw [receive_fwd control unset (by rw [act]; exact nonzero) notFsm] at run
  simp only [act, notStop, if_false] at run
  have phase : (receiverView cfg id p).phase = receiverPhase (p.greyRecv.greyState id) := rfl
  have counter : GREY_COUNTER ≠ startAction cfg id := startAction_ne_counter id
  cases state : p.greyRecv.greyState id with
  | idle | counterAck =>
    simp only [receiverMachine, state, action, if_true, counter.symm, false_and, if_false] at run
    exact .accepted h control payload (by rw [phase, state]; simp [receiverPhase])
      (by rw [phase, state]; simp [receiverPhase]) run
  | counting =>
    simp only [receiverMachine, state, action, if_true] at run
    exact .accepted h control payload (by rw [phase, state]; simp [receiverPhase])
      (by rw [phase, state]; simp [receiverPhase]) run
  | waitCounterSend =>
    simp only [receiverMachine, state, Option.bind_some] at run
    simp only [PktInfo.discard, arrived] at run
    cases run
    exact .ignored h (by simp [Receiver.handle, phase, state, receiverPhase])
  | startAck | waitCounterReceive =>
    have receiving := (h.recvState id).1
    simp [state, isReceiving] at receiving

theorem seq_matches (control : Control cfg frame hdr id q action) :
    (hdr.seq.toUInt32 == p.greyRecv.currentSEQ id) = decide ((receiverView cfg id p).seq = q) := by
  rw [Bool.eq_iff_iff, beq_iff_eq, decide_eq_true_eq, ← control.seq, ← UInt16.toNat_toUInt32, ← UInt32.toNat_inj]
  exact eq_comm

/-- A packet the machine discards ends at the port. -/
theorem discard_ends {headers : Headers cfg.ns3} {port : FancyPortInfo} {log : List PortLog} {o : Outcome}
    (run : (some (port, (arrived cfg frame headers).discard hdr)).bind (fun r =>
      if r.2.outPort = some 0 then turnBack cfg r.1 r.2 [] log else some { port := r.1, log := log }) = some o) :
    o = { port := port, log := log } := by
  have elsewhere : ((arrived cfg frame headers).discard hdr).outPort ≠ some 0 := by simp [PktInfo.discard, arrived]
  rw [Option.bind_some, if_neg elsewhere] at run
  exact (Option.some.inj run).symm

/-- **STOP at a port.** -/
theorem Settled.receive_stop (h : Settled cfg p) (control : Control cfg frame hdr id q GREY_STOP) {o : Outcome}
    (run : receive cfg p frame = some o) : HandledFwd cfg p id (.stop q) o := by
  have action : hdr.getAction = GREY_STOP := by rw [FancyHeader.getAction, control.action]; decide
  rw [receive_fwd control (by decide) (by decide) (by decide)] at run
  have log : (if GREY_STOP &&& 0x1f = GREY_STOP then [PortLog.gotStop id q] else []) = [.gotStop id q] := by
    rw [if_pos (by decide)]
  have notStart : GREY_STOP ≠ startAction cfg id := (startAction_bits cfg id).2.2.2.1.symm
  have notCounter : GREY_STOP ≠ GREY_COUNTER := by decide
  have phase : (receiverView cfg id p).phase = receiverPhase (p.greyRecv.greyState id) := rfl
  simp only [log] at run
  have ignored : p.greyRecv.greyState id ≠ .counting ∨ (receiverView cfg id p).seq ≠ q →
      o = { port := p, log := [.gotStop id q] } → HandledFwd cfg p id (.stop q) o := by
    rintro other rfl
    refine .ignored h (if_neg ?_)
    rintro ⟨counting, seq⟩
    rcases other with state | differs
    · rw [phase] at counting
      exact state (receiverPhase_counting.1 counting)
    · exact differs seq
  cases state : p.greyRecv.greyState id with
  | counting =>
    simp only [receiverMachine, state, action, notStart, if_false, true_and, seq_matches control,
      decide_eq_true_eq] at run
    split at run
    · rename_i seq
      have handle : (receiverView cfg id p).handle (variant cfg id) (meter cfg id) (.stop q) =
          ({ (receiverView cfg id p).arm with phase := .waitSend }, []) := if_pos ⟨by rw [phase, state]; rfl, seq⟩
      obtain rfl := discard_ends run
      have off : OffId cfg id p.greyRecv (p.greyRecv.setGreyState id .waitCounterSend) := (OffId.refl _).setGreyState _
      have set := h.setRecv off.currentEvent (h.recvNumbers off (h.numbers id))
        (h.recvStates control.started off (by simp [isReceiving]))
      refine ⟨set.scheduleRecv control.started, rfl, ?_, rfl, Or.inl ⟨rfl, by rw [handle]; exact .nil⟩⟩
      rw [handle, set.receivers_scheduleRecv, receiverView_setRecv off, update_idem]
      congr 1
      simp [receiverView, Receiver.arm, receiverPhase, count]
    · rename_i differs
      exact ignored (Or.inr differs) (discard_ends run)
  | idle | counterAck =>
    simp only [receiverMachine, state, action, notStart, notCounter, false_and, if_false] at run
    exact ignored (Or.inl (by simp [state])) (discard_ends run)
  | waitCounterSend =>
    simp only [receiverMachine, state] at run
    exact ignored (Or.inl (by simp [state])) (discard_ends run)
  | startAck | waitCounterReceive =>
    have receiving := (h.recvState id).1
    simp [state, isReceiving] at receiving

/-- **The acknowledgement of a report at a port.** -/
theorem Settled.receive_ack (h : Settled cfg p) (control : Control cfg frame hdr id q ackAction) {o : Outcome}
    (run : receive cfg p frame = some o) : HandledFwd cfg p id (.ack q) o := by
  have action : hdr.getAction = GREY_COUNTER := by rw [FancyHeader.getAction, control.action]; decide
  have flag : hdr.getAckFlag = true := by rw [FancyHeader.getAckFlag, control.action]; decide
  rw [receive_fwd control (by decide) (by decide) (by decide)] at run
  have log : (if ackAction &&& 0x1f = GREY_STOP then [PortLog.gotStop id q] else []) = [] := by
    rw [if_neg (by decide)]
  have notStart : GREY_COUNTER ≠ startAction cfg id := startAction_ne_counter id
  have notStop : GREY_COUNTER ≠ GREY_STOP := by decide
  have phase : (receiverView cfg id p).phase = receiverPhase (p.greyRecv.greyState id) := rfl
  simp only [log] at run
  have ignored : p.greyRecv.greyState id ≠ .counterAck ∨ (receiverView cfg id p).seq ≠ q →
      o = { port := p, log := [] } → HandledFwd cfg p id (.ack q) o := by
    rintro other rfl
    refine .ignored h (if_neg ?_)
    rintro ⟨reporting, seq⟩
    rcases other with state | differs
    · rw [phase] at reporting
      exact state (receiverPhase_reportAck.1 reporting)
    · exact differs seq
  cases state : p.greyRecv.greyState id with
  | counterAck =>
    simp only [receiverMachine, state, action, notStart, flag, if_false, true_and, seq_matches control,
      decide_eq_true_eq] at run
    split at run
    · rename_i seq
      have handle : (receiverView cfg id p).handle (variant cfg id) (meter cfg id) (.ack q) =
          ({ receiverView cfg id p with phase := .idle, armed := false }, []) := if_pos ⟨by rw [phase, state]; rfl, seq⟩
      obtain rfl := discard_ends run
      have off : OffId cfg id p.greyRecv (p.greyRecv.setGreyState id .idle) := (OffId.refl _).setGreyState _
      have cancelled := h.cancel (h.onlyReports id)
      have set := cancelled.setRecv off.currentEvent (h.recvNumbers off (h.numbers id))
        (h.recvStates control.started off (by simp [isReceiving]))
      refine ⟨set, rfl, ?_, rfl, Or.inl ⟨rfl, by rw [handle]; exact .nil⟩⟩
      have viewed : receiverView cfg id { p with events := p.events.cancel (p.greyRecv.currentEvent id) } =
          { receiverView cfg id p with armed := false } := by
        have here := congrFun (h.receivers_cancelCurrent id) id
        rwa [update_self] at here
      have moved := receiverView_setRecv (p := { p with events := p.events.cancel (p.greyRecv.currentEvent id) }) off
      rw [handle, moved, h.receivers_cancelCurrent, update_idem]
      congr 1
      have phased : receiverView cfg id { p with
            greyRecv := p.greyRecv.setGreyState id .idle
            events := p.events.cancel (p.greyRecv.currentEvent id) } =
          { receiverView cfg id { p with events := p.events.cancel (p.greyRecv.currentEvent id) } with phase := .idle } := by
        simp [receiverView, receiverPhase, count]
      rw [phased, viewed]
    · rename_i differs
      exact ignored (Or.inr differs) (discard_ends run)
  | idle | counting =>
    simp only [receiverMachine, state, action, notStart, notStop, false_and, if_false] at run
    exact ignored (Or.inl (by simp [state])) (discard_ends run)
  | waitCounterSend =>
    simp only [receiverMachine, state] at run
    exact ignored (Or.inl (by simp [state])) (discard_ends run)
  | startAck | waitCounterReceive =>
    have receiving := (h.recvState id).1
    simp [state, isReceiving] at receiving

/-! ## Messages of the other side's receiver -/

/-- What an entry of a port's log is to the session of a machine. -/
def logObs (cfg : FancyConfig) (id : Nat) (lost : Bool) : PortLog → List (Obs FiveTuple Report Closing)
  | .counted i seq flow _ => if i = id then [.counted seq flow lost] else []
  | .consumed i seq localCounter localCells counter records found =>
    if i = id then
      [.consumed seq (counter, records)
        [{ localCounter := localCounter
           localCells := if id = cfg.treeId then localCells else fun _ _ => 0
           found := found }]]
    else []
  | .gotStop i q => if i = id then [.gotStop q] else []
  | .reported i q => if i = id then [.reported q] else []

/-- The sender of a machine handled a message, with the port, the packet and the log it left. -/
structure Sent (cfg : FancyConfig) (p : FancyPortInfo) (id : Nat) (m : Bwd Report)
    (r : FancyPortInfo × PktInfo cfg.ns3 × List PortLog) : Prop where
  settled : Settled cfg r.1
  receivers : receivers cfg r.1 = Link.receivers cfg p
  senders : senders cfg r.1 =
    update (Link.senders cfg p) id ((senderView cfg id p).handle (variant cfg id) (meter cfg id) m).1
  log : r.2.2.flatMap (logObs cfg id false) = ((senderView cfg id p).handle (variant cfg id) (meter cfg id) m).2.2
  others : ∀ j, j ≠ id → r.2.2.flatMap (logObs cfg j false) = []
  answer : (((senderView cfg id p).handle (variant cfg id) (meter cfg id) m).2.1 = [] ∧ r.2.1.dropFlag = true ∧
      r.2.1.headers.ipv4 = none) ∨
    ∃ fwd hdr, ((senderView cfg id p).handle (variant cfg id) (meter cfg id) m).2.1 = [fwd] ∧ r.2.1.dropFlag = false ∧
      r.2.1.headers = { fancy := some hdr } ∧ r.2.1.protocol = FANCY ∧ Reads cfg (controlFrame hdr) (.ofFwd id fwd)

theorem Sent.noIp {m : Bwd Report} {r : FancyPortInfo × PktInfo cfg.ns3 × List PortLog} (sent : Sent cfg p id m r) :
    r.2.1.headers.ipv4 = none := by
  rcases sent.answer with ⟨-, -, none⟩ | ⟨fwd, ack, -, -, only, -⟩
  · exact none
  · rw [only]

/-- A packet of the other side's receiver in the egress box. -/
structure Returned (cfg : FancyConfig) (hdr : FancyHeader) (m : PktInfo cfg.ns3) : Prop where
  headers : m.headers = { fancy := some hdr }
  protocol : m.protocol = FANCY
  kept : m.dropFlag = false

/-- A message the sender ignores. -/
theorem Sent.ignored (h : Settled cfg p) {m : Bwd Report}
    (ignores : (senderView cfg id p).handle (variant cfg id) (meter cfg id) m = (senderView cfg id p, [], []))
    {pkt : PktInfo cfg.ns3} (packet : Returned cfg hdr pkt) : Sent cfg p id m (p, pkt.discard hdr.resetActionField, []) where
  settled := h
  receivers := rfl
  senders := by rw [ignores]; exact (update_eq_self id _).symm
  log := by rw [ignores]; rfl
  others _ _ := rfl
  answer := Or.inl ⟨by rw [ignores], rfl, by simp [PktInfo.discard, packet.headers]⟩

theorem sender_matches (control : Control cfg frame hdr id q action) :
    p.greySend.currentSEQ id = hdr.seq.toUInt32 ↔ (senderView cfg id p).seq = q := by
  rw [← UInt32.toNat_inj, UInt16.toNat_toUInt32, control.seq]
  rfl

/-- The port after a move of a sender, whatever happened to its reroute state. -/
theorem Settled.moved (h : Settled cfg p) (started : id ∈ startedIds cfg) {g : GreyInfo} (off : OffId cfg id p.greySend g)
    (state : isSending (g.greyState id) = true) {p' : FancyPortInfo} (same : SameMachines (Link.sendMove cfg id g p) p')
    (flag : p'.switchPort = p.switchPort) :
    Settled cfg p' ∧ receivers cfg p' = receivers cfg p ∧
      senders cfg p' = update (senders cfg p) id (senderView cfg id { p with greySend := g }) := by
  refine ⟨(h.sendMove started off.currentEvent off.greyState state).congr same flag, ?_, ?_⟩
  · rw [receivers_congr same]
    exact funext fun j => h.receiverView_sendMove id g j
  · rw [senders_congr same, ← senders_setSend off]
    rfl

/-- The START is acknowledged. -/
theorem Settled.senderMachine_startAck (h : Settled cfg p) (control : Control cfg frame hdr id q startAckAction)
    {m : PktInfo cfg.ns3} (packet : Returned cfg hdr m) {r : FancyPortInfo × PktInfo cfg.ns3 × List PortLog}
    (run : senderMachine cfg id hdr p m = some r) : Sent cfg p id (.startAck q) r := by
  have act : hdr.getAction = GREY_START := by rw [FancyHeader.getAction, control.action]; decide
  have flag : hdr.getAckFlag = true := by rw [FancyHeader.getAckFlag, control.action]; decide
  have phase : (senderView cfg id p).phase = senderPhase (p.greySend.greyState id) := rfl
  have notCounter : GREY_START ≠ GREY_COUNTER := by decide
  have notReport : GREY_START ≠ reportAction cfg id := by
    simp only [reportAction]
    split <;> decide
  have ignored : ¬(p.greySend.greyState id = .startAck ∧ (senderView cfg id p).seq = q) →
      some (p, m.discard hdr.resetActionField, []) = some r → Sent cfg p id (.startAck q) r := by
    rintro other ⟨⟩
    have ignores : (senderView cfg id p).handle (variant cfg id) (meter cfg id) (.startAck q) =
        (senderView cfg id p, [], []) := by
      refine if_neg ?_
      rintro ⟨waiting, seq⟩
      refine other ⟨?_, seq⟩
      rw [phase] at waiting
      exact senderPhase_startAck.1 waiting
    exact .ignored h ignores packet
  cases state : p.greySend.greyState id with
  | idle =>
    simp only [senderMachine, state, act, notCounter, false_and, if_false] at run
    exact ignored (by simp [state]) run
  | startAck =>
    simp only [senderMachine, state, act, flag, true_and, sender_matches control] at run
    split at run
    · rename_i seq
      have handle : (senderView cfg id p).handle (variant cfg id) (meter cfg id) (.startAck q) =
          ({ senderView cfg id p with phase := .counting }, [], []) := if_pos ⟨by rw [phase, state]; rfl, seq⟩
      cases run
      have off : OffId cfg id p.greySend (p.greySend.setGreyState id .counting) := (OffId.refl _).setGreyState _
      have move : SameMachines (Link.sendMove cfg id (p.greySend.setGreyState id .counting) p)
          (scheduleSend id (.sendGreyAction GREY_STOP id) { p with
            greySend := p.greySend.setGreyState id .counting
            events := p.events.cancel (p.greySend.currentEvent id) }) := by
        simp only [Link.sendMove, nextAction, GreyInfo.setGreyState_greyState, update_self]
        exact .refl _
      have view : senderView cfg id { p with greySend := p.greySend.setGreyState id .counting } =
          { senderView cfg id p with phase := .counting } := by simp [senderView, senderPhase, count]
      obtain ⟨settled, receivers, senders⟩ := h.moved control.started off (by simp [isSending])
        move rfl
      exact ⟨settled, receivers, by rw [handle, ← view]; exact senders, by rw [handle]; rfl, fun _ _ => rfl,
        Or.inl ⟨by rw [handle], rfl, by simp [PktInfo.discard, packet.headers]⟩⟩
    · rename_i differs
      exact ignored (fun hit => differs hit.2) run
  | counting =>
    simp only [senderMachine, state] at run
    exact ignored (by simp [state]) run
  | waitCounterReceive =>
    simp only [senderMachine, state, act, notReport, false_and, if_false] at run
    exact ignored (by simp [state]) run
  | waitCounterSend | counterAck =>
    have sending := (h.sendState id).1
    simp [state, isSending] at sending

theorem SameMachines.scheduleSend {p' : FancyPortInfo} (same : SameMachines p p') (id : Nat) (ev : Event) :
    SameMachines (scheduleSend id ev p) (scheduleSend id ev p') := by
  obtain ⟨recv, send, events⟩ := same
  constructor <;> simp [Switch.scheduleSend, recv, send, events]

/-- What consuming a report leaves. -/
theorem consumeReport_some {rep : Report} (control : Control cfg frame hdr id q (fsmReportAction cfg id))
    (counter : hdr.counter = rep.1)
    (payload : if id = cfg.treeId then cfg.exchangeEnds = true → hdr.getCounters cfg.counterWidth = some rep.2
      else rep.2 = [])
    (seq : (senderView cfg id p).seq = q) {r : FancyPortInfo × List PortLog} (run : consumeReport cfg id hdr p = some r) :
    ∃ g, SameMachines { p with greySend := g } r.1 ∧ r.1.switchPort = p.switchPort ∧ OffId cfg id p.greySend g ∧
      g.greyState id = .idle ∧ (g.currentSEQ id).toNat = q + 1 ∧
      count cfg id g = ((meter cfg id).close q (count cfg id p.greySend) rep).1 ∧
      r.2.flatMap (logObs cfg id false) = [.consumed q rep ((meter cfg id).close q (count cfg id p.greySend) rep).2] ∧
      ∀ j, j ≠ id → r.2.flatMap (logObs cfg j false) = [] := by
  have small : q < 65536 := by rw [← control.seq]; exact hdr.seq.toNat_lt
  have next : (p.greySend.currentSEQ id + 1).toNat = q + 1 := by
    have old : (p.greySend.currentSEQ id).toNat = q := seq
    rw [UInt32.toNat_add, old]
    exact Nat.mod_eq_of_lt (by simp; omega)
  have off : OffId cfg id p.greySend (((p.greySend.setLocalCounter id 0).setGreyState id .idle).setCurrentSEQ id
      (p.greySend.currentSEQ id + 1)) := (((OffId.refl _).setLocalCounter _).setGreyState _).setCurrentSEQ _
  simp only [consumeReport] at run
  split at run
  · rename_i isTree
    split at run
    swap
    · cases run
    rename_i ends
    rw [if_pos isTree] at payload
    rw [payload ends, Option.bind_some] at run
    simp only [Option.ite_none_right_eq_some, Option.some.injEq] at run
    obtain ⟨-, rfl⟩ := run
    obtain ⟨same, flag⟩ := sameMachines_applyDetection cfg _ _
    refine ⟨_, same, flag, off.setTree _ isTree, by simp, by simpa using next, ?_, ?_, ?_⟩
    · simp [count, meter, isTree, control.seq]
    · simp [logObs, count, meter, isTree, control.seq, counter]
    · intro j other
      simp [logObs, Ne.symm other]
  · rename_i notTree
    rw [if_neg notTree] at payload
    simp only [Option.some.injEq] at run
    subst run
    obtain ⟨same, flag⟩ := sameMachines_applyDetection cfg _ _
    refine ⟨_, same, flag, off, by simp, by simpa using next, ?_, ?_, ?_⟩
    · simp [count, meter, notTree]
    · simp [logObs, count, meter, notTree, control.seq, counter, ← payload]
    · intro j other
      simp [logObs, Ne.symm other]

/-- The acknowledgement of a report. -/
theorem acknowledges (control : Control cfg frame hdr id q action) (size : UInt16) :
    Reads cfg (controlFrame ((((hdr.resetActionField.setAction GREY_COUNTER).setAckFlag true).setFSMFlag false).setDataSize
      size)) (.ack id q) := by
  have bits : (((0 : UInt8) ||| (0x1f &&& GREY_COUNTER)) ||| 0x40) &&& 0xdf = ackAction := by decide
  exact .ack (.plain control.started control.next control.id control.seq bits (by decide) (by decide))

/-- A report reaches the sender's machine. -/
theorem Settled.senderMachine_report (h : Settled cfg p) {rep : Report}
    (control : Control cfg frame hdr id q (fsmReportAction cfg id)) (counter : hdr.counter = rep.1)
    (payload : if id = cfg.treeId then cfg.exchangeEnds = true → hdr.getCounters cfg.counterWidth = some rep.2
      else rep.2 = [])
    {m : PktInfo cfg.ns3} (packet : Returned cfg hdr m) {r : FancyPortInfo × PktInfo cfg.ns3 × List PortLog}
    (run : senderMachine cfg id hdr p m = some r) : Sent cfg p id (.report q rep) r := by
  have act : hdr.getAction = reportAction cfg id := by
    rw [FancyHeader.getAction, control.action, fsmReportAction, reportAction]
    split <;> decide
  have notStart : reportAction cfg id ≠ GREY_START := by
    rw [reportAction]
    split <;> decide
  have single : reportAction cfg id = GREY_COUNTER ↔ id ≠ cfg.treeId := by
    by_cases isTree : id = cfg.treeId
    · have both : GREY_COUNTER ||| MULTIPLE_COUNTERS ≠ GREY_COUNTER := by decide
      simp [reportAction, isTree, both]
    · simp [reportAction, isTree]
  have phase : (senderView cfg id p).phase = senderPhase (p.greySend.greyState id) := rfl
  cases state : p.greySend.greyState id with
  | idle =>
    have idle : (senderView cfg id p).phase = .idle := by rw [phase, state]; rfl
    have older : hdr.seq.toUInt32 ≤ p.greySend.currentSEQ id ↔ q ≤ (senderView cfg id p).seq := by
      rw [UInt32.le_iff_toNat_le, UInt16.toNat_toUInt32, control.seq]
      rfl
    simp only [senderMachine, state, act, single, older] at run
    split at run
    · rename_i late
      have handle : (senderView cfg id p).handle (variant cfg id) (meter cfg id) (.report q rep) =
          (senderView cfg id p, [.ack q], []) := by
        simp [Sender.handle, idle, variant, late]
      cases run
      exact ⟨h, rfl, by rw [handle]; exact (update_eq_self id _).symm, by rw [handle]; rfl, fun _ _ => rfl,
        Or.inr ⟨.ack q, _, by rw [handle], packet.kept, by simp [PktInfo.bounce, packet.headers], packet.protocol,
          acknowledges control 0⟩⟩
    · rename_i early
      cases run
      refine .ignored h ?_ packet
      have none : ¬((variant cfg id).recovers = true ∧ q ≤ (senderView cfg id p).seq) := by
        simpa [variant] using early
      simp [Sender.handle, idle, none]
  | startAck =>
    simp only [senderMachine, state, act, notStart, false_and, if_false] at run
    cases run
    exact .ignored h (by simp [Sender.handle, phase, state, senderPhase]) packet
  | counting =>
    simp only [senderMachine, state] at run
    cases run
    exact .ignored h (by simp [Sender.handle, phase, state, senderPhase]) packet
  | waitCounterReceive =>
    have waiting : (senderView cfg id p).phase = .waitReport := by rw [phase, state]; rfl
    simp only [senderMachine, state, act, true_and, sender_matches control] at run
    split at run
    · rename_i seq
      have handle : (senderView cfg id p).handle (variant cfg id) (meter cfg id) (.report q rep) =
          ({ phase := .idle, seq := (senderView cfg id p).seq + 1
             data := ((meter cfg id).close q (senderView cfg id p).data rep).1 }, [.ack q],
            [.consumed q rep ((meter cfg id).close q (senderView cfg id p).data rep).2]) := by
        simp [Sender.handle, waiting, seq]
      obtain ⟨c, consumed, rfl⟩ := Option.map_eq_some_iff.1 run
      obtain ⟨g, same, flag, off, idle, number, metered, log, others⟩ :=
        consumeReport_some (p := timerRan id p) control counter payload seq consumed
      have move : SameMachines (Link.sendMove cfg id g p)
          (scheduleSend id (.sendGreyAction (startAction cfg id) id) c.1) := by
        have scheduled := SameMachines.scheduleSend same id (.sendGreyAction (startAction cfg id) id)
        simpa only [Link.sendMove, nextAction, idle] using! scheduled
      have view : senderView cfg id { p with greySend := g } =
          { phase := .idle, seq := (senderView cfg id p).seq + 1
            data := ((meter cfg id).close q (senderView cfg id p).data rep).1 } := by
        simp only [senderView, idle, senderPhase, number, metered, ← seq]
        rfl
      obtain ⟨settled, receivers, senders⟩ := h.moved control.started off (by rw [idle]; rfl) move flag
      refine ⟨settled, receivers, by rw [handle, ← view]; exact senders, by rw [handle]; exact log, others,
        Or.inr ⟨.ack q, _, by rw [handle], packet.kept, ?_, packet.protocol, acknowledges control hdr.dataSize⟩⟩
      simp only [PktInfo.bounce, packet.headers]
      rfl
    · rename_i differs
      cases run
      exact .ignored h (by simp [Sender.handle, waiting, differs]) packet
  | waitCounterSend | counterAck =>
    have sending := (h.sendState id).1
    simp [state, isSending] at sending

/-- What a port did with a message of the other side's receiver: the reroute block took it, or the sender of the machine
handled it and answered. -/
inductive HandledBwd (cfg : FancyConfig) (p : FancyPortInfo) (id : Nat) (m : Bwd Report) (o : Outcome) : Prop where
  | taken : o.dropped = true → Settled cfg o.port → receivers cfg o.port = receivers cfg p →
      senders cfg o.port = senders cfg p → o.sent = [] → o.log = [] → HandledBwd cfg p id m o
  | handled : o.dropped = false → Settled cfg o.port → receivers cfg o.port = receivers cfg p →
      senders cfg o.port =
        update (senders cfg p) id ((senderView cfg id p).handle (variant cfg id) (meter cfg id) m).1 →
      List.Forall₂ (Reads cfg) o.sent
        (((senderView cfg id p).handle (variant cfg id) (meter cfg id) m).2.1.map (.ofFwd id)) →
      o.log.flatMap (logObs cfg id false) = ((senderView cfg id p).handle (variant cfg id) (meter cfg id) m).2.2 →
      (∀ j, j ≠ id → o.log.flatMap (logObs cfg j false) = []) → HandledBwd cfg p id m o

/-- The metadata of a packet of the other side's receiver when it reaches the reroute block. -/
def returning (cfg : FancyConfig) (frame : Frame) (hdr : FancyHeader) : PktInfo cfg.ns3 :=
  { arrived cfg frame { fancy := some hdr } with outPort := some 0 }

theorem returned_of_passed (control : Control cfg frame hdr id q action)
    (passed : (reroute cfg p (returning cfg frame hdr)).2.dropFlag = false) :
    Returned cfg hdr (reroute cfg p (returning cfg frame hdr)).2 := by
  obtain ⟨headers, protocol, -⟩ := reroute_snd p (returning cfg frame hdr)
  exact ⟨headers, protocol.trans control.protocol, passed⟩

/-- A packet of the other side's receiver: the reroute block takes it, or it comes to the sender's machine. -/
theorem receive_returning (control : Control cfg frame hdr id q action) (unset : action &&& 0x7f = action)
    (acts : action &&& 0x1f ≠ 0) (fsm : (action >>> 5) &&& 1 = 1) :
    receive cfg p frame =
      if (reroute cfg p (returning cfg frame hdr)).2.dropFlag then
        some { port := (reroute cfg p (returning cfg frame hdr)).1, dropped := true }
      else (senderMachine cfg id hdr (reroute cfg p (returning cfg frame hdr)).1
          (reroute cfg p (returning cfg frame hdr)).2).bind fun q =>
        (egressCounting cfg q.1 q.2.1).map fun e =>
          { port := e.1
            sent := if e.2.1.dropFlag then [] else [{ protocol := e.2.1.protocol, bytes := doDeparser e.2.1.headers [] }]
            log := q.2.2 ++ e.2.2 } := by
  have flag : hdr.getFSMFlag = true := by
    rw [FancyHeader.getFSMFlag, control.action, beq_iff_eq]; exact fsm
  obtain ⟨headers, -, -⟩ := reroute_snd p (returning cfg frame hdr)
  have only : (reroute cfg p (returning cfg frame hdr)).2.headers = { fancy := some hdr } := headers
  have outside : (reroute cfg p (returning cfg frame hdr)).2.internalPacket = false := by
    simp only [reroute, apply_ite Prod.snd, apply_ite PktInfo.internalPacket, returning, arrived, ite_self]
  have machines : egressMachines cfg (reroute cfg p (returning cfg frame hdr)).1 (reroute cfg p (returning cfg frame hdr)).2 =
      senderMachine cfg id hdr (reroute cfg p (returning cfg frame hdr)).1 (reroute cfg p (returning cfg frame hdr)).2 := by
    simp only [egressMachines, only, outside, flag, Bool.not_false, Bool.and_self, if_true, control.id]
  rw [receive, control.parsed, Option.bind_some, ingressMachines_arrived control unset acts, if_pos flag, Option.bind_some,
    if_pos rfl]
  show turnBack cfg p (returning cfg frame hdr) [] [] = _
  simp only [turnBack, machines, List.nil_append]
  rfl

/-- A packet of the other side's receiver goes through the reroute block to the sender's machine. -/
theorem Settled.receive_bwd (h : Settled cfg p) (control : Control cfg frame hdr id q action)
    (unset : action &&& 0x7f = action) (acts : action &&& 0x1f ≠ 0) (fsm : (action >>> 5) &&& 1 = 1) {m : Bwd Report}
    (machine : ∀ p', Settled cfg p' → ∀ pkt, Returned cfg hdr pkt → ∀ r,
      senderMachine cfg id hdr p' pkt = some r → Sent cfg p' id m r)
    {o : Outcome} (run : receive cfg p frame = some o) : HandledBwd cfg p id m o := by
  have same := sameMachines_reroute p (returning cfg frame hdr)
  have settled := h.congr same (switchPort_reroute p (returning cfg frame hdr))
  rw [receive_returning control unset acts fsm] at run
  split at run
  · cases run
    exact .taken rfl settled (receivers_congr same) (senders_congr same) rfl rfl
  · rename_i passed
    simp only [Bool.not_eq_true] at passed
    obtain ⟨r, moved, run⟩ := Option.bind_eq_some_iff.1 run
    have sent := machine _ settled _ (returned_of_passed control passed) r moved
    have view : senderView cfg id (reroute cfg p (returning cfg frame hdr)).1 = senderView cfg id p :=
      (senderView_congr same id).symm
    rw [egressCounting_control sent.settled.towardsSwitch sent.noIp, Option.map_some, Option.some.injEq] at run
    subst run
    refine .handled rfl sent.settled (sent.receivers.trans (receivers_congr same)) ?_ ?_ ?_ ?_
    · rw [sent.senders, view, senders_congr same]
    · rcases sent.answer with ⟨none, dropped, -⟩ | ⟨fwd, ack, answer, stays, only, proto, reads⟩
      · rw [view] at none
        simp [none, dropped]
      · rw [view] at answer
        have frame' : ({ protocol := r.2.1.protocol, bytes := doDeparser r.2.1.headers [] } : Frame) = controlFrame ack := by
          rw [only, proto]
          simp [controlFrame, doDeparser, addHeader]
        simpa [answer, stays, frame'] using reads
    · simpa [view] using sent.log
    · intro j other
      simpa using sent.others j other

/-- **The acknowledgement of START at a port.** -/
theorem Settled.receive_startAck (h : Settled cfg p) (control : Control cfg frame hdr id q startAckAction) {o : Outcome}
    (run : receive cfg p frame = some o) : HandledBwd cfg p id (.startAck q) o :=
  h.receive_bwd control (by decide) (by decide) (by decide)
    (fun _ settled _ packet _ moved => settled.senderMachine_startAck control packet moved) run

theorem fsmReportAction_bits (cfg : FancyConfig) (id : Nat) :
    fsmReportAction cfg id &&& 0x7f = fsmReportAction cfg id ∧ fsmReportAction cfg id &&& 0x1f ≠ 0 ∧
      (fsmReportAction cfg id >>> 5) &&& 1 = 1 := by
  rw [fsmReportAction, reportAction]
  split <;> decide

/-- **A report at a port.** -/
theorem Settled.receive_report (h : Settled cfg p) {rep : Report}
    (control : Control cfg frame hdr id q (fsmReportAction cfg id)) (counter : hdr.counter = rep.1)
    (payload : if id = cfg.treeId then cfg.exchangeEnds = true → hdr.getCounters cfg.counterWidth = some rep.2
      else rep.2 = [])
    {o : Outcome} (run : receive cfg p frame = some o) : HandledBwd cfg p id (.report q rep) o := by
  obtain ⟨unset, acts, fsm⟩ := fsmReportAction_bits cfg id
  exact h.receive_bwd control unset acts fsm
    (fun _ settled _ packet _ moved => settled.senderMachine_report control counter payload packet moved) run

end

end Ns3Fancy.Link

import Ns3Fancy.Link.Lockstep
import Ns3Fancy.Switch.Isolation

/-!
# What moves a sender

The sender of a machine moves when its timer runs and when a packet of the other side's receiver names it; whatever else a
port does leaves its state, its number and its pending event alone.
-/

namespace Ns3Fancy.Link
open Switch Buffer Function Session
set_option autoImplicit false

section
variable {cfg : FancyConfig} {p p' p'' : FancyPortInfo} {id : Nat}

/-- The sender of a machine is as it was, with its pending events. -/
structure Stays (id : Nat) (p p' : FancyPortInfo) : Prop where
  control : p'.greySend.control id = p.greySend.control id
  pending : (p'.events.pending.filter fun e => e.2.owner = ⟨true, id⟩) = p.events.pending.filter fun e => e.2.owner = ⟨true, id⟩

/-- The sender of a machine has gone on: an answered START has opened its session, or a report has closed it. -/
structure GoesOnTo (id : Nat) (p p' : FancyPortInfo) : Prop where
  notWaiting : p'.greySend.greyState id ≠ .startAck
  next : (p'.greySend.currentSEQ id = p.greySend.currentSEQ id ∧ p.greySend.greyState id = .startAck ∧
    p'.greySend.greyState id = .counting) ∨ p'.greySend.currentSEQ id = p.greySend.currentSEQ id + 1

theorem Stays.refl : Stays id p p := ⟨rfl, rfl⟩

theorem Stays.trans (h : Stays id p p') (h' : Stays id p' p'') : Stays id p p'' :=
  ⟨h'.control.trans h.control, h'.pending.trans h.pending⟩

theorem Stays.greyState (h : Stays id p p') : p'.greySend.greyState id = p.greySend.greyState id :=
  congrArg MachineControl.greyState h.control

theorem Stays.currentSEQ (h : Stays id p p') : p'.greySend.currentSEQ id = p.greySend.currentSEQ id :=
  congrArg MachineControl.currentSEQ h.control

theorem Stays.mem_pending (h : Stays id p p') {u : Nat} {action : UInt8} :
    (u, .sendGreyAction action id) ∈ p'.events.pending ↔ (u, .sendGreyAction action id) ∈ p.events.pending := by
  have same := congrArg ((u, Event.sendGreyAction action id) ∈ ·) h.pending
  simpa [Event.owner] using same

theorem GoesOnTo.ofStays (h : GoesOnTo id p p') (before : Stays id p'' p) : GoesOnTo id p'' p' where
  notWaiting := h.notWaiting
  next := by
    rw [← before.currentSEQ, ← before.greyState]
    exact h.next

theorem GoesOnTo.stays (h : GoesOnTo id p p') (after : Stays id p' p'') : GoesOnTo id p p'' where
  notWaiting := by
    rw [after.greyState]
    exact h.notWaiting
  next := by
    rw [after.currentSEQ, after.greyState]
    exact h.next

theorem Stays.ofMoves {moves counts : MachineId → Prop} (moved : Moves cfg moves counts p p') (still : ¬moves ⟨true, id⟩) :
    Stays id p p' := by
  obtain ⟨control, pending⟩ := moved.control ⟨true, id⟩ still
  exact ⟨control, pending⟩

theorem Settled.owns (h : Settled cfg p) : OwnsEvents p where
  fresh := h.fresh
  handles := by
    rintro ⟨sender, id⟩ u handle
    cases sender with
    | true =>
      obtain ⟨old, own⟩ := h.sendHandle id u handle
      refine ⟨old, fun ev mem => ?_⟩
      obtain ⟨action, rfl⟩ := own ev mem
      rfl
    | false =>
      obtain ⟨old, own⟩ := h.recvHandle id u handle
      refine ⟨old, fun ev mem => ?_⟩
      rw [own ev mem]
      rfl

/-! ## Packets -/

/-- What the machine a packet names does with it. -/
theorem senderMachine_goesOn {hdr : FancyHeader} {m : PktInfo cfg.ns3} {r : FancyPortInfo × PktInfo cfg.ns3 × List PortLog}
    (run : senderMachine cfg id hdr p m = some r) : r.1 = p ∨ GoesOnTo id p r.1 := by
  cases state : p.greySend.greyState id with
  | idle =>
    simp only [senderMachine, state] at run
    split at run <;> cases run <;> exact .inl rfl
  | startAck =>
    simp only [senderMachine, state] at run
    split at run
    · cases run
      refine .inr ⟨?_, .inl ⟨rfl, by simp [state], ?_⟩⟩ <;> simp [scheduleSend]
    · cases run
      exact .inl rfl
  | counting | waitCounterSend | counterAck =>
    simp only [senderMachine, state] at run
    cases run
    exact .inl rfl
  | waitCounterReceive =>
    simp only [senderMachine, state] at run
    split at run
    · obtain ⟨c, consumed, rfl⟩ := Option.map_eq_some_iff.1 run
      have closed : c.1.greySend.greyState id = .idle ∧ c.1.greySend.currentSEQ id = p.greySend.currentSEQ id + 1 := by
        simp only [consumeReport] at consumed
        split at consumed
        · split at consumed
          · obtain ⟨records, -, consumed⟩ := Option.bind_eq_some_iff.1 consumed
            split at consumed <;> cases consumed
            rw [← (sameMachines_applyDetection cfg _ _).1.send]
            simp
          · cases consumed
        · cases consumed
          rw [← (sameMachines_applyDetection cfg _ _).1.send]
          simp
      obtain ⟨idle, next⟩ := closed
      refine .inr ⟨?_, .inr ?_⟩
      · simp [scheduleSend, idle]
      · simpa [scheduleSend] using next
    · cases run
      exact .inl rfl

theorem egressMachines_goesOn (owns : OwnsEvents p) {m : PktInfo cfg.ns3}
    {r : FancyPortInfo × PktInfo cfg.ns3 × List PortLog} (run : egressMachines cfg p m = some r) (id : Nat) :
    OwnsEvents r.1 ∧ (Stays id p r.1 ∨ GoesOnTo id p r.1) := by
  have moved : Moves cfg (fun k => k.sender = true ∧ NamesSender cfg m k.id) (fun _ => False) p r.1 :=
    (Moves.egressMachines owns run).1
  refine ⟨moved.owns, ?_⟩
  by_cases named : NamesSender cfg m id
  · obtain ⟨internal, hdr, fancy, fsm, rfl⟩ := named
    simp only [egressMachines, fancy, internal, fsm, Bool.not_false, Bool.and_self, if_true] at run
    rcases senderMachine_goesOn run with same | goes
    · rw [same]
      exact .inl .refl
    · exact .inr goes
  · exact .inl (.ofMoves moved fun moves => named moves.2)

theorem egressCounting_stays (owns : OwnsEvents p) {m : PktInfo cfg.ns3} {r : FancyPortInfo × PktInfo cfg.ns3 × List PortLog}
    (run : egressCounting cfg p m = some r) (id : Nat) : Stays id p r.1 := by
  have moved : Moves cfg (fun _ => False) _ p r.1 := (Moves.egressCounting owns run).1
  exact .ofMoves moved not_false

/-- The reroute block moves no machine. -/
theorem reroute_stays (owns : OwnsEvents p) (m : PktInfo cfg.ns3) (id : Nat) :
    OwnsEvents (reroute cfg p m).1 ∧ Stays id p (reroute cfg p m).1 := by
  have moved : Moves cfg (fun _ => False) (fun _ => False) p (reroute cfg p m).1 := .ofSame owns (sameMachines_reroute p m)
  exact ⟨moved.owns, .ofMoves moved not_false⟩

/-- **A frame that arrives** leaves a sender alone or lets it go on. -/
theorem receive_goesOn (owns : OwnsEvents p) {frame : Frame} {o : Outcome} (run : receive cfg p frame = some o) (id : Nat) :
    Stays id p o.port ∨ GoesOnTo id p o.port := by
  obtain ⟨h, -, run⟩ := Option.bind_eq_some_iff.1 run
  obtain ⟨r, machines, run⟩ := Option.bind_eq_some_iff.1 run
  have ingress := Moves.ingressMachines owns machines
  have first : Stays id p r.1 := by
    refine .ofMoves ingress ?_
    rintro ⟨hdr, -, same⟩
    cases same
  split at run
  · unfold turnBack at run
    simp only at run
    obtain ⟨owned, routed⟩ := reroute_stays ingress.owns r.2.1 id
    have second : Stays id p (reroute cfg r.1 r.2.1).1 := first.trans routed
    split at run
    · cases run
      exact .inl second
    · obtain ⟨q, egress, run⟩ := Option.bind_eq_some_iff.1 run
      obtain ⟨e, counting, rfl⟩ := Option.map_eq_some_iff.1 run
      obtain ⟨owned, moved⟩ := egressMachines_goesOn owned egress id
      have last : Stays id q.1 e.1 := egressCounting_stays owned counting id
      rcases moved with stays | goes
      · exact .inl ((second.trans stays).trans last)
      · exact .inr ((goes.ofStays second).stays last)
  · cases run
    exact .inl first

/-- **A packet that leaves** moves no sender. -/
theorem emit_stays (owns : OwnsEvents p) {pkt : HostPacket cfg} {earlier : Option (UInt32 × UInt16)} {o : Outcome}
    (run : emit cfg p pkt earlier = some o) (id : Nat) : Stays id p o.port := by
  obtain ⟨owned, first⟩ := reroute_stays owns (outgoing cfg pkt earlier) id
  unfold emit at run
  simp only at run
  split at run
  · cases run
    exact first
  · obtain ⟨e, counting, rfl⟩ := Option.map_eq_some_iff.1 run
    exact first.trans (egressCounting_stays owned counting id)

/-! ## Timers -/

/-- The timer of a sender has run: what its machine does and sends, and its next event. -/
structure TimerRan (cfg : FancyConfig) (id : Nat) (p : FancyPortInfo) (o : Outcome) : Prop where
  seq : o.port.greySend.currentSEQ id = p.greySend.currentSEQ id
  view : senderView cfg id o.port = ((senderView cfg id p).fire (variant cfg id) (meter cfg id)).1
  next : ∀ u action, (u, .sendGreyAction action id) ∈ o.port.events.pending ↔
    u = p.events.next ∧ action = nextAction cfg id (o.port.greySend.greyState id)
  sent : ∃ frame, o.sent = [frame] ∧ Reads cfg frame (.ofFwd id ((senderView cfg id p).fire (variant cfg id) (meter cfg id)).2)

/-- What is taken off the queue and what is put on it for one machine is nothing to another one. -/
theorem pending_other {q : EventQueue} (distinct : (q.pending.map (·.1)).Nodup) {u : Nat} {ev next : Event} {k : MachineId}
    (mem : (u, ev) ∈ q.pending) (other : ev.owner ≠ k) (away : next.owner ≠ k) :
    (((q.cancel (some u)).schedule next).pending.filter fun e => e.2.owner = k) = q.pending.filter fun e => e.2.owner = k := by
  simp only [EventQueue.schedule, EventQueue.cancel, List.filter_append, List.filter_filter]
  have new : ([(q.next, next)].filter fun e => e.2.owner = k) = [] := by simp [away]
  rw [new, List.append_nil]
  refine List.filter_congr fun e there => ?_
  rw [Bool.and_eq_left_iff_imp]
  intro owner
  rw [decide_eq_true_eq] at owner ⊢
  intro hit
  -- the event that ran is the only one with its handle
  have same := List.inj_on_of_nodup_map distinct there mem (Option.some.inj hit)
  rw [same] at owner
  exact other owner

/-- **The timer of another machine** leaves a sender alone. -/
theorem Settled.runEvent_stays (h : Settled cfg p) {i u : Nat} {ev : Event} {o : Outcome}
    (at_ : p.events.pending[i]? = some (u, ev)) (other : ev.owner ≠ ⟨true, id⟩)
    (run : runEvent cfg { p with events := { p.events with pending := p.events.pending.eraseIdx i } } ev = some o) :
    Stays id p o.port := by
  have mem := List.mem_of_getElem? at_
  rw [eraseIdx_eq_cancel h.distinct at_] at run
  cases ev with
  | sendGreyAction action j =>
    obtain ⟨started, current, next⟩ := h.sends u action j mem
    have differs : id ≠ j := by
      rintro rfl
      exact other rfl
    rw [← current] at run
    obtain ⟨r, ran, rfl⟩ := Option.map_eq_some_iff.1 run
    obtain ⟨g, move, off, -⟩ := sendGreyAction_fires started next (h.sendState j).1 ran
    refine ⟨?_, ?_⟩
    · simp only [move, Link.sendMove, Switch.scheduleSend, GreyInfo.control, GreyInfo.setCurrentEvent_greyState,
        GreyInfo.setCurrentEvent_currentSEQ, GreyInfo.setCurrentEvent_currentEvent, update_of_ne differs,
        off.greyState id differs, off.currentSEQ id differs, off.currentEvent]
    · simp only [move, Link.sendMove, Switch.scheduleSend, current]
      exact pending_other h.distinct mem other fun same => differs (MachineId.mk.inj same).2.symm
  | sendGreyCounter j =>
    obtain ⟨r, ran, rfl⟩ := Option.map_eq_some_iff.1 run
    have timer := h.cancel (h.onlyReports_of_mem mem)
    obtain ⟨port, -⟩ := sendGreyCounter_reads (h.counters u j mem) (timer.numbers j) ran
    refine ⟨?_, ?_⟩
    · simp only [port, Switch.scheduleRecv]
    · simp only [port, Switch.scheduleRecv]
      exact pending_other h.distinct mem other fun same => Bool.false_ne_true (MachineId.mk.inj same).1

/-- **The timer of the machine.** -/
theorem Settled.runEvent_timer (h : Settled cfg p) {i u : Nat} {action : UInt8} {o : Outcome}
    (at_ : p.events.pending[i]? = some (u, .sendGreyAction action id))
    (run : runEvent cfg { p with events := { p.events with pending := p.events.pending.eraseIdx i } }
      (.sendGreyAction action id) = some o) : TimerRan cfg id p o := by
  have settled := (h.runEvent_send at_ run).1
  obtain ⟨started, current, next⟩ := h.sends u action id (List.mem_of_getElem? at_)
  rw [eraseIdx_eq_cancel h.distinct at_, ← current] at run
  obtain ⟨r, ran, rfl⟩ := Option.map_eq_some_iff.1 run
  obtain ⟨g, move, -, -, view, reads⟩ := sendGreyAction_fires started next (h.sendState id).1 ran
  have moved : senderView cfg id r.1 = ((senderView cfg id p).fire (variant cfg id) (meter cfg id)).1 := by
    rw [move, senderView_sendMove, view]
  have handle : r.1.greySend.currentEvent id = some p.events.next := by
    simp [move, Link.sendMove, Switch.scheduleSend]
  have pending : (p.events.next, .sendGreyAction (nextAction cfg id (r.1.greySend.greyState id)) id) ∈ r.1.events.pending := by
    simp [move, Link.sendMove, Switch.scheduleSend]
  refine ⟨?_, moved, fun v act => ⟨fun mem => ?_, ?_⟩, ⟨_, rfl, reads⟩⟩
  · refine UInt32.toNat.inj ?_
    have seq := congrArg Sender.seq moved
    rwa [Sender.fire_seq] at seq
  · obtain ⟨-, handle', act⟩ := settled.sends v act id mem
    exact ⟨Option.some.inj (handle'.symm.trans handle), act⟩
  · rintro ⟨rfl, rfl⟩
    exact pending

/-- What the timer does: it sends START and opens the session or waits for the answer, or it sends STOP. -/
theorem TimerRan.starts_or_stops {o : Outcome} (ran : TimerRan cfg id p o) (settled : Settled cfg p) :
    ((p.greySend.greyState id = .idle ∨ p.greySend.greyState id = .startAck) ∧
      (o.port.greySend.greyState id = .startAck ∧ id ≠ cfg.wildcardId ∨ o.port.greySend.greyState id = .counting) ∧
      ∃ frame req, o.sent = [frame] ∧ Reads cfg frame (.start id ((p.greySend.currentSEQ id).toNat % 65536) req)) ∨
    (p.greySend.greyState id = .counting ∨ p.greySend.greyState id = .waitCounterReceive) ∧
      o.port.greySend.greyState id = .waitCounterReceive := by
  obtain ⟨frame, sent, reads⟩ := ran.sent
  have phase : senderPhase (o.port.greySend.greyState id) =
      ((senderView cfg id p).fire (variant cfg id) (meter cfg id)).1.phase := congrArg Sender.phase ran.view
  have start : (senderView cfg id p).phase = .idle ∨ (senderView cfg id p).phase = .startAck →
      (o.port.greySend.greyState id = .startAck ∧ id ≠ cfg.wildcardId ∨ o.port.greySend.greyState id = .counting) ∧
        ∃ frame req, o.sent = [frame] ∧ Reads cfg frame (.start id ((p.greySend.currentSEQ id).toNat % 65536) req) := by
    intro free
    by_cases acked : (variant cfg id).acked = true
    · rw [Sender.fire_acked (variant cfg id) (meter cfg id) acked free] at phase reads
      refine ⟨Or.inl ⟨?_, by simpa [variant] using acked⟩, frame, _, sent, reads⟩
      exact senderPhase_startAck.1 phase
    · rw [Sender.fire_unacked (variant cfg id) (meter cfg id) (Bool.eq_false_of_not_eq_true acked) free] at phase reads
      refine ⟨Or.inr ?_, frame, _, sent, reads⟩
      exact senderPhase_counting.1 phase
  have stop : (senderView cfg id p).phase = .counting ∨ (senderView cfg id p).phase = .waitReport →
      o.port.greySend.greyState id = .waitCounterReceive := by
    intro busy
    rw [Sender.fire_busy (variant cfg id) (meter cfg id) busy] at phase
    exact senderPhase_waitReport.1 phase
  have free := (settled.sendState id).1
  cases state : p.greySend.greyState id with
  | idle => exact Or.inl ⟨Or.inl rfl, start (Or.inl (by simp [senderView, state, senderPhase]))⟩
  | startAck => exact Or.inl ⟨Or.inr rfl, start (Or.inr (by simp [senderView, state, senderPhase]))⟩
  | counting => exact Or.inr ⟨Or.inl rfl, stop (Or.inl (by simp [senderView, state, senderPhase]))⟩
  | waitCounterReceive => exact Or.inr ⟨Or.inr rfl, stop (Or.inr (by simp [senderView, state, senderPhase]))⟩
  | waitCounterSend | counterAck => simp [state, isSending] at free

theorem TimerRan.not_idle {o : Outcome} (ran : TimerRan cfg id p o) (settled : Settled cfg p) :
    o.port.greySend.greyState id ≠ .idle := by
  rcases ran.starts_or_stops settled with ⟨-, waits | counting, -⟩ | ⟨-, stops⟩
  · rw [waits.1]; decide
  · rw [counting]; decide
  · rw [stops]; decide

/-! ## Steps of the link -/

section
variable {s : System} {F : Bool → List Msg} {r : System × List Seen}

/-- The wire a step takes a frame off. -/
def Label.takes (side : Bool) : Label cfg → Bool
  | .deliver d => d == side
  | .fire _ _ | .probe _ | .egress _ _ _ _ | .lose _ _ => false

/-- A step puts frames at the end of the wires. -/
theorem step_wire {l : Label cfg} (run : Link.step cfg l s = some r) (keeps : ∀ d i, l ≠ .lose d i) (side : Bool) :
    ∃ sent, r.1.wire side = (if l.takes side then (s.wire side).tail else s.wire side) ++ sent := by
  have appended : ∀ d (o : Outcome), ∃ sent, (s.after d o).wire side = s.wire side ++ sent := by
    intro d o
    by_cases here : side = d
    · subst here
      exact ⟨o.sent, update_self _ _ _⟩
    · exact ⟨[], by rw [List.append_nil]; exact update_of_ne here _ _⟩
  cases l with
  | fire d i =>
    obtain ⟨e, -, run⟩ := Option.bind_eq_some_iff.1 run
    obtain ⟨o, -, rfl⟩ := Option.map_eq_some_iff.1 run
    exact appended d o
  | probe d =>
    cases run
    exact appended d { port := s.port d, sent := [controlFrame {}] }
  | egress d pkt earlier lost =>
    obtain ⟨o, -, rfl⟩ := Option.map_eq_some_iff.1 run
    exact appended d _
  | deliver d =>
    simp only [Link.step] at run
    split at run
    · cases run
    · rename_i frame rest wire
      obtain ⟨o, -, rfl⟩ := Option.map_eq_some_iff.1 run
      by_cases here : d = side
      · subst here
        refine ⟨[], ?_⟩
        simp [System.after, Label.takes, wire]
      · obtain rfl : side = !d := by cases side <;> cases d <;> simp_all
        refine ⟨o.sent, ?_⟩
        simp [System.after, Label.takes]
  | lose d i => exact absurd rfl (keeps d i)

/-- A frame is delivered. -/
theorem step_deliver {d : Bool} (run : Link.step cfg (.deliver d) s = some r) : ∃ frame rest o, s.wire d = frame :: rest ∧
    receive cfg (s.port !d) frame = some o ∧ r.1.port = update s.port (!d) o.port ∧
    r.1.wire (!d) = s.wire (!d) ++ o.sent := by
  simp only [Link.step] at run
  split at run
  · cases run
  · rename_i frame rest wire
    obtain ⟨o, received, rfl⟩ := Option.map_eq_some_iff.1 run
    refine ⟨frame, rest, o, wire, received, rfl, ?_⟩
    simp [System.after]

/-- A step leaves a sender alone or lets it go on, or it is its timer. -/
theorem Wired.step_sender (w : Wired cfg s F) {l : Label cfg} (run : Link.step cfg l s = some r) (side : Bool) (id : Nat) :
    (Stays id (s.port side) (r.1.port side) ∨ GoesOnTo id (s.port side) (r.1.port side)) ∨
      ∃ i u action o, l = .fire side i ∧ (s.port side).events.pending[i]? = some (u, .sendGreyAction action id) ∧
        TimerRan cfg id (s.port side) o ∧ r.1 = s.after side o := by
  have elsewhere : ∀ d p, side ≠ d → Stays id (s.port side) (update s.port d p side) := by
    intro d p other
    rw [update_of_ne other]
    exact .refl
  cases l with
  | fire d i =>
    obtain ⟨⟨u, ev⟩, at_, run⟩ := Option.bind_eq_some_iff.1 run
    obtain ⟨o, ran, rfl⟩ := Option.map_eq_some_iff.1 run
    by_cases here : side = d
    · subst here
      by_cases own : ev.owner = ⟨true, id⟩
      · obtain ⟨action, rfl⟩ : ∃ action, ev = .sendGreyAction action id := by
          cases ev with
          | sendGreyAction action j =>
            obtain ⟨-, rfl⟩ := MachineId.mk.inj own
            exact ⟨action, rfl⟩
          | sendGreyCounter j => exact absurd (MachineId.mk.inj own).1 Bool.false_ne_true
        exact Or.inr ⟨i, u, action, o, rfl, at_, (w.settled side).runEvent_timer at_ ran, rfl⟩
      · refine Or.inl (Or.inl ?_)
        simp only [System.after, update_self]
        exact (w.settled side).runEvent_stays at_ own ran
    · exact Or.inl (Or.inl (elsewhere d _ here))
  | probe d =>
    cases run
    exact Or.inl (Or.inl .refl)
  | egress d pkt earlier lost =>
    obtain ⟨o, ran, rfl⟩ := Option.map_eq_some_iff.1 run
    refine Or.inl (Or.inl ?_)
    by_cases here : side = d
    · subst here
      have same : ((s.after side (if lost then { o with sent := [] } else o)).port side) = o.port := by
        simp only [System.after, update_self]
        split <;> rfl
      rw [same]
      exact emit_stays (w.settled side).owns ran id
    · exact elsewhere d _ here
  | deliver d =>
    obtain ⟨frame, rest, o, -, received, port, -⟩ := step_deliver run
    rw [port]
    by_cases here : side = !d
    · subst here
      rw [update_self]
      exact Or.inl (receive_goesOn (w.settled _).owns received id)
    · exact Or.inl (Or.inl (elsewhere _ _ here))
  | lose d i =>
    cases run
    exact Or.inl (Or.inl .refl)

end

end

end Ns3Fancy.Link

import Ns3Fancy.Link.Receive
import Ns3Fancy.Switch.Standard

/-!
# A lost acknowledgement

When the acknowledgement of a report is lost, the receiver sends the report again and the sender, which has closed its
session, is to acknowledge it once more. It does so for the machines with one counter; it does not know the report of the
tree, whose action says that it carries several.
-/

namespace Ns3Fancy.Link
open Switch Buffer Function
set_option autoImplicit false

/-- The receiver waits for the acknowledgement of its report of session `k`. -/
structure AwaitsAck (id : Nat) (k : UInt16) (p : FancyPortInfo) : Prop where
  state : p.greyRecv.greyState id = .counterAck
  session : p.greyRecv.currentSEQ id = k.toUInt32

/-- The sender has consumed the report of session `k` and has not opened the next one. -/
structure HasConsumed (id : Nat) (k : UInt16) (p : FancyPortInfo) : Prop where
  state : p.greySend.greyState id = .idle
  session : p.greySend.currentSEQ id = k.toUInt32 + 1

/-- A frame that ends the wait of any receiver that waits for the acknowledgement of session `k`, and its timer. -/
def EndsWait (cfg : FancyConfig) (id : Nat) (k : UInt16) (frame : Frame) : Prop :=
  ∀ p, AwaitsAck id k p → ∃ o, receive cfg p frame = some o ∧ o.port.greyRecv.greyState id = .idle ∧
    ∀ e ∈ o.port.events.pending, some e.1 ≠ p.greyRecv.currentEvent id

/-- What the sender is to do with the repeated report: its machines stay as they are, and its answer is the lost
acknowledgement again. -/
def AcksAgain (cfg : FancyConfig) (id : Nat) (k : UInt16) (p : FancyPortInfo) (report : Frame) : Prop :=
  ∃ o, receive cfg p report = some o ∧ SameMachines p o.port ∧ ∃ ack, o.sent = [ack] ∧ EndsWait cfg id k ack

section
variable {cfg : FancyConfig} {p : FancyPortInfo} {id q : Nat} {k : UInt16} {frame : Frame} {hdr : FancyHeader}

/-- The report of a session reaches the sender's machine as it left the receiver's. -/
theorem report_control (started : id ∈ startedIds cfg) (waits : AwaitsAck id k p)
    {r : FancyPortInfo × FancyHeader × List PortLog} (emitted : sendGreyCounter cfg id p = some r) :
    ∃ hdr, Control cfg (controlFrame r.2.1) hdr id k.toNat (fsmReportAction cfg id) := by
  have number : (receiverView cfg id p).seq = k.toNat := by
    show (p.greyRecv.currentSEQ id).toNat = k.toNat
    rw [waits.session, UInt16.toNat_toUInt32]
  have small : (p.greyRecv.currentSEQ id).toNat < 65536 := by
    rw [waits.session, UInt16.toNat_toUInt32]
    exact k.toNat_lt
  obtain ⟨-, reads, -⟩ := sendGreyCounter_reads started small emitted
  rw [number] at reads
  cases reads with
  | report control _ _ => exact ⟨_, control⟩

/-- A packet of the other side's receiver that the reroute block lets pass comes to the sender's machine. -/
theorem receive_returned (control : Control cfg frame hdr id q (fsmReportAction cfg id))
    (passes : catchesControl cfg p = false) :
    ∃ m : PktInfo cfg.ns3, Returned cfg hdr m ∧ receive cfg p frame = (senderMachine cfg id hdr p m).bind fun q =>
      (egressCounting cfg q.1 q.2.1).map fun e =>
        { port := e.1
          sent := if e.2.1.dropFlag then [] else [{ protocol := e.2.1.protocol, bytes := doDeparser e.2.1.headers [] }]
          log := q.2.2 ++ e.2.2 } := by
  obtain ⟨unset, acts, fsm⟩ := fsmReportAction_bits cfg id
  have zero : (returning cfg frame hdr).flow = {} := by
    show getFlowFiveTuple ({ fancy := some hdr } : Headers cfg.ns3) = {}
    exact getFlowFiveTuple_of_none rfl
  have passed : (reroute cfg p (returning cfg frame hdr)).2.dropFlag = false := by
    rw [reroute_dropFlag p zero rfl, passes]
    rfl
  have stays : (reroute cfg p (returning cfg frame hdr)).1 = p := by
    have caught : catches cfg p (cfg.matchTopEntriesTable (cfg.packetStr {})) {} = false := passes
    have unnamed : (returning cfg frame hdr).strFlow = "" := rfl
    simp only [reroute, zero, unnamed, if_true, caught, Bool.false_eq_true, if_false]
  refine ⟨_, returned_of_passed control passed, ?_⟩
  rw [receive_returning control unset acts fsm, passed, stays]
  rfl

/-- The acknowledgement of a report ends the wait. -/
theorem endsWait_ack (control : Control cfg frame hdr id k.toNat ackAction) : EndsWait cfg id k frame := by
  intro p waits
  have action : hdr.getAction = GREY_COUNTER := by rw [FancyHeader.getAction, control.action]; decide
  have flag : hdr.getAckFlag = true := by rw [FancyHeader.getAckFlag, control.action]; decide
  have same : (hdr.seq.toUInt32 == p.greyRecv.currentSEQ id) = true := by
    rw [seq_matches control, decide_eq_true_eq]
    show (p.greyRecv.currentSEQ id).toNat = k.toNat
    rw [waits.session, UInt16.toNat_toUInt32]
  have machine : receiverMachine cfg id hdr p (arrived cfg frame { fancy := some hdr }) =
      some ({ p with
        events := p.events.cancel (p.greyRecv.currentEvent id)
        greyRecv := p.greyRecv.setGreyState id .idle },
        (arrived cfg frame { fancy := some hdr }).discard hdr.resetActionField) := by
    simp only [receiverMachine, waits.state, action, flag, same, and_self, if_true]
  rw [receive_fwd control (by decide) (by decide) (by decide), machine]
  have elsewhere : ((arrived cfg frame { fancy := some hdr }).discard hdr.resetActionField).outPort ≠ some 0 := by
    simp [PktInfo.discard, arrived]
  simp only [Option.bind_some, elsewhere, if_false]
  refine ⟨_, rfl, by simp, fun e pending => ?_⟩
  simpa [EventQueue.cancel] using (List.mem_filter.1 pending).2

/-- **Recovery from a lost acknowledgement.** The receiver of a started machine waits for the acknowledgement of session
`k` and sends its report again; the sender has closed that session. If the reroute block lets the report through to the
sender, the sender acknowledges it again exactly if the machine is not the tree. -/
theorem lost_ack_recovery {sender : FancyPortInfo} (started : id ∈ startedIds cfg) (waits : AwaitsAck id k p)
    (consumed : HasConsumed id k sender) (towards : sender.switchPort = true) (passes : catchesControl cfg sender = false)
    {r : FancyPortInfo × FancyHeader × List PortLog} (emitted : sendGreyCounter cfg id p = some r) :
    AcksAgain cfg id k sender (controlFrame r.2.1) ↔ id ≠ cfg.treeId := by
  obtain ⟨hdr, control⟩ := report_control started waits emitted
  obtain ⟨m, packet, arrives⟩ := receive_returned control passes
  have act : hdr.getAction = GREY_COUNTER ↔ id ≠ cfg.treeId := by
    rw [FancyHeader.getAction, control.action, fsmReportAction, reportAction]
    split <;> rename_i isTree <;> simp only [isTree, ne_eq, not_true, not_false_eq_true, iff_true, iff_false] <;> decide
  have late : hdr.seq.toUInt32 ≤ sender.greySend.currentSEQ id := by
    have bound := k.toNat_lt
    rw [UInt32.le_iff_toNat_le, UInt16.toNat_toUInt32, control.seq, consumed.session, UInt32.toNat_add,
      UInt16.toNat_toUInt32, UInt32.toNat_one]
    omega
  simp only [senderMachine, consumed.state, late, and_true] at arrives
  constructor
  · rintro ⟨o, received, -, ack, sent, -⟩ isTree
    rw [if_neg fun single => act.1 single isTree, Option.bind_some,
      egressCounting_control towards (by simp [PktInfo.discard, packet.headers]), Option.map_some] at arrives
    rw [arrives, Option.some.injEq] at received
    simp [← received, PktInfo.discard] at sent
  · intro notTree
    rw [if_pos (act.2 notTree), Option.bind_some,
      egressCounting_control towards (by simp [PktInfo.bounce, packet.headers]), Option.map_some] at arrives
    refine ⟨_, arrives, .refl _, _, if_neg (by simp [PktInfo.bounce, packet.kept]), ?_⟩
    have reads := acknowledges control 0
    have whole : ∀ ack : FancyHeader,
      ({ protocol := (m.bounce ack).protocol, bytes := doDeparser (m.bounce ack).headers [] } : Frame) =
        controlFrame ack := by
      intro ack
      simp [PktInfo.bounce, packet.headers, packet.protocol, controlFrame, doDeparser, addHeader]
    rw [whole]
    cases reads with
    | ack ackControl => exact endsWait_ack ackControl

/-! ## One machine of each kind -/

/-- A dedicated entry before the tree. -/
def oneEntry : FancyConfig := { smallConfig with numTopEntries := 1, topPrefixes := [0x0a000000], ids_fit := by decide }

theorem lost_ack_recovery_entry : ∃ r, sendGreyCounter oneEntry 0
    { greyRecv := ({} : GreyInfo).setGreyState 0 .counterAck } = some r ∧
    AcksAgain oneEntry 0 0 { greySend := ({} : GreyInfo).setCurrentSEQ 0 1 } (controlFrame r.2.1) :=
  ⟨_, rfl, (lost_ack_recovery (by decide) ⟨rfl, rfl⟩ ⟨rfl, rfl⟩ rfl (by decide +kernel) rfl).2 (by decide)⟩

/-- The tree's first report is acknowledged, the acknowledgement is lost, and the report is sent again. -/
def reportAgain : List (Label smallConfig) :=
  [.fire false 0, .deliver false, .deliver true, .fire false 0, .deliver false, .fire true 1, .deliver true,
    .lose false 0, .fire true 1]

theorem tree_report_unanswered : ∃ s tr report, Lts.Run (Link.step smallConfig) (fun _ _ => True)
    (System.start smallConfig) s tr ∧
    HasConsumed smallConfig.treeId 0 (s.port false) ∧ AwaitsAck smallConfig.treeId 0 (s.port true) ∧ s.wire true = [report] ∧
      ¬AcksAgain smallConfig smallConfig.treeId 0 (s.port false) report := by
  have repeated : ∃ s tr, Lts.Run (Link.step smallConfig) (fun _ _ => True) (System.start smallConfig) s tr ∧
      ((s.port false).greySend.greyState 0, (s.port false).greySend.currentSEQ 0, (s.port true).greyRecv.greyState 0,
        (s.port true).greyRecv.currentSEQ 0,
        (s.wire true).map fun f => (receive smallConfig (s.port false) f).elim 1 (·.sent.length)) =
      (.idle, 1, .counterAck, 0, [0]) :=
    Lts.Run.exists_of_guarded reportAgain (by decide +kernel)
  obtain ⟨s, tr, run, facts⟩ := repeated
  simp only [Prod.mk.injEq] at facts
  obtain ⟨idle, next, waits, number, wire⟩ := facts
  obtain ⟨report, onWire, unanswered⟩ := List.map_eq_singleton_iff.1 wire
  refine ⟨s, tr, report, run, ⟨idle, next⟩, ⟨waits, number⟩, onWire, ?_⟩
  rintro ⟨o, received, -, ack, sent, -⟩
  simp [received, sent] at unanswered

end

end Ns3Fancy.Link

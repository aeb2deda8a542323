import Ns3Fancy.Link.Message

/-!
# What a port does is what its machines do

Each thing a port does, a timer that runs, a frame that arrives or a packet that leaves, moves one end of
one session as the session protocol says and leaves all others alone.
-/

namespace Ns3Fancy.Link
open Switch Buffer Function Session
set_option autoImplicit false

section
variable (cfg : FancyConfig)

/-- The senders and the receivers of a port, by machine id. -/
def senders (p : FancyPortInfo) : Nat → Sender Count := fun id => senderView cfg id p
def receivers (p : FancyPortInfo) : Nat → Receiver Count := fun id => receiverView cfg id p

/-- One side of a port changes for one machine only. -/
structure OffId (id : Nat) (g g' : GreyInfo) : Prop where
  localCounter : ∀ j, j ≠ id → g'.localCounter j = g.localCounter j
  greyState : ∀ j, j ≠ id → g'.greyState j = g.greyState j
  currentSEQ : ∀ j, j ≠ id → g'.currentSEQ j = g.currentSEQ j
  currentEvent : g'.currentEvent = g.currentEvent
  counterTree : id ≠ cfg.treeId → g'.counterTree = g.counterTree

/-- A message of the sender or of the receiver of a machine. -/
def Msg.ofFwd (id : Nat) : Fwd FiveTuple Request → Msg
  | .start q req => .start id q req
  | .stop q => .stop id q
  | .ack q => .ack id q
  | .data tag flow => .data flow true (tag.map fun q => (id, q)) none

def Msg.ofBwd (id : Nat) : Bwd Report → Msg
  | .startAck q => .startAck id q
  | .report q rep => .report id q rep

end

section
variable {cfg : FancyConfig} {p : FancyPortInfo} {id : Nat}

namespace OffId
variable {g g' : GreyInfo}

theorem refl (g : GreyInfo) : OffId cfg id g g := by constructor <;> simp

theorem setGreyState (h : OffId cfg id g g') (state : GreyState) : OffId cfg id g (g'.setGreyState id state) where
  localCounter := h.localCounter
  greyState j other := by rw [GreyInfo.setGreyState_greyState, update_of_ne other, h.greyState j other]
  currentSEQ := h.currentSEQ
  currentEvent := h.currentEvent
  counterTree := h.counterTree

theorem setLocalCounter (h : OffId cfg id g g') (n : UInt64) : OffId cfg id g (g'.setLocalCounter id n) where
  localCounter j other := by rw [GreyInfo.setLocalCounter_localCounter, update_of_ne other, h.localCounter j other]
  greyState := h.greyState
  currentSEQ := h.currentSEQ
  currentEvent := h.currentEvent
  counterTree := h.counterTree

theorem setCurrentSEQ (h : OffId cfg id g g') (seq : UInt32) : OffId cfg id g (g'.setCurrentSEQ id seq) where
  localCounter := h.localCounter
  greyState := h.greyState
  currentSEQ j other := by rw [GreyInfo.setCurrentSEQ_currentSEQ, update_of_ne other, h.currentSEQ j other]
  currentEvent := h.currentEvent
  counterTree := h.counterTree

theorem setTree (h : OffId cfg id g g') (tree : Tree) (isTree : id = cfg.treeId) :
    OffId cfg id g { g' with counterTree := tree } where
  localCounter := h.localCounter
  greyState := h.greyState
  currentSEQ := h.currentSEQ
  currentEvent := h.currentEvent
  counterTree other := absurd isTree other

theorem count (h : OffId cfg id g g') {j : Nat} (other : j ≠ id) : Link.count cfg j g' = Link.count cfg j g := by
  simp only [Link.count, h.localCounter j other]
  by_cases isTree : j = cfg.treeId
  · rw [if_pos isTree, if_pos isTree, h.counterTree fun same => other (isTree.trans same.symm)]
  · rw [if_neg isTree, if_neg isTree]

end OffId

theorem senders_setSend {g : GreyInfo} (off : OffId cfg id p.greySend g) :
    senders cfg { p with greySend := g } = update (senders cfg p) id (senderView cfg id { p with greySend := g }) := by
  funext j
  by_cases here : j = id
  · subst here; simp [senders]
  · rw [update_of_ne here]
    simp only [senders, senderView, off.count here, off.greyState j here, off.currentSEQ j here]

/-! ## The sender's timer -/

theorem cancel_cancel (handle : Option Nat) (q : EventQueue) : (q.cancel handle).cancel handle = q.cancel handle := by
  simp [EventQueue.cancel]

/-- The sender's timer ran as a move of its machine, and the frame it sent is the machine's message. -/
def Fires (cfg : FancyConfig) (id : Nat) (p : FancyPortInfo) (r : FancyPortInfo × FancyHeader) : Prop :=
  ∃ g, r.1 = sendMove cfg id g p ∧ OffId cfg id p.greySend g ∧ isSending (g.greyState id) = true ∧
    senderView cfg id { p with greySend := g } = ((senderView cfg id p).fire (variant cfg id) (meter cfg id)).1 ∧
    Reads cfg (controlFrame r.2) (.ofFwd id ((senderView cfg id p).fire (variant cfg id) (meter cfg id)).2)

/-- The port when the sender's timer runs. -/
def timerRan (id : Nat) (p : FancyPortInfo) : FancyPortInfo :=
  { p with events := p.events.cancel (p.greySend.currentEvent id) }

theorem senderView_seq (id : Nat) (p : FancyPortInfo) :
    (p.greySend.currentSEQ id).toUInt16.toNat = (senderView cfg id p).seq % (variant cfg id).modulus :=
  UInt32.toNat_toUInt16 _

section
variable {r : FancyPortInfo × FancyHeader} (started : id ∈ startedIds cfg)
include started

theorem fires_stop (busy : (senderView cfg id p).phase = .counting ∨ (senderView cfg id p).phase = .waitReport)
    (run : sendGreyAction cfg GREY_STOP id (timerRan id p) = some r) : Fires cfg id p r := by
  have notStart : ¬(GREY_STOP = GREY_START ||| COUNTER_MAXIMUMS ∧ id = cfg.treeId) := by
    rintro ⟨h, _⟩
    exact absurd h (by decide)
  have fire := Sender.fire_busy (variant cfg id) (meter cfg id) busy
  simp only [sendGreyAction, if_neg notStart, show ¬GREY_STOP = GREY_START by decide, if_false, if_true,
    Option.some.injEq] at run
  subst run
  refine ⟨p.greySend.setGreyState id .waitCounterReceive, ?_, (OffId.refl _).setGreyState _, ?_, ?_, ?_⟩
  · simp [sendMove, nextAction, timerRan]
  · simp [isSending]
  · rw [fire]
    simp [senderView, senderPhase, count]
  · rw [fire]
    exact .stop (.plain started rfl (toNat_ofNat_id (started_le started)) (senderView_seq id p) rfl
      (by decide) (by decide))

theorem fires_start (notTree : id ≠ cfg.treeId) (acked : id ≠ cfg.wildcardId)
    (free : (senderView cfg id p).phase = .idle ∨ (senderView cfg id p).phase = .startAck)
    (run : sendGreyAction cfg GREY_START id (timerRan id p) = some r) : Fires cfg id p r := by
  have notMaximums : ¬(GREY_START = GREY_START ||| COUNTER_MAXIMUMS ∧ id = cfg.treeId) := fun h => notTree h.2
  have waits : (variant cfg id).acked = true := by simp [variant, acked]
  have fire := Sender.fire_acked (variant cfg id) (meter cfg id) waits free
  have notWildcard : ¬(cfg.treeEnableSoftDetections = true ∧ id = cfg.wildcardId) := fun h => acked h.2
  simp only [sendGreyAction, if_neg notMaximums, if_true, if_neg notWildcard, Option.some.injEq] at run
  subst run
  refine ⟨(p.greySend.setLocalCounter id 0).setGreyState id .startAck, ?_,
    ((OffId.refl _).setLocalCounter _).setGreyState _, ?_, ?_, ?_⟩
  · simp [sendMove, nextAction, startAction, notTree, timerRan]
  · simp [isSending]
  · rw [fire]
    simp [senderView, senderPhase, count, meter]
  · rw [fire]
    have action : startAction cfg id = GREY_START := if_neg notTree
    exact .start (.plain started rfl (toNat_ofNat_id (started_le started)) (senderView_seq id p) (by rw [action]; rfl)
      (by rw [action]; decide) (by rw [action]; decide)) fun isTree => absurd isTree notTree

theorem fires_startWildcard (isWildcard : id = cfg.wildcardId)
    (free : (senderView cfg id p).phase = .idle ∨ (senderView cfg id p).phase = .startAck)
    (run : sendGreyAction cfg GREY_START id (timerRan id p) = some r) : Fires cfg id p r := by
  have notTree : id ≠ cfg.treeId := by
    rw [isWildcard]
    exact Nat.succ_ne_self _
  have notMaximums : ¬(GREY_START = GREY_START ||| COUNTER_MAXIMUMS ∧ id = cfg.treeId) := fun h => notTree h.2
  have waits : (variant cfg id).acked = false := by simp [variant, isWildcard]
  have fire := Sender.fire_unacked (variant cfg id) (meter cfg id) waits free
  have soft : cfg.treeEnableSoftDetections = true ∧ id = cfg.wildcardId :=
    ⟨started_wildcard (isWildcard ▸ started), isWildcard⟩
  simp only [sendGreyAction, if_neg notMaximums, if_true, if_pos soft, Option.some.injEq] at run
  subst run
  refine ⟨p.greySend.setGreyState id .counting, ?_, (OffId.refl _).setGreyState _, ?_, ?_, ?_⟩
  · simp [sendMove, nextAction, timerRan, cancel_cancel]
  · simp [isSending]
  · rw [fire]
    simp [senderView, senderPhase, count]
  · rw [fire]
    have action : startAction cfg id = GREY_START := if_neg notTree
    exact .start (.plain started rfl (toNat_ofNat_id (started_le started)) (senderView_seq id p) (by rw [action]; rfl)
      (by rw [action]; decide) (by rw [action]; decide)) fun isTree => absurd isTree notTree

theorem fires_startTree (isTree : id = cfg.treeId)
    (free : (senderView cfg id p).phase = .idle ∨ (senderView cfg id p).phase = .startAck)
    (run : sendGreyAction cfg (GREY_START ||| COUNTER_MAXIMUMS) id (timerRan id p) = some r) : Fires cfg id p r := by
  have waits : (variant cfg id).acked = true := by
    simp [variant, isTree, FancyAttributes.treeId, FancyConfig.wildcardId]
  have fire := Sender.fire_acked (variant cfg id) (meter cfg id) waits free
  simp only [sendGreyAction, if_pos (And.intro trivial isTree)] at run
  split at run
  swap
  · cases run
  rename_i ends
  simp only [Option.some.injEq] at run
  subst run
  subst isTree
  have base : FancyHeader.action ((({} : FancyHeader).setAction (GREY_START ||| COUNTER_MAXIMUMS)).setFSMFlag false) =
      GREY_START ||| COUNTER_MAXIMUMS := by decide
  let hdr := (((({} : FancyHeader).setAction (GREY_START ||| COUNTER_MAXIMUMS)).setFSMFlag false).setSeq
    (p.greySend.currentSEQ cfg.treeId).toUInt16).setId (.ofNat cfg.treeId) |>.setDataWidth (.ofNat cfg.layerSplit)
  obtain ⟨hdr', control, records⟩ := @Control.maximums cfg hdr _ started rfl (toNat_ofNat_id (started_le started))
    (senderView_seq cfg.treeId p) base rfl rfl rfl ends fun i => (p.greySend.counterTree i).maxCells 0
  refine ⟨(p.greySend.setLocalCounter cfg.treeId 0).setGreyState cfg.treeId .startAck, ?_,
    ((OffId.refl _).setLocalCounter _).setGreyState _, ?_, ?_, ?_⟩
  · simp [sendMove, nextAction, startAction, timerRan]
  · simp [isSending]
  · rw [fire]
    simp [senderView, senderPhase, count, meter]
  · rw [fire]
    refine .start control fun _ init => ?_
    rw [records init]
    simp [meter, senderView, count]

/-- **The sender's timer** moves the sender of its machine. -/
theorem sendGreyAction_fires {action : UInt8} (next : action = nextAction cfg id (p.greySend.greyState id))
    (sending : isSending (p.greySend.greyState id) = true)
    (run : sendGreyAction cfg action id (timerRan id p) = some r) : Fires cfg id p r := by
  have start : action = startAction cfg id →
      (senderView cfg id p).phase = .idle ∨ (senderView cfg id p).phase = .startAck → Fires cfg id p r := by
    intro first free
    by_cases isTree : id = cfg.treeId
    · exact fires_startTree started isTree free (by rwa [first, startAction, if_pos isTree] at run)
    · rw [first, startAction, if_neg isTree] at run
      by_cases isWildcard : id = cfg.wildcardId
      · exact fires_startWildcard started isWildcard free run
      · exact fires_start started isTree isWildcard free run
  cases state : p.greySend.greyState id with
  | idle => exact start (by rw [next, state]; rfl) (Or.inl (by simp [senderView, state, senderPhase]))
  | startAck => exact start (by rw [next, state]; rfl) (Or.inr (by simp [senderView, state, senderPhase]))
  | counting =>
    rw [next, state] at run
    exact fires_stop started (Or.inl (by simp [senderView, state, senderPhase])) run
  | waitCounterReceive =>
    rw [next, state] at run
    exact fires_stop started (Or.inr (by simp [senderView, state, senderPhase])) run
  | waitCounterSend | counterAck => simp [state, isSending] at sending

end

/-! ## Report timers -/

/-- At most one of the timers is the current one. -/
theorem length_timers {timers : List Nat} (distinct : timers.Nodup) (current : Option Nat) :
    timers.length = (timers.filter fun u => some u != current).length + (timers.any fun u => some u == current).toNat := by
  induction timers with
  | nil => rfl
  | cons u us ih =>
    obtain ⟨new, rest⟩ := List.nodup_cons.1 distinct
    by_cases hit : some u = current
    · have others : ∀ v ∈ us, some v ≠ current := by
        rintro v mem same
        cases hit.trans same.symm
        exact new mem
      have none : us.any (fun v => some v == current) = false := by simpa using others
      have all : us.filter (fun v => some v != current) = us := List.filter_eq_self.2 fun v mem => by simpa using others v mem
      simp [hit, all]
    · have miss : (some u == current) = false := by simpa using hit
      rw [List.filter_cons_of_pos (by simpa using hit), List.any_cons, miss, Bool.false_or, List.length_cons,
        List.length_cons, ih rest]
      omega

theorem receiverView_setRecv {g : GreyInfo} (off : OffId cfg id p.greyRecv g) :
    receivers cfg { p with greyRecv := g } = update (receivers cfg p) id (receiverView cfg id { p with greyRecv := g }) := by
  funext j
  by_cases here : j = id
  · subst here; simp [receivers]
  · rw [update_of_ne here]
    simp only [receivers, receiverView, off.count here, off.greyState j here, off.currentSEQ j here, off.currentEvent]

/-- Setting a report timer. -/
theorem Settled.receivers_scheduleRecv (h : Settled cfg p) (id : Nat) :
    receivers cfg (Switch.scheduleRecv id (.sendGreyCounter id) p) =
      update (receivers cfg p) id (receiverView cfg id p).arm := by
  funext j
  by_cases here : j = id
  · subst here
    have old : ∀ u ∈ reportTimers j p.events, u ≠ p.events.next := fun u mem =>
      Nat.ne_of_lt (h.fresh _ (mem_reportTimers.1 mem))
    have all : (reportTimers j p.events).filter (fun u => some u != some p.events.next) = reportTimers j p.events :=
      List.filter_eq_self.2 fun u mem => by simpa using old u mem
    have distinct : (reportTimers j p.events).Nodup := reportTimers_nodup h.distinct
    have length := length_timers distinct (p.greyRecv.currentEvent j)
    simp [receivers, receiverView, Switch.scheduleRecv, reportTimers_schedule, Receiver.arm, count, all]
    exact length
  · rw [update_of_ne here]
    have other : ¬Event.sendGreyCounter id = .sendGreyCounter j := fun same => here (by cases same; rfl)
    simp [receivers, receiverView, Switch.scheduleRecv, reportTimers_schedule, other, count, here]

theorem any_filter_ne {timers : List Nat} {u : Nat} {current : Option Nat} :
    (timers.filter fun v => some v ≠ some u).any (fun v => some v == current) =
      (timers.any (fun v => some v == current) && decide (current ≠ some u)) := by
  rw [Bool.eq_iff_iff]
  simp only [List.any_eq_true, List.mem_filter, decide_eq_true_eq, beq_iff_eq, Bool.and_eq_true]
  constructor
  · rintro ⟨v, ⟨mem, other⟩, same⟩
    exact ⟨⟨v, mem, same⟩, same ▸ other⟩
  · rintro ⟨⟨v, mem, same⟩, other⟩
    exact ⟨v, ⟨mem, same ▸ other⟩, same⟩

theorem length_filter_ne {timers : List Nat} (distinct : timers.Nodup) {u : Nat} (mem : u ∈ timers)
    (current : Option Nat) :
    ((timers.filter fun v => some v ≠ some u).filter fun v => some v != current).length =
      (timers.filter fun v => some v != current).length - if current = some u then 0 else 1 := by
  have order : (timers.filter fun v => some v ≠ some u).filter (fun v => some v != current) =
      (timers.filter fun v => some v != current).erase u := by
    rw [(distinct.filter _).erase_eq_filter, List.filter_comm]
    simp
    rfl
  rw [order]
  split
  · rename_i hit
    rw [List.erase_of_not_mem (by simp [hit]), Nat.sub_zero]
  · rename_i other
    exact List.length_erase_of_mem (List.mem_filter.2 ⟨mem, bne_iff_ne.2 (Ne.symm other)⟩)

/-- A report timer of a machine is cancelled or has run: the current one, or a forgotten one. -/
theorem Settled.receivers_cancel (h : Settled cfg p) {u : Nat} (mem : (u, .sendGreyCounter id) ∈ p.events.pending) :
    receivers cfg { p with events := p.events.cancel (some u) } = update (receivers cfg p) id
      (if p.greyRecv.currentEvent id = some u then { receiverView cfg id p with armed := false }
        else { receiverView cfg id p with stale := (receiverView cfg id p).stale - 1 }) := by
  funext j
  by_cases here : j = id
  · subst here
    have distinct : (reportTimers j p.events).Nodup := reportTimers_nodup h.distinct
    rw [update_self]
    simp only [receivers, receiverView, reportTimers_cancel, any_filter_ne,
      length_filter_ne distinct (mem_reportTimers.2 mem)]
    split <;> rename_i current <;> simp [current]
  · rw [update_of_ne here]
    have keep : (reportTimers j p.events).filter (fun v => some v ≠ some u) = reportTimers j p.events := by
      refine List.filter_eq_self.2 fun v timer => ?_
      have other : v ≠ u := by
        rintro rfl
        have same := List.inj_on_of_nodup_map h.distinct (mem_reportTimers.1 timer) mem rfl
        cases same
        exact here rfl
      simpa using other
    simp only [receivers, receiverView, reportTimers_cancel, keep]

/-- The current report timer is cancelled, if it is still pending. -/
theorem Settled.receivers_cancelCurrent (h : Settled cfg p) (id : Nat) :
    receivers cfg { p with events := p.events.cancel (p.greyRecv.currentEvent id) } =
      update (receivers cfg p) id { receiverView cfg id p with armed := false } := by
  by_cases pending : ∃ u, p.greyRecv.currentEvent id = some u ∧ (u, .sendGreyCounter id) ∈ p.events.pending
  · obtain ⟨u, current, mem⟩ := pending
    have cancelled := h.receivers_cancel mem
    rw [if_pos current] at cancelled
    rw [current, cancelled]
  · have untouched : p.events.cancel (p.greyRecv.currentEvent id) = p.events := by
      have all : p.events.pending.filter (fun e => some e.1 ≠ p.greyRecv.currentEvent id) = p.events.pending := by
        refine List.filter_eq_self.2 fun e mem => ?_
        simp only [decide_eq_true_eq]
        intro current
        have timer := (h.recvHandle id e.1 current.symm).2 e.2 mem
        exact pending ⟨e.1, current.symm, timer ▸ mem⟩
      simp only [EventQueue.cancel, all]
    have off : (receiverView cfg id p).armed = false := by
      simp only [receiverView, List.any_eq_false, beq_iff_eq]
      intro u mem current
      exact pending ⟨u, current.symm, mem_reportTimers.1 mem⟩
    have view : { receiverView cfg id p with armed := false } = receiverView cfg id p := by rw [← off]
    rw [untouched, view]
    exact (update_eq_self id _).symm

theorem receiverView_seq (id : Nat) (p : FancyPortInfo) (small : (p.greyRecv.currentSEQ id).toNat < 65536) :
    (p.greyRecv.currentSEQ id).toUInt16.toNat = (receiverView cfg id p).seq := by
  rw [UInt32.toNat_toUInt16]
  exact Nat.mod_eq_of_lt small

/-- The message of a report timer. -/
theorem sendGreyCounter_reads (started : id ∈ startedIds cfg) (small : (p.greyRecv.currentSEQ id).toNat < 65536)
    {r : FancyPortInfo × FancyHeader × List PortLog} (run : sendGreyCounter cfg id p = some r) :
    r.1 = Switch.scheduleRecv id (.sendGreyCounter id) { p with greyRecv := p.greyRecv.setGreyState id .counterAck } ∧
      Reads cfg (controlFrame r.2.1)
        (.report id (receiverView cfg id p).seq ((meter cfg id).report (receiverView cfg id p).data)) ∧
      r.2.2 = [.reported id (receiverView cfg id p).seq] := by
  have seq : (p.greyRecv.currentSEQ id).toUInt16.toNat = (receiverView cfg id p).seq := receiverView_seq id p small
  have hid := toNat_ofNat_id (started_le started)
  simp only [sendGreyCounter] at run
  split at run
  · rename_i isTree
    split at run
    swap
    · cases run
    rename_i ends
    simp only [Option.some.injEq] at run
    subst run
    subst isTree
    refine ⟨rfl, ?_, rfl⟩
    have action : fsmReportAction cfg cfg.treeId = 0x34 := by
      rw [fsmReportAction, reportAction, if_pos rfl]; decide
    have bits : (((0 : UInt8) ||| (0x1f &&& GREY_COUNTER)) ||| (0x1f &&& (GREY_COUNTER ||| MULTIPLE_COUNTERS))) ||| 0x20 =
        0x34 := by decide
    have whole := FancyHeader.addCounters_eq (fun i => (p.greyRecv.counterTree i).counters) cfg.nodesInTree
      (((({} : FancyHeader).setAction GREY_COUNTER).setId (.ofNat cfg.treeId)).setAction
        (GREY_COUNTER ||| MULTIPLE_COUNTERS) |>.setDataWidth (.ofNat cfg.counterWidth))
    rw [whole]
    refine .counters started rfl hid seq (by rw [action]; exact bits) (UInt16.zero_add _) rfl
      (fun i => (p.greyRecv.counterTree i).counters) rfl ends rfl ?_
    simp [meter, receiverView, count]
  · rename_i notTree
    simp only [Option.some.injEq] at run
    subst run
    have action : fsmReportAction cfg id = 0x24 := by
      rw [fsmReportAction, reportAction, if_neg notTree]; decide
    have bits : ((0 : UInt8) ||| (0x1f &&& GREY_COUNTER)) ||| 0x20 = 0x24 := by decide
    refine ⟨rfl, .report (.plain started rfl hid seq (by rw [action]; exact bits) (by rw [action]; decide)
      (by rw [action]; decide)) rfl ?_, rfl⟩
    simp [notTree, meter]

/-- **A sender's timer at a port.** -/
theorem Settled.runEvent_send (h : Settled cfg p) {i u : Nat} {action : UInt8} {o : Outcome}
    (at_ : p.events.pending[i]? = some (u, .sendGreyAction action id))
    (run : runEvent cfg { p with events := { p.events with pending := p.events.pending.eraseIdx i } }
      (.sendGreyAction action id) = some o) :
    Settled cfg o.port ∧ o.log = [] ∧ receivers cfg o.port = receivers cfg p ∧
      senders cfg o.port =
        update (senders cfg p) id ((senderView cfg id p).fire (variant cfg id) (meter cfg id)).1 ∧
      List.Forall₂ (Reads cfg) o.sent [.ofFwd id ((senderView cfg id p).fire (variant cfg id) (meter cfg id)).2] := by
  obtain ⟨started, current, next⟩ := h.sends u action id (List.mem_of_getElem? at_)
  rw [eraseIdx_eq_cancel h.distinct at_, ← current] at run
  obtain ⟨r, ran, rfl⟩ := Option.map_eq_some_iff.1 run
  obtain ⟨g, move, off, sending, view, reads⟩ := sendGreyAction_fires started next (h.sendState id).1 ran
  rw [move]
  refine ⟨h.sendMove started off.currentEvent off.greyState sending, rfl, ?_, ?_, .cons reads .nil⟩
  · funext j
    exact h.receiverView_sendMove id g j
  · rw [← view, ← senders_setSend off]
    rfl

/-- The receiver when one of its timers runs: the current one, or a forgotten one. -/
def afterTimer (current : Bool) (r : Receiver Count) : Receiver Count :=
  if current then { r with armed := false } else { r with stale := r.stale - 1 }

theorem fire_timer {u : Nat} (mem : (u, .sendGreyCounter id) ∈ p.events.pending) :
    (receiverView cfg id p).fire (meter cfg id) (decide (p.greyRecv.currentEvent id ≠ some u)) =
      some ({ (afterTimer (decide (p.greyRecv.currentEvent id = some u)) (receiverView cfg id p)).arm with
          phase := .reportAck },
        .report (receiverView cfg id p).seq ((meter cfg id).report (receiverView cfg id p).data)) := by
  have timer := mem_reportTimers.2 mem
  by_cases current : p.greyRecv.currentEvent id = some u
  · have armed : (receiverView cfg id p).armed = true := by
      simp only [receiverView, List.any_eq_true, beq_iff_eq]
      exact ⟨u, timer, current.symm⟩
    simp [Receiver.fire, current, armed, afterTimer]
  · have stale : (receiverView cfg id p).stale ≠ 0 := by
      simp only [receiverView, ne_eq, List.length_eq_zero_iff, List.filter_eq_nil_iff, not_forall]
      exact ⟨u, timer, by simpa using Ne.symm current⟩
    simp [Receiver.fire, current, stale, afterTimer]

/-- **A report timer at a port.** -/
theorem Settled.runEvent_recv (h : Settled cfg p) {i u : Nat} {o : Outcome}
    (at_ : p.events.pending[i]? = some (u, .sendGreyCounter id))
    (run : runEvent cfg { p with events := { p.events with pending := p.events.pending.eraseIdx i } }
      (.sendGreyCounter id) = some o) :
    ∃ f, (receiverView cfg id p).fire (meter cfg id) (decide (p.greyRecv.currentEvent id ≠ some u)) = some f ∧
      Settled cfg o.port ∧ o.log = [.reported id (receiverView cfg id p).seq] ∧ senders cfg o.port = senders cfg p ∧
      receivers cfg o.port = update (receivers cfg p) id f.1 ∧ List.Forall₂ (Reads cfg) o.sent [.ofBwd id f.2] := by
  have mem := List.mem_of_getElem? at_
  have started := h.counters u id mem
  rw [eraseIdx_eq_cancel h.distinct at_] at run
  obtain ⟨r, ran, rfl⟩ := Option.map_eq_some_iff.1 run
  have timer := h.cancel (h.onlyReports_of_mem mem)
  obtain ⟨port, reads, log⟩ := sendGreyCounter_reads started (timer.numbers id) ran
  have states : ∀ j, isReceiving ((p.greyRecv.setGreyState id .counterAck).greyState j) = true ∧
      ((p.greyRecv.setGreyState id .counterAck).greyState j ≠ .idle → j ∈ startedIds cfg) := by
    intro j
    by_cases here : j = id
    · subst here; simp [isReceiving, started]
    · simpa [here] using h.recvState j
  have set := timer.setRecv (g := p.greyRecv.setGreyState id .counterAck) rfl h.numbers states
  have off : OffId cfg id p.greyRecv (p.greyRecv.setGreyState id .counterAck) := (OffId.refl _).setGreyState _
  refine ⟨_, fire_timer mem, ?_, log, ?_, ?_, .cons reads .nil⟩
  · rw [port]; exact set.scheduleRecv started
  · rw [port]; rfl
  · have cancelled := h.receivers_cancel mem
    have viewed : receiverView cfg id { p with events := p.events.cancel (some u) } =
        afterTimer (decide (p.greyRecv.currentEvent id = some u)) (receiverView cfg id p) := by
      have here := congrFun cancelled id
      rw [update_self] at here
      simpa [receivers, afterTimer] using here
    rw [port, set.receivers_scheduleRecv]
    have acked := receiverView_setRecv (p := { p with events := p.events.cancel (some u) }) off
    rw [acked, update_idem, cancelled, update_idem]
    congr 1
    rw [← viewed]
    simp [receiverView, Receiver.arm, receiverPhase, count]

end

end Ns3Fancy.Link

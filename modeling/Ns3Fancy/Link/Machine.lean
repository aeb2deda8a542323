import Ns3Fancy.Link.System
import Ns3Fancy.Session.Protocol

/-!
# The machines of a port as ends of sessions

Each machine id of a port is the sender of one session protocol and the receiver of another one, with the
packet counter, and for the tree the counter tree, as what is metered. `senderView` and `receiverView` read
the two ends off the state of a port; `Settled` is what a port keeps about its events.
-/

namespace Ns3Fancy.Link
open Switch Buffer Function Session
set_option autoImplicit false

section
variable (cfg : FancyConfig)

/-! ## The protocol a machine runs -/

/-- The sequence numbers of all machines travel in 16 bits; the wildcard machine does not wait for the
acknowledgement of START and counts packets whatever their tag, and the tree machine does not acknowledge
late reports. -/
def variant (id : Nat) : Variant where
  modulus := 65536
  acked := id != cfg.wildcardId
  recovers := id != cfg.treeId
  tagged := id != cfg.wildcardId

/-- A packet counter and, for the tree machine, the counter tree. -/
abbrev Count := UInt64 × Tree

/-- The maxima of a START. -/
abbrev Request := List (Nat × List UInt8)

/-- The counter of a report and the records of its payload. -/
abbrev Report := UInt64 × List (Nat × List UInt32)

/-- What closing a session shows: the sender's own counter, for the tree its cells, and what the report revealed. -/
structure Closing where
  localCounter : UInt64
  localCells : Nat → Nat → UInt32
  found : List Detection

/-- What a session of a machine meters. -/
def meter (id : Nat) : Meter FiveTuple Count Count Request Report Closing where
  opened x := (0, x.2)
  request x :=
    if id = cfg.treeId then
      (List.range cfg.nodesInTree).map fun i => (i, (List.range cfg.layerSplit).map ((x.2 i).maxCells 0))
    else []
  countS seq x flow := (x.1 + 1, if id = cfg.treeId then treeCounting cfg true seq flow x.2 else x.2)
  close seq x rep :=
    if id = cfg.treeId then
      ((0, (treeExchange cfg seq rep.2 x.2).1),
        [{ localCounter := x.1, localCells := fun i => (x.2 i).counters, found := (treeExchange cfg seq rep.2 x.2).2 }])
    else
      ((0, x.2), [{ localCounter := x.1, localCells := fun _ _ => 0, found := dedicatedDetections cfg id x.1 rep.1 }])
  init seq left req x := (0, if id = cfg.treeId then treeInit cfg seq left req x.2 else x.2)
  countR seq x flow := (x.1 + 1, if id = cfg.treeId then treeCounting cfg false seq flow x.2 else x.2)
  report x :=
    (x.1, if id = cfg.treeId then
      (List.range cfg.nodesInTree).map fun i => (i, (List.range cfg.counterWidth).map (x.2 i).counters)
    else [])

abbrev MachinePair := Pair FiveTuple Count Count Request Report

/-! ## Views -/

def senderPhase : GreyState → SPhase
  | .startAck => .startAck
  | .counting => .counting
  | .waitCounterReceive => .waitReport
  | .idle | .waitCounterSend | .counterAck => .idle

def receiverPhase : GreyState → RPhase
  | .counting => .counting
  | .waitCounterSend => .waitSend
  | .counterAck => .reportAck
  | .idle | .startAck | .waitCounterReceive => .idle

/-- What a machine meters, in the state of its side. -/
def count (id : Nat) (g : GreyInfo) : Count := (g.localCounter id, if id = cfg.treeId then g.counterTree else fun _ => {})

def senderView (id : Nat) (p : FancyPortInfo) : Sender Count where
  phase := senderPhase (p.greySend.greyState id)
  seq := (p.greySend.currentSEQ id).toNat
  data := count cfg id p.greySend

end

/-- The handles of the pending report timers of a machine. -/
def reportTimers (id : Nat) (q : EventQueue) : List Nat :=
  q.pending.filterMap fun e => if e.2 = .sendGreyCounter id then some e.1 else none

section
variable (cfg : FancyConfig)

def receiverView (id : Nat) (p : FancyPortInfo) : Receiver Count where
  phase := receiverPhase (p.greyRecv.greyState id)
  seq := (p.greyRecv.currentSEQ id).toNat
  data := count cfg id p.greyRecv
  armed := (reportTimers id p.events).any fun u => some u == p.greyRecv.currentEvent id
  stale := ((reportTimers id p.events).filter fun u => some u != p.greyRecv.currentEvent id).length

/-! ## What a port keeps -/

/-- The action of the sender's pending event. -/
def nextAction (id : Nat) : GreyState → UInt8
  | .idle | .startAck => startAction cfg id
  | .counting | .waitCounterReceive | .waitCounterSend | .counterAck => GREY_STOP

/-- The states of a sender. -/
def isSending : GreyState → Bool
  | .idle | .startAck | .counting | .waitCounterReceive => true
  | .waitCounterSend | .counterAck => false

theorem senderPhase_startAck {state : GreyState} : senderPhase state = .startAck ↔ state = .startAck := by
  cases state <;> decide

theorem senderPhase_counting {state : GreyState} : senderPhase state = .counting ↔ state = .counting := by
  cases state <;> decide

theorem senderPhase_waitReport {state : GreyState} : senderPhase state = .waitReport ↔ state = .waitCounterReceive := by
  cases state <;> decide

theorem senderPhase_idle {state : GreyState} (sending : isSending state = true) :
    senderPhase state = .idle ↔ state = .idle := by
  revert sending
  cases state <;> decide

theorem receiverPhase_counting {state : GreyState} : receiverPhase state = .counting ↔ state = .counting := by
  cases state <;> decide

theorem receiverPhase_waitSend {state : GreyState} : receiverPhase state = .waitSend ↔ state = .waitCounterSend := by
  cases state <;> decide

theorem receiverPhase_reportAck {state : GreyState} : receiverPhase state = .reportAck ↔ state = .counterAck := by
  cases state <;> decide

/-- The states of a receiver. -/
def isReceiving : GreyState → Bool
  | .idle | .counting | .waitCounterSend | .counterAck => true
  | .startAck | .waitCounterReceive => false

/-- The events of a port belong to its machines: each started sender has exactly one pending event, its current one,
and no other handle of the port refers to it. -/
structure Settled (p : FancyPortInfo) : Prop where
  towardsSwitch : p.switchPort = true
  fresh : ∀ e ∈ p.events.pending, e.1 < p.events.next
  distinct : (p.events.pending.map (·.1)).Nodup
  sends : ∀ u action id, (u, .sendGreyAction action id) ∈ p.events.pending →
    id ∈ startedIds cfg ∧ p.greySend.currentEvent id = some u ∧ action = nextAction cfg id (p.greySend.greyState id)
  running : ∀ id ∈ startedIds cfg, ∃ e ∈ p.events.pending, ∃ action, e.2 = .sendGreyAction action id
  counters : ∀ u id, (u, .sendGreyCounter id) ∈ p.events.pending → id ∈ startedIds cfg
  sendHandle : ∀ id u, p.greySend.currentEvent id = some u → u < p.events.next ∧
    ∀ ev, (u, ev) ∈ p.events.pending → ∃ action, ev = .sendGreyAction action id
  recvHandle : ∀ id u, p.greyRecv.currentEvent id = some u → u < p.events.next ∧
    ∀ ev, (u, ev) ∈ p.events.pending → ev = .sendGreyCounter id
  sendState : ∀ id, isSending (p.greySend.greyState id) = true ∧ (p.greySend.greyState id ≠ .idle → id ∈ startedIds cfg)
  numbers : ∀ id, (p.greyRecv.currentSEQ id).toNat < 65536
  recvState : ∀ id, isReceiving (p.greyRecv.greyState id) = true ∧ (p.greyRecv.greyState id ≠ .idle → id ∈ startedIds cfg)

end

section
variable {cfg : FancyConfig} {p p' : FancyPortInfo}

/-- Started are the machines of the table entries, that of the tree and the wildcard machine, as the attributes say. -/
theorem mem_startedIds {id : Nat} : id ∈ startedIds cfg ↔ id < cfg.numTopEntries ∨ cfg.treeEnabled = true ∧ id = cfg.treeId ∨
    cfg.treeEnableSoftDetections = true ∧ id = cfg.wildcardId := by
  simp only [startedIds, List.mem_append, List.mem_range, List.mem_ite_nil_right, List.mem_singleton, or_assoc]

theorem started_tree (started : cfg.treeId ∈ startedIds cfg) : cfg.treeEnabled = true := by
  rcases mem_startedIds.1 started with less | ⟨enabled, -⟩ | ⟨-, same⟩
  · exact absurd less (Nat.lt_irrefl _)
  · exact enabled
  · exact absurd same.symm (Nat.succ_ne_self _)

theorem started_wildcard (started : cfg.wildcardId ∈ startedIds cfg) : cfg.treeEnableSoftDetections = true := by
  rcases mem_startedIds.1 started with less | ⟨-, same⟩ | ⟨enabled, -⟩
  · exact absurd less (Nat.not_lt_of_le (Nat.le_succ _))
  · exact absurd same (Nat.succ_ne_self _)
  · exact enabled

theorem started_le {id : Nat} (started : id ∈ startedIds cfg) : id ≤ cfg.wildcardId := by
  rcases mem_startedIds.1 started with less | ⟨-, rfl⟩ | ⟨-, rfl⟩
  · exact Nat.le_succ_of_le (Nat.le_of_lt less)
  · exact Nat.le_succ _
  · exact Nat.le_refl _

/-! ## Event queues -/

@[simp] theorem cancel_next (handle : Option Nat) (q : EventQueue) : (q.cancel handle).next = q.next := rfl

@[simp] theorem mem_cancel {handle : Option Nat} {q : EventQueue} {e : Nat × Event} :
    e ∈ (q.cancel handle).pending ↔ e ∈ q.pending ∧ some e.1 ≠ handle := by
  simp [EventQueue.cancel]

@[simp] theorem schedule_next (ev : Event) (q : EventQueue) : (q.schedule ev).next = q.next + 1 := rfl

@[simp] theorem mem_schedule {ev : Event} {q : EventQueue} {e : Nat × Event} :
    e ∈ (q.schedule ev).pending ↔ e ∈ q.pending ∨ e = (q.next, ev) := by
  simp [EventQueue.schedule]

theorem cancel_distinct {q : EventQueue} (h : (q.pending.map (·.1)).Nodup) (handle : Option Nat) :
    ((q.cancel handle).pending.map (·.1)).Nodup :=
  h.sublist (List.filter_sublist.map _)

theorem schedule_distinct {q : EventQueue} (h : (q.pending.map (·.1)).Nodup) (fresh : ∀ e ∈ q.pending, e.1 < q.next)
    (ev : Event) : ((q.schedule ev).pending.map (·.1)).Nodup := by
  simp only [EventQueue.schedule, List.map_append, List.map_cons, List.map_nil]
  rw [List.nodup_append]
  refine ⟨h, by simp, ?_⟩
  intro a mem b same
  obtain ⟨e, he, rfl⟩ := List.mem_map.1 mem
  have := fresh e he
  simp at same
  omega

/-- Taking an event off the queue by its place is cancelling its handle. -/
theorem eraseIdx_eq_cancel {q : EventQueue} (h : (q.pending.map (·.1)).Nodup) {i u : Nat} {ev : Event}
    (at_ : q.pending[i]? = some (u, ev)) : { q with pending := q.pending.eraseIdx i } = q.cancel (some u) := by
  have filtered : ∀ (es : List (Nat × Event)) (i : Nat), (es.map (·.1)).Nodup → es[i]? = some (u, ev) →
      es.eraseIdx i = es.filter fun e => some e.1 ≠ some u := by
    intro es
    induction es with
    | nil => simp
    | cons e es ih =>
      intro i nodup found
      simp only [List.map_cons, List.nodup_cons] at nodup
      cases i with
      | zero =>
        simp only [List.getElem?_cons_zero, Option.some.injEq] at found
        subst found
        have rest : es.filter (fun e => some e.1 ≠ some u) = es := List.filter_eq_self.2 fun e mem => by
          have : e.1 ≠ u := fun same => nodup.1 (List.mem_map.2 ⟨e, mem, same⟩)
          simpa using this
        rw [List.eraseIdx_cons_zero, List.filter_cons_of_neg (by simp), rest]
      | succ i =>
        simp only [List.getElem?_cons_succ] at found
        have other : e.1 ≠ u := fun same =>
          nodup.1 (List.mem_map.2 ⟨(u, ev), List.mem_of_getElem? found, same.symm⟩)
        simpa [other] using ih i nodup.2 found
  simp only [EventQueue.cancel]
  rw [filtered q.pending i h at_]

/-! ### Report timers -/

theorem mem_reportTimers {id u : Nat} {q : EventQueue} :
    u ∈ reportTimers id q ↔ (u, .sendGreyCounter id) ∈ q.pending := by
  simp only [reportTimers, List.mem_filterMap]
  constructor
  · rintro ⟨⟨v, ev⟩, mem, h⟩
    split at h
    · rename_i timer
      cases h
      simp only at timer
      exact timer ▸ mem
    · cases h
  · intro mem
    exact ⟨_, mem, by simp⟩

theorem reportTimers_nodup {id : Nat} {q : EventQueue} (h : (q.pending.map (·.1)).Nodup) : (reportTimers id q).Nodup := by
  refine h.sublist ?_
  have each : reportTimers id q = (q.pending.filter fun e => e.2 = .sendGreyCounter id).map (·.1) := by
    simp only [reportTimers, ← List.filterMap_eq_filter, List.map_filterMap]
    congr 1
    funext e
    simp [Option.guard]
  rw [each]
  exact List.filter_sublist.map _

theorem reportTimers_schedule (id : Nat) (ev : Event) (q : EventQueue) :
    reportTimers id (q.schedule ev) = reportTimers id q ++ if ev = .sendGreyCounter id then [q.next] else [] := by
  simp only [reportTimers, EventQueue.schedule, List.filterMap_append]
  split <;> simp_all

theorem reportTimers_cancel (id : Nat) (handle : Option Nat) (q : EventQueue) :
    reportTimers id (q.cancel handle) = (reportTimers id q).filter fun u => some u ≠ handle := by
  simp only [reportTimers, EventQueue.cancel, List.filterMap_filter, List.filter_filterMap]
  congr 1
  funext e
  by_cases timer : e.2 = .sendGreyCounter id
  · by_cases hit : some e.1 = handle
    · subst hit; simp [timer, Option.filter]
    · simp [timer, hit, Option.filter]
  · simp [timer]

/-! ## What a port keeps, step by step -/

/-- A change of the port outside the machines. -/
theorem Settled.congr (h : Settled cfg p) (same : SameMachines p p') (flag : p'.switchPort = p.switchPort) :
    Settled cfg p' := by
  obtain ⟨recv, send, events⟩ := same
  constructor <;> simp only [← recv, ← send, ← events, flag]
  exacts [h.towardsSwitch, h.fresh, h.distinct, h.sends, h.running, h.counters, h.sendHandle, h.recvHandle,
    h.sendState, h.numbers, h.recvState]

/-- A handle refers to report timers only. -/
def OnlyReports (p : FancyPortInfo) (handle : Option Nat) : Prop :=
  ∀ u ev, some u = handle → (u, ev) ∈ p.events.pending → ∃ id, ev = .sendGreyCounter id

theorem Settled.onlyReports (h : Settled cfg p) (id : Nat) : OnlyReports p (p.greyRecv.currentEvent id) :=
  fun u ev hu mem => ⟨id, (h.recvHandle id u hu.symm).2 ev mem⟩

theorem Settled.onlyReports_of_mem (h : Settled cfg p) {u id : Nat}
    (mem : (u, .sendGreyCounter id) ∈ p.events.pending) : OnlyReports p (some u) := by
  rintro v ev ⟨⟩ mem'
  exact ⟨id, (Prod.mk.inj (List.inj_on_of_nodup_map h.distinct mem' mem rfl)).2⟩

/-- A report timer is cancelled or has run. -/
theorem Settled.cancel (h : Settled cfg p) {handle : Option Nat} (only : OnlyReports p handle) :
    Settled cfg { p with events := p.events.cancel handle } where
  towardsSwitch := h.towardsSwitch
  fresh e mem := h.fresh e (mem_cancel.1 mem).1
  distinct := cancel_distinct h.distinct handle
  sends u action id mem := h.sends u action id (mem_cancel.1 mem).1
  running id started := by
    obtain ⟨e, mem, action, he⟩ := h.running id started
    refine ⟨e, mem_cancel.2 ⟨mem, fun hit => ?_⟩, action, he⟩
    obtain ⟨j, timer⟩ := only e.1 e.2 hit mem
    rw [he] at timer
    cases timer
  counters u id mem := h.counters u id (mem_cancel.1 mem).1
  sendHandle id u hu := ⟨(h.sendHandle id u hu).1, fun ev mem => (h.sendHandle id u hu).2 ev (mem_cancel.1 mem).1⟩
  recvHandle id u hu := ⟨(h.recvHandle id u hu).1, fun ev mem => (h.recvHandle id u hu).2 ev (mem_cancel.1 mem).1⟩
  sendState := h.sendState
  numbers := h.numbers
  recvState := h.recvState

/-- The receiver's side changes without its timers. -/
theorem Settled.setRecv (h : Settled cfg p) {g : GreyInfo} (handles : g.currentEvent = p.greyRecv.currentEvent)
    (numbers : ∀ id, (g.currentSEQ id).toNat < 65536)
    (states : ∀ id, isReceiving (g.greyState id) = true ∧ (g.greyState id ≠ .idle → id ∈ startedIds cfg)) :
    Settled cfg { p with greyRecv := g } where
  towardsSwitch := h.towardsSwitch
  fresh := h.fresh
  distinct := h.distinct
  sends := h.sends
  running := h.running
  counters := h.counters
  sendHandle := h.sendHandle
  recvHandle id u hu := h.recvHandle id u (by rw [← handles]; exact hu)
  sendState := h.sendState
  numbers := numbers
  recvState := states

/-- The sender's side counts. -/
theorem Settled.setSend (h : Settled cfg p) {g : GreyInfo} (handles : g.currentEvent = p.greySend.currentEvent)
    (states : g.greyState = p.greySend.greyState) : Settled cfg { p with greySend := g } where
  towardsSwitch := h.towardsSwitch
  fresh := h.fresh
  distinct := h.distinct
  sends := by simpa only [handles, states] using h.sends
  running := h.running
  counters := h.counters
  sendHandle := by simpa only [handles] using h.sendHandle
  recvHandle := h.recvHandle
  sendState := by simpa only [states] using h.sendState
  numbers := h.numbers
  recvState := h.recvState

/-- A report timer is set. -/
theorem Settled.scheduleRecv (h : Settled cfg p) {id : Nat} (started : id ∈ startedIds cfg) :
    Settled cfg (scheduleRecv id (.sendGreyCounter id) p) where
  towardsSwitch := h.towardsSwitch
  fresh e mem := by
    rcases mem_schedule.1 mem with mem | rfl
    · exact Nat.lt_succ_of_lt (h.fresh e mem)
    · exact Nat.lt_succ_self _
  distinct := schedule_distinct h.distinct h.fresh _
  sends u action j mem := by
    rcases mem_schedule.1 mem with mem | same
    · exact h.sends u action j mem
    · cases same
  running j hj := by
    obtain ⟨e, mem, timer⟩ := h.running j hj
    exact ⟨e, mem_schedule.2 (Or.inl mem), timer⟩
  counters u j mem := by
    rcases mem_schedule.1 mem with mem | same
    · exact h.counters u j mem
    · cases same
      exact started
  sendHandle j u hu := by
    obtain ⟨less, only⟩ := h.sendHandle j u hu
    refine ⟨Nat.lt_succ_of_lt less, fun ev mem => ?_⟩
    rcases mem_schedule.1 mem with mem | same
    · exact only ev mem
    · cases same
      exact absurd less (Nat.lt_irrefl _)
  recvHandle j u hu := by
    by_cases here : j = id
    · subst here
      obtain rfl : p.events.next = u := by
        simpa [Switch.scheduleRecv, GreyInfo.setCurrentEvent] using hu
      refine ⟨Nat.lt_succ_self _, fun ev mem => ?_⟩
      rcases mem_schedule.1 mem with mem | same
      · exact absurd (h.fresh _ mem) (Nat.lt_irrefl _)
      · cases same
        rfl
    · obtain ⟨less, only⟩ := h.recvHandle j u (by
        simpa [Switch.scheduleRecv, GreyInfo.setCurrentEvent, here] using hu)
      refine ⟨Nat.lt_succ_of_lt less, fun ev mem => ?_⟩
      rcases mem_schedule.1 mem with mem | same
      · exact only ev mem
      · cases same
        exact absurd less (Nat.lt_irrefl _)
  sendState := h.sendState
  numbers := h.numbers
  recvState := h.recvState

/-- The sender's machine of an id moves on: its pending event makes way for the next one. -/
def sendMove (cfg : FancyConfig) (id : Nat) (g : GreyInfo) (p : FancyPortInfo) : FancyPortInfo :=
  scheduleSend id (.sendGreyAction (nextAction cfg id (g.greyState id)) id)
    { p with greySend := g, events := p.events.cancel (p.greySend.currentEvent id) }

theorem Settled.sendMove (h : Settled cfg p) {id : Nat} (started : id ∈ startedIds cfg) {g : GreyInfo}
    (handles : g.currentEvent = p.greySend.currentEvent) (others : ∀ j, j ≠ id → g.greyState j = p.greySend.greyState j)
    (state : isSending (g.greyState id) = true) : Settled cfg (sendMove cfg id g p) := by
  -- what is pending afterwards: the new event, and the old ones of other machines
  have pending : ∀ e, e ∈ (Link.sendMove cfg id g p).events.pending ↔
      (e ∈ p.events.pending ∧ some e.1 ≠ p.greySend.currentEvent id) ∨
        e = (p.events.next, .sendGreyAction (nextAction cfg id (g.greyState id)) id) := by
    intro e
    simp [Link.sendMove, scheduleSend]
  have handle : ∀ j, (Link.sendMove cfg id g p).greySend.currentEvent j =
      if j = id then some p.events.next else p.greySend.currentEvent j := by
    intro j
    simp [Link.sendMove, scheduleSend, GreyInfo.setCurrentEvent, handles, update_apply]
  have states : (Link.sendMove cfg id g p).greySend.greyState = g.greyState := rfl
  have next : (Link.sendMove cfg id g p).events.next = p.events.next + 1 := rfl
  have unused : ∀ ev, (p.events.next, ev) ∉ p.events.pending := fun ev mem => Nat.lt_irrefl _ (h.fresh _ mem)
  refine ⟨h.towardsSwitch, ?_, ?_, ?_, ?_, ?_, ?_, ?_, ?_, h.numbers, h.recvState⟩
  · intro e mem
    rw [next]
    rcases (pending e).1 mem with ⟨mem, _⟩ | rfl
    · exact Nat.lt_succ_of_lt (h.fresh e mem)
    · exact Nat.lt_succ_self _
  · exact schedule_distinct (cancel_distinct h.distinct _) (fun e mem => h.fresh e (mem_cancel.1 mem).1) _
  · intro u action j mem
    rw [handle, states]
    rcases (pending _).1 mem with ⟨mem, other⟩ | same
    · obtain ⟨hj, current, act⟩ := h.sends u action j mem
      have ne : j ≠ id := by
        rintro rfl
        exact other current.symm
      exact ⟨hj, by rw [if_neg ne, current], by rw [others j ne, act]⟩
    · simp only [Prod.mk.injEq, Event.sendGreyAction.injEq] at same
      obtain ⟨rfl, rfl, rfl⟩ := same
      exact ⟨started, if_pos rfl, rfl⟩
  · intro j hj
    by_cases here : j = id
    · exact ⟨_, (pending _).2 (Or.inr rfl), _, by rw [here]⟩
    · obtain ⟨e, mem, action, he⟩ := h.running j hj
      refine ⟨e, (pending _).2 (Or.inl ⟨mem, fun hit => ?_⟩), action, he⟩
      obtain ⟨action', he'⟩ := (h.sendHandle id e.1 hit.symm).2 e.2 mem
      rw [he] at he'
      cases he'
      exact here rfl
  · intro u j mem
    rcases (pending _).1 mem with ⟨mem, _⟩ | same
    · exact h.counters u j mem
    · cases same
  · intro j u hu
    rw [handle] at hu
    rw [next]
    by_cases here : j = id
    · rw [if_pos here, Option.some.injEq] at hu
      subst hu
      refine ⟨Nat.lt_succ_self _, fun ev mem => ?_⟩
      rcases (pending _).1 mem with ⟨mem, _⟩ | same
      · exact absurd mem (unused ev)
      · cases same
        exact ⟨_, by rw [here]⟩
    · rw [if_neg here] at hu
      obtain ⟨less, only⟩ := h.sendHandle j u hu
      refine ⟨Nat.lt_succ_of_lt less, fun ev mem => ?_⟩
      rcases (pending _).1 mem with ⟨mem, _⟩ | same
      · exact only ev mem
      · cases same
        exact absurd less (Nat.lt_irrefl _)
  · intro j u hu
    obtain ⟨less, only⟩ := h.recvHandle j u hu
    refine ⟨Nat.lt_succ_of_lt less, fun ev mem => ?_⟩
    rcases (pending _).1 mem with ⟨mem, _⟩ | same
    · exact only ev mem
    · cases same
      exact absurd less (Nat.lt_irrefl _)
  · intro j
    rw [states]
    by_cases here : j = id
    · subst here
      exact ⟨state, fun _ => started⟩
    · rw [others j here]
      exact h.sendState j

/-! ## The views, step by step -/

theorem senderView_congr (same : SameMachines p p') (id : Nat) : senderView cfg id p = senderView cfg id p' := by
  simp only [senderView, same.send]

theorem receiverView_congr (same : SameMachines p p') (id : Nat) : receiverView cfg id p = receiverView cfg id p' := by
  simp only [receiverView, same.recv, same.events]

/-- The receivers do not see the sender's events. -/
theorem Settled.reportTimers_sendMove (h : Settled cfg p) (id : Nat) (g : GreyInfo) (j : Nat) :
    reportTimers j (Link.sendMove cfg id g p).events = reportTimers j p.events := by
  have timers : reportTimers j (Link.sendMove cfg id g p).events =
      reportTimers j (p.events.cancel (p.greySend.currentEvent id)) := by
    simp [Link.sendMove, scheduleSend, reportTimers_schedule]
  rw [timers, reportTimers_cancel]
  refine List.filter_eq_self.2 fun u mem => ?_
  simp only [ne_eq, decide_not, Bool.not_eq_eq_eq_not, Bool.not_true, decide_eq_false_iff_not]
  intro hit
  obtain ⟨action, he⟩ := (h.sendHandle id u hit.symm).2 _ (mem_reportTimers.1 mem)
  cases he

theorem Settled.receiverView_sendMove (h : Settled cfg p) (id : Nat) (g : GreyInfo) (j : Nat) :
    receiverView cfg j (Link.sendMove cfg id g p) = receiverView cfg j p := by
  simp only [receiverView, h.reportTimers_sendMove]
  rfl

theorem senderView_sendMove (id : Nat) (g : GreyInfo) (j : Nat) :
    senderView cfg j (Link.sendMove cfg id g p) = senderView cfg j { p with greySend := g } := rfl

end

end Ns3Fancy.Link

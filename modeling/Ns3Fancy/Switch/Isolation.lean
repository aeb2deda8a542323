import Ns3Fancy.Switch.ControlReroute

/-!
# What a packet may move

All machines of a switch live in vectors indexed by ids from headers and tables. A packet moves the machine its header
names, the receiver or the sender of the port it arrived on, and is counted by two senders of the port it leaves by and by
the wildcard receiver of the other; every other machine of every port stays as it was.
-/

namespace Ns3Fancy.Switch
open Buffer Function
set_option autoImplicit false

/-! ## The state of a machine -/

/-- A machine of a port: a sender or a receiver, and its id. -/
structure MachineId where
  sender : Bool
  id : Nat
  deriving DecidableEq

/-- The machine an event is for. -/
def Event.owner : Event → MachineId
  | .sendGreyAction _ id => ⟨true, id⟩
  | .sendGreyCounter id => ⟨false, id⟩

def FancyPortInfo.grey (p : FancyPortInfo) (sender : Bool) : GreyInfo := if sender then p.greySend else p.greyRecv

/-- The part of a machine's state that counting leaves alone. -/
structure MachineControl where
  greyState : GreyState
  currentSEQ : UInt32
  currentEvent : Option Nat

/-- Only the machine of the tree has a tree. -/
structure MachineCounts where
  localCounter : UInt64
  counterTree : Tree

structure MachineState where
  control : MachineControl
  counts : MachineCounts
  pending : List (Nat × Event)

def GreyInfo.control (id : Nat) (g : GreyInfo) : MachineControl := ⟨g.greyState id, g.currentSEQ id, g.currentEvent id⟩

def GreyInfo.counts (cfg : FancyConfig) (id : Nat) (g : GreyInfo) : MachineCounts :=
  ⟨g.localCounter id, if id = cfg.treeId then g.counterTree else fun _ => {}⟩

def machineState (cfg : FancyConfig) (k : MachineId) (p : FancyPortInfo) : MachineState where
  control := (p.grey k.sender).control k.id
  counts := (p.grey k.sender).counts cfg k.id
  pending := p.events.pending.filter fun e => e.2.owner = k

/-- Every handle a machine keeps is of an event of its own, if the event is still pending. -/
structure OwnsEvents (p : FancyPortInfo) : Prop where
  fresh : ∀ e ∈ p.events.pending, e.1 < p.events.next
  handles : ∀ (k : MachineId) (u : Nat), (p.grey k.sender).currentEvent k.id = some u → u < p.events.next ∧
    ∀ ev, (u, ev) ∈ p.events.pending → ev.owner = k

/-- Of the machines of a port only those in `moves` change, and those in `counts` count. -/
structure Moves (cfg : FancyConfig) (moves counts : MachineId → Prop) (p p' : FancyPortInfo) : Prop where
  owns : OwnsEvents p'
  control : ∀ k, ¬moves k → (machineState cfg k p').control = (machineState cfg k p).control ∧
    (machineState cfg k p').pending = (machineState cfg k p).pending
  counts : ∀ k, ¬moves k → ¬counts k → (machineState cfg k p').counts = (machineState cfg k p).counts

section
variable {cfg : FancyConfig} {moves counts moves' counts' : MachineId → Prop} {p p' p'' : FancyPortInfo} {id : Nat}

theorem Moves.state (h : Moves cfg moves counts p p') {k : MachineId} (still : ¬moves k) (uncounted : ¬counts k) :
    machineState cfg k p' = machineState cfg k p := by
  obtain ⟨control, pending⟩ := h.control k still
  have counted := h.counts k still uncounted
  cases state : machineState cfg k p'
  simp only [state] at control pending counted
  rw [control, pending, counted]

theorem Moves.trans (h : Moves cfg moves counts p p') (h' : Moves cfg moves counts p' p'') : Moves cfg moves counts p p'' where
  owns := h'.owns
  control k still := ⟨(h'.control k still).1.trans (h.control k still).1, (h'.control k still).2.trans (h.control k still).2⟩
  counts k still uncounted := (h'.counts k still uncounted).trans (h.counts k still uncounted)

theorem Moves.mono (h : Moves cfg moves counts p p') (wider : ∀ k, moves k → moves' k) (more : ∀ k, counts k → counts' k) :
    Moves cfg moves' counts' p p' where
  owns := h.owns
  control k still := h.control k fun m => still (wider k m)
  counts k still uncounted := h.counts k (fun m => still (wider k m)) fun c => uncounted (more k c)

/-- Outside the machines anything may change. -/
theorem Moves.ofSame (owns : OwnsEvents p) (same : SameMachines p p') : Moves cfg moves counts p p' := by
  obtain ⟨recv, send, events⟩ := same
  have grey : p'.grey = p.grey := by
    funext sender
    cases sender
    · exact recv.symm
    · exact send.symm
  have state : ∀ k, machineState cfg k p' = machineState cfg k p := by
    intro k
    simp only [machineState, grey, events]
  refine ⟨⟨?_, ?_⟩, fun k _ => ⟨by rw [state], by rw [state]⟩, fun k _ _ => by rw [state]⟩
  · rw [← events]
    exact owns.fresh
  · rw [← events, grey]
    exact owns.handles

theorem Moves.refl (owns : OwnsEvents p) : Moves cfg moves counts p p := .ofSame owns (.refl p)

/-! ## What the operations of a machine move -/

section
variable {g : GreyInfo} {j : Nat}

@[simp] theorem control_setGreyState (other : j ≠ id) (state : GreyState) :
    (g.setGreyState id state).control j = g.control j := by simp [GreyInfo.control, other]

@[simp] theorem control_setLocalCounter (n : UInt64) : (g.setLocalCounter id n).control j = g.control j := rfl

@[simp] theorem control_setCurrentSEQ (other : j ≠ id) (seq : UInt32) :
    (g.setCurrentSEQ id seq).control j = g.control j := by simp [GreyInfo.control, other]

@[simp] theorem counts_setGreyState (state : GreyState) : (g.setGreyState id state).counts cfg j = g.counts cfg j := rfl

@[simp] theorem counts_setLocalCounter (other : j ≠ id) (n : UInt64) :
    (g.setLocalCounter id n).counts cfg j = g.counts cfg j := by simp [GreyInfo.counts, other]

@[simp] theorem counts_setCurrentSEQ (seq : UInt32) : (g.setCurrentSEQ id seq).counts cfg j = g.counts cfg j := rfl

/-- The tree belongs to one machine. -/
theorem counts_tree (other : j ≠ cfg.treeId) (tree : Tree) :
    ({ g with counterTree := tree } : GreyInfo).counts cfg j = g.counts cfg j := by
  simp [GreyInfo.counts, other]

end

/-- The port with other variables on one side. -/
def FancyPortInfo.setGrey (sender : Bool) (g : GreyInfo) (p : FancyPortInfo) : FancyPortInfo :=
  if sender then { p with greySend := g } else { p with greyRecv := g }

theorem grey_setGrey (sender : Bool) (g : GreyInfo) (p : FancyPortInfo) (sender' : Bool) :
    (p.setGrey sender g).grey sender' = if sender' = sender then g else p.grey sender' := by
  cases sender <;> cases sender' <;> rfl

theorem events_setGrey (sender : Bool) (g : GreyInfo) (p : FancyPortInfo) : (p.setGrey sender g).events = p.events := by
  cases sender <;> rfl

/-- A machine sets its own variables, but not its event. -/
theorem Moves.setGrey (sender : Bool) (owns : OwnsEvents p) {g : GreyInfo}
    (events : g.currentEvent = (p.grey sender).currentEvent)
    (control : ∀ j, j ≠ id → g.control j = (p.grey sender).control j)
    (counted : ∀ j, j ≠ id → g.counts cfg j = (p.grey sender).counts cfg j) :
    Moves cfg (· = ⟨sender, id⟩) counts p (p.setGrey sender g) := by
  have side : ∀ k : MachineId, ¬k = ⟨sender, id⟩ →
      ((p.setGrey sender g).grey k.sender).control k.id = (p.grey k.sender).control k.id ∧
      ((p.setGrey sender g).grey k.sender).counts cfg k.id = (p.grey k.sender).counts cfg k.id := by
    rintro ⟨sender', j⟩ other
    rw [grey_setGrey]
    by_cases here : sender' = sender
    · subst here
      have differs : j ≠ id := fun same => other (by rw [same])
      rw [if_pos rfl]
      exact ⟨control j differs, counted j differs⟩
    · rw [if_neg here]
      exact ⟨rfl, rfl⟩
  refine ⟨⟨?_, ?_⟩, fun k still => ⟨(side k still).1, ?_⟩, fun k still _ => (side k still).2⟩
  · rw [events_setGrey]
    exact owns.fresh
  · rintro ⟨sender', j⟩ u handle
    rw [events_setGrey]
    refine owns.handles ⟨sender', j⟩ u ?_
    rw [grey_setGrey] at handle
    split at handle
    · rename_i here
      subst here
      rw [← events]
      exact handle
    · exact handle
  · simp only [machineState, events_setGrey]

/-- A machine cancels its event. -/
theorem Moves.cancel (owns : OwnsEvents p) (k : MachineId) :
    Moves cfg (· = k) counts p { p with events := p.events.cancel ((p.grey k.sender).currentEvent k.id) } := by
  refine ⟨⟨fun e mem => owns.fresh e (List.mem_filter.1 mem).1, fun k' u handle => ?_⟩, fun k' still => ⟨rfl, ?_⟩,
    fun _ _ _ => rfl⟩
  · obtain ⟨old, owned⟩ := owns.handles k' u handle
    exact ⟨old, fun ev mem => owned ev (List.mem_filter.1 mem).1⟩
  · simp only [machineState, EventQueue.cancel, List.filter_filter]
    refine List.filter_congr fun e mem => ?_
    -- an event of another machine is not the one that is cancelled
    rw [Bool.and_eq_left_iff_imp]
    intro owner
    rw [decide_eq_true_eq] at owner ⊢
    intro hit
    exact still (owner.symm.trans ((owns.handles k e.1 hit.symm).2 e.2 mem))

theorem mem_schedule_pending {ev : Event} {q : EventQueue} {e : Nat × Event} (mem : e ∈ (q.schedule ev).pending) :
    e ∈ q.pending ∨ e = (q.next, ev) := by
  simpa [EventQueue.schedule] using mem

/-- A machine schedules its next event. -/
theorem Moves.schedule (owns : OwnsEvents p) (sender : Bool) {ev : Event} (own : ev.owner = ⟨sender, id⟩) :
    Moves cfg (· = ⟨sender, id⟩) counts p
      { p.setGrey sender ((p.grey sender).setCurrentEvent id (some p.events.next)) with events := p.events.schedule ev } := by
  let q := { p.setGrey sender ((p.grey sender).setCurrentEvent id (some p.events.next)) with events := p.events.schedule ev }
  have grey : ∀ sender', q.grey sender' =
      if sender' = sender then (p.grey sender).setCurrentEvent id (some p.events.next) else p.grey sender' :=
    grey_setGrey sender _ p
  have old : ∀ k u, (p.grey k.sender).currentEvent k.id = some u → u < p.events.next + 1 ∧
      ∀ ev', (u, ev') ∈ (p.events.schedule ev).pending → ev'.owner = k := by
    intro k u handle
    obtain ⟨before, owned⟩ := owns.handles k u handle
    refine ⟨Nat.lt_succ_of_lt before, fun ev' mem => ?_⟩
    rcases mem_schedule_pending mem with pending | new
    · exact owned ev' pending
    · obtain ⟨rfl, -⟩ := Prod.mk.inj new
      exact absurd before (Nat.lt_irrefl _)
  refine ⟨⟨fun e mem => ?_, ?_⟩, ?_, ?_⟩
  · rcases mem_schedule_pending mem with pending | rfl
    · exact Nat.lt_succ_of_lt (owns.fresh e pending)
    · exact Nat.lt_succ_self _
  · rintro ⟨sender', j⟩ u handle
    rw [grey] at handle
    by_cases here : sender' = sender
    · subst here
      rw [if_pos rfl, GreyInfo.setCurrentEvent_currentEvent] at handle
      by_cases same : j = id
      · subst same
        rw [update_self, Option.some.injEq] at handle
        subst handle
        refine ⟨Nat.lt_succ_self _, fun ev' mem => ?_⟩
        rcases mem_schedule_pending mem with pending | new
        · exact absurd (owns.fresh _ pending) (Nat.lt_irrefl _)
        · obtain ⟨-, rfl⟩ := Prod.mk.inj new
          exact own
      · rw [update_of_ne same] at handle
        exact old ⟨sender', j⟩ u handle
    · rw [if_neg here] at handle
      exact old ⟨sender', j⟩ u handle
  · rintro ⟨sender', j⟩ still
    constructor
    · show (q.grey sender').control j = (p.grey sender').control j
      rw [grey]
      split
      · rename_i here
        subst here
        have differs : j ≠ id := fun same => still (by rw [same])
        simp only [GreyInfo.control, GreyInfo.setCurrentEvent_greyState, GreyInfo.setCurrentEvent_currentSEQ,
          GreyInfo.setCurrentEvent_currentEvent, update_of_ne differs]
      · rfl
    · have other : ¬ev.owner = ⟨sender', j⟩ := fun owner => still (owner.symm.trans own)
      simp [machineState, EventQueue.schedule, List.filter_append, other]
  · rintro ⟨sender', j⟩ - -
    show (q.grey sender').counts cfg j = (p.grey sender').counts cfg j
    rw [grey]
    split
    · rename_i here
      subst here
      rfl
    · rfl

/-- A machine counts a packet. -/
theorem Moves.count (sender : Bool) (owns : OwnsEvents p) {g : GreyInfo}
    (control : ∀ j, g.control j = (p.grey sender).control j)
    (counted : ∀ j, j ≠ id → g.counts cfg j = (p.grey sender).counts cfg j) :
    Moves cfg moves (· = ⟨sender, id⟩) p (p.setGrey sender g) := by
  have events : g.currentEvent = (p.grey sender).currentEvent :=
    funext fun j => congrArg MachineControl.currentEvent (control j)
  have set : Moves cfg (· = ⟨sender, id⟩) (fun _ => False) p (p.setGrey sender g) :=
    .setGrey sender owns events (fun j _ => control j) counted
  refine ⟨set.owns, fun k _ => ⟨?_, ?_⟩, fun k _ still => set.counts k still not_false⟩
  · show ((p.setGrey sender g).grey k.sender).control k.id = (p.grey k.sender).control k.id
    rw [grey_setGrey]
    split
    · rename_i here
      rw [here, control]
    · rfl
  · simp only [machineState, events_setGrey]

/-! ## The ingress box -/

theorem countPacket_control {sender : Bool} {flow : FiveTuple} {g g' : GreyInfo}
    (run : countPacket cfg sender id flow g = some g') :
    (∀ j, g'.control j = g.control j) ∧ ∀ j, j ≠ id → g'.counts cfg j = g.counts cfg j := by
  unfold countPacket at run
  simp only at run
  split at run
  · rename_i isTree
    split at run
    · cases run
    · cases run
      refine ⟨fun _ => rfl, fun j other => ?_⟩
      rw [counts_tree (isTree ▸ other), counts_setLocalCounter other]
  · cases run
    exact ⟨fun _ => rfl, fun j other => counts_setLocalCounter other _⟩

theorem Moves.wildcardIngress (owns : OwnsEvents p) (m : PktInfo cfg.ns3) :
    Moves cfg moves (fun k => m.headers.ipv4.isSome ∧ k = ⟨false, cfg.wildcardId⟩) p (wildcardIngress cfg p m) := by
  unfold Switch.wildcardIngress
  split
  · rename_i counting
    have counted : Moves cfg moves (· = ⟨false, cfg.wildcardId⟩) p
        (p.setGrey false (p.greyRecv.setLocalCounter cfg.wildcardId (p.greyRecv.localCounter cfg.wildcardId + 1))) :=
      .count false owns (fun _ => rfl) fun j other => counts_setLocalCounter other _
    exact counted.mono (fun _ => id) fun k here => ⟨counting.2.2, here⟩
  · exact .refl owns

theorem Moves.ingressCount (owns : OwnsEvents p) {hdr : FancyHeader} {flow : FiveTuple}
    (run : ingressCount cfg hdr flow p = some p') : Moves cfg (· = ⟨false, hdr.id.toNat⟩) counts p p' := by
  unfold Switch.ingressCount at run
  simp only at run
  split at run
  · obtain ⟨g, counted, rfl⟩ := Option.map_eq_some_iff.1 run
    obtain ⟨control, counts⟩ := countPacket_control counted
    have events : g.currentEvent = p.greyRecv.currentEvent :=
      funext fun j => congrArg MachineControl.currentEvent (control j)
    exact .setGrey false owns events (fun j _ => control j) counts
  · cases run
    exact .refl owns

theorem Moves.acceptStart (owns : OwnsEvents p) {shift : Bool} {hdr : FancyHeader} {m : PktInfo cfg.ns3}
    {r : FancyPortInfo × PktInfo cfg.ns3} (run : acceptStart cfg id shift hdr p m = some r) :
    Moves cfg (· = ⟨false, id⟩) counts p r.1 := by
  unfold Switch.acceptStart at run
  simp only at run
  split at run
  · rename_i isTree
    split at run
    · cases run
    · obtain ⟨records, -, rfl⟩ := Option.map_eq_some_iff.1 run
      refine .setGrey false owns rfl (fun j other => ?_) fun j other => ?_
      · exact (control_setGreyState other _).trans (control_setCurrentSEQ other _)
      · rw [counts_tree (isTree ▸ other), counts_setGreyState, counts_setCurrentSEQ, counts_setLocalCounter other]
        rfl
  · cases run
    refine .setGrey false owns rfl (fun j other => ?_) fun j other => ?_
    · exact (control_setGreyState other _).trans (control_setCurrentSEQ other _)
    · rw [counts_setGreyState, counts_setCurrentSEQ, counts_setLocalCounter other]
      rfl

theorem Moves.setState (sender : Bool) (owns : OwnsEvents p) (state : GreyState) :
    Moves cfg (· = ⟨sender, id⟩) counts p (p.setGrey sender ((p.grey sender).setGreyState id state)) :=
  .setGrey sender owns rfl (fun _ other => control_setGreyState other state) fun _ _ => rfl

/-- **A control packet moves the receiver it names.** -/
theorem Moves.receiverMachine (owns : OwnsEvents p) {hdr : FancyHeader} {m : PktInfo cfg.ns3}
    {r : FancyPortInfo × PktInfo cfg.ns3} (run : receiverMachine cfg id hdr p m = some r) :
    Moves cfg (· = ⟨false, id⟩) counts p r.1 := by
  cases state : p.greyRecv.greyState id with
  | idle =>
    simp only [Switch.receiverMachine, state] at run
    split at run
    · exact .acceptStart owns run
    · cases run
      exact .refl owns
  | counting =>
    simp only [Switch.receiverMachine, state] at run
    split at run
    · exact .acceptStart owns run
    · split at run
      · cases run
        have set : Moves cfg (· = ⟨false, id⟩) counts p (p.setGrey false (p.greyRecv.setGreyState id .waitCounterSend)) :=
          .setState false owns _
        exact set.trans (.schedule set.owns false rfl)
      · cases run
        exact .refl owns
  | waitCounterSend | startAck | waitCounterReceive =>
    simp only [Switch.receiverMachine, state] at run
    cases run
    exact .refl owns
  | counterAck =>
    simp only [Switch.receiverMachine, state] at run
    split at run
    · cases run
      have cancel : Moves cfg (· = ⟨false, id⟩) counts p { p with events := p.events.cancel (p.greyRecv.currentEvent id) } :=
        .cancel owns ⟨false, id⟩
      exact cancel.trans (.setState false cancel.owns .idle)
    · split at run
      · exact .acceptStart owns run
      · cases run
        exact .refl owns

/-- **The ingress box up to the reroute block.** -/
theorem Moves.ingressMachines (owns : OwnsEvents p) {m : PktInfo cfg.ns3} {r : FancyPortInfo × PktInfo cfg.ns3 × List PortLog}
    (run : ingressMachines cfg p m = some r) :
    Moves cfg (fun k => ∃ hdr, m.headers.fancy = some hdr ∧ k = ⟨false, hdr.id.toNat⟩)
      (fun k => m.headers.ipv4.isSome ∧ k = ⟨false, cfg.wildcardId⟩) p r.1 := by
  unfold Switch.ingressMachines at run
  simp only at run
  cases fancy : m.headers.fancy with
  | none =>
    simp only [fancy] at run
    cases run
    exact .wildcardIngress owns m
  | some hdr =>
    suffices only : Moves cfg (· = ⟨false, hdr.id.toNat⟩) (fun k => m.headers.ipv4.isSome ∧
      k = ⟨false, cfg.wildcardId⟩) p r.1 from
      only.mono (fun k here => ⟨hdr, rfl, here⟩) fun _ => id
    have wildcard : Moves cfg (· = ⟨false, hdr.id.toNat⟩) (fun k => m.headers.ipv4.isSome ∧ k = ⟨false, cfg.wildcardId⟩) p
        (Switch.wildcardIngress cfg p m) := .wildcardIngress owns m
    simp only [fancy] at run
    split at run
    · cases run
      exact wildcard
    · split at run
      · obtain ⟨p', count, run⟩ := Option.bind_eq_some_iff.1 run
        have counted := wildcard.trans (.ingressCount wildcard.owns count)
        split at run
        · cases run
          exact counted
        · split at run
          · obtain ⟨q, moved, rfl⟩ := Option.map_eq_some_iff.1 run
            exact counted.trans (.receiverMachine counted.owns moved)
          · cases run
            exact counted
      · cases run
        exact wildcard

/-! ## The reroute flags -/

/-- The dedicated machine a detection is of. -/
def Detection.dedicatedId : Detection → Option Nat
  | .topFailure id _ _ | .softFailure id _ _ => some id
  | .failure _ _ _ _ _ _ _ | .collision _ _ _ _ | .partialFailure _ _ _ _ _ _ _ _ | .uniformFailure _ _ => none

theorem foldl_applyDetection_top (found : List Detection) (p : FancyPortInfo) {j : Nat}
    (others : ∀ d ∈ found, d.dedicatedId ≠ some j) :
    (found.foldl (applyDetection cfg) p).rerouteTop j = p.rerouteTop j := by
  induction found generalizing p with
  | nil => rfl
  | cons d found ih =>
    rw [List.foldl_cons, ih _ fun d' mem => others d' (List.mem_cons_of_mem d mem)]
    have other := others d List.mem_cons_self
    cases d with
    | topFailure id | softFailure id =>
      have differs : j ≠ id := fun same => other (congrArg some same.symm)
      simp only [applyDetection, update_of_ne differs]
    | failure | collision | partialFailure | uniformFailure => rfl

theorem foldl_applyDetection_bloom (found : List Detection) (p : FancyPortInfo)
    (dedicated : ∀ d ∈ found, d.dedicatedId ≠ none) : (found.foldl (applyDetection cfg) p).reroute = p.reroute := by
  induction found generalizing p with
  | nil => rfl
  | cons d found ih =>
    rw [List.foldl_cons, ih _ fun d' mem => dedicated d' (List.mem_cons_of_mem d mem)]
    have kind := dedicated d List.mem_cons_self
    cases d with
    | topFailure | softFailure => rfl
    | failure | collision | partialFailure | uniformFailure => exact absurd rfl kind

theorem lastLayerDetection_dedicatedId (level : Nat → Nat) (seq : Nat) (tree : Tree) (node cell : Nat) (remote : UInt32) :
    (lastLayerDetection cfg level seq tree node cell remote).dedicatedId = none := by
  unfold lastLayerDetection
  simp only
  split <;> rfl

/-- The exchange of the tree reports no dedicated entry. -/
theorem treeExchange_dedicatedId (seq : Nat) (records : List (Nat × List UInt32)) (tree : Tree) :
    ∀ d ∈ (treeExchange cfg seq records tree).2, d.dedicatedId = none := by
  have serial : ∀ (tree : Tree) (r : Nat × List UInt32) (j : Nat) (remote : UInt32),
      ∀ d ∈ cellDetections cfg seq tree r.1 j remote, d.dedicatedId = none := by
    intro tree r j remote d mem
    unfold cellDetections at mem
    split at mem
    · split at mem
      · rw [List.mem_singleton.1 mem, lastLayerDetection_dedicatedId]
      · cases mem
    · cases mem
  have pipelined : ∀ (tree : Tree) (r : Nat × List UInt32) (j : Nat) (remote : UInt32),
      ∀ d ∈ pipelinedCellDetections cfg seq tree r.1 j remote, d.dedicatedId = none := by
    intro tree r j remote d mem
    unfold pipelinedCellDetections at mem
    split at mem
    · split at mem
      · rw [List.mem_singleton.1 mem, lastLayerDetection_dedicatedId]
      · split at mem
        · rw [List.mem_singleton.1 mem]
          rfl
        · cases mem
    · cases mem
  have fold : ∀ {step : Tree × List Detection → Nat × List UInt32 → Tree × List Detection},
      (∀ acc r, (∀ d ∈ acc.2, d.dedicatedId = none) → ∀ d ∈ (step acc r).2, d.dedicatedId = none) →
      ∀ acc : Tree × List Detection, (∀ d ∈ acc.2, d.dedicatedId = none) →
        ∀ d ∈ (records.foldl step acc).2, d.dedicatedId = none := by
    intro step one
    induction records with
    | nil => exact fun acc old => old
    | cons r records ih => exact fun acc old => ih _ (one acc r old)
  unfold treeExchange
  split
  · refine fold (fun acc r old d mem => ?_) (tree, []) fun d mem => absurd mem List.not_mem_nil
    simp only [pipelinedExchangeNode] at mem
    rcases List.mem_append.1 mem with here | new
    · exact old d here
    · rcases List.mem_append.1 new with cells | uniform
      · obtain ⟨j, -, found⟩ := List.mem_flatMap.1 cells
        exact pipelined _ r j _ d found
      · split at uniform
        · rw [List.mem_singleton.1 uniform]
          rfl
        · cases uniform
  · refine fold (fun acc r old d mem => ?_) (tree, []) fun d mem => absurd mem List.not_mem_nil
    simp only [exchangeNode] at mem
    rcases List.mem_append.1 mem with here | new
    · exact old d here
    · obtain ⟨j, -, found⟩ := List.mem_flatMap.1 new
      exact serial _ r j _ d found

theorem dedicatedDetections_dedicatedId (localCounter counter : UInt64) :
    ∀ d ∈ dedicatedDetections cfg id localCounter counter, d.dedicatedId = some id := by
  intro d mem
  unfold dedicatedDetections at mem
  split at mem
  · split at mem <;> rw [List.mem_singleton.1 mem] <;> rfl
  · cases mem

/-- A log tells of a consumed report of the machine. -/
def Consumes (id : Nat) (log : List PortLog) : Prop :=
  ∃ seq localCounter cells counter records found, PortLog.consumed id seq localCounter cells counter records found ∈ log

/-- Reroute flags change by a consumed report of their machine only. -/
structure FlagsBy (cfg : FancyConfig) (log : List PortLog) (p p' : FancyPortInfo) : Prop where
  bloom : ∀ h, (p'.reroute h).set ≠ (p.reroute h).set → Consumes cfg.treeId log
  top : ∀ j, (p'.rerouteTop j).set ≠ (p.rerouteTop j).set → Consumes j log

theorem FlagsBy.ofSame {log : List PortLog} (bloom : ∀ h, (p'.reroute h).set = (p.reroute h).set)
    (top : ∀ j, (p'.rerouteTop j).set = (p.rerouteTop j).set) : FlagsBy cfg log p p' :=
  ⟨fun h differs => absurd (bloom h) differs, fun j differs => absurd (top j) differs⟩

theorem FlagsBy.refl {log : List PortLog} : FlagsBy cfg log p p := .ofSame (fun _ => rfl) fun _ => rfl

/-! ## The egress box -/

theorem Moves.consumeReport (owns : OwnsEvents p) {hdr : FancyHeader} {r : FancyPortInfo × List PortLog}
    (run : consumeReport cfg id hdr p = some r) :
    Moves cfg (· = ⟨true, id⟩) counts p r.1 ∧ FlagsBy cfg r.2 p r.1 := by
  unfold Switch.consumeReport at run
  simp only at run
  split at run
  · rename_i isTree
    subst isTree
    split at run
    · obtain ⟨records, -, run⟩ := Option.bind_eq_some_iff.1 run
      split at run
      · cases run
        obtain ⟨same, -⟩ := sameMachines_applyDetection cfg (treeExchange cfg hdr.seq.toNat records p.greySend.counterTree).2 _
        have set : Moves cfg (· = ⟨true, cfg.treeId⟩) counts p (p.setGrey true
            { ((p.greySend.setLocalCounter cfg.treeId 0).setGreyState cfg.treeId .idle).setCurrentSEQ cfg.treeId
                (p.greySend.currentSEQ cfg.treeId + 1) with
              counterTree := (treeExchange cfg hdr.seq.toNat records p.greySend.counterTree).1 }) := by
          refine .setGrey true owns rfl (fun j other => ?_) fun j other => ?_
          · exact (control_setCurrentSEQ other _).trans (control_setGreyState other _)
          · rw [counts_tree other, counts_setCurrentSEQ, counts_setGreyState, counts_setLocalCounter other]
            rfl
        refine ⟨set.trans (.ofSame set.owns same), fun h _ => ?_, fun j differs => absurd ?_ differs⟩
        · exact ⟨_, _, _, _, _, _, List.mem_singleton.2 rfl⟩
        · rw [foldl_applyDetection_top]
          intro d mem
          simp [treeExchange_dedicatedId _ _ _ d mem]
      · cases run
    · cases run
  · cases run
    obtain ⟨same, -⟩ := sameMachines_applyDetection cfg (dedicatedDetections cfg id (p.greySend.localCounter id) hdr.counter) _
    have set : Moves cfg (· = ⟨true, id⟩) counts p (p.setGrey true
        (((p.greySend.setLocalCounter id 0).setGreyState id .idle).setCurrentSEQ id (p.greySend.currentSEQ id + 1))) := by
      refine .setGrey true owns rfl (fun j other => ?_) fun j other => ?_
      · exact (control_setCurrentSEQ other _).trans (control_setGreyState other _)
      · rw [counts_setCurrentSEQ, counts_setGreyState, counts_setLocalCounter other]
        rfl
    refine ⟨set.trans (.ofSame set.owns same), fun h differs => absurd ?_ differs, fun j differs => ?_⟩
    · rw [foldl_applyDetection_bloom]
      intro d mem
      simp [dedicatedDetections_dedicatedId _ _ d mem]
    · by_cases here : j = id
      · exact ⟨_, _, _, _, _, _, by rw [here]; exact List.mem_singleton.2 rfl⟩
      · refine absurd ?_ differs
        rw [foldl_applyDetection_top]
        intro d mem
        simp [dedicatedDetections_dedicatedId _ _ d mem, Ne.symm here]

/-- **A packet of the other side's receiver moves the sender it names.** -/
theorem Moves.senderMachine (owns : OwnsEvents p) {hdr : FancyHeader} {m : PktInfo cfg.ns3}
    {r : FancyPortInfo × PktInfo cfg.ns3 × List PortLog} (run : senderMachine cfg id hdr p m = some r) :
    Moves cfg (· = ⟨true, id⟩) counts p r.1 ∧ FlagsBy cfg r.2.2 p r.1 := by
  have cancel : Moves cfg (· = ⟨true, id⟩) counts p { p with events := p.events.cancel (p.greySend.currentEvent id) } :=
    .cancel owns ⟨true, id⟩
  cases state : p.greySend.greyState id with
  | idle =>
    simp only [Switch.senderMachine, state] at run
    split at run <;> cases run <;> exact ⟨.refl owns, .refl⟩
  | startAck =>
    simp only [Switch.senderMachine, state] at run
    split at run
    · cases run
      have set := cancel.trans (.setState true cancel.owns .counting)
      exact ⟨set.trans (.schedule set.owns true rfl), .ofSame (fun _ => rfl) fun _ => rfl⟩
    · cases run
      exact ⟨.refl owns, .refl⟩
  | counting | waitCounterSend | counterAck =>
    simp only [Switch.senderMachine, state] at run
    cases run
    exact ⟨.refl owns, .refl⟩
  | waitCounterReceive =>
    simp only [Switch.senderMachine, state] at run
    split at run
    · obtain ⟨c, consumed, rfl⟩ := Option.map_eq_some_iff.1 run
      obtain ⟨moved, flags⟩ := Moves.consumeReport cancel.owns consumed
      exact ⟨(cancel.trans moved).trans (.schedule moved.owns true rfl), flags.bloom, flags.top⟩
    · cases run
      exact ⟨.refl owns, .refl⟩

/-- Only the machine a report names consumes it. -/
theorem senderMachine_consumes {hdr : FancyHeader} {m : PktInfo cfg.ns3} {r : FancyPortInfo × PktInfo cfg.ns3 × List PortLog}
    (run : senderMachine cfg id hdr p m = some r) {j : Nat} (consumes : Consumes j r.2.2) : j = id := by
  have silent : ¬Consumes j [] := by
    rintro ⟨_, _, _, _, _, _, mem⟩
    exact absurd mem List.not_mem_nil
  have consumed : ∀ {p : FancyPortInfo} {c : FancyPortInfo × List PortLog}, consumeReport cfg id hdr p = some c →
      Consumes j c.2 → j = id := by
    rintro p c run ⟨seq, own, cells, counter, records, found, mem⟩
    simp only [consumeReport] at run
    split at run
    · split at run
      · obtain ⟨records, -, run⟩ := Option.bind_eq_some_iff.1 run
        split at run
        · cases run
          exact (PortLog.consumed.inj (List.mem_singleton.1 mem)).1
        · cases run
      · cases run
    · cases run
      exact (PortLog.consumed.inj (List.mem_singleton.1 mem)).1
  cases state : p.greySend.greyState id with
  | idle | startAck =>
    simp only [senderMachine, state] at run
    split at run <;> cases run <;> exact absurd consumes silent
  | counting | waitCounterSend | counterAck =>
    simp only [senderMachine, state] at run
    cases run
    exact absurd consumes silent
  | waitCounterReceive =>
    simp only [senderMachine, state] at run
    split at run
    · obtain ⟨c, ran, rfl⟩ := Option.map_eq_some_iff.1 run
      exact consumed ran consumes
    · cases run
      exact absurd consumes silent

/-- The sender a packet names. -/
def NamesSender (cfg : FancyConfig) (m : PktInfo cfg.ns3) (j : Nat) : Prop :=
  m.internalPacket = false ∧ ∃ hdr, m.headers.fancy = some hdr ∧ hdr.getFSMFlag = true ∧ j = hdr.id.toNat

theorem Moves.egressMachines (owns : OwnsEvents p) {m : PktInfo cfg.ns3} {r : FancyPortInfo × PktInfo cfg.ns3 × List PortLog}
    (run : egressMachines cfg p m = some r) :
    Moves cfg (fun k => k.sender = true ∧ NamesSender cfg m k.id) counts p r.1 ∧ FlagsBy cfg r.2.2 p r.1 ∧
      ∀ j, Consumes j r.2.2 → NamesSender cfg m j := by
  have silent : ∀ j, ¬Consumes j [] := by
    rintro j ⟨_, _, _, _, _, _, mem⟩
    exact absurd mem List.not_mem_nil
  unfold Switch.egressMachines at run
  split at run
  · rename_i hdr fancy
    split at run
    · rename_i fsm
      simp only [Bool.and_eq_true, Bool.not_eq_true'] at fsm
      obtain ⟨moved, flags⟩ := Moves.senderMachine owns run
      have names : NamesSender cfg m hdr.id.toNat := ⟨fsm.1, hdr, fancy, fsm.2, rfl⟩
      refine ⟨moved.mono ?_ fun _ => id, flags, fun j consumes => ?_⟩
      · rintro k rfl
        exact ⟨rfl, names⟩
      · rw [senderMachine_consumes run consumes]
        exact names
    · cases run
      exact ⟨.refl owns, .refl, fun j consumes => absurd consumes (silent j)⟩
  · cases run
    exact ⟨.refl owns, .refl, fun j consumes => absurd consumes (silent j)⟩

/-- **The counters of the port a packet leaves by.** -/
theorem Moves.egressCounting (owns : OwnsEvents p) {m : PktInfo cfg.ns3} {r : FancyPortInfo × PktInfo cfg.ns3 × List PortLog}
    (run : egressCounting cfg p m = some r) :
    Moves cfg moves (fun k => m.headers.ipv4.isSome ∧ k.sender = true ∧ (k.id = m.id ∨ k.id = cfg.wildcardId)) p r.1 ∧
      FlagsBy cfg r.2.2 p r.1 ∧ ∀ j, ¬Consumes j r.2.2 := by
  have wildcard : Moves cfg moves (fun k => m.headers.ipv4.isSome ∧ k.sender = true ∧ (k.id = m.id ∨ k.id = cfg.wildcardId)) p
      (wildcardEgress cfg p m).1 ∧ (wildcardEgress cfg p m).1.reroute = p.reroute ∧
      (wildcardEgress cfg p m).1.rerouteTop = p.rerouteTop ∧ ∀ j, ¬Consumes j (wildcardEgress cfg p m).2 := by
    unfold wildcardEgress
    simp only
    split
    · rename_i counting
      have counted : Moves cfg moves (· = ⟨true, cfg.wildcardId⟩) p
          (p.setGrey true (p.greySend.setLocalCounter cfg.wildcardId (p.greySend.localCounter cfg.wildcardId + 1))) :=
        .count true owns (fun _ => rfl) fun j other => counts_setLocalCounter other _
      refine ⟨counted.mono (fun _ => id) ?_, rfl, rfl, fun j => ?_⟩
      · rintro k rfl
        exact ⟨counting.2.2, rfl, Or.inr rfl⟩
      · rintro ⟨_, _, _, _, _, _, mem⟩
        cases List.mem_singleton.1 mem
    · refine ⟨.refl owns, rfl, rfl, fun j => ?_⟩
      rintro ⟨_, _, _, _, _, _, mem⟩
      exact absurd mem List.not_mem_nil
  obtain ⟨moved, bloom, top, silent⟩ := wildcard
  unfold Switch.egressCounting at run
  simp only at run
  split at run
  · rename_i counting
    obtain ⟨g, counted, rfl⟩ := Option.map_eq_some_iff.1 run
    obtain ⟨control, counts⟩ := countPacket_control counted
    have own : Moves cfg moves (· = ⟨true, m.id⟩) (wildcardEgress cfg p m).1 ((wildcardEgress cfg p m).1.setGrey true g) :=
      .count true moved.owns control counts
    refine ⟨moved.trans (own.mono (fun _ => id) ?_), .ofSame (fun h => by rw [← bloom]) (fun j => by rw [← top]), fun j => ?_⟩
    · rintro k rfl
      exact ⟨counting.2.2, rfl, Or.inl rfl⟩
    · rintro ⟨_, _, _, _, _, _, mem⟩
      rcases List.mem_append.1 mem with here | new
      · exact silent j ⟨_, _, _, _, _, _, here⟩
      · cases List.mem_singleton.1 new
  · have same : FlagsBy cfg (wildcardEgress cfg p m).2 p (wildcardEgress cfg p m).1 :=
      .ofSame (fun h => by rw [bloom]) fun j => by rw [top]
    split at run
    · split at run <;> cases run <;> exact ⟨moved, same, silent⟩
    · cases run
      exact ⟨moved, same, silent⟩

/-! ## The packet on its way -/

/-- A packet of the exchange: only those are bounced, by the machine their header names. -/
def Exchanged {N : Ns3} (headers : Headers N) : Prop :=
  ∃ hdr, headers.fancy = some hdr ∧ (hdr.getFSMFlag = true ∨ hdr.getAction ≠ KEEP_ALIVE)

/-- What a packet keeps on its way through the ingress box. -/
structure Onward (m m' : PktInfo cfg.ns3) : Prop where
  inPort : m'.inPort = m.inPort
  outPort : m'.outPort = m.outPort ∨ (Exchanged m.headers ∧ m'.outPort = m.inPort) ∨ m'.outPort = none
  broadcastFlag : m'.broadcastFlag = m.broadcastFlag
  ipv4 : m'.headers.ipv4 = m.headers.ipv4
  names : ∀ j, NamesSender cfg m' j → ∃ hdr, m.headers.fancy = some hdr ∧ hdr.getFSMFlag = true ∧ j = hdr.id.toNat

/-- The machines leave its flow alone, too. -/
structure Passed (m m' : PktInfo cfg.ns3) : Prop extends Onward m m' where
  flow : m'.flow = m.flow
  strFlow : m'.strFlow = m.strFlow

theorem not_fsm_reset (hdr : FancyHeader) : hdr.resetActionField.getFSMFlag = false := by
  simp [FancyHeader.resetActionField, FancyHeader.getFSMFlag]

theorem acceptStart_passed {shift : Bool} {hdr : FancyHeader} {m : PktInfo cfg.ns3} {r : FancyPortInfo × PktInfo cfg.ns3}
    (exchanged : Exchanged m.headers) (run : acceptStart cfg id shift hdr p m = some r) : Passed m r.2 := by
  have bounced : ∀ ack : FancyHeader, Passed m (m.bounce ack) := fun ack =>
    ⟨⟨rfl, Or.inr (Or.inl ⟨exchanged, rfl⟩), rfl, rfl, fun j names => absurd names.1 (by simp [PktInfo.bounce])⟩, rfl, rfl⟩
  unfold acceptStart at run
  simp only at run
  split at run
  · split at run
    · cases run
    · obtain ⟨records, -, rfl⟩ := Option.map_eq_some_iff.1 run
      exact bounced _
  · cases run
    exact bounced _

theorem receiverMachine_passed {hdr : FancyHeader} {m : PktInfo cfg.ns3} {r : FancyPortInfo × PktInfo cfg.ns3}
    (exchanged : Exchanged m.headers) (run : receiverMachine cfg id hdr p m = some r) : Passed m r.2 := by
  have kept : ∀ m' : PktInfo cfg.ns3, m'.inPort = m.inPort → m'.outPort = m.outPort → m'.flow = m.flow →
    m'.strFlow = m.strFlow →
      m'.broadcastFlag = m.broadcastFlag → m'.headers.ipv4 = m.headers.ipv4 → m'.headers.fancy = some hdr.resetActionField →
      Passed m m' := by
    intro m' inPort outPort flow strFlow broadcast ipv4 fancy
    refine ⟨⟨inPort, Or.inl outPort, broadcast, ipv4, ?_⟩, flow, strFlow⟩
    rintro j ⟨-, hdr', here, fsm, -⟩
    rw [fancy, Option.some.injEq] at here
    rw [← here, not_fsm_reset] at fsm
    cases fsm
  have dropped : Passed m (m.discard hdr.resetActionField) := kept _ rfl rfl rfl rfl rfl rfl rfl
  cases state : p.greyRecv.greyState id with
  | idle =>
    simp only [receiverMachine, state] at run
    split at run
    · exact acceptStart_passed exchanged run
    · cases run
      exact dropped
  | counting =>
    simp only [receiverMachine, state] at run
    split at run
    · exact acceptStart_passed exchanged run
    · split at run <;> cases run <;> exact dropped
  | waitCounterSend =>
    simp only [receiverMachine, state] at run
    cases run
    exact dropped
  | counterAck =>
    simp only [receiverMachine, state] at run
    split at run
    · cases run
      exact dropped
    · split at run
      · exact acceptStart_passed exchanged run
      · cases run
        exact dropped
  | startAck | waitCounterReceive =>
    simp only [receiverMachine, state] at run
    cases run
    exact kept _ rfl rfl rfl rfl rfl rfl rfl

theorem ingressMachines_passed {m : PktInfo cfg.ns3} {r : FancyPortInfo × PktInfo cfg.ns3 × List PortLog}
    (run : ingressMachines cfg p m = some r) : Passed m r.2.1 ∧ ∀ j, ¬Consumes j r.2.2 := by
  have silent : ∀ j, ¬Consumes j [] := by
    rintro j ⟨_, _, _, _, _, _, mem⟩
    exact absurd mem List.not_mem_nil
  unfold ingressMachines at run
  simp only at run
  cases fancy : m.headers.fancy with
  | none =>
    simp only [fancy] at run
    cases run
    refine ⟨⟨⟨rfl, Or.inl rfl, rfl, rfl, ?_⟩, rfl, rfl⟩, silent⟩
    rintro j ⟨-, hdr', here, -⟩
    exact absurd (fancy.symm.trans here) (by simp)
  | some hdr =>
    simp only [fancy] at run
    have names : ∀ m' : PktInfo cfg.ns3, m'.headers.fancy = some (hdr.setCountFlag false) → ∀ j, NamesSender cfg m' j →
        ∃ hdr', m.headers.fancy = some hdr' ∧ hdr'.getFSMFlag = true ∧ j = hdr'.id.toNat := by
      rintro m' same j ⟨-, hdr', here, fsm, rfl⟩
      rw [same, Option.some.injEq] at here
      subst here
      exact ⟨hdr, fancy, by rw [← fsm, getFSMFlag_setCountFlag], rfl⟩
    split at run
    · cases run
      exact ⟨⟨⟨rfl, Or.inr (Or.inr rfl), rfl, rfl, names _ rfl⟩, rfl, rfl⟩, silent⟩
    · split at run
      · obtain ⟨p', -, run⟩ := Option.bind_eq_some_iff.1 run
        split at run
        · rename_i fsm
          rw [getFSMFlag_setCountFlag] at fsm
          cases run
          exact ⟨⟨⟨rfl, Or.inr (Or.inl ⟨⟨hdr, fancy, Or.inl fsm⟩, rfl⟩), rfl, rfl, names _ rfl⟩, rfl, rfl⟩, silent⟩
        · rename_i plain
          split at run
          · rename_i acts
            obtain ⟨q, moved, rfl⟩ := Option.map_eq_some_iff.1 run
            have exchanged : Exchanged m.headers := ⟨hdr, fancy, Or.inr (by rwa [getAction_setCountFlag] at acts)⟩
            have passed := receiverMachine_passed ⟨_, rfl, Or.inr acts⟩ moved
            refine ⟨⟨⟨passed.inPort, passed.outPort.imp_right (.imp_left (And.imp_left fun _ => exchanged)),
              passed.broadcastFlag, passed.ipv4, ?_⟩, passed.flow, passed.strFlow⟩, ?_⟩
            · intro j named
              obtain ⟨hdr', here, fsm, -⟩ := passed.names j named
              rw [← Option.some.inj here] at fsm
              exact absurd fsm plain
            · rintro j ⟨_, _, _, _, _, _, mem⟩
              simp only at mem
              split at mem <;> simp at mem
          · cases run
            exact ⟨⟨⟨rfl, Or.inl rfl, rfl, rfl, names _ rfl⟩, rfl, rfl⟩, silent⟩
      · cases run
        exact ⟨⟨⟨rfl, Or.inl rfl, rfl, rfl, names _ rfl⟩, rfl, rfl⟩, silent⟩

theorem egressMachines_meta {m : PktInfo cfg.ns3} {r : FancyPortInfo × PktInfo cfg.ns3 × List PortLog}
    (run : egressMachines cfg p m = some r) :
    (r.2.1.outPort = m.outPort ∨ (∃ j, NamesSender cfg m j) ∧ r.2.1.outPort = m.inPort) ∧ r.2.1.id = m.id ∧
      r.2.1.headers.ipv4 = m.headers.ipv4 := by
  have machine : ∀ {id : Nat} {hdr : FancyHeader}, senderMachine cfg id hdr p m = some r →
      (r.2.1.outPort = m.outPort ∨ r.2.1.outPort = m.inPort) ∧ r.2.1.id = m.id ∧ r.2.1.headers.ipv4 = m.headers.ipv4 := by
    intro id hdr run
    cases state : p.greySend.greyState id with
    | idle =>
      simp only [senderMachine, state] at run
      split at run <;> cases run
      · exact ⟨Or.inr rfl, rfl, rfl⟩
      · exact ⟨Or.inl rfl, rfl, rfl⟩
    | startAck =>
      simp only [senderMachine, state] at run
      split at run <;> cases run <;> exact ⟨Or.inl rfl, rfl, rfl⟩
    | counting | waitCounterSend | counterAck =>
      simp only [senderMachine, state] at run
      cases run
      exact ⟨Or.inl rfl, rfl, rfl⟩
    | waitCounterReceive =>
      simp only [senderMachine, state] at run
      split at run
      · obtain ⟨c, -, rfl⟩ := Option.map_eq_some_iff.1 run
        exact ⟨Or.inr rfl, rfl, rfl⟩
      · cases run
        exact ⟨Or.inl rfl, rfl, rfl⟩
  unfold egressMachines at run
  split at run
  · rename_i hdr fancy
    split at run
    · rename_i outside
      simp only [Bool.and_eq_true, Bool.not_eq_true'] at outside
      obtain ⟨target, same⟩ := machine run
      exact ⟨target.imp_right fun back => ⟨⟨_, outside.1, hdr, fancy, outside.2, rfl⟩, back⟩, same⟩
    · cases run
      exact ⟨Or.inl rfl, rfl, rfl⟩
  · cases run
    exact ⟨Or.inl rfl, rfl, rfl⟩

/-! ## All ports -/

/-- What each machine of each port may do, and whose reports set reroute flags on the port `flagged`. -/
structure PortsMove (cfg : FancyConfig) (moves counts : Nat → MachineId → Prop) (flagged : Nat) (log : List PortLog)
    (ports ports' : Ports) : Prop where
  machines : ∀ i, Moves cfg (moves i) (counts i) (ports i) (ports' i)
  flags : FlagsBy cfg log (ports flagged) (ports' flagged)
  still : ∀ i, i ≠ flagged → FlagsBy cfg [] (ports i) (ports' i)

theorem not_consumes_nil (j : Nat) : ¬Consumes j [] := by
  rintro ⟨_, _, _, _, _, _, mem⟩
  exact absurd mem List.not_mem_nil

theorem Consumes.append {j : Nat} {log log' : List PortLog} : Consumes j (log ++ log') ↔ Consumes j log ∨ Consumes j log' := by
  simp only [Consumes, List.mem_append, exists_or]

theorem FlagsBy.trans {log log' : List PortLog} (h : FlagsBy cfg log p p') (h' : FlagsBy cfg log' p' p'') :
    FlagsBy cfg (log ++ log') p p'' where
  bloom k differs := by
    rw [Consumes.append]
    by_cases same : (p'.reroute k).set = (p.reroute k).set
    · exact Or.inr (h'.bloom k fun same' => differs (same'.trans same))
    · exact Or.inl (h.bloom k same)
  top k differs := by
    rw [Consumes.append]
    by_cases same : (p'.rerouteTop k).set = (p.rerouteTop k).set
    · exact Or.inr (h'.top k fun same' => differs (same'.trans same))
    · exact Or.inl (h.top k same)

variable {move count : Nat → MachineId → Prop} {flagged : Nat} {log log' : List PortLog} {ports ports' ports'' : Ports}

theorem PortsMove.refl (owns : ∀ i, OwnsEvents (ports i)) : PortsMove cfg move count flagged log ports ports :=
  ⟨fun i => .refl (owns i), .refl, fun _ _ => .refl⟩

theorem PortsMove.trans (h : PortsMove cfg move count flagged log ports ports')
    (h' : PortsMove cfg move count flagged log' ports' ports'') :
      PortsMove cfg move count flagged (log ++ log') ports ports'' :=
  ⟨fun i => (h.machines i).trans (h'.machines i), h.flags.trans h'.flags,
    fun i other => (h.still i other).trans (h'.still i other)⟩

/-- One port changes. -/
theorem PortsMove.update (owns : ∀ i, OwnsEvents (ports i)) {i : Nat} (moved : Moves cfg (move i) (count i) (ports i) p')
    (flags : FlagsBy cfg log (ports i) p') (quiet : i ≠ flagged → FlagsBy cfg [] (ports i) p') :
    PortsMove cfg move count flagged log ports (update ports i p') := by
  refine ⟨fun k => ?_, ?_, fun k other => ?_⟩
  · by_cases here : k = i
    · subst here
      rw [update_self]
      exact moved
    · rw [update_of_ne here]
      exact .refl (owns k)
  · by_cases here : flagged = i
    · subst here
      rw [update_self]
      exact flags
    · rw [update_of_ne here]
      exact .refl
  · by_cases here : k = i
    · subst here
      rw [update_self]
      exact quiet other
    · rw [update_of_ne here]
      exact .refl

theorem reroute_flags (p : FancyPortInfo) (m : PktInfo cfg.ns3) : FlagsBy cfg log p (reroute cfg p m).1 := by
  have marked : ∀ id flow strFlow, FlagsBy cfg log p (markRerouted cfg id flow strFlow p) := by
    intro id flow strFlow
    simp only [markRerouted]
    split
    · split
      · exact .refl
      · refine .ofSame (fun _ => rfl) fun j => ?_
        by_cases here : j = id
        · subst here
          simp only [update_self]
        · simp only [update_of_ne here]
    · split
      · exact .refl
      · refine .ofSame (fun h => ?_) fun _ => rfl
        simp only
        split <;> rfl
  unfold reroute
  lift_lets
  intro strFlow id m
  split
  · exact marked _ _ _
  · exact .refl

/-- The machine a packet's flow is counted for. -/
def flowId (cfg : FancyConfig) (headers : Headers cfg.ns3) : Nat :=
  cfg.matchTopEntriesTable (cfg.packetStr (getFlowFiveTuple headers))

/-- The machines that a received packet drives: of the port it came by, those with the id of its FANCY header, the sender
only if the header says that it is of the other side's receiver. -/
def Driven {N : Ns3} (inPort : Nat) (headers : Headers N) (i : Nat) (k : MachineId) : Prop :=
  i = inPort ∧ ∃ hdr, headers.fancy = some hdr ∧ k.id = hdr.id.toNat ∧ (k.sender = true → hdr.getFSMFlag = true)

/-- The machines that count a received packet: the wildcard receiver of the port it came by, and of the port it leaves by
the senders of its flow and the wildcard sender. -/
def Counted (cfg : FancyConfig) (inPort out : Nat) (headers : Headers cfg.ns3) (i : Nat) (k : MachineId) : Prop :=
  headers.ipv4.isSome = true ∧ ((i = inPort ∧ k = ⟨false, cfg.wildcardId⟩) ∨
    (i = out ∧ k.sender = true ∧ (k.id = flowId cfg headers ∨ k.id = cfg.wildcardId)))

/-- The reroute block names a packet's flow and its machine, and may drop it. -/
theorem reroute_onward (p : FancyPortInfo) (m : PktInfo cfg.ns3) (unnamed : m.strFlow = "") :
    (reroute cfg p m).2.inPort = m.inPort ∧ (reroute cfg p m).2.outPort = m.outPort ∧
      (reroute cfg p m).2.broadcastFlag = m.broadcastFlag ∧ (reroute cfg p m).2.headers = m.headers ∧
      (reroute cfg p m).2.internalPacket = m.internalPacket ∧
      (reroute cfg p m).2.id = cfg.matchTopEntriesTable (cfg.packetStr m.flow) := by
  simp only [reroute, unnamed, if_true]
  split <;> exact ⟨rfl, rfl, rfl, rfl, rfl, rfl⟩

/-- The ingress box on a packet that arrives. -/
theorem PortsMove.ingressCounterBox (owns : ∀ i, OwnsEvents (ports i)) {inPort out : Nat} {m : PktInfo cfg.ns3}
    (flow : m.flow = getFlowFiveTuple m.headers) (unnamed : m.strFlow = "")
    {r : Ports × PktInfo cfg.ns3 × List PortLog} (run : ingressCounterBox cfg ports inPort m = some r) :
    PortsMove cfg (Driven inPort m.headers) (Counted cfg inPort out m.headers) inPort [] ports r.1 ∧
      (∀ j, ¬Consumes j r.2.2) ∧ Onward m r.2.1 ∧ (r.2.1.outPort ≠ none → r.2.1.id = flowId cfg m.headers) := by
  obtain ⟨q, machines, rfl⟩ := Option.map_eq_some_iff.1 run
  obtain ⟨passed, silent⟩ := ingressMachines_passed machines
  obtain ⟨bloom, top⟩ := ingressMachines_reroute machines
  have kept : FlagsBy cfg [] (ports inPort) q.1 := .ofSame (fun h => by rw [bloom]) fun j => by rw [top]
  have moved : Moves cfg (Driven inPort m.headers inPort) (Counted cfg inPort out m.headers inPort) (ports inPort) q.1 := by
    refine (Moves.ingressMachines (owns inPort) machines).mono ?_ ?_
    · rintro k ⟨hdr, fancy, rfl⟩
      exact ⟨rfl, hdr, fancy, rfl, fun sender => absurd sender (by simp)⟩
    · rintro k ⟨ip, rfl⟩
      exact ⟨ip, Or.inl ⟨rfl, rfl⟩⟩
  have first : PortsMove cfg (Driven inPort m.headers) (Counted cfg inPort out m.headers) inPort [] ports
      (Function.update ports inPort q.1) := .update owns moved kept fun _ => kept
  cases leaves : q.2.1.outPort with
  | none => exact ⟨first, silent, passed.toOnward, fun some => absurd leaves some⟩
  | some o =>
    have owned : ∀ i, OwnsEvents (Function.update ports inPort q.1 i) := fun i => (first.machines i).owns
    have turned : FlagsBy cfg [] (Function.update ports inPort q.1 o)
      (reroute cfg (Function.update ports inPort q.1 o) q.2.1).1 :=
      reroute_flags _ _
    have block : PortsMove cfg (Driven inPort m.headers) (Counted cfg inPort out m.headers) inPort []
        (Function.update ports inPort q.1)
        (Function.update (Function.update ports inPort q.1) o (reroute cfg (Function.update ports inPort q.1 o) q.2.1).1) :=
      .update owned (.ofSame (owned o) (sameMachines_reroute _ _)) turned fun _ => turned
    obtain ⟨source, target, broadcast, headers, internal, number⟩ :=
      reroute_onward (Function.update ports inPort q.1 o) q.2.1 (passed.strFlow.trans unnamed)
    refine ⟨first.trans block, silent, ⟨source.trans passed.inPort, ?_, broadcast.trans passed.broadcastFlag, ?_, ?_⟩,
      fun _ => ?_⟩
    · simp only [target]
      exact passed.outPort
    · simp only [headers]
      exact passed.ipv4
    · rintro j ⟨outside, hdr, fancy, fsm, here⟩
      refine passed.names j ⟨internal.symm.trans outside, hdr, ?_, fsm, here⟩
      rw [← headers]
      exact fancy
    · rw [number, passed.flow, flow]
      rfl

/-- The egress box on the packet that the ingress box let through. -/
theorem PortsMove.egressCounterBox (owns : ∀ i, OwnsEvents (ports i)) {inPort : Nat} {m m' : PktInfo cfg.ns3}
    (onward : Onward m m') (source : m.inPort = some inPort) (number : m'.id = flowId cfg m.headers)
    {r : Ports × PktInfo cfg.ns3 × List PortLog} (run : egressCounterBox cfg ports m' = some r) :
    ∃ out, (m'.outPort = some out ∨ (out = inPort ∧ Exchanged m.headers)) ∧
      PortsMove cfg (Driven inPort m.headers) (Counted cfg inPort out m.headers) inPort r.2.2 ports r.1 ∧
      ∀ j, Consumes j r.2.2 → ∃ hdr, m.headers.fancy = some hdr ∧ hdr.getFSMFlag = true ∧ j = hdr.id.toNat := by
  obtain ⟨e, from_, run⟩ := Option.bind_eq_some_iff.1 run
  obtain ⟨out, leaves, run⟩ := Option.bind_eq_some_iff.1 run
  obtain ⟨c, counting, rfl⟩ := Option.map_eq_some_iff.1 run
  simp only [egressFrom, onward.inPort, source] at from_
  obtain ⟨q, machines, rfl⟩ := Option.map_eq_some_iff.1 from_
  obtain ⟨moved, flags, consumes⟩ := Moves.egressMachines (owns inPort) machines
  obtain ⟨target, same, ip⟩ := egressMachines_meta machines
  have driven : Moves cfg (Driven inPort m.headers inPort) (Counted cfg inPort out m.headers inPort) (ports inPort) q.1 := by
    refine moved.mono ?_ fun _ => id
    rintro k ⟨-, names⟩
    obtain ⟨hdr, fancy, fsm, here⟩ := onward.names _ names
    exact ⟨rfl, hdr, fancy, here, fun _ => fsm⟩
  have first : PortsMove cfg (Driven inPort m.headers) (Counted cfg inPort out m.headers) inPort q.2.2 ports
      (Function.update ports inPort q.1) := .update owns driven flags fun other => absurd rfl other
  have owned : ∀ i, OwnsEvents (Function.update ports inPort q.1 i) := fun i => (first.machines i).owns
  obtain ⟨counted, kept, silent⟩ := @Moves.egressCounting cfg (Driven inPort m.headers out) _ (owned out) _ _ counting
  have second : PortsMove cfg (Driven inPort m.headers) (Counted cfg inPort out m.headers) inPort c.2.2
      (Function.update ports inPort q.1) (Function.update (Function.update ports inPort q.1) out c.1) := by
    have still : FlagsBy cfg [] (Function.update ports inPort q.1 out) c.1 :=
      ⟨fun h differs => absurd (kept.bloom h differs) (silent _), fun j differs => absurd (kept.top j differs) (silent _)⟩
    refine .update owned (counted.mono (fun _ => id) ?_) kept fun _ => still
    rintro k ⟨carries, sender, counts⟩
    rw [ip, onward.ipv4] at carries
    rw [same, number] at counts
    exact ⟨carries, Or.inr ⟨rfl, sender, counts⟩⟩
  refine ⟨out, ?_, first.trans second, fun j consumed => ?_⟩
  · rcases target with forwarded | ⟨⟨j, names⟩, back⟩
    · exact Or.inl (forwarded.symm.trans leaves)
    · rw [leaves, onward.inPort, source, Option.some.injEq] at back
      obtain ⟨hdr, fancy, fsm, -⟩ := onward.names j names
      exact Or.inr ⟨back, hdr, fancy, Or.inl fsm⟩
  · rcases Consumes.append.1 consumed with here | there
    · exact onward.names j (consumes j here)
    · exact absurd there (silent j)

theorem arrival_fields (n : Node cfg) (inPort : Nat) (frame : Frame) (headers : Headers cfg.ns3) :
    (n.arrival inPort frame headers).inPort = some inPort ∧ (n.arrival inPort frame headers).headers = headers ∧
      (n.arrival inPort frame headers).flow = getFlowFiveTuple headers ∧ (n.arrival inPort frame headers).strFlow = "" ∧
      (n.arrival inPort frame headers).broadcastFlag = false := by
  unfold Node.arrival Node.forward
  split
  · exact ⟨rfl, rfl, rfl, rfl, rfl⟩
  · simp only
    split <;> exact ⟨rfl, rfl, rfl, rfl, rfl⟩
  · exact ⟨rfl, rfl, rfl, rfl, rfl⟩

/-- A packet that is no broadcast is dropped, or goes through the egress box once. -/
theorem egressAll_trafficManager {n : Node cfg} {luck : Luck} {payload : Bytes} {m : PktInfo cfg.ns3}
    (single : m.broadcastFlag = false) {q : Ports × List (Nat × Frame) × List PortLog}
    (run : n.egressAll luck payload (n.trafficManager m) ports = some q) :
    (q.1 = ports ∧ q.2 = ([], [])) ∨ ∃ box, m.outPort ≠ none ∧
      egressCounterBox cfg ports { m with cloneType := 0, cloneOutPort := none } = some box ∧ q.1 = box.1 ∧
        q.2.2 = box.2.2 := by
  unfold Node.trafficManager at run
  split at run
  · cases run
    exact Or.inl ⟨rfl, rfl⟩
  · split at run
    · rename_i broadcast
      exact absurd broadcast (by simp [single])
    · split at run
      · cases run
        exact Or.inl ⟨rfl, rfl⟩
      · rename_i leaves
        have going : m.outPort ≠ none := by simpa using leaves
        obtain ⟨r, one, rest⟩ := Option.bind_eq_some_iff.1 run
        cases rest
        unfold Node.egress at one
        split at one
        · cases one
          exact Or.inl ⟨rfl, rfl⟩
        · obtain ⟨box, boxed, rfl⟩ := Option.map_eq_some_iff.1 one
          exact Or.inr ⟨box, going, boxed, rfl, by simp⟩

/-- What a received packet moves. -/
theorem receiveFromDevice_moves (n : Node cfg) {luck : Luck} {inPort : Nat} {frame : Frame} {sent : List (Nat × Frame)}
    {headers : Headers cfg.ns3} {payload : Bytes} (parsed : parse frame = some (headers, payload))
    (owns : ∀ i, OwnsEvents (ports i)) (run : n.receiveFromDevice luck inPort frame ports = some (ports', sent, log)) :
    ∃ out, ((n.arrival inPort frame headers).outPort = some out ∨ (out = inPort ∧ (Exchanged headers ∨ sent = []))) ∧
      PortsMove cfg (Driven inPort headers) (Counted cfg inPort out headers) inPort log ports ports' ∧
      ∀ j, Consumes j log → ∃ hdr, headers.fancy = some hdr ∧ hdr.getFSMFlag = true ∧ j = hdr.id.toNat := by
  obtain ⟨source, same, flow, unnamed, single⟩ := arrival_fields n inPort frame headers
  rw [Node.receiveFromDevice, parsed, Option.bind_some] at run
  obtain ⟨r, ingress, run⟩ := Option.bind_eq_some_iff.1 run
  obtain ⟨q, egress, shown⟩ := Option.map_eq_some_iff.1 run
  obtain ⟨rfl, rfl, rfl⟩ : q.1 = ports' ∧ q.2.1 = sent ∧ r.2.2 ++ q.2.2 = log := by simpa using shown
  have entered : ∀ out, PortsMove cfg (Driven inPort headers) (Counted cfg inPort out headers) inPort [] ports r.1 := by
    intro out
    have box : PortsMove cfg _ (Counted cfg inPort out _) inPort [] ports r.1 :=
      (PortsMove.ingressCounterBox owns (by rw [flow, same]) unnamed ingress).1
    rwa [same] at box
  obtain ⟨-, silent, onward, number⟩ :=
    @PortsMove.ingressCounterBox cfg ports owns inPort inPort _ (by rw [flow, same]) unnamed r ingress
  rcases egressAll_trafficManager (onward.broadcastFlag.trans single) egress with ⟨stays, quiet⟩ |
    ⟨box, leaves, boxed, moved, told⟩
  · refine ⟨inPort, Or.inr ⟨rfl, Or.inr (by rw [quiet])⟩, ?_, fun j consumes => ?_⟩
    · rw [stays, quiet]
      exact ⟨(entered inPort).machines, (entered inPort).flags.trans .refl, (entered inPort).still⟩
    · rw [quiet, List.append_nil] at consumes
      exact absurd consumes (silent j)
  · have carried : Onward (n.arrival inPort frame headers) { r.2.1 with cloneType := 0, cloneOutPort := none } :=
      ⟨onward.inPort, onward.outPort, onward.broadcastFlag, onward.ipv4, onward.names⟩
    obtain ⟨out, target, left, consumed⟩ :=
      PortsMove.egressCounterBox (fun i => ((entered inPort).machines i).owns) carried source (number leaves) boxed
    rw [same] at left consumed target
    refine ⟨out, ?_, ?_, fun j consumes => ?_⟩
    · rcases target with forwarded | ⟨back, exchanged⟩
      · rcases onward.outPort with kept | ⟨exchanged, turned⟩ | gone
        · exact Or.inl (kept.symm.trans forwarded)
        · rw [source] at turned
          exact Or.inr ⟨Option.some.inj (forwarded.symm.trans turned), Or.inl (same ▸ exchanged)⟩
        · exact absurd gone leaves
      · exact Or.inr ⟨back, Or.inl exchanged⟩
    · rw [moved, told]
      have whole := (entered out).trans left
      refine ⟨whole.machines, ⟨fun h differs => ?_, fun j differs => ?_⟩, whole.still⟩
      · exact Consumes.append.2 (Or.inr (whole.flags.bloom h differs))
      · exact Consumes.append.2 (Or.inr (whole.flags.top j differs))
    · rcases Consumes.append.1 consumes with here | there
      · exact absurd here (silent j)
      · exact consumed j (told ▸ there)

/-- **Isolation of the machines.** Take any state of a switch whose machines own their events and any packet it receives.
Of all machines of all ports only those that the packet drives change their state, session number, event or tree, and only
those and the ones that count it change their counters; reroute flags change at the port it came by only, by a report that
the machine the header names has consumed. The port it leaves by is the one it is forwarded to; a packet that leaves by the
port it came by, against the forwarding, is one of the exchange that a machine has bounced. -/
theorem machine_isolation (n : Node cfg) {luck : Luck} {inPort : Nat} {frame : Frame} {sent : List (Nat × Frame)}
    {headers : Headers cfg.ns3} {payload : Bytes} (parsed : parse frame = some (headers, payload))
    (owns : ∀ i, OwnsEvents (ports i)) (run : n.receiveFromDevice luck inPort frame ports = some (ports', sent, log)) :
    ∃ out, ((n.arrival inPort frame headers).outPort = some out ∨ (out = inPort ∧ (Exchanged headers ∨ sent = []))) ∧
      (∀ i k, ¬Driven inPort headers i k → ¬Counted cfg inPort out headers i k →
        machineState cfg k (ports' i) = machineState cfg k (ports i)) ∧
      (∀ i k, ¬Driven inPort headers i k → (machineState cfg k (ports' i)).control = (machineState cfg k (ports i)).control ∧
        (machineState cfg k (ports' i)).pending = (machineState cfg k (ports i)).pending) ∧
      (∀ i h, ((ports' i).reroute h).set ≠ ((ports i).reroute h).set →
        i = inPort ∧ (∃ hdr, headers.fancy = some hdr ∧ hdr.id.toNat = cfg.treeId) ∧ Consumes cfg.treeId log) ∧
      ∀ i j, ((ports' i).rerouteTop j).set ≠ ((ports i).rerouteTop j).set →
        i = inPort ∧ (∃ hdr, headers.fancy = some hdr ∧ hdr.id.toNat = j) ∧ Consumes j log := by
  obtain ⟨out, target, moved, consumes⟩ := receiveFromDevice_moves n parsed owns run
  refine ⟨out, target, fun i k => (moved.machines i).state, fun i k => (moved.machines i).control k,
    fun i h differs => ?_, fun i j differs => ?_⟩
  · have here : i = inPort := by
      by_contra other
      exact not_consumes_nil _ ((moved.still i other).bloom h differs)
    subst here
    have consumed := moved.flags.bloom h differs
    obtain ⟨hdr, fancy, -, number⟩ := consumes _ consumed
    exact ⟨rfl, ⟨hdr, fancy, number.symm⟩, consumed⟩
  · have here : i = inPort := by
      by_contra other
      exact not_consumes_nil _ ((moved.still i other).top j differs)
    subst here
    have consumed := moved.flags.top j differs
    obtain ⟨hdr, fancy, -, number⟩ := consumes _ consumed
    exact ⟨rfl, ⟨hdr, fancy, number.symm⟩, consumed⟩

/-! ## Reachable states -/

theorem ownsEvents_initPort (towards : Bool) : OwnsEvents (initPort cfg towards) := by
  have empty : ∀ flag, OwnsEvents { switchPort := flag } := fun flag =>
    ⟨fun e mem => absurd mem List.not_mem_nil, fun k u handle => by
      cases k with | mk sender id => cases sender <;> cases handle⟩
  have scheduled : ∀ (ids : List Nat) (p : FancyPortInfo), OwnsEvents p →
      OwnsEvents (ids.foldl (fun p id => scheduleSend id (.sendGreyAction (startAction cfg id) id) p) p) := by
    intro ids
    induction ids with
    | nil => exact fun _ owns => owns
    | cons id ids ih =>
      intro p owns
      have one : Moves cfg (· = ⟨true, id⟩) (fun _ => False) p
          (scheduleSend id (.sendGreyAction (startAction cfg id) id) p) := .schedule owns true rfl
      exact ih _ one.owns
  unfold initPort
  split
  · exact scheduled _ _ (empty true)
  · exact empty false

/-- The states of a switch: packets arrive and events run in any order. -/
inductive Reached (n : Node cfg) : Ports → Prop where
  | init (towards : Nat → Bool) : Reached n fun i => initPort cfg (towards i)
  | receive {ports ports' : Ports} {luck : Luck} {inPort : Nat} {frame : Frame} {sent : List (Nat × Frame)}
    {log : List PortLog} :
      Reached n ports → n.receiveFromDevice luck inPort frame ports = some (ports', sent, log) → Reached n ports'
  | fire {ports ports' : Ports} {luck : Luck} {i place : Nat} {sent : List (Nat × Frame)} {log : List PortLog} :
      Reached n ports → n.fire luck i place ports = some (ports', sent, log) → Reached n ports'

/-- An event has left the queue. -/
theorem OwnsEvents.erase (owns : OwnsEvents p) (place : Nat) :
    OwnsEvents { p with events := { p.events with pending := p.events.pending.eraseIdx place } } where
  fresh e mem := owns.fresh e (List.mem_of_mem_eraseIdx mem)
  handles k u handle := ⟨(owns.handles k u handle).1, fun ev mem =>
    (owns.handles k u handle).2 ev (List.mem_of_mem_eraseIdx mem)⟩

theorem ownsEvents_sendGreyAction (owns : OwnsEvents p) {action : UInt8} {r : FancyPortInfo × FancyHeader}
    (run : sendGreyAction cfg action id p = some r) : OwnsEvents r.1 := by
  have started : Moves cfg (· = ⟨true, id⟩) (fun _ => False) p
      { p with greySend := (p.greySend.setLocalCounter id 0).setGreyState id .startAck } := by
    refine .setGrey true owns rfl (fun j other => ?_) fun j other => ?_
    · exact control_setGreyState other _
    · exact counts_setLocalCounter other _
  have cancel : Moves cfg (· = ⟨true, id⟩) (fun _ => False) p
    { p with events := p.events.cancel (p.greySend.currentEvent id) } :=
    .cancel owns ⟨true, id⟩
  have next : ∀ {q : FancyPortInfo} {ev : Event}, OwnsEvents q → ev.owner = ⟨true, id⟩ → OwnsEvents (scheduleSend id ev q) := by
    intro q ev owned own
    have one : Moves cfg (· = ⟨true, id⟩) (fun _ => False) q (scheduleSend id ev q) := .schedule owned true own
    exact one.owns
  have state : ∀ {q : FancyPortInfo} (s : GreyState), OwnsEvents q →
    OwnsEvents { q with greySend := q.greySend.setGreyState id s } := by
    intro q s owned
    have one : Moves cfg (· = ⟨true, id⟩) (fun _ => False) q (q.setGrey true (q.greySend.setGreyState id s)) :=
      .setState true owned s
    exact one.owns
  unfold sendGreyAction at run
  simp only at run
  split at run
  · split at run
    · cases run
      exact next started.owns rfl
    · cases run
  · split at run
    · split at run <;> cases run
      · exact next (state .counting cancel.owns) rfl
      · exact next started.owns rfl
    · split at run <;> cases run
      · exact next (state .waitCounterReceive owns) rfl
      · exact owns

theorem ownsEvents_sendGreyCounter (owns : OwnsEvents p) {r : FancyPortInfo × FancyHeader × List PortLog}
    (run : sendGreyCounter cfg id p = some r) : OwnsEvents r.1 := by
  have set : Moves cfg (· = ⟨false, id⟩) (fun _ => False) p (p.setGrey false (p.greyRecv.setGreyState id .counterAck)) :=
    .setState false owns .counterAck
  have next : Moves cfg (· = ⟨false, id⟩) (fun _ => False) (p.setGrey false (p.greyRecv.setGreyState id .counterAck))
      (scheduleRecv id (.sendGreyCounter id) (p.setGrey false (p.greyRecv.setGreyState id .counterAck))) :=
    .schedule set.owns false rfl
  unfold sendGreyCounter at run
  simp only at run
  split at run
  · split at run
    · cases run
      exact next.owns
    · cases run
  · cases run
    exact next.owns

theorem ownsEvents_sendInternal {n : Node cfg} {luck : Luck} {i : Nat} {hdr : FancyHeader} {sent : List (Nat × Frame)}
    (owns : ∀ i, OwnsEvents (ports i)) (run : n.sendInternal luck i hdr ports = some (ports', sent, log)) :
    ∀ i, OwnsEvents (ports' i) := by
  rcases egressAll_trafficManager rfl run with ⟨stays, -⟩ | ⟨box, -, boxed, moved, -⟩
  · rw [show ports' = ports from stays]
    exact owns
  · rw [show ports' = box.1 from moved]
    obtain ⟨e, from_, boxed⟩ := Option.bind_eq_some_iff.1 boxed
    obtain ⟨out, -, boxed⟩ := Option.bind_eq_some_iff.1 boxed
    obtain ⟨c, counting, rfl⟩ := Option.map_eq_some_iff.1 boxed
    cases from_
    obtain ⟨counted, -, -⟩ := @Moves.egressCounting cfg (fun _ => False) _ (owns out) _ _ counting
    exact (Function.forall_update_iff _ _).2 ⟨counted.owns, fun j _ => owns j⟩

/-- **In every reachable state of a switch the machines own their events.** -/
theorem Reached.owns {n : Node cfg} (reached : Reached n ports) : ∀ i, OwnsEvents (ports i) := by
  induction reached with
  | init towards => exact fun i => ownsEvents_initPort (towards i)
  | receive before run ih =>
    rename_i ports ports' luck inPort frame sent log
    cases parsed : (parse frame : Option (Headers cfg.ns3 × Bytes)) with
    | none => simp [Node.receiveFromDevice, parsed] at run
    | some h =>
      obtain ⟨out, -, moved, -⟩ := receiveFromDevice_moves n parsed ih run
      exact fun i => (moved.machines i).owns
  | fire before run ih =>
    rename_i ports ports' luck i place sent log
    obtain ⟨e, -, run⟩ := Option.bind_eq_some_iff.1 run
    have erased := (ih i).erase place
    have set : ∀ {p : FancyPortInfo}, OwnsEvents p → ∀ j, OwnsEvents (update ports i p j) := fun owned =>
      (Function.forall_update_iff _ _).2 ⟨owned, fun j _ => ih j⟩
    simp only at run
    split at run
    · obtain ⟨r, ran, run⟩ := Option.bind_eq_some_iff.1 run
      exact ownsEvents_sendInternal (set (ownsEvents_sendGreyAction erased ran)) run
    · obtain ⟨r, ran, run⟩ := Option.bind_eq_some_iff.1 run
      exact ownsEvents_sendInternal (set (ownsEvents_sendGreyCounter erased ran)) run

theorem machine_isolation_startAck : ∃ r, smallNode.receiveFromDevice {} 0 startAckFrame freshPorts = some r ∧
    ∀ i, i ≠ 0 → machineState smallConfig ⟨true, 0⟩ (r.1 i) = machineState smallConfig ⟨true, 0⟩ (freshPorts i) := by
  obtain ⟨r, run⟩ : ∃ r, smallNode.receiveFromDevice {} 0 startAckFrame freshPorts = some r :=
    Option.isSome_iff_exists.1 (by decide +kernel)
  have read : ((parse startAckFrame : Option (Headers standardNs3 × Bytes)).any fun h => !h.1.ipv4.isSome) = true := by
    decide +kernel
  obtain ⟨h, parsed⟩ : ∃ h, (parse startAckFrame : Option (Headers standardNs3 × Bytes)) = some h :=
    Option.isSome_iff_exists.1 (by decide +kernel)
  have plain : h.1.ipv4.isSome = false := by
    rw [parsed] at read
    simpa using read
  obtain ⟨out, -, others, -⟩ := machine_isolation smallNode parsed (fun _ => ownsEvents_initPort true) run
  refine ⟨r, run, fun i other => others i _ (fun driven => other driven.1) fun counted => ?_⟩
  exact absurd (plain.symm.trans counted.1) (by decide)

end

end Ns3Fancy.Switch

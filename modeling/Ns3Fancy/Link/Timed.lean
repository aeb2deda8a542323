import Ns3Fancy.Link.Lockstep
import Ns3Fancy.Link.Numbers
import Ns3Fancy.Link.Senders

/-!
# The link on a clock

The link with its timers on an integer clock, in microseconds: an event runs when it is due, and a frame arrives one
latency after it left. Time goes on when all that is due has happened. The wait for the acknowledgement of a START comes
from the delay between the switches by an integer division, so delays below a millisecond leave no wait at all.
-/

namespace Ns3Fancy.Link
open Switch Function Session
set_option autoImplicit false

/-- What `SetFancyDefaults` makes of the wait for acknowledgements, in milliseconds, for a delay in microseconds. -/
def adaptedAckWait (ackWaitTimeMs : Nat) (switchToSwitchDelay : UInt32) : Nat :=
  if 0 < switchToSwitchDelay then (switchToSwitchDelay / 1000 * 4).toNat else ackWaitTimeMs

/-- The waits of the switches, in microseconds, and when the events of `Init` are due. -/
structure Timers where
  ackWaitTime : Nat
  sendCounterWait : Nat
  timeBetweenCampaing : Nat
  probingTimeZooming : Nat
  probingTimeTopEntries : Nat
  start : Bool → Nat → Nat

section
variable (cfg : FancyConfig)

/-- How long after an event its successor is due. -/
def Timers.afterEvent (w : Timers) : Event → Nat
  | .sendGreyAction action id =>
    if action = GREY_START ∧ cfg.treeEnableSoftDetections ∧ id = cfg.wildcardId then w.probingTimeTopEntries
    else w.ackWaitTime
  | .sendGreyCounter _ => w.ackWaitTime

/-- How long after the arrival of a frame the event is due that a machine then sets. -/
def Timers.afterFrame (w : Timers) : Event → Nat
  | .sendGreyAction action id =>
    if action = GREY_STOP then
      if id < cfg.numTopEntries ∨ id = cfg.wildcardId then w.probingTimeTopEntries else w.probingTimeZooming
    else w.timeBetweenCampaing
  | .sendGreyCounter _ => w.sendCounterWait

end

/-- Both ports at an instant. A frame on a wire comes with the time it arrives, and a handle with the time it is due. -/
structure Timed where
  now : Nat
  port : Bool → FancyPortInfo
  wire : Bool → List (Nat × Frame)
  due : Bool → Nat → Nat

inductive TimedLabel (cfg : FancyConfig) where
  | tick
  | act (l : Label cfg)

/-- A START or STOP that leaves. -/
structure Sending where
  side : Bool
  id : Nat
  action : UInt8
  number : Nat
  time : Nat
  deriving DecidableEq

namespace Timed
variable {cfg : FancyConfig}

/-- The link without the times. -/
def system (s : Timed) : System := { port := s.port, wire := fun side => (s.wire side).map (·.2) }

/-- The number of the session of a sender. -/
def number (s : Timed) (side : Bool) (id : Nat) : Nat := ((s.port side).greySend.currentSEQ id).toNat

/-- It is time for the step, and it loses nothing the link carries. -/
def Ready (s : Timed) : Label cfg → Prop
  | .fire side i => ∃ e ∈ (s.port side).events.pending[i]?, s.due side e.1 = s.now
  | .deliver side => ∃ f ∈ (s.wire side).head?, f.1 = s.now
  | .probe _ | .egress _ _ _ _ => True
  | .lose _ _ => False

instance (s : Timed) : (l : Label cfg) → Decidable (s.Ready l)
  | .fire _ _ | .deliver _ => Option.decidableExistsMem _
  | .probe _ | .egress _ _ _ _ => .isTrue trivial
  | .lose _ _ => .isFalse id

/-- All that is due has happened. -/
def Quiet (s : Timed) : Prop :=
  ∀ side, (∀ e ∈ (s.port side).events.pending, s.due side e.1 ≠ s.now) ∧ ∀ f ∈ s.wire side, f.1 ≠ s.now

instance (s : Timed) : Decidable s.Quiet := inferInstanceAs (Decidable (∀ _, _))

/-- How long the events wait that a step sets. -/
def wait (w : Timers) (l : Label cfg) (s : Timed) (p : FancyPortInfo) (u : Nat) : Nat :=
  match l with
  | .fire side i => ((s.port side).events.pending[i]?).elim 0 fun e => w.afterEvent cfg e.2
  | .deliver _ | .probe _ | .egress _ _ _ _ | .lose _ _ =>
    (p.events.pending.find? fun e => e.1 = u).elim 0 fun e => w.afterFrame cfg e.2

/-- The frames a step leaves on the wire. -/
def kept (l : Label cfg) (s : Timed) (side : Bool) : List (Nat × Frame) :=
  if l.takes side then (s.wire side).tail else s.wire side

/-- The link has made a step: new frames arrive after the latency, new events have their wait before them. -/
def after (w : Timers) (latency : Nat) (l : Label cfg) (s : Timed) (r : System) : Timed where
  now := s.now
  port := r.port
  wire side := s.kept l side ++ ((r.wire side).drop (s.kept l side).length).map fun frame => (s.now + latency, frame)
  due side u := if u < (s.port side).events.next then s.due side u else s.now + wait w l s (r.port side) u

/-- What the timer of a sender sends. -/
def sendings (s : Timed) : Label cfg → List Sending
  | .fire side i =>
    match (s.port side).events.pending[i]? with
    | some (_, .sendGreyAction action id) => [⟨side, id, action, s.number side id, s.now⟩]
    | _ => []
  | .probe _ | .egress _ _ _ _ | .deliver _ | .lose _ _ => []

def step (cfg : FancyConfig) (w : Timers) (latency : Nat) : Lts.Step Timed (TimedLabel cfg) Sending
  | .tick, s => if s.Quiet then some ({ s with now := s.now + 1 }, []) else none
  | .act l, s => if s.Ready l then (Link.step cfg l s.system).map fun r => (s.after w latency l r.1, s.sendings l) else none

/-- Both switches have run `Init` at time zero. -/
def start (cfg : FancyConfig) (w : Timers) : Timed :=
  { now := 0, port := fun _ => initPort cfg true, wire := fun _ => [], due := w.start }

/-- The reroute block takes no packet of the machines, and the session numbers fit the header. -/
def Good (cfg : FancyConfig) (l : TimedLabel cfg) (s : Timed) : Prop :=
  (∀ side, ∀ id ∈ startedIds cfg, s.number side id < 65536) ∧ ∀ act, l = .act act → Lossless cfg act s.system

/-! ## The link under the clock -/

section
variable {s : Timed} {w : Timers} {latency : Nat} {l : Label cfg} {r : System × List Seen}

theorem Ready.keeps (ready : s.Ready l) (d : Bool) (i : Nat) : l ≠ .lose d i := by
  rintro rfl
  exact ready

theorem system_kept (l : Label cfg) (s : Timed) (side : Bool) :
    (s.kept l side).map (·.2) = if l.takes side then (s.system.wire side).tail else s.system.wire side := by
  unfold kept
  split
  · exact List.map_tail
  · rfl

/-- What is new on a wire. -/
theorem after_wire (w : Timers) (latency : Nat) (ready : s.Ready l) (run : Link.step cfg l s.system = some r) (side : Bool) :
    ∃ sent, r.1.wire side = (s.kept l side).map (·.2) ++ sent ∧
      (s.after w latency l r.1).wire side = s.kept l side ++ sent.map fun frame => (s.now + latency, frame) := by
  obtain ⟨sent, wire⟩ := step_wire run ready.keeps side
  rw [← system_kept] at wire
  refine ⟨sent, wire, ?_⟩
  simp only [after, wire]
  rw [List.drop_left' (List.length_map _)]

/-- The clock adds nothing to what the link does. -/
theorem after_system (ready : s.Ready l) (run : Link.step cfg l s.system = some r) :
    (s.after w latency l r.1).system = r.1 := by
  have wires : (fun side => ((s.after w latency l r.1).wire side).map (·.2)) = r.1.wire := by
    funext side
    obtain ⟨sent, same, timed⟩ := after_wire w latency ready run side
    rw [timed, same, List.map_append, List.map_map]
    congr 1
    exact List.map_id' sent
  unfold system
  rw [wires]
  rfl

/-- A frame stays on the wire until it is delivered. -/
theorem mem_wire (ready : s.Ready l) (run : Link.step cfg l s.system = some r) {side : Bool} {f : Nat × Frame}
    (mem : f ∈ s.wire side) : f ∈ (s.after w latency l r.1).wire side ∨
      l = .deliver side ∧ f.1 = s.now ∧ ∃ rest, s.system.wire side = f.2 :: rest := by
  obtain ⟨sent, -, timed⟩ := after_wire w latency ready run side
  rw [timed, List.mem_append, kept]
  cases takes : l.takes side with
  | false => exact Or.inl (Or.inl mem)
  | true =>
    obtain rfl : l = .deliver side := by
      cases l with
      | deliver d =>
        obtain rfl : d = side := eq_of_beq takes
        rfl
      | fire | probe | egress | lose => cases takes
    obtain ⟨g, rest, wire⟩ := List.exists_cons_of_ne_nil (List.ne_nil_of_mem mem)
    rw [wire] at mem
    rcases List.mem_cons.1 mem with rfl | later
    · obtain ⟨h, head, arrives⟩ := ready
      rw [wire] at head
      cases head
      exact Or.inr ⟨rfl, arrives, rest.map (·.2), by simp [system, wire]⟩
    · refine Or.inl (Or.inl ?_)
      rw [if_pos rfl, wire]
      exact later

/-- A frame that a step sends arrives one latency later. -/
theorem mem_wire_sent (ready : s.Ready l) (run : Link.step cfg l s.system = some r) {side : Bool} {frames : List Frame}
    (wire : r.1.wire side = s.system.wire side ++ frames) (untouched : l.takes side = false) {frame : Frame}
    (mem : frame ∈ frames) : (s.now + latency, frame) ∈ (s.after w latency l r.1).wire side := by
  obtain ⟨sent, same, timed⟩ := after_wire w latency ready run side
  have all : s.kept l side = s.wire side := by
    rw [kept, untouched]
    rfl
  rw [all] at same timed
  obtain rfl : frames = sent := List.append_cancel_left (wire.symm.trans same)
  rw [timed]
  exact List.mem_append_right _ (List.mem_map.2 ⟨frame, mem, rfl⟩)

end

/-- `Good`, computed. -/
def goodStep (cfg : FancyConfig) (l : TimedLabel cfg) (s : Timed) : Bool :=
  decide (∀ side, ∀ id ∈ startedIds cfg, s.number side id < 65536) &&
    match l with
    | .tick => true
    | .act act => losslessStep cfg act s.system

theorem good_of_goodStep {l : TimedLabel cfg} {s : Timed} (check : goodStep cfg l s = true) : Good cfg l s := by
  obtain ⟨small, lossless⟩ := Bool.and_eq_true_iff.1 check
  refine ⟨of_decide_eq_true small, ?_⟩
  rintro act rfl
  exact lossless_of_losslessStep cfg lossless

end Timed

/-! ## A START and its answer -/

section
variable {cfg : FancyConfig} {p : FancyPortInfo} {frame : Frame} {hdr : FancyHeader} {id q : Nat} {o : Outcome}

/-- A receiver that does not wait to report answers a START. -/
theorem Settled.answers_start (h : Settled cfg p) {req : Request} (reads : Reads cfg frame (.start id q req))
    (received : receive cfg p frame = some o) (kept : o.dropped = false) (free : p.greyRecv.greyState id ≠ .waitCounterSend) :
    ∃ answer ∈ o.sent, Reads cfg answer (.startAck id q) := by
  cases reads with
  | start control payload =>
    have phase : (receiverView cfg id p).phase ≠ .waitSend := receiverPhase_waitSend.not.2 free
    rcases (h.receive_start control payload received).answers with ⟨-, frames⟩ | ⟨dropped, -⟩
    · rw [Receiver.handle, if_neg phase] at frames
      obtain ⟨answer, rest, first, -, sent⟩ := List.forall₂_cons_right_iff.1 frames
      rw [sent]
      exact ⟨answer, List.mem_cons_self, first⟩
    · rw [kept] at dropped
      cases dropped

/-- The answer to its START opens the session of a sender. -/
theorem Settled.opens (h : Settled cfg p) (reads : Reads cfg frame (.startAck id (p.greySend.currentSEQ id).toNat))
    (received : receive cfg p frame = some o) (kept : o.dropped = false) (waiting : p.greySend.greyState id = .startAck) :
    o.port.greySend.greyState id = .counting := by
  cases reads with
  | startAck control =>
    have view := (h.receive_startAck control received).sender kept
    have waits : (senderView cfg id p).phase = .startAck := by simp [senderView, waiting, senderPhase]
    rw [Sender.handle, if_pos ⟨waits, rfl⟩] at view
    exact (sender_counting cfg o.port id).2 (congrArg Sender.phase view)

/-- While a sender waits for its answer, the receiver does not wait to report. -/
theorem free_of_run {s : System} {tr : List Seen} (run : Lts.Run (Link.step cfg) (Lossless cfg) (System.start cfg) s tr)
    {side : Bool} (waiting : (s.port side).greySend.greyState id = .startAck) :
    (s.port !side).greyRecv.greyState id ≠ .waitCounterSend := by
  obtain ⟨F, -, session⟩ := lossless_session side id run
  have inStep := InStep.of_run (meter_lawful cfg id) (variant_sound cfg id) session
  intro state
  have phase : (view cfg side id s F).r.phase = .waitSend := by simp [view, Link.receivers, receiverView, state, receiverPhase]
  have closing := (inStep.waiting phase).1
  simp [view, Link.senders, senderView, waiting, senderPhase] at closing

end

namespace Timed

/-! ## Senders that wait -/

section
variable (cfg : FancyConfig) (w : Timers) (latency : Nat) (s : Timed)

/-- The START of a sender is on its way, or its answer is; the timer that would send it again is due one wait after it. -/
def Awaits (side : Bool) (id : Nat) : Prop :=
  ∃ sentAt, (∀ u action, (u, .sendGreyAction action id) ∈ (s.port side).events.pending →
      s.due side u = sentAt + w.ackWaitTime) ∧
    ((∃ f ∈ s.wire side, f.1 = sentAt + latency ∧ ∃ req, Reads cfg f.2 (.start id (s.number side id) req)) ∨
      ∃ f ∈ s.wire !side, f.1 = sentAt + 2 * latency ∧ Reads cfg f.2 (.startAck id (s.number side id)))

/-- What has been sent belongs to an earlier session or to the open one, and a STOP of the open one comes again later. -/
structure Past (x : Sending) : Prop where
  started : x.id ∈ startedIds cfg
  session : x.number < s.number x.side x.id ∨ x.number = s.number x.side x.id ∧
    (s.port x.side).greySend.greyState x.id ≠ .idle ∧
    (x.action = GREY_STOP → (s.port x.side).greySend.greyState x.id = .waitCounterReceive ∧
      ∀ u action, (u, .sendGreyAction action x.id) ∈ (s.port x.side).events.pending → x.time < s.due x.side u)

/-- The STARTs of a trace, by machine and session. -/
def starts (tr : List Sending) : List (Bool × Nat × Nat) :=
  (tr.filter fun x => x.action ≠ GREY_STOP).map fun x => (x.side, x.id, x.number)

structure Paced (tr : List Sending) : Prop where
  coming : ∀ side, ∀ f ∈ s.wire side, s.now ≤ f.1
  awaits : ∀ side id, (s.port side).greySend.greyState id = .startAck → s.Awaits cfg w latency side id
  past : ∀ x ∈ tr, s.Past cfg x
  starts : (starts tr).Nodup
  once : tr.Nodup

end

section
variable {cfg : FancyConfig} {s : Timed} {w : Timers} {latency : Nat} {l : Label cfg} {r : System × List Seen}
variable {tr : List Sending} {side : Bool} {id : Nat}

/-- **The timer of a sender that waits is not due.** -/
theorem Paced.not_due (h : s.Paced cfg w latency tr) (covers : 2 * latency < w.ackWaitTime)
    (waiting : (s.port side).greySend.greyState id = .startAck) {u : Nat} {action : UInt8}
    (pending : (u, .sendGreyAction action id) ∈ (s.port side).events.pending) : s.now < s.due side u := by
  obtain ⟨sentAt, due, frames⟩ := h.awaits side id waiting
  have at_ := due u action pending
  rcases frames with ⟨f, mem, arrives, -⟩ | ⟨f, mem, arrives, -⟩
  · have := h.coming side f mem
    omega
  · have := h.coming (!side) f mem
    omega

/-- Events that were set before keep their time. -/
theorem after_due {u : Nat} (old : u < (s.port side).events.next) : (s.after w latency l r.1).due side u = s.due side u :=
  if_pos old

theorem due_stays (settled : Settled cfg (s.port side)) (same : Stays id (s.port side) (r.1.port side)) {u : Nat}
    {action : UInt8} (pending : (u, .sendGreyAction action id) ∈ (r.1.port side).events.pending) :
    (u, .sendGreyAction action id) ∈ (s.port side).events.pending ∧ (s.after w latency l r.1).due side u = s.due side u := by
  have old := same.mem_pending.1 pending
  exact ⟨old, after_due (settled.fresh _ old)⟩

theorem number_stays (same : Stays id (s.port side) (r.1.port side)) :
    (s.after w latency l r.1).number side id = s.number side id :=
  congrArg UInt32.toNat same.currentSEQ

/-- **A sender that waits goes on waiting**, its START or the answer to it still on the way. -/
theorem Awaits.stays {F : Bool → List Msg} {shown : List Seen} (h : s.Awaits cfg w latency side id)
    (run : Lts.Run (Link.step cfg) (Lossless cfg) (System.start cfg) s.system shown) (wired : Wired cfg s.system F)
    (ready : s.Ready l) (good : Lossless cfg l s.system) (moved : Link.step cfg l s.system = some r)
    (waiting : (s.port side).greySend.greyState id = .startAck) (same : Stays id (s.port side) (r.1.port side)) :
    (s.after w latency l r.1).Awaits cfg w latency side id := by
  obtain ⟨sentAt, due, frames⟩ := h
  have undropped : ∀ d, l = .deliver d → ∀ frame rest o, s.system.wire d = frame :: rest →
      receive cfg (s.port !d) frame = some o → o.dropped = false := by
    intro d isDeliver frame rest o wire received
    by_contra dropped
    exact good.2 ⟨d, frame, rest, o, isDeliver, wire, received, by simpa using dropped⟩
  refine ⟨sentAt, fun u action pending => ?_, ?_⟩
  · obtain ⟨old, timed⟩ := due_stays (w := w) (l := l) (wired.settled side) same pending
    exact timed.trans (due u action old)
  rw [number_stays same]
  rcases frames with ⟨f, mem, arrives, req, reads⟩ | ⟨f, mem, arrives, reads⟩
  · rcases mem_wire ready moved mem with stays | ⟨rfl, now, rest, wire⟩
    · exact Or.inl ⟨f, stays, arrives, req, reads⟩
    · -- the START arrives and is answered
      obtain ⟨frame, rest', o, wire', received, -, back⟩ := step_deliver moved
      obtain ⟨rfl, rfl⟩ := List.cons.inj (wire.symm.trans wire')
      obtain ⟨answer, sent, read⟩ := (wired.settled !side).answers_start reads received
        (undropped side rfl _ _ o wire received) (free_of_run run waiting)
      have untouched : @Label.takes cfg (!side) (.deliver side) = false := by simp [Label.takes]
      refine Or.inr ⟨_, mem_wire_sent ready moved back untouched sent, ?_, read⟩
      show s.now + latency = sentAt + 2 * latency
      omega
  · rcases mem_wire ready moved mem with stays | ⟨rfl, now, rest, wire⟩
    · exact Or.inr ⟨f, stays, arrives, reads⟩
    · -- the answer arrives, and the sender does not wait any more
      obtain ⟨frame, rest', o, wire', received, port, -⟩ := step_deliver moved
      obtain ⟨rfl, rfl⟩ := List.cons.inj (wire.symm.trans wire')
      rw [Bool.not_not] at received port
      have kept := undropped (!side) rfl f.2 rest o wire
      rw [Bool.not_not] at kept
      have opened := (wired.settled side).opens reads received (kept received) waiting
      have still := same.greyState
      rw [port, update_self, opened, waiting] at still
      cases still

theorem Past.stays (settled : Settled cfg (s.port side)) {x : Sending} (h : s.Past cfg x) (here : x.side = side)
    (same : Stays x.id (s.port side) (r.1.port side)) : (s.after w latency l r.1).Past cfg x := by
  subst here
  refine ⟨h.started, ?_⟩
  rw [number_stays same]
  rcases h.session with past | ⟨current, busy, repeated⟩
  · exact Or.inl past
  · refine Or.inr ⟨current, ?_, fun isStop => ?_⟩
    · show (r.1.port x.side).greySend.greyState x.id ≠ .idle
      rw [same.greyState]
      exact busy
    · obtain ⟨state, later⟩ := repeated isStop
      refine ⟨same.greyState.trans state, fun u action pending => ?_⟩
      obtain ⟨old, timed⟩ := due_stays (w := w) (l := l) settled same pending
      rw [timed]
      exact later u action old

theorem Past.goesOn {x : Sending} (h : s.Past cfg x) (small : s.number x.side x.id < 65536)
    (goes : GoesOnTo x.id (s.port x.side) (r.1.port x.side)) : (s.after w latency l r.1).Past cfg x := by
  refine ⟨h.started, ?_⟩
  rcases goes.next with ⟨seq, waiting, counting⟩ | next
  · have number : (s.after w latency l r.1).number x.side x.id = s.number x.side x.id := congrArg UInt32.toNat seq
    rw [number]
    rcases h.session with past | ⟨current, -, repeated⟩
    · exact Or.inl past
    · refine Or.inr ⟨current, ?_, fun isStop => ?_⟩
      · show (r.1.port x.side).greySend.greyState x.id ≠ .idle
        rw [counting]
        decide
      · have state := (repeated isStop).1
        rw [waiting] at state
        cases state
  · have number : (s.after w latency l r.1).number x.side x.id = s.number x.side x.id + 1 := by
      refine (congrArg UInt32.toNat next).trans ?_
      rw [UInt32.toNat_add]
      exact Nat.mod_eq_of_lt (show s.number x.side x.id + 1 < 2 ^ 32 by omega)
    rw [number]
    rcases h.session with past | ⟨current, -⟩
    · exact Or.inl (by omega)
    · exact Or.inl (by omega)

/-! ### The timer of a sender runs -/

section
variable {F : Bool → List Msg} {i u : Nat} {action : UInt8} {o : Outcome}

/-- The only event of the sender afterwards is the one just set. -/
theorem due_next (ran : TimerRan cfg id (s.port side) o)
    (at_ : (s.port side).events.pending[i]? = some (u, .sendGreyAction action id))
    (port : r.1.port side = o.port) {v : Nat} {next : UInt8}
    (pending : (v, .sendGreyAction next id) ∈ (r.1.port side).events.pending) :
    (s.after w latency (.fire side i : Label cfg) r.1).due side v = s.now + w.afterEvent cfg (.sendGreyAction action id) := by
  rw [port] at pending
  obtain ⟨rfl, -⟩ := (ran.next v next).1 pending
  simp only [after, wait, Nat.lt_irrefl, if_false, at_, Option.elim_some]

theorem number_timer (ran : TimerRan cfg id (s.port side) o) (port : r.1.port side = o.port) :
    (s.after w latency l r.1).number side id = s.number side id := by
  show ((r.1.port side).greySend.currentSEQ id).toNat = _
  rw [port, ran.seq]
  rfl

/-- A sender that waits after its timer has just sent its START. -/
theorem Awaits.sends (wired : Wired cfg s.system F) (ready : s.Ready (.fire side i : Label cfg))
    (moved : Link.step cfg (.fire side i) s.system = some r) (small : s.number side id < 65536)
    (at_ : (s.port side).events.pending[i]? = some (u, .sendGreyAction action id)) (ran : TimerRan cfg id (s.port side) o)
    (result : r.1 = s.system.after side o)
    (waits : (r.1.port side).greySend.greyState id = .startAck) :
    (s.after w latency (.fire side i : Label cfg) r.1).Awaits cfg w latency side id := by
  have port : r.1.port side = o.port := by
    rw [result]
    exact update_self _ _ _
  rw [port] at waits
  rcases ran.starts_or_stops (wired.settled side) with ⟨-, acked | counting, frame, req, sent, reads⟩ | ⟨-, stops⟩
  · refine ⟨s.now, fun v next pending => ?_, Or.inl ⟨(s.now + latency, frame), ?_, rfl, req, ?_⟩⟩
    · rw [due_next ran at_ port pending]
      simp only [Timers.afterEvent, acked.2, and_false, if_false]
    · have wire : r.1.wire side = s.system.wire side ++ [frame] := by
        rw [result, ← sent]
        exact update_self _ _ _
      exact mem_wire_sent ready moved wire rfl (List.mem_singleton.2 rfl)
    · rw [number_timer ran port]
      have number : ((s.port side).greySend.currentSEQ id).toNat % 65536 = s.number side id := Nat.mod_eq_of_lt small
      rw [number] at reads
      exact reads
  · rw [waits] at counting
    cases counting
  · rw [waits] at stops
    cases stops

/-- What was sent before the timer runs. -/
theorem Past.timer (wired : Wired cfg s.system F) {x : Sending} (h : s.Past cfg x) (here : x.side = side) (same : x.id = id)
    (ready : s.due side u = s.now) (at_ : (s.port side).events.pending[i]? = some (u, .sendGreyAction action id))
    (ran : TimerRan cfg id (s.port side) o) (port : r.1.port side = o.port) :
    (s.after w latency (.fire side i : Label cfg) r.1).Past cfg x := by
  subst here same
  refine ⟨h.started, ?_⟩
  rw [number_timer ran port]
  rcases h.session with past | ⟨current, busy, repeated⟩
  · exact Or.inl past
  refine Or.inr ⟨current, ?_, fun isStop => ?_⟩
  · show (r.1.port x.side).greySend.greyState x.id ≠ .idle
    rw [port]
    exact ran.not_idle (wired.settled x.side)
  · obtain ⟨state, later⟩ := repeated isStop
    have before := later u action (List.mem_of_getElem? at_)
    refine ⟨?_, fun v next pending => ?_⟩
    · show (r.1.port x.side).greySend.greyState x.id = .waitCounterReceive
      rw [port]
      rcases ran.starts_or_stops (wired.settled x.side) with ⟨free, -⟩ | ⟨-, stops⟩
      · rw [state] at free
        simp at free
      · exact stops
    · rw [due_next ran at_ port pending]
      omega

/-- What the timer sends. -/
theorem Past.sends (wired : Wired cfg s.system F) (patient : 0 < w.ackWaitTime)
    (at_ : (s.port side).events.pending[i]? = some (u, .sendGreyAction action id))
    (ran : TimerRan cfg id (s.port side) o) (port : r.1.port side = o.port) :
    (s.after w latency (.fire side i : Label cfg) r.1).Past cfg ⟨side, id, action, s.number side id, s.now⟩ := by
  obtain ⟨started, -, next⟩ := (wired.settled side).sends u action id (List.mem_of_getElem? at_)
  refine ⟨started, Or.inr ⟨(number_timer ran port).symm, ?_, fun isStop => ?_⟩⟩
  · show (r.1.port side).greySend.greyState id ≠ .idle
    rw [port]
    exact ran.not_idle (wired.settled side)
  · dsimp only at isStop
    refine ⟨?_, fun v next pending => ?_⟩
    · show (r.1.port side).greySend.greyState id = .waitCounterReceive
      rw [port]
      rcases ran.starts_or_stops (wired.settled side) with ⟨free, -⟩ | ⟨-, stops⟩
      · have start : nextAction cfg id ((s.port side).greySend.greyState id) = startAction cfg id := by
          rcases free with free | free <;> rw [free] <;> rfl
        rw [isStop] at next
        exact absurd (next.trans start).symm (startAction_bits cfg id).2.2.2.1
      · exact stops
    · rw [due_next ran at_ port pending, isStop]
      simp only [Timers.afterEvent, show ¬GREY_STOP = GREY_START by decide, false_and, if_false]
      omega

end

/-! ## Steps and runs -/

theorem sendings_cases (l : Label cfg) (s : Timed) : s.sendings l = [] ∨ ∃ x i u, s.sendings l = [x] ∧ l = .fire x.side i ∧
    (s.port x.side).events.pending[i]? = some (u, .sendGreyAction x.action x.id) ∧ x.number = s.number x.side x.id ∧
    x.time = s.now := by
  cases l with
  | fire side i =>
    simp only [sendings]
    split
    · rename_i u action id at_
      exact Or.inr ⟨_, i, u, rfl, rfl, at_, rfl, rfl⟩
    · exact Or.inl rfl
  | probe | egress | deliver | lose => exact Or.inl rfl

/-- What a timer sends when it is due has not been sent before at that instant, and a START not in that session. -/
theorem Paced.fresh (h : s.Paced cfg w latency tr) (covers : 2 * latency < w.ackWaitTime) {x : Sending} {u : Nat}
    (settled : Settled cfg (s.port x.side)) (pending : (u, .sendGreyAction x.action x.id) ∈ (s.port x.side).events.pending)
    (due : s.due x.side u = s.now) (number : x.number = s.number x.side x.id) (time : x.time = s.now) :
    x ∉ tr ∧ (x.action ≠ GREY_STOP → (x.side, x.id, x.number) ∉ Timed.starts tr) := by
  obtain ⟨-, -, next⟩ := settled.sends u x.action x.id pending
  have start : x.action ≠ GREY_STOP → (s.port x.side).greySend.greyState x.id = .idle := by
    intro notStop
    cases state : (s.port x.side).greySend.greyState x.id with
    | idle => rfl
    | startAck =>
      have later := h.not_due covers state pending
      omega
    | counting | waitCounterReceive | waitCounterSend | counterAck =>
      rw [state] at next
      exact absurd next notStop
  have again : x.action ≠ GREY_STOP → (x.side, x.id, x.number) ∉ Timed.starts tr := by
    intro notStop mem
    obtain ⟨y, there, key⟩ := List.mem_map.1 mem
    obtain ⟨side, id, num⟩ : y.side = x.side ∧ y.id = x.id ∧ y.number = x.number := by simpa using key
    have past := (h.past y (List.mem_filter.1 there).1).session
    rw [side, id, num, number] at past
    rcases past with less | ⟨-, busy, -⟩
    · exact Nat.lt_irrefl _ less
    · exact busy (start notStop)
  refine ⟨fun mem => ?_, again⟩
  by_cases isStop : x.action = GREY_STOP
  · rcases (h.past x mem).session with less | ⟨-, -, repeated⟩
    · omega
    · have later := (repeated isStop).2 u x.action pending
      omega
  · exact again isStop (List.mem_map.2 ⟨x, List.mem_filter.2 ⟨mem, by simpa using isStop⟩, rfl⟩)

/-- What a step sends is new. -/
theorem Paced.sends (h : s.Paced cfg w latency tr) (covers : 2 * latency < w.ackWaitTime)
    (settled : ∀ side, Settled cfg (s.port side)) (ready : s.Ready l) :
    (tr ++ s.sendings l).Nodup ∧ (Timed.starts (tr ++ s.sendings l)).Nodup := by
  rcases sendings_cases l s with none | ⟨x, i, u, one, rfl, at_, number, time⟩
  · rw [none, List.append_nil]
    exact ⟨h.once, h.starts⟩
  · obtain ⟨e, found, due⟩ := ready
    rw [at_] at found
    cases found
    obtain ⟨new, session⟩ := h.fresh covers (settled x.side) (List.mem_of_getElem? at_) due number time
    rw [one]
    refine ⟨List.Nodup.append h.once (List.nodup_singleton _) (List.disjoint_singleton.2 new), ?_⟩
    unfold Timed.starts
    rw [List.filter_append, List.map_append]
    by_cases isStop : x.action = GREY_STOP
    · rw [List.filter_cons_of_neg (by simpa using isStop), List.filter_nil, List.map_nil, List.append_nil]
      exact h.starts
    · rw [List.filter_cons_of_pos (by simpa using isStop), List.filter_nil]
      exact List.Nodup.append h.starts (List.nodup_singleton _) (List.disjoint_singleton.2 (session isStop))

/-- **A step of the link** keeps the pace. -/
theorem Paced.act {shown : List Seen} (h : s.Paced cfg w latency tr) (covers : 2 * latency < w.ackWaitTime)
    (run : Lts.Run (Link.step cfg) (Lossless cfg) (System.start cfg) s.system shown) (ready : s.Ready l)
    (good : Good cfg (.act l) s) (moved : Link.step cfg l s.system = some r) :
    (s.after w latency l r.1).Paced cfg w latency (tr ++ s.sendings l) := by
  have lossless := good.2 l rfl
  obtain ⟨F, wired, -⟩ := lossless_session true 0 run
  -- what the timer of a sender does
  have timer : ∀ {side id i u action o}, l = .fire side i →
      (s.port side).events.pending[i]? = some (u, .sendGreyAction action id) →
      r.1 = s.system.after side o → s.due side u = s.now ∧ r.1.port side = o.port := by
    rintro side id i u action o rfl at_ result
    have port : r.1.port side = o.port := by
      rw [result]
      exact update_self _ _ _
    obtain ⟨e, mem, due⟩ := ready
    rw [at_] at mem
    cases mem
    exact ⟨due, port⟩
  obtain ⟨once, starts⟩ := h.sends covers wired.settled ready
  refine ⟨?_, ?_, ?_, starts, once⟩
  · intro side f mem
    obtain ⟨sent, -, wire⟩ := after_wire w latency ready moved side
    rw [wire] at mem
    show s.now ≤ f.1
    rcases List.mem_append.1 mem with old | new
    · refine h.coming side f ?_
      unfold kept at old
      split at old
      · exact List.mem_of_mem_tail old
      · exact old
    · obtain ⟨frame, -, rfl⟩ := List.mem_map.1 new
      exact Nat.le_add_right _ _
  · intro side id waits
    rcases wired.step_sender moved side id with (stays | goes) | ⟨i, u, action, o, rfl, at_, ran, result⟩
    · have waiting : (s.port side).greySend.greyState id = .startAck := stays.greyState.symm.trans waits
      exact (h.awaits side id waiting).stays run wired ready lossless moved waiting stays
    · exact absurd waits goes.notWaiting
    · have started := ((wired.settled side).sends u action id (List.mem_of_getElem? at_)).1
      exact .sends wired ready moved (good.1 side id started) at_ ran result waits
  · intro x mem
    rcases List.mem_append.1 mem with old | new
    · have past := h.past x old
      rcases wired.step_sender moved x.side x.id with (stays | goes) | ⟨i, u, action, o, rfl, at_, ran, result⟩
      · exact past.stays (wired.settled x.side) rfl stays
      · exact past.goesOn (good.1 x.side x.id past.started) goes
      · obtain ⟨due, port⟩ := timer rfl at_ result
        exact past.timer wired rfl rfl due at_ ran port
    · rcases sendings_cases l s with none | ⟨y, i, u, one, rfl, at_, number, time⟩
      · rw [none] at new
        cases new
      · rw [one] at new
        obtain rfl := List.mem_singleton.1 new
        obtain ⟨o, ran', rfl⟩ : ∃ o, runEvent cfg _ _ = some o ∧ _ = r := by
          obtain ⟨e, found, moved⟩ := Option.bind_eq_some_iff.1 moved
          obtain rfl := Option.some.inj (found.symm.trans at_)
          exact Option.map_eq_some_iff.1 moved
        have ran : TimerRan cfg x.id (s.port x.side) o := (wired.settled x.side).runEvent_timer at_ ran'
        obtain ⟨-, port⟩ := timer rfl at_ rfl
        have sends : (s.after w latency (.fire x.side i : Label cfg) (s.system.after x.side o)).Past cfg
            ⟨x.side, x.id, x.action, s.number x.side x.id, s.now⟩ := .sends wired (by omega) at_ ran port
        rw [← number, ← time] at sends
        exact sends

/-- Time goes on. -/
theorem Paced.tick (h : s.Paced cfg w latency tr) (quiet : s.Quiet) :
    ({ s with now := s.now + 1 } : Timed).Paced cfg w latency tr where
  coming side f mem := by
    have := h.coming side f mem
    have := (quiet side).2 f mem
    show s.now + 1 ≤ f.1
    omega
  awaits := h.awaits
  past x mem := ⟨(h.past x mem).started, (h.past x mem).session⟩
  starts := h.starts
  once := h.once

theorem paced_start (cfg : FancyConfig) (w : Timers) (latency : Nat) : (start cfg w).Paced cfg w latency [] where
  coming _ _ mem := nomatch mem
  awaits side id waits := by
    have idle := congrArg (fun P : MachinePair => P.s.phase) (view_start cfg side id)
    simp only [view, Link.senders, senderView, Pair.start] at idle
    rw [show (System.start cfg).port side = (start cfg w).port side from rfl, waits] at idle
    cases idle
  past _ mem := nomatch mem
  starts := List.nodup_nil
  once := List.nodup_nil

/-- **In a run** with a wait that covers the way to the other switch and back, the link keeps its pace. -/
theorem paced_of_run (covers : 2 * latency < w.ackWaitTime) {tr : List Sending}
    (run : Lts.Run (step cfg w latency) (Good cfg) (start cfg w) s tr) : s.Paced cfg w latency tr ∧
      ∃ shown, Lts.Run (Link.step cfg) (Lossless cfg) (System.start cfg) s.system shown := by
  induction run with
  | nil => exact ⟨paced_start cfg w latency, [], .nil⟩
  | @snoc t u tr os l before good hstep ih =>
    obtain ⟨paced, shown, untimed⟩ := ih
    cases l with
    | tick =>
      simp only [step] at hstep
      split at hstep
      · rename_i quiet
        cases hstep
        rw [List.append_nil]
        exact ⟨paced.tick quiet, shown, untimed⟩
      · cases hstep
    | act l =>
      simp only [step] at hstep
      split at hstep
      · rename_i ready
        obtain ⟨r, moved, same⟩ := Option.map_eq_some_iff.1 hstep
        obtain ⟨rfl, rfl⟩ := Prod.mk.inj same
        refine ⟨paced.act covers untimed ready good moved, shown ++ r.2, ?_⟩
        rw [after_system ready moved]
        exact untimed.snoc (good.2 l rfl) moved
      · cases hstep

end

/-! ## The wait for acknowledgements -/

/-- A wait for acknowledgements is right for the delay between the switches: it is longer than the way to the other switch
and back; while a START waits for its answer, the timer that would send it again is not due; no START is sent twice and
nothing is sent twice at one instant. -/
structure AckCovers (ackWaitTimeMs : Nat) (delay : UInt32) : Prop where
  longer : 2 * delay.toNat < 1000 * adaptedAckWait ackWaitTimeMs delay
  runs : ∀ (cfg : FancyConfig) (w : Timers) (s : Timed) (tr : List Sending),
    w.ackWaitTime = 1000 * adaptedAckWait ackWaitTimeMs delay →
    Lts.Run (step cfg w delay.toNat) (Good cfg) (start cfg w) s tr →
    (∀ side id, (s.port side).greySend.greyState id = .startAck →
      ∀ u action, (u, .sendGreyAction action id) ∈ (s.port side).events.pending → s.now < s.due side u) ∧
    (starts tr).Nodup ∧ tr.Nodup

theorem adaptedAckWait_eq (ackWaitTimeMs : Nat) {delay : UInt32} (positive : 0 < delay) :
    adaptedAckWait ackWaitTimeMs delay = delay.toNat / 1000 * 4 := by
  have below := delay.toNat_lt
  rw [adaptedAckWait, if_pos positive, UInt32.toNat_mul, UInt32.toNat_div]
  exact Nat.mod_eq_of_lt (show delay.toNat / 1000 * 4 < 2 ^ 32 by omega)

/-- **The wait for acknowledgements** covers the delay it was adapted to exactly when that is a millisecond or more. -/
theorem ack_covers_iff (ackWaitTimeMs : Nat) {delay : UInt32} (positive : 0 < delay) :
    AckCovers ackWaitTimeMs delay ↔ 1000 ≤ delay := by
  have wait := adaptedAckWait_eq ackWaitTimeMs positive
  have whole : 1000 ≤ delay ↔ 1000 ≤ delay.toNat := UInt32.le_iff_toNat_le
  have some : 0 < delay.toNat := UInt32.lt_iff_toNat_lt.1 positive
  rw [whole]
  constructor
  · intro covers
    have longer := covers.longer
    omega
  · intro long
    refine ⟨by omega, fun cfg w s tr adapted run => ?_⟩
    have covers : 2 * delay.toNat < w.ackWaitTime := by omega
    obtain ⟨paced, -⟩ := paced_of_run covers run
    exact ⟨fun side id waiting u action pending => paced.not_due covers waiting pending, paced.starts, paced.once⟩

theorem ack_covers_two_and_a_half_ms : AckCovers 5 2500 := (ack_covers_iff 5 (by decide)).2 (by decide)

def halfMsWaits : Timers :=
  { ackWaitTime := 1000 * adaptedAckWait 5 500, sendCounterWait := 1000, timeBetweenCampaing := 1000,
    probingTimeZooming := 1000, probingTimeTopEntries := 1000, start := fun _ _ => 0 }

/-- Half a millisecond between the switches leaves no wait: the START of the tree machine leaves again and again at the
first instant. -/
theorem start_repeats_at_once : ¬AckCovers 5 500 ∧ ∃ s tr,
    Lts.Run (step smallConfig halfMsWaits 500) (Good smallConfig) (start smallConfig halfMsWaits) s tr ∧ s.now = 0 ∧
      tr = List.replicate 4 ⟨false, 0, GREY_START ||| COUNTER_MAXIMUMS, 0, 0⟩ := by
  have storm : ∃ s tr, Lts.Run (step smallConfig halfMsWaits 500) (fun l s => goodStep smallConfig l s = true)
      (start smallConfig halfMsWaits) s tr ∧
      (s.now, tr) = (0, List.replicate 4 ⟨false, 0, GREY_START ||| COUNTER_MAXIMUMS, 0, 0⟩) :=
    Lts.Run.exists_of_guarded (List.replicate 4 (.act (.fire false 0))) (by decide +kernel)
  obtain ⟨s, tr, run, shown⟩ := storm
  obtain ⟨now, trace⟩ := Prod.mk.inj shown
  exact ⟨fun covers => absurd covers.longer (by decide), s, tr, run.mono fun _ _ => good_of_goodStep, now, trace⟩

end Timed

end Ns3Fancy.Link

import Ns3Fancy.Link.Progress

/-!
# Session numbers

The sender keeps its session number in 32 bits and the header carries 16. The receiver echoes what it
read, so the sender's test of an answer compares its number with the number modulo 65536.
-/

namespace Ns3Fancy.Link
open Switch Buffer Function Session
set_option autoImplicit false

section
variable (cfg : FancyConfig)

/-- The port when the receiver's timer runs. -/
def reportTimerRan (id : Nat) (q : FancyPortInfo) : FancyPortInfo :=
  { q with events := q.events.cancel (q.greyRecv.currentEvent id) }

/-- `answer` is what a receiver sends back for the START of the sender at `p`. -/
def StartAnswer (id : Nat) (p : FancyPortInfo) (answer : Frame) : Prop :=
  ∃ o start q o', runEvent cfg (timerRan id p) (.sendGreyAction (startAction cfg id) id) = some o ∧ start ∈ o.sent ∧
    Settled cfg q ∧ receive cfg q start = some o' ∧ answer ∈ o'.sent

/-- `answer` is the report that a receiver sends for the STOP of the sender at `p`, which it has accepted. -/
def StopAnswer (id : Nat) (p : FancyPortInfo) (answer : Frame) : Prop :=
  ∃ o stop q o' o'', runEvent cfg (timerRan id p) (.sendGreyAction GREY_STOP id) = some o ∧ stop ∈ o.sent ∧
    Settled cfg q ∧ receive cfg q stop = some o' ∧ q.greyRecv.greyState id = .counting ∧
    o'.port.greyRecv.greyState id = .waitCounterSend ∧
    runEvent cfg (reportTimerRan id o'.port) (.sendGreyCounter id) = some o'' ∧ answer ∈ o''.sent

/-- What the receiver answers to the sender's current START or STOP. -/
def Answer (id : Nat) (p : FancyPortInfo) (answer : Frame) : Prop :=
  match p.greySend.greyState id with
  | .startAck => StartAnswer cfg id p answer
  | .waitCounterReceive => StopAnswer cfg id p answer
  | .idle | .counting | .waitCounterSend | .counterAck => False

/-- The sender's test of an answer. -/
def Passes (id : Nat) (p : FancyPortInfo) (answer : Frame) : Prop :=
  ∃ headers : Headers cfg.ns3, ∃ hdr payload, parse answer = some (headers, payload) ∧ headers.fancy = some hdr ∧
    p.greySend.currentSEQ id = hdr.seq.toUInt32

/-- The session goes on: an acknowledged START opens it, a report closes it. -/
def GoesOn (id : Nat) (p p' : FancyPortInfo) : Prop :=
  match p.greySend.greyState id with
  | .startAck => p'.greySend.greyState id = .counting
  | .waitCounterReceive => p'.greySend.currentSEQ id = p.greySend.currentSEQ id + 1
  | .idle | .counting | .waitCounterSend | .counterAck => True

end

section
variable {cfg : FancyConfig} {s : System} {d : Bool} {id : Nat} {p : FancyPortInfo} {answer : Frame}

/-- The frame the sender's timer sends. -/
theorem Settled.timer_reads (h : Settled cfg p) (started : id ∈ startedIds cfg) {action : UInt8}
    (next : action = nextAction cfg id (p.greySend.greyState id)) {o : Outcome}
    (ran : runEvent cfg (timerRan id p) (.sendGreyAction action id) = some o) {frame : Frame} (sent : frame ∈ o.sent) :
    Reads cfg frame (.ofFwd id ((senderView cfg id p).fire (variant cfg id) (meter cfg id)).2) := by
  obtain ⟨r, fired, rfl⟩ := Option.map_eq_some_iff.1 ran
  obtain ⟨g, -, -, -, -, reads⟩ := sendGreyAction_fires started next (h.sendState id).1 fired
  obtain rfl : frame = controlFrame r.2 := List.mem_singleton.1 sent
  exact reads

/-- The frames a port sends, message by message. -/
theorem reads_of_mem {frames : List Frame} {ms : List Msg} (reads : List.Forall₂ (Reads cfg) frames ms) {frame : Frame}
    (mem : frame ∈ frames) : ∃ msg ∈ ms, Reads cfg frame msg := by
  induction reads with
  | nil => cases mem
  | cons first _ ih =>
    rcases List.mem_cons.1 mem with rfl | mem
    · exact ⟨_, List.mem_cons_self, first⟩
    · obtain ⟨msg, there, read⟩ := ih mem
      exact ⟨msg, List.mem_cons_of_mem _ there, read⟩

/-- A receiver acknowledges a START with the number it read. -/
theorem Settled.startAnswer_reads (h : Settled cfg p) (waiting : p.greySend.greyState id = .startAck)
    (answers : StartAnswer cfg id p answer) :
    Reads cfg answer (.startAck id ((p.greySend.currentSEQ id).toNat % 65536)) := by
  obtain ⟨o, start, q, o', ran, sent, settled, received, back⟩ := answers
  have started := (h.sendState id).2 (by rw [waiting]; simp)
  have reads := h.timer_reads started (by rw [waiting]; rfl) ran sent
  obtain ⟨req, isStart⟩ : ∃ req, ((senderView cfg id p).fire (variant cfg id) (meter cfg id)).2 =
      .start ((p.greySend.currentSEQ id).toNat % 65536) req := by
    have phase : (senderView cfg id p).phase = .startAck := by simp [senderView, waiting, senderPhase]
    simp only [Sender.fire, phase]
    split <;> exact ⟨_, rfl⟩
  rw [isStart] at reads
  cases reads with
  | start control payload =>
    rcases (settled.receive_start control payload received).answers with ⟨-, frames⟩ | ⟨-, none, -⟩
    · obtain ⟨msg, mem, read⟩ := reads_of_mem frames back
      simp only [Receiver.handle] at mem
      split at mem
      · cases mem
      · obtain rfl := List.mem_singleton.1 mem
        exact read
    · rw [none] at back
      cases back

/-- A receiver reports with the number of the STOP it accepted. -/
theorem Settled.stopAnswer_reads (h : Settled cfg p) (waiting : p.greySend.greyState id = .waitCounterReceive)
    (answers : StopAnswer cfg id p answer) :
    ∃ rep, Reads cfg answer (.report id ((p.greySend.currentSEQ id).toNat % 65536) rep) := by
  obtain ⟨o, stop, q, o', o'', ran, sent, settled, received, counting, accepted, reported, back⟩ := answers
  have started := (h.sendState id).2 (by rw [waiting]; simp)
  have reads := h.timer_reads started (by rw [waiting]; rfl) ran sent
  have isStop : ((senderView cfg id p).fire (variant cfg id) (meter cfg id)).2 =
      .stop ((p.greySend.currentSEQ id).toNat % 65536) := by
    have phase : (senderView cfg id p).phase = .waitReport := by simp [senderView, waiting, senderPhase]
    rw [Sender.fire_busy _ _ (Or.inr phase)]
    rfl
  rw [isStop] at reads
  cases reads with
  | stop control =>
    have handled := settled.receive_stop control received
    obtain ⟨r, ran', rfl⟩ := Option.map_eq_some_iff.1 reported
    have timer : Settled cfg (reportTimerRan id o'.port) := handled.settled.cancel (handled.settled.onlyReports id)
    obtain ⟨-, read, -⟩ := sendGreyCounter_reads started (timer.numbers id) ran'
    obtain rfl : answer = controlFrame r.2.1 := List.mem_singleton.1 back
    -- the receiver is in the session of the STOP, or it would not have left counting
    have view : receiverView cfg id o'.port = ((receiverView cfg id q).handle (variant cfg id) (meter cfg id)
        (.stop ((p.greySend.currentSEQ id).toNat % 65536))).1 := by
      have all := congrFun handled.receivers id
      rwa [update_self] at all
    have seq : (receiverView cfg id o'.port).seq = (p.greySend.currentSEQ id).toNat % 65536 := by
      by_cases hit : (receiverView cfg id q).seq = (p.greySend.currentSEQ id).toNat % 65536
      · rw [view, Receiver.handle]
        split <;> exact hit
      · have phase := congrArg Receiver.phase view
        rw [Receiver.handle, if_neg fun both => hit both.2] at phase
        simp [receiverView, accepted, counting, receiverPhase] at phase
    rw [← seq]
    exact ⟨_, read⟩

/-- The test of an answer with the number of the sender's session in the header. -/
theorem Control.passes_iff {hdr : FancyHeader} {action : UInt8}
    (control : Control cfg answer hdr id ((p.greySend.currentSEQ id).toNat % 65536) action) :
    Passes cfg id p answer ↔ (p.greySend.currentSEQ id).toNat < 65536 := by
  have same : p.greySend.currentSEQ id = hdr.seq.toUInt32 ↔ (p.greySend.currentSEQ id).toNat < 65536 := by
    rw [sender_matches control]
    simp only [senderView]
    omega
  constructor
  · rintro ⟨headers, hdr', payload, parsed, fancy, test⟩
    obtain ⟨rfl, -⟩ := Prod.mk.inj (Option.some.inj (control.parsed.symm.trans parsed))
    cases fancy
    exact same.1 test
  · intro small
    exact ⟨_, hdr, _, control.parsed, rfl, same.2 small⟩

/-- What the sender's machine makes of an answer the reroute block lets pass. -/
theorem HandledBwd.sender {m : Bwd Report} {o : Outcome} (handled : HandledBwd cfg p id m o) (kept : o.dropped = false) :
    senderView cfg id o.port = ((senderView cfg id p).handle (variant cfg id) (meter cfg id) m).1 := by
  cases handled with
  | taken dropped => simp [kept] at dropped
  | handled _ _ _ senders _ _ _ =>
    have all := congrFun senders id
    rwa [update_self] at all

/-- **Answers to the sender.** In every state of a run without loss, what a receiver answers to the sender's current START
or STOP passes the sender's test exactly when the session number fits the header; then the session goes on. -/
theorem answers_pass_iff {tr : List Seen} (run : Lts.Run (Link.step cfg) (NoLoss cfg) (System.start cfg) s tr) (d : Bool)
    (id : Nat) {answer : Frame} (answers : Answer cfg id (s.port d) answer) :
    (Passes cfg id (s.port d) answer ↔ ((s.port d).greySend.currentSEQ id).toNat < 65536) ∧
      (((s.port d).greySend.currentSEQ id).toNat < 65536 → ∀ o, receive cfg (s.port d) answer = some o →
        o.dropped = false → GoesOn id (s.port d) o.port) := by
  obtain ⟨F, w, -⟩ := (wired_start cfg).anySession d id run
  have settled := w.settled d
  generalize s.port d = p at *
  simp only [Answer] at answers
  cases state : p.greySend.greyState id with
  | startAck =>
    simp only [state] at answers
    cases settled.startAnswer_reads state answers with
    | startAck control =>
      refine ⟨control.passes_iff, fun small o received kept => ?_⟩
      have view := (settled.receive_startAck control received).sender kept
      have waits : (senderView cfg id p).phase = .startAck := by simp [senderView, state, senderPhase]
      have seq : (senderView cfg id p).seq = (p.greySend.currentSEQ id).toNat % 65536 := (Nat.mod_eq_of_lt small).symm
      rw [Sender.handle, if_pos ⟨waits, seq⟩] at view
      simp only [GoesOn, state]
      exact (sender_counting cfg o.port id).2 (congrArg Sender.phase view)
  | waitCounterReceive =>
    simp only [state] at answers
    obtain ⟨rep, reads⟩ := settled.stopAnswer_reads state answers
    cases reads with
    | report control counter payload =>
      refine ⟨control.passes_iff, fun small o received kept => ?_⟩
      have view := (settled.receive_report control counter payload received).sender kept
      have waits : (senderView cfg id p).phase = .waitReport := by simp [senderView, state, senderPhase]
      have seq : (senderView cfg id p).seq = (p.greySend.currentSEQ id).toNat % 65536 := (Nat.mod_eq_of_lt small).symm
      simp only [Sender.handle, waits, seq, if_true] at view
      have next : (o.port.greySend.currentSEQ id).toNat = (p.greySend.currentSEQ id).toNat % 65536 + 1 :=
        congrArg Sender.seq view
      simp only [GoesOn, state]
      refine UInt32.toNat.inj (next.trans ?_)
      rw [UInt32.toNat_add, Nat.mod_eq_of_lt small]
      exact (Nat.mod_eq_of_lt (by simp; omega)).symm
  | idle => simp only [state] at answers
  | counting => simp only [state] at answers
  | waitCounterSend => simp only [state] at answers
  | counterAck => simp only [state] at answers

/-! ## The sessions past the header's range -/

/-- A fresh receiver answers a START. -/
theorem Settled.exists_startAnswer (h : Settled cfg p) (loops : LoopsEnd cfg)
    (calm : catchesControl cfg (initPort cfg true) = false) (waiting : p.greySend.greyState id = .startAck) :
    ∃ answer, StartAnswer cfg id p answer := by
  have started := (h.sendState id).2 (by rw [waiting]; simp)
  obtain ⟨r, fired⟩ := sendGreyAction_enabled loops started (startAction cfg id) (timerRan id p)
  have ran : runEvent cfg (timerRan id p) (.sendGreyAction (startAction cfg id) id) =
      some { port := r.1, sent := [controlFrame r.2] } := by
    simp only [runEvent, fired, Option.map_some]
  have begun := begun_initPort cfg
  have settled := begun.settled
  have reads := h.timer_reads started (by rw [waiting]; rfl) ran (List.mem_singleton.2 rfl)
  have idle : (receiverView cfg id (initPort cfg true)).phase = .idle := by
    simp [receiverView, begun.recv, receiverPhase]
  generalize fwd : ((senderView cfg id p).fire (variant cfg id) (meter cfg id)).2 = m at reads
  have isStart : ∃ q req, m = .start q req := by
    have phase : (senderView cfg id p).phase = .startAck := by simp [senderView, waiting, senderPhase]
    rw [← fwd]
    simp only [Sender.fire, phase]
    split <;> exact ⟨_, _, rfl⟩
  obtain ⟨q, req, rfl⟩ := isStart
  obtain ⟨o, received, kept⟩ := settled.receive_enabled loops calm reads
  cases reads with
  | start control payload =>
    have answers := (settled.receive_start control payload received).answers
    have sent := (answers.resolve_right fun taken => by simp [kept] at taken).2
    rw [Receiver.handle, if_neg (by simp [idle])] at sent
    obtain ⟨answer, frames, -, -, same⟩ := List.forall₂_cons_right_iff.1 sent
    exact ⟨answer, _, _, _, o, ran, List.mem_singleton.2 rfl, settled, received, by rw [same]; exact List.mem_cons_self⟩

/-- Any number of sessions up to the header's range can be completed without loss. -/
theorem sessions_reached (loops : LoopsEnd cfg) (calm : ∀ p, catchesControl cfg p = false) (d : Bool)
    (started : id ∈ startedIds cfg) (acked : id ≠ cfg.wildcardId) :
    ∀ n, n ≤ 65536 → ∃ s tr, Lts.Run (Link.step cfg) (NoLoss cfg) (System.start cfg) s tr ∧
      ((s.port d).greySend.currentSEQ id).toNat = n ∧ (0 < n → (s.port d).greySend.greyState id ≠ .idle)
  | 0, _ => by
    obtain ⟨handles, send, -⟩ := (begun_initPort cfg).send
    refine ⟨_, [], .nil, ?_, by simp⟩
    simp [System.start, send]
  | n + 1, small => by
    obtain ⟨s, tr, run, seq, -⟩ := sessions_reached loops calm d started acked n (by omega)
    obtain ⟨F, w, live⟩ := live_of_run d id (run.mono fun _ _ _ isWildcard => absurd isWildcard acked)
    obtain ⟨s', tr', more, -, next, busy⟩ :=
      w.advances loops (fun _ _ _ _ => calm _) started live (by omega)
    refine ⟨s', _, run.trans more, ?_, fun _ => busy⟩
    rw [next, UInt32.toNat_add, seq]
    exact Nat.mod_eq_of_lt (by simp; omega)

/-- After 65536 sessions the sender waits for the acknowledgement of a START. -/
theorem waits_past_range (loops : LoopsEnd cfg) (calm : ∀ p, catchesControl cfg p = false) (d : Bool)
    (started : id ∈ startedIds cfg) (acked : id ≠ cfg.wildcardId) :
    ∃ s tr, Lts.Run (Link.step cfg) (NoLoss cfg) (System.start cfg) s tr ∧
      ((s.port d).greySend.currentSEQ id).toNat = 65536 ∧ (s.port d).greySend.greyState id = .startAck := by
  obtain ⟨s, tr, run, seq, busy⟩ := sessions_reached loops calm d started acked 65536 (Nat.le_refl _)
  refine ⟨s, tr, run, seq, ?_⟩
  obtain ⟨F, w, session⟩ := (wired_start cfg).anySession d id run
  rw [view_start] at session
  have bounded := (Sane.of_run (Nat.zero_lt_succ _) session).bounded
  have phase : senderPhase ((s.port d).greySend.greyState id) = .idle ∨
      senderPhase ((s.port d).greySend.greyState id) = .startAck := bounded.stuck (by simp [variant, acked]) seq
  have sending := ((w.settled d).sendState id).1
  rcases phase with idle | waits
  · exact absurd ((senderPhase_idle sending).1 idle) (busy (by decide))
  · exact senderPhase_startAck.1 waits

/-! The tree machine in its first session, and after 65536 of them. -/

theorem answers_pass_first : ∃ s tr answer, Lts.Run (Link.step treeOnly) (NoLoss treeOnly) (System.start treeOnly) s tr ∧
    Answer treeOnly 0 (s.port false) answer ∧ Passes treeOnly 0 (s.port false) answer := by
  have loops : LoopsEnd treeOnly := ⟨by decide, by decide, by decide, by decide, by decide⟩
  obtain ⟨s, F, tr, run, w, same⟩ := (wired_start treeOnly).follow_fireS (d := false) loops
    (show 0 ∈ startedIds treeOnly by decide) rfl
  have phase : senderPhase ((s.port false).greySend.greyState 0) = .startAck := congrArg (fun P => P.s.phase) same
  have seq : ((s.port false).greySend.currentSEQ 0).toNat = 0 := congrArg (fun P => P.s.seq) same
  have waits : (s.port false).greySend.greyState 0 = .startAck := by
    exact senderPhase_startAck.1 phase
  obtain ⟨answer, answers⟩ := (w.settled false).exists_startAnswer loops rfl waits
  have answers' : Answer treeOnly 0 (s.port false) answer := by simpa only [Answer, waits] using answers
  refine ⟨s, tr, answer, run, answers', (answers_pass_iff run false 0 answers').1.2 ?_⟩
  rw [seq]
  decide

theorem number_wraps : ∃ s tr answer, Lts.Run (Link.step treeOnly) (NoLoss treeOnly) (System.start treeOnly) s tr ∧
    Answer treeOnly 0 (s.port false) answer ∧ ¬Passes treeOnly 0 (s.port false) answer := by
  have loops : LoopsEnd treeOnly := ⟨by decide, by decide, by decide, by decide, by decide⟩
  obtain ⟨s, tr, run, seq, waits⟩ := waits_past_range loops (fun _ => rfl) false
    (show 0 ∈ startedIds treeOnly by decide) (by decide)
  obtain ⟨F, w, -⟩ := (wired_start treeOnly).anySession false 0 run
  obtain ⟨answer, answers⟩ := (w.settled false).exists_startAnswer loops rfl waits
  refine ⟨s, tr, answer, run, by simpa only [Answer, waits] using answers, ?_⟩
  cases (w.settled false).startAnswer_reads waits answers with
  | startAck control =>
    rw [control.passes_iff, seq]
    decide

end

end Ns3Fancy.Link

import Ns3Fancy.Link.Simulation
import Ns3Fancy.Session.Discipline

/-!
# Report timers on a link that loses control packets

The receiver arms `SendGreyCounter` when a STOP reaches it and again with every report, and cancels it only when
the acknowledgement arrives. A START that overtakes a lost acknowledgement finds the timer still pending and leaves
it so. As long as that does not happen the timers keep their discipline.
-/

namespace Ns3Fancy.Link
open Switch Buffer Function Session
set_option autoImplicit false

section
variable (cfg : FancyConfig)

/-- A START of a machine, as its receiver reads it. -/
def StartFor (id : Nat) (frame : Frame) : Prop :=
  ∃ hdr, parse frame = some (({ fancy := some hdr } : Headers cfg.ns3), []) ∧ hdr.id.toNat = id ∧
    hdr.getAction = startAction cfg id ∧ hdr.getFSMFlag = false

/-- A START is delivered to a receiver that waits for the acknowledgement of its report. -/
def Reopens (d : Bool) (id : Nat) (l : Label cfg) (s : System) : Prop :=
  l = .deliver d ∧ (s.port !d).greyRecv.greyState id = .counterAck ∧
    ∃ frame rest, s.wire d = frame :: rest ∧ StartFor cfg id frame

end

/-- A STOP of session `k` of machine `id` has reached port `e`. -/
def Stopped (e : Bool) (id k : Nat) (tr : List Seen) : Prop := ∃ x ∈ tr, x.side = e ∧ x.log = .gotStop id k

/-- The receiver of machine `id` at port `e` counts for session `k`. -/
def CountsFor (e : Bool) (id : Nat) (k : UInt32) (s : System) : Prop :=
  (s.port e).greyRecv.greyState id = .counting ∧ (s.port e).greyRecv.currentSEQ id = k

/-- The discipline of the report timers of machine `id` at port `e`. -/
structure Disciplined (e : Bool) (id : Nat) (s : System) (tr : List Seen) : Prop where
  one : (reportTimers id (s.port e).events).length ≤ 1
  waiting : reportTimers id (s.port e).events ≠ [] →
    (s.port e).greyRecv.greyState id = .waitCounterSend ∨ (s.port e).greyRecv.greyState id = .counterAck
  announced : ∀ a x b k, tr = a ++ x :: b → x.side = e → x.log = .reported id k → Stopped e id k a

section
variable {cfg : FancyConfig} {s : System} {F : Bool → List Msg} {d : Bool} {id : Nat} {l : Label cfg}

/-! ## What the session sees -/

theorem gotStop_mem_image {k : Nat} {tr : List Seen} :
    .gotStop k ∈ tr.flatMap (image cfg d id) ↔ Stopped (!d) id k tr := by
  simp only [List.mem_flatMap, Stopped]
  refine exists_congr fun x => and_congr_right fun _ => ?_
  obtain ⟨side, log, lost⟩ := x
  cases log with
  | gotStop i q =>
    by_cases here : i = id
    · subst here
      cases side <;> cases d <;> simp [image, logObs, bySender, eq_comm]
    · simp [image, logObs, here]
  | counted i seq flow cells => by_cases here : i = id <;> simp [image, logObs, here]
  | consumed i seq => by_cases here : i = id <;> simp [image, logObs, here]
  | reported i q => by_cases here : i = id <;> simp [image, logObs, here]

theorem image_reported {x : Seen} {k : Nat} (side : x.side = !d) (log : x.log = .reported id k) :
    image cfg d id x = [.reported k] := by
  cases d <;> simp [image, logObs, bySender, side, log]

theorem Control.startFor {frame : Frame} {hdr : FancyHeader} {q : Nat}
    (control : Control cfg frame hdr id q (startAction cfg id)) : StartFor cfg id frame := by
  refine ⟨hdr, control.parsed, control.id, ?_, ?_⟩
  · simp only [FancyHeader.getAction, control.action, startAction]
    split <;> decide
  · simp only [FancyHeader.getFSMFlag, control.action, startAction]
    split <;> decide

/-- The oldest frame of a wire means what the oldest message says. -/
theorem Wired.head (w : Wired cfg s F) {msg : Msg} {rest : List Msg} (hF : F d = msg :: rest) :
    ∃ frame frames, s.wire d = frame :: frames ∧ Reads cfg frame msg := by
  have reads := w.reads d
  rw [hF] at reads
  obtain ⟨frame, frames, read, _, hwire⟩ := List.forall₂_cons_right_iff.1 reads
  exact ⟨frame, frames, hwire, read⟩

/-- Only a START of a machine is a START to it. -/
theorem fwdFor_eq_start {msg : Msg} {q : Nat} {req : Request} (isStart : msg.fwdFor cfg id = some (.start q req)) :
    msg = .start id q req := by
  cases msg with
  | start i q' req' =>
    by_cases here : i = id
    · simpa [Msg.fwdFor, here] using isStart
    · simp [Msg.fwdFor, here] at isStart
  | stop i q' => by_cases here : i = id <;> simp [Msg.fwdFor, here] at isStart
  | ack i q' => by_cases here : i = id <;> simp [Msg.fwdFor, here] at isStart
  | data flow ip tag wild =>
    simp only [Msg.fwdFor] at isStart
    split at isStart
    · split at isStart <;> cases isStart
    · obtain ⟨t, -, isStart⟩ := Option.bind_eq_some_iff.1 isStart
      split at isStart <;> cases isStart
  | startAck => cases isStart
  | report => cases isStart
  | probe => cases isStart

/-- A START that reopens the session is one the link delivers to a reporting receiver. -/
theorem Wired.reopens (w : Wired cfg s F) {P : MachinePair} (cause : Causes cfg d id s F l .deliverF P)
    (reopens : P.Reopens) : Reopens cfg d id l s := by
  obtain ⟨rfl, rfl, msg, rest, fwd, hF, isFwd⟩ := cause
  obtain ⟨phase, q, req, ms, hfwd⟩ := reopens
  obtain ⟨frame, frames, hwire, read⟩ := w.head hF
  refine ⟨rfl, receiverPhase_reportAck.1 phase, frame, frames, hwire, ?_⟩
  have isStart : fwd = .start q req := by
    simp only [view, hF, List.filterMap_cons, isFwd, List.cons.injEq] at hfwd
    exact hfwd.1
  rw [isStart] at isFwd
  obtain rfl := fwdFor_eq_start isFwd
  cases read with
  | start control payload => exact control.startFor

/-! ## Timers -/

theorem length_le_one_of_nodup {us : List Nat} {handle : Option Nat} (nodup : us.Nodup)
    (only : ∀ u ∈ us, some u = handle) : us.length ≤ 1 := by
  rcases us with _ | ⟨u, _ | ⟨v, us⟩⟩
  · simp
  · simp
  · have same : some u = some v := (only u (by simp)).trans (only v (by simp)).symm
    simp [Option.some.inj same] at nodup

/-- A prompt session is a disciplined machine. -/
theorem Wired.disciplined (w : Wired cfg s F) {tr : List Seen}
    (prompt : Prompt (view cfg d id s F) (tr.flatMap (image cfg d id))) : Disciplined (!d) id s tr := by
  have only : ∀ u ∈ reportTimers id (s.port !d).events, some u = (s.port !d).greyRecv.currentEvent id := by
    have none := prompt.alone
    simpa [view, receivers, receiverView] using none
  constructor
  · exact length_le_one_of_nodup (reportTimers_nodup (w.settled !d).distinct) only
  · intro some
    obtain ⟨u, mem⟩ := List.exists_mem_of_ne_nil _ some
    have armed : (view cfg d id s F).r.armed = true := by
      simp only [view, receivers, receiverView, List.any_eq_true]
      exact ⟨u, mem, by simpa using only u mem⟩
    rcases prompt.pending.1 armed with phase | phase
    · exact Or.inl (receiverPhase_waitSend.1 phase)
    · exact Or.inr (receiverPhase_reportAck.1 phase)
  · intro a x b k split side log
    refine gotStop_mem_image.1 (prompt.announced (a.flatMap (image cfg d id)) k (b.flatMap (image cfg d id)) ?_)
    simp [split, image_reported side log]

/-- **Report discipline.** As long as no START reaches a receiver that waits for the acknowledgement of its report,
whatever control packets are lost, the machine has at most one report timer pending, only between a STOP and the
acknowledgement; every report follows a STOP of its session, and so does every step out of counting. -/
theorem report_discipline (d : Bool) (id : Nat) {tr : List Seen}
    (run : Lts.Run (Link.step cfg) (fun l s => ¬Reopens cfg d id l s) (System.start cfg) s tr) :
    Disciplined (!d) id s tr ∧
      ∀ l s' os k, ¬Reopens cfg d id l s → Link.step cfg l s = some (s', os) → CountsFor (!d) id k s →
        ¬CountsFor (!d) id k s' → Stopped (!d) id k.toNat (tr ++ os) := by
  have carried : ∀ s F l label P, Wired cfg s F → ¬Reopens cfg d id l s → Causes cfg d id s F l label P →
      label = .deliverF → ¬P.Reopens := by
    rintro s F l label P w good cause rfl reopens
    exact good (w.reopens cause reopens)
  obtain ⟨F, w, session⟩ := session_of_run d id carried run
  refine ⟨w.disciplined (.of_run session), fun l s' os k good hstep counts left => ?_⟩
  obtain ⟨F', w', answers⟩ := w.step hstep
  have answer := (answers d id).mono fun label P cause => carried s F l label P w good cause
  have seq : (view cfg d id s F).r.seq = k.toNat := congrArg UInt32.toNat counts.2
  have stop := Prompt.leaves_run (Nat.zero_lt_succ _) session answer (receiverPhase_counting.2 counts.1) ?_
  · rw [seq, ← List.flatMap_append] at stop
    exact gotStop_mem_image.1 stop
  · rintro ⟨phase, same⟩
    exact left ⟨receiverPhase_counting.1 phase, UInt32.toNat.inj (same.trans seq)⟩

/-! One session of the tree machine, up to its report. -/

def oneReport : List (Label smallConfig) :=
  [.fire false 0, .deliver false, .deliver true, .fire false 0, .deliver false, .fire true 1]

theorem report_discipline_report : ∃ s tr,
    Lts.Run (Link.step smallConfig) (fun l s => ¬Reopens smallConfig false 0 l s) (System.start smallConfig) s tr ∧
      (reportTimers 0 (s.port true).events).length = 1 ∧ Disciplined true 0 s tr := by
  have quiet : ∃ s tr, Lts.Run (Link.step smallConfig) (fun _ s => (s.port true).greyRecv.greyState 0 ≠ .counterAck)
      (System.start smallConfig) s tr ∧ (reportTimers 0 (s.port true).events).length = 1 :=
    Lts.Run.exists_of_guarded oneReport (by decide +kernel)
  obtain ⟨s, tr, run, timers⟩ := quiet
  have allowed : Lts.Run (Link.step smallConfig) (fun l s => ¬Reopens smallConfig false 0 l s)
      (System.start smallConfig) s tr := run.mono fun _ _ quiet reopens => quiet reopens.2.1
  exact ⟨s, tr, allowed, timers, (report_discipline false 0 allowed).1⟩

/-! The acknowledgement of that report is lost, and the START of the next session overtakes it. -/

def lostAck : List (Label smallConfig) :=
  oneReport ++ [.deliver true, .lose false 0, .fire false 0, .deliver false]

theorem pending_while_counting : ∃ s tr,
    Lts.Run (Link.step smallConfig) (fun _ _ => True) (System.start smallConfig) s tr ∧ ¬Disciplined true 0 s tr := by
  have overtaken : ∃ s tr, Lts.Run (Link.step smallConfig) (fun _ _ => True) (System.start smallConfig) s tr ∧
      ((s.port true).greyRecv.greyState 0, (reportTimers 0 (s.port true).events).length) = (.counting, 1) :=
    Lts.Run.exists_of_guarded lostAck (by decide +kernel)
  obtain ⟨s, tr, run, facts⟩ := overtaken
  obtain ⟨state, timers⟩ := Prod.mk.inj facts
  refine ⟨s, tr, run, fun disciplined => ?_⟩
  have pending : reportTimers 0 (s.port true).events ≠ [] := by
    intro none
    rw [none] at timers
    cases timers
  rcases disciplined.waiting pending with waits | waits <;> rw [state] at waits <;> cases waits

end

end Ns3Fancy.Link

import Ns3Fancy.Link.Discipline
import Ns3Fancy.Switch.History

/-!
# The histories of the two ends of a zooming machine

In pipelined mode the sender shifts its selections when it consumes a report and the receiver when it opens the next
session, so a counting receiver has the selections of a counting sender. A repeated START must not shift again; the
receiver tells a repetition from a new session by its state, which a report timer that fires too late spoils.
-/

namespace Ns3Fancy.Link
open Switch Buffer Function Session
set_option autoImplicit false

section
variable (cfg : FancyConfig)

/-- The two ends have the same selections. -/
def AgreeHistory (x y : Count) : Prop := SameHistory x.2 y.2

/-- The receiver will have the sender's selections when it opens the next session. -/
def BehindHistory (x y : Count) : Prop :=
  SameHistory x.2 (pipelinedInitReceiverStep cfg true (startRecords cfg x.2) y.2)

/-- A report timer of the tree machine fires in a receiver that counts. -/
def ReportsCounting (d : Bool) (l : Label cfg) (s : System) : Prop :=
  ∃ i u, l = .fire (!d) i ∧ (s.port !d).events.pending[i]? = some (u, .sendGreyCounter cfg.treeId) ∧
    (s.port !d).greyRecv.greyState cfg.treeId = .counting

end

section
variable {cfg : FancyConfig} {s : System} {d : Bool}

theorem meter_request (x : Count) : (meter cfg cfg.treeId).request x = startRecords cfg x.2 := by
  simp [meter, startRecords]

theorem meter_report (x : Count) : (meter cfg cfg.treeId).report x = (x.1, reportRecords cfg x.2) := by
  simp [meter, reportRecords]

theorem BehindHistory.congr {x x' y : Count} (same : SameHistory x'.2 x.2) (h : BehindHistory cfg x y) :
    BehindHistory cfg x' y := by
  simp only [BehindHistory] at h ⊢
  rw [startRecords_congr same]
  exact same.trans h

/-- A closed session leaves the receiver one START behind. -/
theorem behind_exchange {x y : Count} (h : AgreeHistory x y) (seq : Nat) (n : UInt64) (remote : Tree) :
    BehindHistory cfg (n, (pipelinedCounterExchangeAlgorithm cfg seq (reportRecords cfg remote) x.2).1) y :=
  sameHistory_pipelinedInit h seq remote

/-- Selections are carried along by the sessions of the tree machine. -/
theorem meter_synced (pipelined : cfg.pipeline = true) :
    (meter cfg cfg.treeId).Synced AgreeHistory (BehindHistory cfg) where
  request_opened x := by simp only [meter_request]; rfl
  request_count k x flow := by
    rw [meter_request, meter_request]
    refine startRecords_congr ?_
    simp only [meter, if_true]
    exact sameHistory_treeCounting _ _ _ _
  opened_agree _ _ h := h
  opened_behind _ _ h := h
  count_agree k x y flow h := by
    simp only [AgreeHistory, meter, if_true]
    exact (sameHistory_treeCounting _ _ _ _).trans h
  count_behind k x y flow h := by
    refine h.congr ?_
    simp only [meter, if_true]
    exact sameHistory_treeCounting _ _ _ _
  countR_agree q x y flow h := by
    simp only [AgreeHistory, meter, if_true]
    exact SameHistory.trans h (sameHistory_treeCounting _ _ _ _).symm
  init_first q x y h := by
    rw [meter_request]
    simp only [AgreeHistory, meter, if_true, treeInit, pipelined]
    exact h
  init_again q req x y h := by
    simp only [AgreeHistory, meter, if_true, treeInit, pipelined, pipelinedInitReceiverStep, Bool.false_eq_true, if_false]
    exact SameHistory.trans h (@sameHistory_resetNodes cfg HashCounter.resetCounters (fun _ => rfl) _).symm
  close q x y y' h := by
    rw [meter_report]
    simp only [meter, if_true, treeExchange, pipelined]
    exact behind_exchange h _ _ _

/-- Before the first session nothing is selected. -/
theorem behind_start : BehindHistory cfg noCount noCount := sameHistory_pipelinedInit_start

/-- **Histories agree.** Whatever is lost, as long as no report timer fires in a counting receiver: when the sender and
the receiver of the tree machine count for the same session, they have the same selections. -/
theorem histories_agree (pipelined : cfg.pipeline = true) (d : Bool) {tr : List Seen}
    (run : Lts.Run (Link.step cfg) (fun l s => ¬ReportsCounting cfg d l s) (System.start cfg) s tr)
    (sends : (s.port d).greySend.greyState cfg.treeId = .counting)
    (counts : CountsFor (!d) cfg.treeId ((s.port d).greySend.currentSEQ cfg.treeId) s) (i level slot : Nat) :
    ((s.port d).greySend.counterTree i).maxCells level slot =
      ((s.port !d).greyRecv.counterTree i).maxCells level slot := by
  have carried : ∀ s F l label P, Wired cfg s F → ¬ReportsCounting cfg d l s → Causes cfg d cfg.treeId s F l label P →
      ∀ late, label = .fireR late → P.r.phase ≠ .counting := by
    rintro s F l label P _ good cause late rfl phase
    obtain ⟨rfl, i, u, fires, timer⟩ := cause
    exact good ⟨i, u, fires, timer, receiverPhase_counting.1 phase⟩
  obtain ⟨F, w, session⟩ := session_of_run d cfg.treeId carried run
  have pos : 0 < (variant cfg cfg.treeId).modulus := Nat.zero_lt_succ _
  have bounded := (Sane.of_run pos session).bounded
  have phase : (view cfg d cfg.treeId s F).s.phase = .counting := (sender_counting cfg (s.port d) _).1 sends
  have acked : (variant cfg cfg.treeId).acked = true := by simp [variant, FancyAttributes.treeId, FancyConfig.wildcardId]
  have small : (view cfg d cfg.treeId s F).s.seq < (variant cfg cfg.treeId).modulus := by
    refine Nat.lt_of_le_of_ne bounded.sender fun last => ?_
    rcases bounded.stuck acked last with stuck | stuck <;> rw [phase] at stuck <;> cases stuck
  have synced := InSync.of_run pos (meter_synced pipelined) behind_start session small
  have agree : AgreeHistory (view cfg d cfg.treeId s F).s.data (view cfg d cfg.treeId s F).r.data :=
    synced.agree (receiverPhase_counting.2 counts.1)
  have here := agree i
  simp only [view, Link.senders, Link.receivers, senderView, receiverView, count, if_true] at here
  rw [here]

/-! A tree of two levels. In its first session a packet of cell 1 is lost, so cell 1 is selected; the acknowledgement of
the report is lost too. The START of the next session finds the report timer pending, the timer fires, and a repetition
of the START shifts the receiver's history a second time. -/

def deepConfig : FancyConfig := { smallConfig with treeDepth := 2 }

/-- A packet of the flow whose cell at the root is 1. -/
def oddPacket : HostPacket deepConfig :=
  ⟨{ protocol := IPV4
     headers := { ipv4 := some ⟨List.replicate 18 0 ++ [1, 0], rfl⟩ }
     payload := [] }, by constructor <;> decide⟩

def firstLoss : List (Label deepConfig) :=
  [.fire false 0, .deliver false, .deliver true, .egress false oddPacket none true, .fire false 0, .deliver false,
    .fire true 1, .deliver true]

/-- The acknowledgement arrives and the next session opens. -/
def opensSecond : List (Label deepConfig) :=
  firstLoss ++ [.deliver false, .fire false 0, .deliver false, .deliver true]

/-- No report timer fires while the receiver of the tree machine at the second switch counts. -/
def quietTimers : Label deepConfig → System → Bool
  | .fire true _, s => decide ((s.port true).greyRecv.greyState deepConfig.treeId ≠ .counting)
  | _, _ => true

theorem histories_agree_second : ∃ s tr, Lts.Run (Link.step deepConfig) (fun l s => ¬ReportsCounting deepConfig false l s)
    (System.start deepConfig) s tr ∧ ((s.port true).greyRecv.counterTree 0).maxCells 0 0 = 1 := by
  have second : ∃ s tr, Lts.Run (Link.step deepConfig) (fun l s => quietTimers l s = true) (System.start deepConfig) s tr ∧
      ((s.port false).greySend.greyState 0, (s.port true).greyRecv.greyState 0, (s.port false).greySend.currentSEQ 0,
        (s.port true).greyRecv.currentSEQ 0, ((s.port false).greySend.counterTree 0).maxCells 0 0) =
          (.counting, .counting, 1, 1, 1) :=
    Lts.Run.exists_of_guarded opensSecond (by decide +kernel)
  obtain ⟨s, tr, run, facts⟩ := second
  simp only [Prod.mk.injEq] at facts
  obtain ⟨sends, receives, seq, seq', selected⟩ := facts
  have quiet : Lts.Run (Link.step deepConfig) (fun l s => ¬ReportsCounting deepConfig false l s)
      (System.start deepConfig) s tr := by
    refine run.mono ?_
    rintro l s good ⟨i, u, rfl, -, counting⟩
    simp [quietTimers] at good
    exact good counting
  refine ⟨s, tr, quiet, ?_⟩
  rw [← selected]
  exact (histories_agree rfl false quiet sends ⟨receives, seq'.trans seq.symm⟩ 0 0 0).symm

def shiftedTwice : List (Label deepConfig) :=
  firstLoss ++ [.lose false 0, .fire false 0, .fire false 0, .deliver false, .fire true 1, .deliver false, .deliver true]

theorem histories_differ : ∃ s tr, Lts.Run (Link.step deepConfig) (fun _ _ => True) (System.start deepConfig) s tr ∧
    (s.port false).greySend.greyState deepConfig.treeId = .counting ∧
    CountsFor true deepConfig.treeId ((s.port false).greySend.currentSEQ deepConfig.treeId) s ∧
    ((s.port false).greySend.counterTree 0).maxCells 1 0 ≠ ((s.port true).greyRecv.counterTree 0).maxCells 1 0 := by
  have shifted : ∃ s tr, Lts.Run (Link.step deepConfig) (fun _ _ => True) (System.start deepConfig) s tr ∧
      ((s.port false).greySend.greyState 0, (s.port true).greyRecv.greyState 0, (s.port false).greySend.currentSEQ 0,
        (s.port true).greyRecv.currentSEQ 0, ((s.port false).greySend.counterTree 0).maxCells 1 0,
        ((s.port true).greyRecv.counterTree 0).maxCells 1 0) = (.counting, .counting, 1, 1, 0, 1) :=
    Lts.Run.exists_of_guarded shiftedTwice (by decide +kernel)
  obtain ⟨s, tr, run, facts⟩ := shifted
  simp only [Prod.mk.injEq] at facts
  obtain ⟨sends, receives, seq, seq', sent, received⟩ := facts
  refine ⟨s, tr, run, sends, ⟨receives, seq'.trans seq.symm⟩, ?_⟩
  rw [sent, received]
  decide

end

end Ns3Fancy.Link

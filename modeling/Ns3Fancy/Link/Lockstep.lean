import Ns3Fancy.Link.Histories
import Ns3Fancy.Link.Logs
import Ns3Fancy.Switch.Rounds

/-!
# Runs of a link without control loss

When no packet of the machines is lost or dropped, every session of a link is a session of the lockstep system. For the
counters this means that the sender counted all packets of the session and the receiver those that were not lost; for the
tree machine that the trees of the two ends are those of `treesAt`.
-/

namespace Ns3Fancy.Link
open Switch Buffer Function Session
set_option autoImplicit false

section
variable {cfg : FancyConfig} {s : System} {tr : List Seen} {d : Bool} {id : Nat}

theorem resetNodes_twice (tree : Tree) :
    resetNodes cfg .resetCounters (resetNodes cfg .resetCounters tree) = resetNodes cfg .resetCounters tree := by
  funext i
  simp only [resetNodes]
  split <;> rfl

/-- A repeated START changes nothing. -/
theorem treeInit_repeated (q : Nat) (req : Request) (tree : Tree) :
    treeInit cfg q false req (treeInit cfg q true req tree) = treeInit cfg q true req tree := by
  simp only [treeInit]
  split
  · simp only [pipelinedInitReceiverStep, Bool.false_eq_true, if_false, if_true]
    exact resetNodes_twice _
  · simp only [initReceiverStep, Bool.false_eq_true, if_false, if_true]
    split
    · exact resetNodes_twice _
    · rfl

theorem meter_lawful (cfg : FancyConfig) (id : Nat) : (meter cfg id).Lawful where
  opened_opened _ := rfl
  init_again q req x := by
    simp only [meter]
    split
    · rw [treeInit_repeated]
    · rfl

theorem variant_sound (cfg : FancyConfig) (id : Nat) : (variant cfg id).Sound := ⟨fun acked => acked⟩

/-- The session of a machine in a run without control loss. -/
theorem lossless_session (d : Bool) (id : Nat) (run : Lts.Run (Link.step cfg) (Lossless cfg) (System.start cfg) s tr) :
    ∃ F, Wired cfg s F ∧ Lts.Run (Session.step (variant cfg id) (meter cfg id)) (fun l _ => l.isLoss = false)
      (Pair.start noCount noCount) (view cfg d id s F) (tr.flatMap (image cfg d id)) := by
  refine session_of_run d id ?_ run
  intro s F l label P _ good cause
  cases label with
  | fireS | fireR | egress | deliverF | deliverB => rfl
  | loseF k =>
    obtain ⟨-, i, _, _, _, rfl, -⟩ := cause
    exact absurd rfl (good.1 d i)
  | loseB k =>
    rcases cause with ⟨i, rfl⟩ | drops
    · exact absurd rfl (good.1 (!d) i)
    · exact absurd drops good.2

/-- The packets that a trace counts for session `k` of machine `id` at port `d`. -/
def packetsOf (cfg : FancyConfig) (d : Bool) (id : Nat) (tr : List Seen) : Nat → Packets :=
  sessionPackets (tr.flatMap (image cfg d id))

/-! ## Counters -/

/-- The sender's counter is clear between sessions. -/
theorem lockstep_count (C : Nat → Packets) (k : Nat) :
    (lockstep (variant cfg id) (meter cfg id) C (noCount, noCount) k).1.1 = 0 := by
  refine lockstep_induct (P := fun _ (y : Count × Count) => y.1.1 = 0) rfl (fun k c y _ => ?_) C k
  simp only [Session.round, meter]
  split <;> rfl

theorem metered_count (k : Nat) (c : Packets) {y : Count × Count} (clear : y.1.1 = 0) :
    (metered (variant cfg id) (meter cfg id) k c y).1.1 = .ofNat c.length ∧
      (metered (variant cfg id) (meter cfg id) k c y).2.1 = .ofNat (arrivedFlows c).length := by
  induction c using List.reverseRecOn with
  | nil =>
    refine ⟨?_, rfl⟩
    simp only [metered, openedS, List.foldl_nil]
    split
    · rfl
    · exact clear
  | append_singleton c e ih =>
    obtain ⟨flow, lost⟩ := e
    obtain ⟨sent, arrived⟩ := ih
    rw [metered_snoc]
    refine ⟨?_, ?_⟩
    · rw [List.length_append, List.length_singleton, UInt64.ofNat_add, ← sent]
      rfl
    · cases lost with
      | true => simpa [arrivedFlows] using arrived
      | false =>
        simp only [arrivedFlows, List.filter_append, List.map_append, List.length_append] at arrived ⊢
        rw [UInt64.ofNat_add, ← arrived]
        rfl

/-! ## Trees -/

/-- The trees of a session of the tree machine, as long as its number fits the header. -/
theorem metered_trees {k : Nat} (small : k < 65536) (c : Packets) (y : Count × Count) :
    ((metered (variant cfg cfg.treeId) (meter cfg cfg.treeId) k c y).1.2,
      (metered (variant cfg cfg.treeId) (meter cfg cfg.treeId) k c y).2.2) = meteredTrees cfg k c (y.1.2, y.2.2) := by
  have acked : (variant cfg cfg.treeId).acked = true := by simp [variant, FancyAttributes.treeId, FancyConfig.wildcardId]
  have number : k % (variant cfg cfg.treeId).modulus = k := Nat.mod_eq_of_lt small
  induction c using List.reverseRecOn with
  | nil =>
    simp only [metered, openedS, acked, if_true, number, List.foldl_nil, List.filter_nil, meter_request]
    simp only [meter, if_true]
    rfl
  | append_singleton c e ih =>
    obtain ⟨flow, lost⟩ := e
    rw [metered_snoc]
    simp only [Prod.ext_iff] at ih ⊢
    obtain ⟨sender, receiver⟩ := ih
    have sentAll : (meteredTrees cfg k (c ++ [(flow, lost)]) (y.1.2, y.2.2)).1 =
        treeCounting cfg true k flow (meteredTrees cfg k c (y.1.2, y.2.2)).1 := by
      simp [meteredTrees, countAll, sentFlows]
    refine ⟨?_, ?_⟩
    · rw [sentAll, ← sender]
      simp only [meter, if_true]
    · cases lost with
      | true =>
        rw [if_pos rfl, receiver]
        simp [meteredTrees, countAll, arrivedFlows]
      | false =>
        have arrivedAll : (meteredTrees cfg k (c ++ [(flow, false)]) (y.1.2, y.2.2)).2 =
            treeCounting cfg false k flow (meteredTrees cfg k c (y.1.2, y.2.2)).2 := by
          simp [meteredTrees, countAll, arrivedFlows]
        rw [arrivedAll, ← receiver, number]
        simp only [meter, if_true, Bool.false_eq_true, if_false]

/-- Counting leaves the sender's selections alone. -/
theorem metered_history (k : Nat) (c : Packets) (y : Count × Count) :
    SameHistory (metered (variant cfg cfg.treeId) (meter cfg cfg.treeId) k c y).1.2 y.1.2 := by
  induction c using List.reverseRecOn with
  | nil =>
    simp only [metered, openedS, List.foldl_nil]
    split <;> exact .refl _
  | append_singleton c e ih =>
    rw [metered_snoc]
    refine SameHistory.trans ?_ ih
    simp only [meter, if_true]
    exact sameHistory_treeCounting _ _ _ _

/-- Lockstep sessions of the tree machine are the sessions of `treesAt`. -/
theorem lockstep_trees (C : Nat → Packets) {k : Nat} (small : k ≤ 65536) :
    ((lockstep (variant cfg cfg.treeId) (meter cfg cfg.treeId) C (noCount, noCount) k).1.2,
      (lockstep (variant cfg cfg.treeId) (meter cfg cfg.treeId) C (noCount, noCount) k).2.2) = treesAt cfg C k := by
  induction k with
  | zero => rfl
  | succ k ih =>
    have metered_eq := @metered_trees cfg k (by omega) (C k)
      (lockstep (variant cfg cfg.treeId) (meter cfg cfg.treeId) C (noCount, noCount) k)
    rw [ih (by omega)] at metered_eq
    simp only [Prod.ext_iff] at metered_eq ⊢
    obtain ⟨sender, receiver⟩ := metered_eq
    refine ⟨?_, receiver⟩
    simp only [lockstep, Session.round, treesAt, closedTree]
    rw [← sender, ← receiver, meter_report]
    simp only [meter, if_true]

/-! ## Traces -/

theorem counted_mem_image_iff {x : Seen} {k : Nat} {flow : FiveTuple} {lost : Bool} :
    .counted k flow lost ∈ image cfg d id x ↔ x.side = d ∧ x.lost = lost ∧ ∃ cells, x.log = .counted id k flow cells := by
  obtain ⟨side, log, lost'⟩ := x
  cases log with
  | counted i q f cells =>
    by_cases here : i = id
    · subst here
      simp only [image, logObs, if_true, List.mem_filter, List.mem_singleton, Obs.counted.injEq, bySender,
        PortLog.counted.injEq, beq_iff_eq, Bool.true_eq, true_and]
      constructor
      · rintro ⟨⟨rfl, rfl, rfl⟩, same⟩
        exact ⟨same, rfl, cells, rfl, rfl, rfl⟩
      · rintro ⟨same, rfl, -, rfl, rfl, -⟩
        exact ⟨⟨rfl, rfl, rfl⟩, same⟩
    · simp [image, logObs, here]
  | consumed | gotStop | reported =>
    simp only [image, logObs, List.mem_filter]
    split <;> simp

/-- What a trace has for a session comes from the log of the sender's port. -/
theorem mem_packetsOf {k : Nat} {flow : FiveTuple} {lost : Bool} :
    (flow, lost) ∈ packetsOf cfg d id tr k ↔
      ∃ x ∈ tr, x.side = d ∧ x.lost = lost ∧ ∃ cells, x.log = .counted id k flow cells := by
  simp only [packetsOf, sessionPackets, List.mem_filterMap, List.mem_flatMap, ← @counted_mem_image_iff cfg]
  constructor
  · rintro ⟨o, ⟨x, mem, shown⟩, packet⟩
    cases o with
    | counted j p l =>
      simp only [Option.ite_none_right_eq_some, Option.some.injEq, Prod.mk.injEq] at packet
      obtain ⟨rfl, rfl, rfl⟩ := packet
      exact ⟨x, mem, shown⟩
    | consumed | gotStop | reported => cases packet
  · rintro ⟨x, mem, shown⟩
    exact ⟨_, ⟨x, mem, shown⟩, by simp⟩

theorem packetsOf_append (tr os : List Seen) (k : Nat) :
    packetsOf cfg d id (tr ++ os) k = packetsOf cfg d id tr k ++ packetsOf cfg d id os k := by
  simp [packetsOf]

/-- A step counts packets of the tree machine for its current session only. -/
theorem Wired.packetsOf_step {F : Bool → List Msg} {l : Label cfg} {s' : System} {os : List Seen} (w : Wired cfg s F)
    (hstep : Link.step cfg l s = some (s', os)) {j : Nat} (past : j < ((s.port d).greySend.currentSEQ cfg.treeId).toNat) :
    packetsOf cfg d cfg.treeId os j = [] := by
  rw [List.eq_nil_iff_forall_not_mem]
  rintro ⟨flow, lost⟩ mem
  obtain ⟨x, shown, rfl, -, cells, log⟩ := mem_packetsOf.1 mem
  exact absurd (w.counted_new hstep shown log).1 (Nat.ne_of_lt past)

/-- All packets of a session of the tree machine were counted by the selections of the lockstep system, in runs whose
counting senders have what the lockstep system has metered. -/
theorem counted_lockstep_of {ok : Label cfg → System → Prop}
    (sent : ∀ {s tr}, Lts.Run (Link.step cfg) ok (System.start cfg) s tr →
      ∃ F, Wired cfg s F ∧ ((view cfg d cfg.treeId s F).s.phase = .counting → (view cfg d cfg.treeId s F).s.data =
        (meteredAt (variant cfg cfg.treeId) (meter cfg cfg.treeId) (noCount, noCount) (tr.flatMap (image cfg d cfg.treeId))
          (view cfg d cfg.treeId s F).s.seq).1))
    (run : Lts.Run (Link.step cfg) ok (System.start cfg) s tr) :
    ∀ x ∈ tr, x.side = d → ∀ k flow cells, x.log = .counted cfg.treeId k flow cells →
      k ≤ ((s.port d).greySend.currentSEQ cfg.treeId).toNat ∧
      cells = countedCells cfg k flow (lockstep (variant cfg cfg.treeId) (meter cfg cfg.treeId)
        (packetsOf cfg d cfg.treeId tr) (noCount, noCount) k).1.2 := by
  induction run with
  | nil =>
    intro x mem
    cases mem
  | @snoc t u tr os l before good hstep ih =>
    obtain ⟨F, w, metered_eq⟩ := sent before
    obtain ⟨F', -, answers⟩ := w.step hstep
    obtain ⟨up, -⟩ := keepsHistory_of_run (answers d cfg.treeId)
    simp only [view, Link.senders, senderView] at up
    -- the new packets belong to the current session, which does not change the sessions before it
    have same : ∀ k, k ≤ ((t.port d).greySend.currentSEQ cfg.treeId).toNat →
        lockstep (variant cfg cfg.treeId) (meter cfg cfg.treeId) (packetsOf cfg d cfg.treeId (tr ++ os)) (noCount, noCount) k =
          lockstep (variant cfg cfg.treeId) (meter cfg cfg.treeId) (packetsOf cfg d cfg.treeId tr) (noCount, noCount) k := by
      intro k le
      refine lockstep_congr _ _ _ fun j less => ?_
      rw [packetsOf_append, w.packetsOf_step hstep (Nat.lt_of_lt_of_le less le), List.append_nil]
    intro x mem side k flow cells log
    rcases List.mem_append.1 mem with old | new
    · obtain ⟨le, cells_eq⟩ := ih x old side k flow cells log
      rw [same k le]
      exact ⟨Nat.le_trans le up, cells_eq⟩
    · obtain ⟨current, counting, cells_eq⟩ := w.counted_new hstep new log
      rw [side] at current counting cells_eq
      have data := metered_eq ((sender_counting cfg _ _).1 counting)
      have seq : (view cfg d cfg.treeId t F).s.seq = k := current.symm
      rw [seq] at data
      have history : SameHistory (t.port d).greySend.counterTree (lockstep (variant cfg cfg.treeId) (meter cfg cfg.treeId)
          (packetsOf cfg d cfg.treeId tr) (noCount, noCount) k).1.2 := by
        have tree := congrArg Prod.snd data
        simp only [view, Link.senders, senderView, count, if_true] at tree
        rw [tree]
        exact metered_history _ _ _
      rw [same k (Nat.le_of_eq current), cells_eq]
      exact ⟨by omega, countedCells_congr history k flow⟩

theorem counted_lockstep (run : Lts.Run (Link.step cfg) (Lossless cfg) (System.start cfg) s tr) :
    ∀ x ∈ tr, x.side = d → ∀ k flow cells, x.log = .counted cfg.treeId k flow cells →
      k ≤ ((s.port d).greySend.currentSEQ cfg.treeId).toNat ∧
      cells = countedCells cfg k flow (lockstep (variant cfg cfg.treeId) (meter cfg cfg.treeId)
        (packetsOf cfg d cfg.treeId tr) (noCount, noCount) k).1.2 := by
  refine counted_lockstep_of (fun before => ?_) run
  obtain ⟨F, w, session⟩ := lossless_session d cfg.treeId before
  have inStep := InStep.of_run (meter_lawful cfg _) (variant_sound cfg _) session
  refine ⟨F, w, fun counting => ?_⟩
  exact congrArg Prod.fst (inStep.busy (by rw [counting]; decide)).2

/-! ## Consumed reports -/

section
variable {x : Seen} {k : Nat} {n r : UInt64} {cells : Nat → Nat → UInt32} {records : List (Nat × List UInt32)}
variable {found : List Detection}

theorem meter_close_tree (q : Nat) (y : Count) (rep : Report) : ((meter cfg cfg.treeId).close q y rep).2 =
    [⟨y.1, fun i => (y.2 i).counters, (treeExchange cfg q rep.2 y.2).2⟩] := by
  simp [meter]

theorem meter_close_other (other : id ≠ cfg.treeId) (q : Nat) (y : Count) (rep : Report) : ((meter cfg id).close q y rep).2 =
    [⟨y.1, fun _ _ => 0, dedicatedDetections cfg id y.1 rep.1⟩] := by
  simp [meter, other]

/-- A consumed report is the one that closes the session in the lockstep system. -/
theorem consumed_closing (run : Lts.Run (Link.step cfg) (Lossless cfg) (System.start cfg) s tr) (mem : x ∈ tr)
    (log : x.log = .consumed id k n cells r records found) :
    k < 65536 ∧ .consumed k (r, records) [⟨n, if id = cfg.treeId then cells else fun _ _ => 0, found⟩] =
      closing (variant cfg id) (meter cfg id) (noCount, noCount) (tr.flatMap (image cfg x.side id)) k := by
  obtain ⟨F, -, session⟩ := lossless_session x.side id run
  have closed := Closed.of_run (meter_lawful cfg id) (variant_sound cfg id) session
  have bounded := (Sane.of_run (Nat.zero_lt_succ _) session).bounded.sender
  obtain ⟨less, eq⟩ := closed.only _ _ _ (consumed_mem_trace cfg log mem)
  exact ⟨Nat.lt_of_lt_of_le less bounded, eq⟩

/-- What the trace shows of machine `id` at port `d` is what the lockstep system would show. -/
structure Synchronous (cfg : FancyConfig) (d : Bool) (id : Nat) (tr : List Seen) : Prop where
  closed : ∀ x ∈ tr, x.side = d → ∀ k n cells r records found, x.log = .consumed id k n cells r records found →
    k < 65536 ∧ .consumed k (r, records) [⟨n, if id = cfg.treeId then cells else fun _ _ => 0, found⟩] =
      closing (variant cfg id) (meter cfg id) (noCount, noCount) (tr.flatMap (image cfg d id)) k
  counted : id = cfg.treeId → ∀ x ∈ tr, x.side = d → ∀ k flow cells, x.log = .counted cfg.treeId k flow cells →
    cells = countedCells cfg k flow (lockstep (variant cfg cfg.treeId) (meter cfg cfg.treeId)
      (packetsOf cfg d cfg.treeId tr) (noCount, noCount) k).1.2

theorem synchronous_of_lossless (d : Bool) (id : Nat)
    (run : Lts.Run (Link.step cfg) (Lossless cfg) (System.start cfg) s tr) : Synchronous cfg d id tr where
  closed x mem side k n cells r records found log := by
    subst side
    exact consumed_closing run mem log
  counted _ x mem side k flow cells log := (counted_lockstep run x mem side k flow cells log).2

theorem Synchronous.counters (h : Synchronous cfg x.side id tr) (mem : x ∈ tr)
    (log : x.log = .consumed id k n cells r records found) :
    n = .ofNat (packetsOf cfg x.side id tr k).length ∧
      r = .ofNat (arrivedFlows (packetsOf cfg x.side id tr k)).length ∧
      (id ≠ cfg.treeId → found = dedicatedDetections cfg id n r) := by
  obtain ⟨-, eq⟩ := h.closed x mem rfl k n cells r records found log
  obtain ⟨sent, arrived⟩ :
      (meteredAt (variant cfg id) (meter cfg id) (noCount, noCount) (tr.flatMap (image cfg x.side id)) k).1.1 =
        .ofNat (packetsOf cfg x.side id tr k).length ∧
      (meteredAt (variant cfg id) (meter cfg id) (noCount, noCount) (tr.flatMap (image cfg x.side id)) k).2.1 =
        .ofNat (arrivedFlows (packetsOf cfg x.side id tr k)).length :=
    metered_count k _ (lockstep_count _ k)
  simp only [closing, Obs.consumed.injEq] at eq
  obtain ⟨-, rep, shown⟩ := eq
  rw [← rep] at shown
  have reported : r = .ofNat (arrivedFlows (packetsOf cfg x.side id tr k)).length :=
    (congrArg Prod.fst rep).trans arrived
  by_cases isTree : id = cfg.treeId
  · subst isTree
    simp only [meter_close_tree, List.cons.injEq, and_true, Closing.mk.injEq] at shown
    exact ⟨shown.1.trans sent, reported, fun notTree => absurd rfl notTree⟩
  · simp only [meter_close_other isTree, List.cons.injEq, and_true, Closing.mk.injEq] at shown
    obtain ⟨counter, -, detections⟩ := shown
    refine ⟨counter.trans sent, reported, fun _ => ?_⟩
    rw [detections, counter]

/-- The session of the tree machine behind a consumed report: its trees, and the selections its packets were counted by. -/
structure TreeSession (cfg : FancyConfig) (d : Bool) (tr : List Seen) (k : Nat) (cells : Nat → Nat → UInt32)
    (records : List (Nat × List UInt32)) (found : List Detection) : Prop where
  sent : cells = fun i => ((meteredTrees cfg k (packetsOf cfg d cfg.treeId tr k)
    (treesAt cfg (packetsOf cfg d cfg.treeId tr) k)).1 i).counters
  reported : records = reportRecords cfg (meteredTrees cfg k (packetsOf cfg d cfg.treeId tr k)
    (treesAt cfg (packetsOf cfg d cfg.treeId tr) k)).2
  detections : found = (closedTree cfg k (packetsOf cfg d cfg.treeId tr k)
    (treesAt cfg (packetsOf cfg d cfg.treeId tr) k)).2
  counted : CountedBy cfg d k (treesAt cfg (packetsOf cfg d cfg.treeId tr) k).1 tr

theorem Synchronous.trees (h : Synchronous cfg x.side cfg.treeId tr) (mem : x ∈ tr)
    (log : x.log = .consumed cfg.treeId k n cells r records found) : TreeSession cfg x.side tr k cells records found := by
  obtain ⟨small, eq⟩ := h.closed x mem rfl k n cells r records found log
  have trees := @lockstep_trees cfg (packetsOf cfg x.side cfg.treeId tr) k (Nat.le_of_lt small)
  have metered_eq := @metered_trees cfg k small (packetsOf cfg x.side cfg.treeId tr k)
    (lockstep (variant cfg cfg.treeId) (meter cfg cfg.treeId) (packetsOf cfg x.side cfg.treeId tr) (noCount, noCount) k)
  rw [trees, Prod.ext_iff] at metered_eq
  obtain ⟨sender, receiver⟩ := metered_eq
  simp only [closing, Obs.consumed.injEq, if_true, meter_report, meter_close_tree, Prod.mk.injEq, List.cons.injEq, and_true,
    Closing.mk.injEq] at eq
  obtain ⟨-, ⟨-, rep⟩, -, own, detections⟩ := eq
  refine ⟨?_, ?_, ?_, ?_⟩
  · rw [own, ← sender]
    rfl
  · rw [rep, ← receiver]
    rfl
  · rw [detections, closedTree, ← sender, ← receiver]
    rfl
  · intro y mem' side flow cells' log'
    rw [h.counted rfl y mem' side k flow cells' log', ← trees]

/-- **The trees of a consumed report.** -/
theorem consumed_trees (run : Lts.Run (Link.step cfg) (Lossless cfg) (System.start cfg) s tr) (mem : x ∈ tr)
    (log : x.log = .consumed cfg.treeId k n cells r records found) : TreeSession cfg x.side tr k cells records found :=
  (synchronous_of_lossless x.side cfg.treeId run).trees mem log

end

end

end Ns3Fancy.Link

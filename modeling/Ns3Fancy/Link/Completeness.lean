import Ns3Fancy.Switch.Completeness
import Ns3Fancy.Link.Accounting
import Ns3Fancy.Link.Detection
import Ns3Fancy.Link.Progress

/-!
# Zooming misses no flow

In a run without control loss, when the same few flows lose packets in as many sessions of the tree machine as the tree
has layers, the exchange of the last of these sessions reaches the cell of each of them in the last layer.
-/

namespace Ns3Fancy.Link
open Switch Buffer Function Session
set_option autoImplicit false

section
variable (cfg : FancyConfig)

/-- The flows that lose packets of session `k` of the tree machine at port `d` are those of `F`. -/
structure LosesOnly (d : Bool) (tr : List Seen) (F : Finset Bytes) (k : Nat) : Prop where
  only : ∀ y ∈ tr, y.side = d → y.lost = true → ∀ flow cells, y.log = .counted cfg.treeId k flow cells → flowKey cfg flow ∈ F
  each : ∀ f ∈ F, ∃ y ∈ tr, y.side = d ∧ y.lost = true ∧
    ∃ flow cells, y.log = .counted cfg.treeId k flow cells ∧ flowKey cfg flow = f

/-- The exchange of session `k` reached the cell of the last layer that the packets of a flow are counted in, and reported
it, so that the filter has the flow's entries, or recorded that too many flows share it. -/
def Reached (d : Bool) (k : Nat) (found : List Detection) (s : System) (tr : List Seen) (flow : FiveTuple) : Prop :=
  ∃ node, cfg.lastLayerIndex ≤ node ∧ node < cfg.nodesInTree ∧
    (∀ y ∈ tr, y.side = d → ∀ flow' cells, y.log = .counted cfg.treeId k flow' cells → flowKey cfg flow' = flowKey cfg flow →
      (node, cfg.cellOf flow (cfg.treeDepth - 1)) ∈ cells) ∧
    ((∃ flows bloom n r, .failure node (cfg.cellOf flow (cfg.treeDepth - 1)) (flowPath cfg flow) flows bloom n r ∈ found ∧
        bloom ≤ cfg.maxCounterCollisions ∧ isBloomFilterSet (s.port d) (getBloomFilterHashes cfg flow) = true) ∨
      ∃ bloom, .collision k node (cfg.cellOf flow (cfg.treeDepth - 1)) bloom ∈ found ∧ cfg.maxCounterCollisions < bloom)

end

section
variable {cfg : FancyConfig} {s : System} {tr : List Seen}

theorem mem_lostFlows {flow : FiveTuple} {c : Packets} : flow ∈ lostFlows c ↔ (flow, true) ∈ c := by
  simp [lostFlows]

/-- The condition on a session as one on the packets it counted. -/
theorem losesOnly_iff {d : Bool} {F : Finset Bytes} {k : Nat} : LosesOnly cfg d tr F k ↔
    ∀ f, f ∈ F ↔ ∃ flow ∈ lostFlows (packetsOf cfg d cfg.treeId tr k), flowKey cfg flow = f := by
  constructor
  · intro h f
    constructor
    · intro inF
      obtain ⟨y, mem, side, lost, flow, cells, log, key⟩ := h.each f inF
      exact ⟨flow, mem_lostFlows.2 (mem_packetsOf.2 ⟨y, mem, side, lost, cells, log⟩), key⟩
    · rintro ⟨flow, lost, rfl⟩
      obtain ⟨y, mem, side, lost, cells, log⟩ := mem_packetsOf.1 (mem_lostFlows.1 lost)
      exact h.only y mem side lost flow cells log
  · intro h
    constructor
    · intro y mem side lost flow cells log
      exact (h _).2 ⟨flow, mem_lostFlows.2 (mem_packetsOf.2 ⟨y, mem, side, lost, cells, log⟩), rfl⟩
    · intro f inF
      obtain ⟨flow, lost, key⟩ := (h f).1 inF
      obtain ⟨y, mem, side, lost, cells, log⟩ := mem_packetsOf.1 (mem_lostFlows.1 lost)
      exact ⟨y, mem, side, lost, flow, cells, log, key⟩

theorem LosesOnly.losses {d : Bool} {F : Finset Bytes} {k : Nat} (h : LosesOnly cfg d tr F k)
    (fits : lostPackets d cfg.treeId k tr < 2 ^ 32) : Losses cfg F (packetsOf cfg d cfg.treeId tr k) where
  only flow lost := (losesOnly_iff.1 h _).2 ⟨flow, lost, rfl⟩
  each f inF := (losesOnly_iff.1 h f).1 inF
  fits := by
    rw [← lostPackets_eq]
    exact fits

/-- A cell of the last layer is reported as a failure or as a collision. -/
theorem lastLayerDetection_cases (level : Nat → Nat) (k : Nat) (tree : Tree) (node cell : Nat) (remote : UInt32) :
    (∃ path flows bloom n r, lastLayerDetection cfg level k tree node cell remote = .failure node cell path flows bloom n r ∧
        bloom ≤ cfg.maxCounterCollisions) ∨
      ∃ bloom, lastLayerDetection cfg level k tree node cell remote = .collision k node cell bloom ∧
        cfg.maxCounterCollisions < bloom := by
  unfold lastLayerDetection
  simp only
  split
  · rename_i few
    exact Or.inl ⟨_, _, _, _, _, rfl, few⟩
  · rename_i many
    exact Or.inr ⟨_, rfl, Nat.lt_of_not_le many⟩

theorem cellDetection_cases (k : Nat) (trees : Trees) (node cell : Nat) :
    (∃ path flows bloom n r, cellDetection cfg k trees node cell = .failure node cell path flows bloom n r ∧
        bloom ≤ cfg.maxCounterCollisions) ∨
      ∃ bloom, cellDetection cfg k trees node cell = .collision k node cell bloom ∧ cfg.maxCounterCollisions < bloom := by
  unfold cellDetection
  split <;> exact lastLayerDetection_cases _ _ _ _ _ _

/-- **Zooming misses no flow.** Without control loss and with a cost of zero to reroute: when the flows `F`, no more than
a node has slots, and no others lose packets in `treeDepth` sessions one after the other, in the other mode from the first
zoom phase on, and fewer than 2 ^ 32 packets are lost in each, then the last of their exchanges reaches each of them. -/
theorem zooming_complete (splits : 1 ≤ cfg.layerSplit) (eager : cfg.rerouteMinCost = 0)
    (run : Lts.Run (Link.step cfg) (Lossless cfg) (System.start cfg) s tr) {x : Seen} (consumes : x ∈ tr)
    {k : Nat} {n r : UInt64} {cells : Nat → Nat → UInt32} {records : List (Nat × List UInt32)} {found : List Detection}
    (log : x.log = .consumed cfg.treeId (k + (cfg.treeDepth - 1)) n cells r records found)
    (start : cfg.pipeline = true ∨ k % cfg.treeDepth = 0) {F : Finset Bytes} (few : F.card ≤ cfg.layerSplit)
    (loses : ∀ m, m < cfg.treeDepth → LosesOnly cfg x.side tr F (k + m))
    (fits : ∀ m, m < cfg.treeDepth → lostPackets x.side cfg.treeId (k + m) tr < 2 ^ 32)
    {flow : FiveTuple} (inF : flowKey cfg flow ∈ F) :
    Reached cfg x.side (k + (cfg.treeDepth - 1)) found s tr flow := by
  obtain ⟨-, paths, -, ends, -⟩ := (truthful_of_run x.side run).consumed x consumes rfl _ _ _ _ _ _ log
  obtain ⟨deep, wide, narrow⟩ := FancyConfig.exchangeEnds_bounds ends
  obtain ⟨-, -, detections, countedBy⟩ := consumed_trees run consumes log
  have zoomable : Zoomable cfg F := ⟨splits, wide, narrow, few⟩
  have losses : ∀ m, m < cfg.treeDepth → Losses cfg F (packetsOf cfg x.side cfg.treeId tr (k + m)) := fun m inside =>
    (loses m inside).losses (fits m inside)
  have last : cfg.treeDepth - 1 < cfg.treeDepth := by omega
  have phase : InPhase cfg (k + (cfg.treeDepth - 1)) (cfg.treeDepth - 1) := InPhase.add start last
  obtain ⟨node, walk⟩ := walk_reaches zoomable start losses inF last
  obtain ⟨inLast, inTree, detected⟩ := walk_detected zoomable (le_of_eq eager) phase deep (losses _ last) inF walk
  have counted := mem_countedCells_walk phase last walk
  refine ⟨node, inLast, inTree, fun y mem side flow' cells' log' key => ?_, ?_⟩
  · rw [countedBy y mem side flow' cells' log', countedCells_key key]
    exact counted
  · rcases cellDetection_cases (k + (cfg.treeDepth - 1)) _ node (cfg.cellOf flow (cfg.treeDepth - 1)) with
      ⟨path, flows, bloom, own, other, failure, fine⟩ | ⟨bloom, collision, many⟩
    · rw [failure] at detected
      have path_eq : path = flowPath cfg flow := by
        cases mode : cfg.pipeline with
        | true => exact pipelined_path mode deep splits detected counted
        | false => exact serial_path mode deep (le_of_eq eager.symm) (Or.inl splits) detected counted
      subst path_eq
      rw [← detections] at detected
      exact Or.inl ⟨flows, bloom, own, other, detected, fine, paths _ _ _ _ _ _ _ detected⟩
    · rw [collision, ← detections] at detected
      exact Or.inr ⟨bloom, detected, many⟩

/-! One packet of cell 1 is lost in each of two sessions. -/

/-- The flows that an entry of a trace shows as lost. -/
def lostKeys (cfg : FancyConfig) (d : Bool) (k : Nat) (tr : List Seen) : List Bytes :=
  (lostFlows (tr.filterMap (packetOf d cfg.treeId k))).map (flowKey cfg)

theorem LosesOnly.of_keys {d : Bool} {k : Nat} {f : Bytes} (keys : lostKeys cfg d k tr = [f]) : LosesOnly cfg d tr {f} k := by
  refine losesOnly_iff.2 fun g => ?_
  have all : g ∈ lostKeys cfg d k tr ↔ g = f := by rw [keys, List.mem_singleton]
  rw [packetsOf_eq, Finset.mem_singleton, ← all]
  simp [lostKeys]

theorem zooming_complete_second : ∃ s tr, Lts.Run (Link.step deepConfig) (Lossless deepConfig) (System.start deepConfig) s tr ∧
    ∃ x ∈ tr, ∃ n cells r records found, x.log = .consumed 0 1 n cells r records found ∧
      Reached deepConfig x.side 1 found s tr (getFlowFiveTuple oddPacket.val.headers) := by
  have second : ∃ s tr, Lts.Run (Link.step deepConfig) (fun l s => losslessStep deepConfig l s = true)
      (System.start deepConfig) s tr ∧
      (tr.any (consumesIn 1), lostKeys deepConfig false 0 tr, lostKeys deepConfig false 1 tr, lostPackets false 0 0 tr,
        lostPackets false 0 1 tr) =
        (true, [flowKey deepConfig (getFlowFiveTuple oddPacket.val.headers)],
          [flowKey deepConfig (getFlowFiveTuple oddPacket.val.headers)], 1, 1) :=
    Lts.Run.exists_of_guarded reportsSecond (by decide +kernel)
  obtain ⟨s, tr, checked, shown⟩ := second
  have run := checked.mono fun _ _ => lossless_of_losslessStep deepConfig
  simp only [Prod.mk.injEq, List.any_eq_true] at shown
  obtain ⟨⟨x, consumes, shown⟩, keys, keys', lost, lost'⟩ := shown
  obtain ⟨side, n, cells, r, records, found, log⟩ := consumesIn_log shown
  have loses : ∀ m, m < deepConfig.treeDepth → LosesOnly deepConfig x.side tr
      {flowKey deepConfig (getFlowFiveTuple oddPacket.val.headers)} (0 + m) := by
    rw [side]
    rintro (_ | _ | m) inside
    · exact .of_keys keys
    · exact .of_keys keys'
    · exact absurd inside (by simp [deepConfig])
  have fits : ∀ m, m < deepConfig.treeDepth → lostPackets x.side deepConfig.treeId (0 + m) tr < 2 ^ 32 := by
    rw [side]
    rintro (_ | _ | m) inside
    · exact lost.trans_lt (by decide)
    · exact lost'.trans_lt (by decide)
    · exact absurd inside (by simp [deepConfig])
  exact ⟨s, tr, run, x, consumes, n, cells, r, records, found, log,
    zooming_complete (by decide) rfl run consumes log (Or.inl rfl) (by simp [deepConfig, smallConfig]) loses fits
      (Finset.mem_singleton_self _)⟩

/-! 2 ^ 32 packets of a flow are lost in one session: the 32-bit counters agree again. -/

/-- A packet of a tree that counts is counted. -/
theorem egressCounting_tree {cfg : FancyConfig} {p : FancyPortInfo} {m : PktInfo cfg.ns3} (tree : m.id = cfg.treeId)
    (counting : p.greySend.greyState cfg.treeId = .counting) (towards : p.switchPort = true) (ip : m.headers.ipv4.isSome = true)
    (noWildcard : p.greySend.greyState cfg.wildcardId ≠ .counting) (ends : cfg.countingEnds = true) :
    ∃ next tagged cells, egressCounting cfg p m = some ({ p with greySend := next }, tagged,
        [.counted cfg.treeId (p.greySend.currentSEQ cfg.treeId).toNat m.flow cells]) ∧
      next.greyState = p.greySend.greyState ∧ next.currentSEQ = p.greySend.currentSEQ := by
  have wildcard : wildcardEgress cfg p m = (p, []) := by
    unfold wildcardEgress
    exact if_neg fun both => noWildcard both.1
  have counted : countPacket cfg true cfg.treeId m.flow p.greySend =
      some { p.greySend.setLocalCounter cfg.treeId (p.greySend.localCounter cfg.treeId + 1) with
        counterTree := treeCounting cfg true (p.greySend.currentSEQ cfg.treeId).toNat m.flow p.greySend.counterTree } := by
    simp [countPacket, ends]
  unfold egressCounting
  simp only [wildcard, tree]
  rw [if_pos ⟨counting, towards, ip⟩, counted]
  exact ⟨_, _, _, rfl, rfl, rfl⟩

/-- The first switch counts packets of the tree's first session. -/
structure CountsFirst (s : System) : Prop where
  towards : (s.port false).switchPort = true
  counting : (s.port false).greySend.greyState 0 = .counting
  first : (s.port false).greySend.currentSEQ 0 = 0
  noWildcard : (s.port false).greySend.greyState 1 ≠ .counting

theorem CountsFirst.lose {s : System} (h : CountsFirst s) {pkt : HostPacket treeOnly}
    (ip : pkt.val.headers.ipv4.isSome = true) : ∃ s' cells, Link.step treeOnly (.egress false pkt none true) s =
      some (s', [{ side := false, log := .counted 0 0 (getFlowFiveTuple pkt.val.headers) cells, lost := true }]) ∧
      CountsFirst s' := by
  obtain ⟨towards, counting, first, noWildcard⟩ := h
  have rerouted : reroute treeOnly (s.port false) (outgoing treeOnly pkt none) =
      (s.port false,
        { outgoing treeOnly pkt none with strFlow := treeOnly.packetStr (getFlowFiveTuple pkt.val.headers), id := 0 }) := rfl
  obtain ⟨next, tagged, cells, counted, states, seqs⟩ := egressCounting_tree
    (m := { outgoing treeOnly pkt none with strFlow := treeOnly.packetStr (getFlowFiveTuple pkt.val.headers), id := 0 })
    rfl counting towards ip noWildcard (by decide)
  have first' : (s.port false).greySend.currentSEQ treeOnly.treeId = 0 := first
  rw [first'] at counted
  refine ⟨s.after false { port := { s.port false with greySend := next } }, cells, ?_, ?_⟩
  · simp only [Link.step, emit, rerouted, counted, Option.map_some]
    rfl
  · constructor
    · exact towards
    · exact (congrFun states 0).trans counting
    · exact (congrFun seqs 0).trans first
    · exact fun wildcard => noWildcard ((congrFun states 1).symm.trans wildcard)

/-- It loses any number of packets of a flow. -/
theorem CountsFirst.loses {s : System} (h : CountsFirst s) {pkt : HostPacket treeOnly} (ip : pkt.val.headers.ipv4.isSome = true)
    (n : Nat) : ∃ s' tr, Lts.Run (Link.step treeOnly) (Lossless treeOnly) s s' tr ∧ CountsFirst s' ∧
      packetsOf treeOnly false 0 tr 0 = List.replicate n (getFlowFiveTuple pkt.val.headers, true) := by
  induction n with
  | zero => exact ⟨s, [], .nil, h, rfl⟩
  | succ n ih =>
    obtain ⟨t, tr, run, counts, packets⟩ := ih
    obtain ⟨u, cells, hstep, counts'⟩ := counts.lose ip
    have good : Lossless treeOnly (.egress false pkt none true) t := by
      refine ⟨fun d i => by simp, ?_⟩
      rintro ⟨d, frame, rest, o, eq, -⟩
      cases eq
    refine ⟨u, _, run.snoc good hstep, counts', ?_⟩
    rw [packetsOf_append, packets, List.replicate_succ']
    rfl

theorem seen_lost {o : Outcome} {d lost : Bool} {x : Seen} (mem : x ∈ o.seen d lost) : x.lost = lost := by
  obtain ⟨log, -, rfl⟩ := List.mem_map.1 mem
  rfl

/-- Only a packet that leaves is shown as lost. -/
theorem egress_of_lost {cfg : FancyConfig} {l : Label cfg} {s s' : System} {os : List Seen}
    (hstep : Link.step cfg l s = some (s', os)) {x : Seen} (mem : x ∈ os) (lost : x.lost = true) :
    ∃ d pkt earlier, l = .egress d pkt earlier true := by
  have kept : ∀ {o : Outcome} {d : Bool}, os = o.seen d false → False := by
    rintro o d rfl
    exact Bool.false_ne_true ((seen_lost mem).symm.trans lost)
  cases l with
  | fire d i =>
    obtain ⟨e, -, ran⟩ := Option.bind_eq_some_iff.1 hstep
    obtain ⟨o, -, eq⟩ := Option.map_eq_some_iff.1 ran
    exact (kept (congrArg Prod.snd eq).symm).elim
  | egress d pkt earlier lost' =>
    obtain ⟨o, -, eq⟩ := Option.map_eq_some_iff.1 hstep
    obtain rfl : o.seen d lost' = os := congrArg Prod.snd eq
    obtain rfl : lost' = true := (seen_lost mem).symm.trans lost
    exact ⟨d, pkt, earlier, rfl⟩
  | deliver d =>
    simp only [Link.step] at hstep
    split at hstep
    · cases hstep
    · obtain ⟨o, -, eq⟩ := Option.map_eq_some_iff.1 hstep
      exact (kept (congrArg Prod.snd eq).symm).elim
  | probe | lose =>
    cases hstep
    cases mem

/-- A run without loss shows no lost packet. -/
theorem noLoss_packets {cfg : FancyConfig} {s s' : System} {tr : List Seen} {d : Bool} {id : Nat}
    (run : Lts.Run (Link.step cfg) (NoLoss cfg) s s' tr) (k : Nat) : lostFlows (packetsOf cfg d id tr k) = [] := by
  rw [List.eq_nil_iff_forall_not_mem]
  intro flow lost
  obtain ⟨y, mem, -, lost, -⟩ := mem_packetsOf.1 (mem_lostFlows.1 lost)
  obtain ⟨l, t, t', os, good, hstep, shown⟩ := run.mem_trace mem
  obtain ⟨e, pkt, earlier, rfl⟩ := egress_of_lost hstep shown lost
  exact good.2 e pkt earlier rfl

theorem lostFlows_append (c c' : Packets) : lostFlows (c ++ c') = lostFlows c ++ lostFlows c' := by
  simp [lostFlows]

/-- A session that loses as many packets of a flow as the counters wrap at reports nothing. -/
theorem wrapped_session {n : Nat} (some_lost : n ≠ 0) (wraps : UInt32.ofNat n = 0) :
    ∃ s tr, Lts.Run (Link.step treeOnly) (Lossless treeOnly) (System.start treeOnly) s tr ∧
      ∃ x ∈ tr, x.side = false ∧ (∃ own cells r records, x.log = .consumed 0 0 own cells r records []) ∧
        ∃ flow, LosesOnly treeOnly false tr {flowKey treeOnly flow} 0 := by
  have opening : ∃ s tr, Lts.Run (Link.step treeOnly) (fun l s => losslessStep treeOnly l s = true)
    (System.start treeOnly) s tr ∧
      ((s.port false).switchPort, (s.port false).greySend.greyState 0, (s.port false).greySend.currentSEQ 0,
        (s.port false).greySend.greyState 1, countedPackets false 0 0 tr) = (true, .counting, 0, .idle, 0) :=
    Lts.Run.exists_of_guarded [.fire false 0, .deliver false, .deliver true] (by decide +kernel)
  obtain ⟨s, tr, checked, facts⟩ := opening
  simp only [Prod.mk.injEq] at facts
  obtain ⟨towards, counting, first, wildcard, none⟩ := facts
  have opened := checked.mono fun _ _ => lossless_of_losslessStep treeOnly
  have counts : CountsFirst s := ⟨towards, counting, first, by rw [wildcard]; decide⟩
  obtain ⟨s', tr', losing, counts', packets⟩ := @CountsFirst.loses _ counts oddPacket rfl n
  obtain ⟨F, w, live⟩ := live_of_run false 0 ((opened.trans losing).mono fun _ _ _ isWildcard => absurd isWildcard (by decide))
  obtain ⟨s'', tr'', closing, ⟨x, mem, side, own, cells, r, records, found, log⟩, -⟩ := w.advances
    ⟨by decide, by decide, by decide, by decide, by decide⟩ (fun _ _ _ _ => rfl) (by decide) live
    (by rw [counts'.first]; decide)
  rw [counts'.first] at log
  have run := (opened.trans losing).trans (closing.mono fun _ _ good => good.1)
  have consumes : x ∈ tr ++ tr' ++ tr'' := List.mem_append_right _ mem
  have flows : lostFlows (packetsOf treeOnly false treeOnly.treeId (tr ++ tr' ++ tr'') 0) =
      List.replicate n (getFlowFiveTuple oddPacket.val.headers) := by
    rw [@countedPackets_eq treeOnly, List.length_eq_zero_iff] at none
    rw [show treeOnly.treeId = 0 from rfl, packetsOf_append, packetsOf_append, none, packets, lostFlows_append,
      lostFlows_append, noLoss_packets closing]
    have all : ∀ flow : FiveTuple, lostFlows (List.replicate n (flow, true)) = List.replicate n flow := by simp [lostFlows]
    exact (List.append_nil _).trans (all _)
  obtain ⟨-, -, detections, -⟩ := consumed_trees run consumes log
  rw [side] at detections
  have nothing : found = [] := by
    rw [detections]
    refine closedTree_quiet (by decide) (by decide) (Or.inl rfl) fun i j => ?_
    change UInt32.ofNat (hits _ i j (lostFlows (packetsOf treeOnly false treeOnly.treeId (tr ++ tr' ++ tr'') 0))) = 0
    rw [flows, hits, List.countP_replicate]
    split
    · exact wraps
    · rfl
  rw [nothing] at log
  refine ⟨s'', _, run, x, consumes, side, ⟨own, cells, r, records, log⟩, getFlowFiveTuple oddPacket.val.headers, ?_⟩
  refine losesOnly_iff.2 fun f => ?_
  rw [flows, Finset.mem_singleton]
  constructor
  · rintro rfl
    exact ⟨_, List.mem_replicate.2 ⟨some_lost, rfl⟩, rfl⟩
  · rintro ⟨flow, mem, rfl⟩
    rw [(List.mem_replicate.1 mem).2]

theorem wrapped_losses_missed : ∃ s tr, Lts.Run (Link.step treeOnly) (Lossless treeOnly) (System.start treeOnly) s tr ∧
    ∃ x ∈ tr, x.side = false ∧ ∃ n cells r records found, x.log = .consumed 0 0 n cells r records found ∧
      ∃ flow, LosesOnly treeOnly false tr {flowKey treeOnly flow} 0 ∧ ¬Reached treeOnly false 0 found s tr flow := by
  obtain ⟨s, tr, run, x, consumes, side, ⟨n, cells, r, records, log⟩, flow, loses⟩ :=
    wrapped_session (n := 2 ^ 32) (by decide) (by decide)
  refine ⟨s, tr, run, x, consumes, side, n, cells, r, records, [], log, flow, loses, ?_⟩
  rintro ⟨node, -, -, -, ⟨flows, bloom, own, other, failure, -⟩ | ⟨bloom, collision, -⟩⟩
  · cases failure
  · cases collision

end

end Ns3Fancy.Link

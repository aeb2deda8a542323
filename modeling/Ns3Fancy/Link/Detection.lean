import Ns3Fancy.Link.Lockstep

/-!
# Detected flows are rerouted

A failure that an exchange reports carries the path of every flow that was counted in its cell, so the reroute filter
has the entries of these flows ever after and the reroute block takes their packets.
-/

namespace Ns3Fancy.Link
open Switch Buffer Function Session
set_option autoImplicit false

section
variable (cfg : FancyConfig)

/-- The reroute block takes every packet of a flow that would leave by port `p`. -/
def Rerouted (p : FancyPortInfo) (flow : FiveTuple) : Prop :=
  ∀ (pkt : HostPacket cfg) (earlier : Option (UInt32 × UInt16)), getFlowFiveTuple pkt.val.headers = flow →
    emit cfg p pkt earlier = some { port := (reroute cfg p (outgoing cfg pkt earlier)).1 }

end

section
variable {cfg : FancyConfig} {s : System} {tr : List Seen}

theorem getBloomFilterHashes_eq (flow : FiveTuple) : getBloomFilterHashes cfg flow = pathHashes cfg (flowPath cfg flow) := rfl

/-- A flow whose entries are set is rerouted, unless it is a top entry. -/
theorem rerouted_of_set {p : FancyPortInfo} {flow : FiveTuple} (enabled : cfg.rerouteEnabled = true)
    (tree : cfg.treeEnabled = true) (notTop : cfg.numTopEntries ≤ machineOf cfg flow)
    (set : isBloomFilterSet p (getBloomFilterHashes cfg flow) = true) : Rerouted cfg p flow := by
  rintro pkt earlier rfl
  have caught : (reroute cfg p (outgoing cfg pkt earlier)).2.dropFlag = true := by
    have catches_ : catches cfg p (machineOf cfg (getFlowFiveTuple pkt.val.headers)) (getFlowFiveTuple pkt.val.headers) =
      true := by
      simp only [catches, enabled, Nat.not_lt.2 notTop, if_false, tree, set, Bool.and_self]
    have empty : (outgoing cfg pkt earlier).strFlow = "" := rfl
    unfold machineOf at catches_
    simp only [reroute, empty, if_true, outgoing_flow, catches_]
  rw [emit, if_pos caught]

/-- The reports of a run have the records of some tree. -/
theorem records_of_run {ok : Label cfg → System → Prop} (run : Lts.Run (Link.step cfg) ok (System.start cfg) s tr)
    {x : Seen} (mem : x ∈ tr) {k : Nat} {localCounter counter : UInt64} {localCells : Nat → Nat → UInt32}
    {records : List (Nat × List UInt32)} {found : List Detection}
    (log : x.log = .consumed cfg.treeId k localCounter localCells counter records found) :
    ∃ remote, records = reportRecords cfg remote := by
  obtain ⟨F, -, session⟩ := (wired_start cfg).anySession x.side cfg.treeId run
  rw [view_start] at session
  obtain ⟨y, rep⟩ := (Genuine.of_run session).trace _ _ _ (consumed_mem_trace cfg log mem)
  exact ⟨y.2, by simpa [meter, reportRecords] using congrArg Prod.snd rep⟩

/-- **Detection implies reroute.** In pipelined mode, whatever is lost: when a report makes the exchange report a cell of
the last layer, the path it found is that of every flow counted in the cell in that session, and from then on the
filter of the port has that flow's entries and its packets are rerouted. -/
theorem pipelined_detection_reroutes (pipelined : cfg.pipeline = true) (deep : 1 ≤ cfg.treeDepth)
    (splits : 1 ≤ cfg.layerSplit) (run : Lts.Run (Link.step cfg) (fun _ _ => True) (System.start cfg) s tr)
    {x : Seen} (consumes : x ∈ tr) {k : Nat} {localCounter counter : UInt64} {localCells : Nat → Nat → UInt32}
    {records : List (Nat × List UInt32)} {found : List Detection}
    (log : x.log = .consumed cfg.treeId k localCounter localCells counter records found)
    {node cell bloom : Nat} {path : Bytes} {flows : List (String × FiveTuple)} {n r : UInt32}
    (reports : .failure node cell path flows bloom n r ∈ found)
    {y : Seen} (counts : y ∈ tr) (side : y.side = x.side) {flow : FiveTuple} {cells : List (Nat × Nat)}
    (counted : y.log = .counted cfg.treeId k flow cells) (here : (node, cell) ∈ cells) :
    path = flowPath cfg flow ∧ isBloomFilterSet (s.port x.side) (getBloomFilterHashes cfg flow) = true ∧
      (cfg.rerouteEnabled = true → cfg.numTopEntries ≤ machineOf cfg flow → Rerouted cfg (s.port x.side) flow) := by
  have truthful := truthful_of_run x.side run
  obtain ⟨-, paths, -, -, tree, -, exchange, countedBy⟩ := truthful.consumed x consumes rfl _ _ _ _ _ _ log
  obtain ⟨remote, rfl⟩ := records_of_run run consumes log
  have enabled := (truthful.past y counts side _ _ _ counted).2
  rw [countedBy y counts side flow cells counted] at here
  simp only [treeExchange, pipelined, if_true] at exchange
  rw [exchange] at reports
  obtain ⟨-, -, last, -, path_eq⟩ := pipelined_failure reports
  obtain ⟨walk, rfl⟩ := mem_countedCells_last pipelined splits last here
  rw [pipelined_hashPath deep splits last walk] at path_eq
  have set : isBloomFilterSet (s.port x.side) (getBloomFilterHashes cfg flow) = true := by
    rw [getBloomFilterHashes_eq, ← path_eq]
    exact paths _ _ _ _ _ _ _ (exchange ▸ reports)
  exact ⟨path_eq, set, fun reroutes notTop => rerouted_of_set reroutes enabled notTop set⟩

/-- With a split of zero nothing is ever reported below the root. -/
theorem climbs_of_failure {found : List Detection} (climbs : cfg.climbEnds found = true) {node cell bloom : Nat}
    {path : Bytes} {flows : List (String × FiveTuple)} {n r : UInt32}
    (reports : .failure node cell path flows bloom n r ∈ found) : 1 ≤ cfg.layerSplit ∨ cfg.treeDepth ≤ 1 := by
  simp only [FancyConfig.climbEnds, Bool.or_eq_true, decide_eq_true_eq, List.all_eq_true] at climbs
  rcases climbs with (splits | shallow) | none
  · exact Or.inl splits
  · exact Or.inr shallow
  · exact absurd (none _ reports) Bool.false_ne_true

/-- **Detection implies reroute, one layer at a time.** Without control loss and with no negative cost to reroute: only
the sessions of the bottom phase report a cell, the path is that of every flow counted in the cell in that session, and
from then on the filter of the port has that flow's entries and its packets are rerouted. -/
theorem serial_detection_reroutes (serial : cfg.pipeline = false) (nonneg : 0 ≤ cfg.rerouteMinCost)
    (run : Lts.Run (Link.step cfg) (Lossless cfg) (System.start cfg) s tr)
    {x : Seen} (consumes : x ∈ tr) {k : Nat} {localCounter counter : UInt64} {localCells : Nat → Nat → UInt32}
    {records : List (Nat × List UInt32)} {found : List Detection}
    (log : x.log = .consumed cfg.treeId k localCounter localCells counter records found)
    {node cell bloom : Nat} {path : Bytes} {flows : List (String × FiveTuple)} {n r : UInt32}
    (reports : .failure node cell path flows bloom n r ∈ found) :
    k % cfg.treeDepth = cfg.treeDepth - 1 ∧
      ∀ y ∈ tr, y.side = x.side → ∀ flow cells, y.log = .counted cfg.treeId k flow cells → (node, cell) ∈ cells →
        path = flowPath cfg flow ∧ isBloomFilterSet (s.port x.side) (getBloomFilterHashes cfg flow) = true ∧
        (cfg.rerouteEnabled = true → cfg.numTopEntries ≤ machineOf cfg flow → Rerouted cfg (s.port x.side) flow) := by
  have truthful := truthful_of_run x.side run
  obtain ⟨-, paths, climbEnds, ends, -⟩ := truthful.consumed x consumes rfl _ _ _ _ _ _ log
  have climbs := climbs_of_failure climbEnds reports
  have deep := (FancyConfig.exchangeEnds_bounds ends).1
  obtain ⟨-, -, detections, countedBy⟩ := consumed_trees run consumes log
  have reports' := reports
  rw [detections] at reports'
  refine ⟨?_, fun y counts side flow cells counted here => ?_⟩
  · have bottom := serial_bottom serial deep nonneg climbs reports'
    omega
  · have enabled := (truthful.past y counts side _ _ _ counted).2
    rw [countedBy y counts side flow cells counted] at here
    have path_eq := serial_path serial deep nonneg climbs reports' here
    have set : isBloomFilterSet (s.port x.side) (getBloomFilterHashes cfg flow) = true := by
      rw [getBloomFilterHashes_eq, ← path_eq]
      exact paths _ _ _ _ _ _ _ reports
    exact ⟨path_eq, set, fun reroutes notTop => rerouted_of_set reroutes enabled notTop set⟩

/-! A packet of cell 1 is lost in two sessions: the first selects the cell at the root, the second reports it below. -/

def reportsSecond : List (Label deepConfig) :=
  opensSecond ++ [.egress false oddPacket none true, .fire false 0, .deliver false, .fire true 1, .deliver true]

/-- The cells of the failures in a list of detections. -/
def failureCells (found : List Detection) : List (Nat × Nat) :=
  found.filterMap fun
    | .failure node cell _ _ _ _ _ => some (node, cell)
    | _ => none

theorem mem_failureCells {found : List Detection} {node cell : Nat} (mem : (node, cell) ∈ failureCells found) :
    ∃ path flows bloom n r, .failure node cell path flows bloom n r ∈ found := by
  obtain ⟨x, found, shown⟩ := List.mem_filterMap.1 mem
  cases x with
  | failure i j path flows bloom n r =>
    simp only [Option.some.injEq, Prod.mk.injEq] at shown
    obtain ⟨rfl, rfl⟩ := shown
    exact ⟨path, flows, bloom, n, r, found⟩
  | collision | partialFailure | uniformFailure | topFailure | softFailure => cases shown

/-- The first switch counted a packet of the given session for the tree in the given cell. -/
def countsIn (k : Nat) (cell : Nat × Nat) (x : Seen) : Bool :=
  match x.log with
  | .counted 0 k' _ cells => !x.side && k' == k && decide (cell ∈ cells)
  | _ => false

/-- The first switch reported the given cell of the tree in the given session. -/
def reportsIn (k : Nat) (cell : Nat × Nat) (x : Seen) : Bool :=
  match x.log with
  | .consumed 0 k' _ _ _ _ found => !x.side && k' == k && decide (cell ∈ failureCells found)
  | _ => false

theorem countsIn_log {k : Nat} {cell : Nat × Nat} {x : Seen} (shown : countsIn k cell x = true) :
    x.side = false ∧ ∃ flow cells, x.log = .counted 0 k flow cells ∧ cell ∈ cells := by
  unfold countsIn at shown
  split at shown
  · rename_i k' flow cells log
    simp only [Bool.and_eq_true, Bool.not_eq_true', beq_iff_eq, decide_eq_true_eq] at shown
    obtain ⟨⟨side, rfl⟩, here⟩ := shown
    exact ⟨side, flow, cells, log, here⟩
  · cases shown

theorem reportsIn_log {k : Nat} {cell : Nat × Nat} {x : Seen} (shown : reportsIn k cell x = true) :
    x.side = false ∧ ∃ n cells r records found, x.log = .consumed 0 k n cells r records found ∧ cell ∈ failureCells found := by
  unfold reportsIn at shown
  split at shown
  · rename_i k' n cells r records found log
    simp only [Bool.and_eq_true, Bool.not_eq_true', beq_iff_eq, decide_eq_true_eq] at shown
    obtain ⟨⟨side, rfl⟩, here⟩ := shown
    exact ⟨side, n, cells, r, records, found, log, here⟩
  · cases shown

theorem pipelined_detection_reroutes_second : ∃ s tr, Lts.Run (Link.step deepConfig) (fun _ _ => True)
    (System.start deepConfig) s tr ∧ ∃ y ∈ tr, ∃ flow cells, y.log = .counted 0 1 flow cells ∧
      isBloomFilterSet (s.port false) (getBloomFilterHashes deepConfig flow) = true := by
  have second : ∃ s tr, Lts.Run (Link.step deepConfig) (fun _ _ => True) (System.start deepConfig) s tr ∧
      (tr.any (countsIn 1 (1, 0)), tr.any (reportsIn 1 (1, 0))) = (true, true) :=
    Lts.Run.exists_of_guarded reportsSecond (by decide +kernel)
  obtain ⟨s, tr, run, shown⟩ := second
  simp only [Prod.mk.injEq, List.any_eq_true] at shown
  obtain ⟨⟨y, counts, shown⟩, ⟨x, consumes, shown'⟩⟩ := shown
  refine ⟨s, tr, run, y, counts, ?_⟩
  obtain ⟨side, flow, cells, counted, here⟩ := countsIn_log shown
  obtain ⟨side', n, localCells, c, records, found, log, failed⟩ := reportsIn_log shown'
  obtain ⟨path, flows, bloom, sent, received, reports⟩ := mem_failureCells failed
  have rerouted := pipelined_detection_reroutes rfl (by decide) (by decide) run consumes log reports counts
    (side.trans side'.symm) counted here
  rw [side'] at rerouted
  exact ⟨flow, cells, counted, rerouted.2.1⟩

/-- The same tree, one layer at a time. -/
def serialConfig : FancyConfig := { deepConfig with pipeline := false }

def serialSecond : List (Label serialConfig) :=
  let session : List (Label serialConfig) := [.fire false 0, .deliver false, .deliver true, .egress false oddPacket none true,
    .fire false 0, .deliver false, .fire true 1, .deliver true, .deliver false]
  session ++ session

theorem serial_detection_reroutes_second : ∃ s tr, Lts.Run (Link.step serialConfig) (Lossless serialConfig)
    (System.start serialConfig) s tr ∧ ∃ y ∈ tr, ∃ flow cells, y.log = .counted 0 1 flow cells ∧
      isBloomFilterSet (s.port false) (getBloomFilterHashes serialConfig flow) = true := by
  have second : ∃ s tr, Lts.Run (Link.step serialConfig) (fun l s => losslessStep serialConfig l s = true)
      (System.start serialConfig) s tr ∧ (tr.any (countsIn 1 (1, 0)), tr.any (reportsIn 1 (1, 0))) = (true, true) :=
    Lts.Run.exists_of_guarded serialSecond (by decide +kernel)
  obtain ⟨s, tr, checked, shown⟩ := second
  have run := checked.mono fun _ _ => lossless_of_losslessStep serialConfig
  simp only [Prod.mk.injEq, List.any_eq_true] at shown
  obtain ⟨⟨y, counts, shown⟩, ⟨x, consumes, shown'⟩⟩ := shown
  refine ⟨s, tr, run, y, counts, ?_⟩
  obtain ⟨side, flow, cells, counted, here⟩ := countsIn_log shown
  obtain ⟨side', n, localCells, c, records, found, log, failed⟩ := reportsIn_log shown'
  obtain ⟨path, flows, bloom, sent, received, reports⟩ := mem_failureCells failed
  have rerouted := (serial_detection_reroutes rfl (by decide) run consumes log reports).2 y counts
    (side.trans side'.symm) flow cells counted here
  rw [side'] at rerouted
  exact ⟨flow, cells, counted, rerouted.2.1⟩

end

end Ns3Fancy.Link

import Ns3Fancy.Switch.Zoom

/-!
# What an exchange reports

An exchange goes through the nodes in order: when it comes to a node, the nodes before it have their new selections and
those behind it still the old ones. It reports cells of the last layer whose cost is high enough, with the path it finds
on the way up through the new selections.
-/

namespace Ns3Fancy.Switch
open Buffer Function
set_option autoImplicit false

/-- The tree when the exchange comes to node `i`. -/
def turn {β : Type} (f : β → HashCounter → HashCounter) (row : Nat → β) (tree : Tree) (i : Nat) : Tree :=
  fun k => if k < i then f (row k) (tree k) else tree k

section
variable {cfg : FancyConfig} {tree remote : Tree} {seq : Nat}

/-- The detections of a fold over all nodes. -/
theorem foldl_exchange_found {β : Type} (row : Nat → β) {step : Tree × List Detection → Nat × β → Tree × List Detection}
    {f : β → HashCounter → HashCounter} {g : Tree → Nat × β → List Detection}
    (fst : ∀ acc r, (step acc r).1 = update acc.1 r.1 (f r.2 (acc.1 r.1)))
    (snd : ∀ acc r, (step acc r).2 = acc.2 ++ g acc.1 r) (tree : Tree) (n : Nat) :
    (((List.range n).map fun i => (i, row i)).foldl step (tree, [])).2 =
      (List.range n).flatMap fun i => g (turn f row tree i) (i, row i) := by
  induction n with
  | zero => rfl
  | succ n ih =>
    have before : (((List.range n).map fun i => (i, row i)).foldl step (tree, [])).1 = turn f row tree n :=
      funext (foldl_exchange_nodes fst tree n)
    rw [List.range_succ, List.map_append, List.foldl_append, List.flatMap_append, ← ih]
    simp only [List.map_cons, List.map_nil, List.foldl_cons, List.foldl_nil, snd, List.flatMap_cons, List.flatMap_nil,
      List.append_nil, before]

/-- The counters of a node as a report has them. -/
def reportRow (cfg : FancyConfig) (remote : Tree) (i : Nat) : List UInt32 :=
  (List.range cfg.counterWidth).map (remote i).counters

theorem reportRow_getD {i j : Nat} (inside : j < cfg.counterWidth) :
    (reportRow cfg remote i).getD j 0 = (remote i).counters j := by
  simp [reportRow, List.getD_eq_getElem?_getD, List.getElem?_range inside]

/-- The cost of a cell. -/
def lossCost (cfg : FancyConfig) (tree remote : Tree) (i j : Nat) : Cost :=
  cost cfg.costType ((tree i).counters j - (remote i).counters j).toNat ((tree i).counters j).toNat

/-- A failure among the detections of the last layer. -/
theorem lastLayerDetection_failure {level : Nat → Nat} {i j i' j' bloom : Nat} {path : Bytes} {m : UInt32}
    {flows : List (String × FiveTuple)} {n r : UInt32}
    (failure : .failure i j path flows bloom n r = lastLayerDetection cfg level seq tree i' j' m) :
    i = i' ∧ j = j' ∧ path = hashPath cfg tree level i j := by
  unfold lastLayerDetection at failure
  simp only at failure
  split at failure
  · simp only [Detection.failure.injEq] at failure
    obtain ⟨rfl, rfl, rfl, -⟩ := failure
    exact ⟨rfl, rfl, rfl⟩
  · cases failure

/-! ## Pipelined -/

/-- The tree by which the pipelined exchange looks at the cells of node `i`. -/
def pipelinedTurn (cfg : FancyConfig) (tree remote : Tree) (i : Nat) : Tree :=
  update (turn (pipelinedExchanged cfg) (reportRow cfg remote) tree i) i ((tree i).opened cfg.treeDepth cfg.layerSplit [])

theorem pipelinedTurn_self (tree remote : Tree) (i : Nat) :
    pipelinedTurn cfg tree remote i i = (tree i).opened cfg.treeDepth cfg.layerSplit [] := update_self _ _ _

/-- The uniform failure, at the root only. -/
def uniformFound (cfg : FancyConfig) (seq : Nat) (tree : Tree) (i : Nat) (remote : Nat → UInt32) : List Detection :=
  if 0 < cfg.uniformLossThreshold ∧ i = 0 ∧ cfg.uniformLossThreshold ≤ faultyCells cfg tree i remote then
    [.uniformFailure seq (faultyCells cfg tree i remote)]
  else []

/-- What the pipelined exchange reports at a node, by the tree with the node's history shifted. -/
def pipelinedNodeFound (cfg : FancyConfig) (seq : Nat) (tree : Tree) (r : Nat × List UInt32) : List Detection :=
  ((List.range cfg.counterWidth).flatMap fun j => pipelinedCellDetections cfg seq tree r.1 j (r.2.getD j 0)) ++
    uniformFound cfg seq tree r.1 fun j => r.2.getD j 0

theorem pipelinedExchangeNode_snd (seq : Nat) (acc : Tree × List Detection) (r : Nat × List UInt32) :
    (pipelinedExchangeNode cfg seq acc r).2 =
      acc.2 ++ pipelinedNodeFound cfg seq (update acc.1 r.1 ((acc.1 r.1).opened cfg.treeDepth cfg.layerSplit [])) r := rfl

theorem pipelined_found (seq : Nat) (remote tree : Tree) :
    (pipelinedCounterExchangeAlgorithm cfg seq (reportRecords cfg remote) tree).2 =
      (List.range cfg.nodesInTree).flatMap fun i =>
        pipelinedNodeFound cfg seq (pipelinedTurn cfg tree remote i) (i, reportRow cfg remote i) := by
  have fold := foldl_exchange_found (reportRow cfg remote) (@pipelinedExchangeNode_fst cfg seq)
    (g := fun t r => pipelinedNodeFound cfg seq (update t r.1 ((t r.1).opened cfg.treeDepth cfg.layerSplit [])) r)
    (pipelinedExchangeNode_snd seq) tree cfg.nodesInTree
  simp only [turn, Nat.lt_irrefl, if_false] at fold
  exact fold

theorem mem_pipelined_found {x : Detection} :
    x ∈ (pipelinedCounterExchangeAlgorithm cfg seq (reportRecords cfg remote) tree).2 ↔ ∃ i, i < cfg.nodesInTree ∧
      ((∃ j, j < cfg.counterWidth ∧
          x ∈ pipelinedCellDetections cfg seq (pipelinedTurn cfg tree remote i) i j ((remote i).counters j)) ∨
        x ∈ uniformFound cfg seq (pipelinedTurn cfg tree remote i) i fun j => (reportRow cfg remote i).getD j 0) := by
  rw [pipelined_found]
  simp only [pipelinedNodeFound, List.mem_flatMap, List.mem_range, List.mem_append]
  refine exists_congr fun i => and_congr_right fun _ => or_congr_left (exists_congr fun j => and_congr_right fun inside => ?_)
  rw [reportRow_getD inside]

theorem opened_counters (depth split : Nat) (cells : List UInt8) (n : HashCounter) :
    (n.opened depth split cells).counters = n.counters := rfl

theorem pipelinedTurn_cost (tree remote : Tree) (i j : Nat) :
    cellCost cfg (pipelinedTurn cfg tree remote i) i j ((remote i).counters j) = lossCost cfg tree remote i j := by
  simp only [cellCost, counterDiff, pipelinedTurn_self, opened_counters, lossCost]

/-- A cell that costs too much in the last layer is reported, or recorded as a collision. -/
theorem pipelined_reports {i j : Nat} (node : i < cfg.nodesInTree) (cell : j < cfg.counterWidth)
    (last : cfg.lastLayerIndex ≤ i) (costs : (cfg.rerouteMinCost : Cost) < lossCost cfg tree remote i j) :
    lastLayerDetection cfg (· + 1) seq (pipelinedTurn cfg tree remote i) i j ((remote i).counters j) ∈
      (pipelinedCounterExchangeAlgorithm cfg seq (reportRecords cfg remote) tree).2 := by
  refine mem_pipelined_found.2 ⟨i, node, Or.inl ⟨j, cell, ?_⟩⟩
  rw [pipelinedCellDetections, pipelinedTurn_cost, if_pos costs, if_pos last]
  exact List.mem_singleton.2 rfl

/-- **A failure the pipelined exchange reports** is a cell of the last layer that costs enough. Its path is the one by
which the flows were counted that zoomed into the cell. -/
theorem pipelined_failure {i j bloom : Nat} {path : Bytes} {flows : List (String × FiveTuple)} {n r : UInt32}
    (mem : .failure i j path flows bloom n r ∈
      (pipelinedCounterExchangeAlgorithm cfg seq (reportRecords cfg remote) tree).2) :
    i < cfg.nodesInTree ∧ j < cfg.counterWidth ∧ cfg.lastLayerIndex ≤ i ∧
      (cfg.rerouteMinCost : Cost) < lossCost cfg tree remote i j ∧
      path = hashPath cfg (pipelinedTurn cfg tree remote i) (· + 1) i j := by
  obtain ⟨i', node, found⟩ := mem_pipelined_found.1 mem
  rcases found with ⟨j', cell, found⟩ | found
  · unfold pipelinedCellDetections at found
    rw [pipelinedTurn_cost] at found
    split at found
    · rename_i costs
      split at found
      · rename_i last
        obtain ⟨rfl, rfl, rfl⟩ := lastLayerDetection_failure (List.mem_singleton.1 found)
        exact ⟨node, cell, last, costs, rfl⟩
      · split at found
        · simp [partialDetection] at found
        · cases found
    · cases found
  · unfold uniformFound at found
    split at found <;> simp at found

/-- A packet is counted in the last layer by the longest walk. -/
theorem mem_countedCells_last {flow : FiveTuple} {i j : Nat} (pipelined : cfg.pipeline = true) (splits : 1 ≤ cfg.layerSplit)
    (last : cfg.lastLayerIndex ≤ i) (mem : (i, j) ∈ countedCells cfg seq flow tree) :
    zoom cfg tree (fun level => cfg.treeDepth - 1 - 1 - level) flow (cfg.treeDepth - 1) = some i ∧
      j = cfg.cellOf flow (cfg.treeDepth - 1) := by
  rw [lastLayerIndex_eq splits] at last
  simp only [countedCells, pipelined, if_true, List.mem_cons, Prod.mk.injEq, List.mem_filterMap, List.mem_range,
    Option.map_eq_some_iff] at mem
  rcases mem with ⟨rfl, rfl⟩ | ⟨h, less, node, found, rfl, rfl⟩
  · have shallow : cfg.treeDepth - 1 = 0 := by
      rcases Nat.eq_zero_or_pos (cfg.treeDepth - 1) with zero | deep
      · exact zero
      · have first := layerStart_mono cfg.layerSplit deep
        simp only [layerStart] at first
        omega
    rw [shallow]
    exact ⟨rfl, rfl⟩
  · have depth : cfg.treeDepth - 1 = h + 1 := by
      have high := (zoom_layer found).2
      by_contra other
      have before := layerStart_mono cfg.layerSplit (show h + 1 + 1 ≤ cfg.treeDepth - 1 by omega)
      omega
    rw [depth]
    exact ⟨found, rfl⟩

/-- In pipelined mode the way up from a cell of the last layer retraces the walk that counts in it. -/
theorem pipelined_hashPath {flow : FiveTuple} {i : Nat} (deep : 1 ≤ cfg.treeDepth) (splits : 1 ≤ cfg.layerSplit)
    (last : cfg.lastLayerIndex ≤ i)
    (found : zoom cfg tree (fun level => cfg.treeDepth - 1 - 1 - level) flow (cfg.treeDepth - 1) = some i) :
    hashPath cfg (pipelinedTurn cfg tree remote i) (· + 1) i (cfg.cellOf flow (cfg.treeDepth - 1)) = flowPath cfg flow := by
  refine hashPath_zoom deep found fun k slot m above inside less => ?_
  have before : k < i := by
    rw [lastLayerIndex_eq splits] at last
    omega
  simp only [pipelinedTurn, update_of_ne (Nat.ne_of_lt before), turn, if_pos before, pipelinedExchanged_maxCells,
    HashCounter.opened_maxCells, if_pos inside]
  rw [if_neg (Nat.succ_ne_zero m), if_pos (by omega), Nat.add_sub_cancel]
  congr 1
  omega

/-! ## One layer at a time -/

/-- The tree by which the exchange of the other mode looks at the cells of node `i`. -/
def serialTurn (cfg : FancyConfig) (tree remote : Tree) (i : Nat) : Tree :=
  update (turn (exchanged cfg) (reportRow cfg remote) tree i) i ((tree i).setFirst cfg.layerSplit [])

theorem serialTurn_self (tree remote : Tree) (i : Nat) :
    serialTurn cfg tree remote i i = (tree i).setFirst cfg.layerSplit [] := update_self _ _ _

/-- What the exchange reports at a node. -/
def serialNodeFound (cfg : FancyConfig) (seq : Nat) (tree : Tree) (r : Nat × List UInt32) : List Detection :=
  (List.range cfg.counterWidth).flatMap fun j => cellDetections cfg seq tree r.1 j (r.2.getD j 0)

theorem exchangeNode_snd (seq : Nat) (acc : Tree × List Detection) (r : Nat × List UInt32) :
    (exchangeNode cfg seq acc r).2 =
      acc.2 ++ serialNodeFound cfg seq (update acc.1 r.1 ((acc.1 r.1).setFirst cfg.layerSplit [])) r := rfl

theorem serial_found (seq : Nat) (remote tree : Tree) :
    (counterExchangeAlgorithm cfg seq (reportRecords cfg remote) tree).2 =
      (List.range cfg.nodesInTree).flatMap fun i =>
        serialNodeFound cfg seq (serialTurn cfg tree remote i) (i, reportRow cfg remote i) := by
  have fold := foldl_exchange_found (reportRow cfg remote) (@exchangeNode_fst cfg seq)
    (g := fun t r => serialNodeFound cfg seq (update t r.1 ((t r.1).setFirst cfg.layerSplit [])) r)
    (exchangeNode_snd seq) tree cfg.nodesInTree
  simp only [turn, Nat.lt_irrefl, if_false] at fold
  exact fold

theorem serialTurn_cost (tree remote : Tree) (i j : Nat) :
    cellCost cfg (serialTurn cfg tree remote i) i j ((remote i).counters j) = lossCost cfg tree remote i j := by
  simp only [cellCost, counterDiff, serialTurn_self, lossCost]
  rfl

/-- What the exchange of the other mode reports: the cells of the last layer that cost enough. -/
theorem mem_serial_found {x : Detection} :
    x ∈ (counterExchangeAlgorithm cfg seq (reportRecords cfg remote) tree).2 ↔ ∃ i j, i < cfg.nodesInTree ∧
      j < cfg.counterWidth ∧ cfg.lastLayerIndex ≤ i ∧ (cfg.rerouteMinCost : Cost) < lossCost cfg tree remote i j ∧
      x = lastLayerDetection cfg (fun _ => 0) seq (serialTurn cfg tree remote i) i j ((remote i).counters j) := by
  rw [serial_found]
  simp only [serialNodeFound, List.mem_flatMap, List.mem_range]
  constructor
  · rintro ⟨i, node, j, cell, found⟩
    rw [reportRow_getD cell, cellDetections, serialTurn_cost] at found
    split at found
    · rename_i costs
      split at found
      · rename_i last
        exact ⟨i, j, node, cell, last, costs, List.mem_singleton.1 found⟩
      · cases found
    · cases found
  · rintro ⟨i, j, node, cell, last, costs, rfl⟩
    refine ⟨i, node, j, cell, ?_⟩
    rw [reportRow_getD cell, cellDetections, serialTurn_cost, if_pos costs, if_pos last]
    exact List.mem_singleton.2 rfl

end

end Ns3Fancy.Switch

import Ns3Fancy.Switch.Rounds
import Ns3Fancy.Switch.Selection

/-!
# Zooming reaches every lossy flow

Sessions one after the other in which the same few flows lose packets. Each of these flows is counted one layer deeper
in every session: its cell is lossy, there are no more lossy cells at its node than slots, so the exchange selects it and
the next session walks on from there. After as many sessions as the tree has layers the flow's cell of the last layer is
lossy, and the exchange reports it.
-/

namespace Ns3Fancy.Switch
open Buffer Function
set_option autoImplicit false

/-! ## Flows as the switch tells them apart -/

/-- What the switch hashes of a flow: its five tuple or its destination prefix. -/
def flowKey (cfg : FancyConfig) (flow : FiveTuple) : Bytes :=
  match cfg.packetHashType with
  | .fiveTupleHash => ipFiveTupleToBuffer flow
  | .dstPrefixHash => dstPrefixToBuffer flow

section
variable {cfg : FancyConfig} {tree tree' : Tree} {flow flow' : FiveTuple}

theorem cellOf_key (flow : FiveTuple) (l : Nat) : cfg.cellOf flow l = cfg.getHash (flowKey cfg flow) l cfg.counterWidth := by
  unfold FancyConfig.cellOf FancyConfig.packetHash flowKey
  cases cfg.packetHashType <;> rfl

theorem cellOf_congr (same : flowKey cfg flow = flowKey cfg flow') (l : Nat) : cfg.cellOf flow l = cfg.cellOf flow' l := by
  rw [cellOf_key, cellOf_key, same]

theorem zoom_key (same : flowKey cfg flow = flowKey cfg flow') (hist : Nat → Nat) (l : Nat) :
    zoom cfg tree hist flow l = zoom cfg tree hist flow' l := by
  induction l with
  | zero => rfl
  | succ l ih => simp only [zoom, ih, cellOf_congr same]

theorem countedCells_key (same : flowKey cfg flow = flowKey cfg flow') (seq : Nat) :
    countedCells cfg seq flow tree = countedCells cfg seq flow' tree := by
  simp only [countedCells, zoom_key same, cellOf_congr same]

/-- A packet is counted in a node's cell of the flow at the layer of the node. -/
theorem mem_countedCells_layer {seq i j l : Nat} (mem : (i, j) ∈ countedCells cfg seq flow tree)
    (layer : InLayer cfg.layerSplit l i) : j = cfg.cellOf flow l := by
  rw [countedCells_eq] at mem
  obtain ⟨s, walked, here⟩ := List.mem_map.1 mem
  obtain ⟨rfl, rfl⟩ := Prod.mk.inj here
  rw [layer.unique (countedLevels_layer walked)]

end

/-! ## The lossy cells of a node -/

/-- The flows that lose packets in a session are those of `F`, and the losses do not wrap a counter. -/
structure Losses (cfg : FancyConfig) (F : Finset Bytes) (c : Packets) : Prop where
  only : ∀ flow ∈ lostFlows c, flowKey cfg flow ∈ F
  each : ∀ f ∈ F, ∃ flow ∈ lostFlows c, flowKey cfg flow = f
  fits : (lostFlows c).length < 2 ^ 32

section
variable {cfg : FancyConfig} {F : Finset Bytes} {k : Nat} {c : Packets} {x : Trees} {i j : Nat}

theorem Fresh.lossy (aligned : Aligned cfg k x) (fresh : Fresh cfg k x i) (cell : j < cfg.counterWidth) :
    j ∈ lossyCells cfg (reportRow cfg (meteredTrees cfg k c x).2 i) ((meteredTrees cfg k c x).1 i) ↔
      cellHits cfg k x i j (lostFlows c) % 2 ^ 32 ≠ 0 := by
  rw [mem_lossyCells, reportRow_getD cell, fresh.difference aligned, UInt32.toNat_ofNat']
  constructor
  · rintro ⟨-, costs⟩ zero
    rw [zero, cost_zero] at costs
    exact lt_irrefl _ costs
  · exact fun lost => ⟨cell, cost_pos _ (Nat.pos_of_ne_zero lost) _⟩

/-- There are no more lossy cells at a node than flows that lose packets. -/
theorem lossyCells_few (aligned : Aligned cfg k x) (fresh : Fresh cfg k x i) (losses : Losses cfg F c) {l : Nat}
    (layer : InLayer cfg.layerSplit l i) :
    (lossyCells cfg (reportRow cfg (meteredTrees cfg k c x).2 i) ((meteredTrees cfg k c x).1 i)).length ≤ F.card := by
  rw [← List.toFinset_card_of_nodup lossyCells_nodup]
  refine Nat.le_trans (Finset.card_le_card ?_)
    (Finset.card_image_le (s := F) (f := fun f => cfg.getHash f l cfg.counterWidth))
  intro j mem
  rw [List.mem_toFinset] at mem
  have lost := (fresh.lossy aligned (mem_lossyCells.1 mem).1).1 mem
  have some_hit : 0 < cellHits cfg k x i j (lostFlows c) := by
    refine Nat.pos_of_ne_zero fun zero => lost ?_
    rw [zero, Nat.zero_mod]
  obtain ⟨flow, lostFlow, here⟩ := List.countP_pos_iff.1 some_hit
  rw [decide_eq_true_eq] at here
  rw [Finset.mem_image]
  refine ⟨flowKey cfg flow, losses.only flow lostFlow, ?_⟩
  rw [mem_countedCells_layer here layer, cellOf_key]

/-- The cell in which a lossy flow is counted is lossy. -/
theorem lossyCells_of_counted (wide : 1 ≤ cfg.counterWidth) (aligned : Aligned cfg k x) (fresh : Fresh cfg k x i)
    (losses : Losses cfg F c) {flow : FiveTuple} (inF : flowKey cfg flow ∈ F) {l : Nat}
    (here : (i, cfg.cellOf flow l) ∈ countedCells cfg k flow x.1) :
    cfg.cellOf flow l ∈ lossyCells cfg (reportRow cfg (meteredTrees cfg k c x).2 i) ((meteredTrees cfg k c x).1 i) := by
  have cell : cfg.cellOf flow l < cfg.counterWidth := by
    rw [cellOf_key]
    exact Nat.mod_lt _ wide
  refine (fresh.lossy aligned cell).2 ?_
  obtain ⟨flow', lost, same⟩ := losses.each _ inF
  have hit : 0 < cellHits cfg k x i (cfg.cellOf flow l) (lostFlows c) := by
    refine List.countP_pos_iff.2 ⟨flow', lost, ?_⟩
    simp only [decide_eq_true_eq, countedCells_key same]
    exact here
  have few : cellHits cfg k x i (cfg.cellOf flow l) (lostFlows c) ≤ (lostFlows c).length := List.countP_le_length
  rw [Nat.mod_eq_of_lt (Nat.lt_of_le_of_lt few losses.fits)]
  exact Nat.ne_of_gt hit

end

/-! ## The walk of a lossy flow, session after session -/

/-- The history that a walk of `m` levels reads. -/
def walkHist (cfg : FancyConfig) (m : Nat) : Nat → Nat := fun level => if cfg.pipeline then m - 1 - level else 0

/-- Session `k` counts in layer `m`: always in pipelined mode, in the other mode in the zoom phase of the layer. -/
def InPhase (cfg : FancyConfig) (k m : Nat) : Prop := cfg.pipeline = true ∨ k % cfg.treeDepth = m

section
variable {cfg : FancyConfig} {F : Finset Bytes} {C : Nat → Packets} {k m node : Nat} {flow : FiveTuple}

theorem walkHist_pipelined (pipelined : cfg.pipeline = true) (m : Nat) : walkHist cfg m = fun level => m - 1 - level := by
  unfold walkHist
  simp only [pipelined, if_true]

theorem walkHist_serial (serial : cfg.pipeline = false) (m : Nat) : walkHist cfg m = fun _ => 0 := by
  unfold walkHist
  simp only [serial, Bool.false_eq_true, if_false]

/-- A walk down to layer `m` counts there. -/
theorem mem_countedCells_walk {tree : Tree} (phase : InPhase cfg k m) (inside : m < cfg.treeDepth)
    (walk : zoom cfg tree (walkHist cfg m) flow m = some node) : (node, cfg.cellOf flow m) ∈ countedCells cfg k flow tree := by
  unfold countedCells
  cases mode : cfg.pipeline with
  | true =>
    rw [if_pos rfl]
    rw [walkHist_pipelined mode] at walk
    cases m with
    | zero =>
      cases walk
      exact List.mem_cons_self
    | succ h =>
      refine List.mem_cons_of_mem _ (List.mem_filterMap.2 ⟨h, List.mem_range.2 (by omega), ?_⟩)
      rw [Nat.add_sub_cancel] at walk
      rw [walk, Option.map_some]
  | false =>
    have phase' := phase.resolve_left (by rw [mode]; decide)
    rw [walkHist_serial mode] at walk
    rw [if_neg Bool.false_ne_true, phase', walk]
    exact List.mem_singleton.2 rfl

theorem walk_inside (splits : 1 ≤ cfg.layerSplit) {tree : Tree} {hist : Nat → Nat} (inside : m < cfg.treeDepth)
    (walk : zoom cfg tree hist flow m = some node) : node < cfg.nodesInTree := by
  rw [nodesInTree_eq splits]
  exact Nat.lt_of_lt_of_le (zoom_layer walk).2 (layerStart_mono _ inside)

/-- The node a walk counts in started the session clear. -/
theorem walk_fresh (splits : 1 ≤ cfg.layerSplit) (phase : InPhase cfg k m) (inside : m < cfg.treeDepth)
    (walk : zoom cfg (treesAt cfg C k).1 (walkHist cfg m) flow m = some node) : Fresh cfg k (treesAt cfg C k) node := by
  cases mode : cfg.pipeline with
  | true => exact pipelined_fresh mode C k (walk_inside splits inside walk)
  | false =>
    have phase' := phase.resolve_left (by rw [mode]; decide)
    refine serial_fresh mode (by omega) C k node ?_
    rw [phase']
    exact (zoom_layer walk).1

/-- The flow's cell at the node it is counted in is lossy. -/
theorem walk_lossy (splits : 1 ≤ cfg.layerSplit) (wide : 1 ≤ cfg.counterWidth) (phase : InPhase cfg k m)
    (inside : m < cfg.treeDepth) (losses : Losses cfg F (C k)) (inF : flowKey cfg flow ∈ F)
    (walk : zoom cfg (treesAt cfg C k).1 (walkHist cfg m) flow m = some node) :
    cfg.cellOf flow m ∈ lossyCells cfg (reportRow cfg (meteredTrees cfg k (C k) (treesAt cfg C k)).2 node)
      ((meteredTrees cfg k (C k) (treesAt cfg C k)).1 node) :=
  lossyCells_of_counted wide (treesAt_aligned C k) (walk_fresh splits phase inside walk) losses inF
    (mem_countedCells_walk phase inside walk)

/-- The selections after a session, in pipelined mode. -/
theorem pipelined_next (pipelined : cfg.pipeline = true) {i h ii : Nat} (node : i < cfg.nodesInTree)
    (slot : ii < cfg.layerSplit) (recorded : h < cfg.treeDepth) :
    ((treesAt cfg C (k + 1)).1 i).maxCells h ii =
      if h = 0 then ((pipelinedSelection cfg (reportRow cfg (meteredTrees cfg k (C k) (treesAt cfg C k)).2 i)
        ((meteredTrees cfg k (C k) (treesAt cfg C k)).1 i)).map .ofNat).getD ii 0
      else ((treesAt cfg C k).1 i).maxCells (h - 1) ii := by
  have kept : ((meteredTrees cfg k (C k) (treesAt cfg C k)).1 i).maxCells = ((treesAt cfg C k).1 i).maxCells :=
    sameHistory_countAll _ _ _ _ i
  simp only [treesAt, closedTree, treeExchange, pipelined, if_true]
  rw [pipelinedExchange_node, if_pos node]
  simp only [HashCounter.resetFlows, pipelinedExchanged_maxCells, HashCounter.opened_maxCells, if_pos slot, if_pos recorded,
    kept]
  rfl

/-- The selections after a session, in the other mode. -/
theorem serial_next (serial : cfg.pipeline = false) {i : Nat} (node : i < cfg.nodesInTree) :
    ((treesAt cfg C (k + 1)).1 i).maxCells =
      (exchanged cfg (reportRow cfg (meteredTrees cfg k (C k) (treesAt cfg C k)).2 i)
        ((meteredTrees cfg k (C k) (treesAt cfg C k)).1 i)).maxCells := by
  simp only [treesAt, closedTree, treeExchange, serial, Bool.false_eq_true, if_false]
  rw [exchange_node, if_pos node]
  split <;> rfl

/-- What a walk needs of a switch and the flows that lose packets. -/
structure Zoomable (cfg : FancyConfig) (F : Finset Bytes) : Prop where
  splits : 1 ≤ cfg.layerSplit
  wide : cfg.layerSplit ≤ cfg.counterWidth
  narrow : cfg.counterWidth ≤ 255
  few : F.card ≤ cfg.layerSplit

/-- **A lossy flow walks on**: one layer deeper in the next session. -/
theorem walk_next (zoomable : Zoomable cfg F) (phase : InPhase cfg k m) (inner : m + 1 < cfg.treeDepth)
    (losses : Losses cfg F (C k)) (inF : flowKey cfg flow ∈ F)
    (walk : zoom cfg (treesAt cfg C k).1 (walkHist cfg m) flow m = some node) :
    ∃ next, zoom cfg (treesAt cfg C (k + 1)).1 (walkHist cfg (m + 1)) flow (m + 1) = some next := by
  obtain ⟨splits, wide, narrow, few⟩ := zoomable
  have inside : m < cfg.treeDepth := by omega
  have inTree := walk_inside splits inside walk
  have mem := walk_lossy splits (Nat.le_trans splits wide) phase inside losses inF walk
  have fewCells := Nat.le_trans (lossyCells_few (treesAt_aligned C k) (walk_fresh splits phase inside walk) losses
    (zoom_layer walk)) few
  have above : ∀ i, i < layerStart cfg.layerSplit m → i < cfg.nodesInTree := fun i less =>
    Nat.lt_of_lt_of_le less (Nat.le_trans (layerStart_mono _ (Nat.le_of_lt inside)) (Nat.le_of_eq (nodesInTree_eq splits).symm))
  cases mode : cfg.pipeline with
  | true =>
    obtain ⟨slot, slots, holds⟩ := (pipelinedSelection_lossy splits fewCells).slot narrow mem
    -- what the walk read is one level older in the next session
    have again : zoom cfg (treesAt cfg C (k + 1)).1 (walkHist cfg (m + 1)) flow m = some node := by
      rw [← walk]
      refine zoom_same fun i h ii below less inSlots => ?_
      simp only [walkHist_pipelined mode]
      rw [pipelined_next mode (above i below) inSlots (by omega), if_neg (by omega)]
      congr 1
      omega
    refine zoom_next again slots ?_
    rw [walkHist_pipelined mode]
    simp only [Nat.add_sub_cancel, Nat.sub_self]
    rw [pipelined_next mode inTree slots (by omega), if_pos rfl]
    exact holds
  | false =>
    have phase' := phase.resolve_left (by rw [mode]; decide)
    obtain ⟨slot, slots, holds⟩ := (nodeSelection_lossy fewCells).slot narrow mem
    -- the layers above the zoom phase select again what the walk read
    have again : zoom cfg (treesAt cfg C (k + 1)).1 (walkHist cfg (m + 1)) flow m = some node := by
      rw [← walk]
      refine zoom_same fun i h ii below less inSlots => ?_
      simp only [walkHist_serial mode]
      rw [serial_next mode (above i below), serial_stable mode (by omega) C k (above i below) (by rw [phase']; exact below)]
    refine zoom_next again slots ?_
    rw [walkHist_serial mode, serial_next mode inTree, exchanged_maxCells, if_pos ⟨rfl, slots⟩]
    exact holds

theorem InPhase.add (start : InPhase cfg k 0) (inside : m < cfg.treeDepth) : InPhase cfg (k + m) m := by
  rcases start with pipelined | first
  · exact Or.inl pipelined
  · refine Or.inr ?_
    rw [Nat.add_mod, first, Nat.zero_add, Nat.mod_mod, Nat.mod_eq_of_lt inside]

/-- **Every lossy flow is walked down to every layer**, one session after the other. -/
theorem walk_reaches (zoomable : Zoomable cfg F) (start : InPhase cfg k 0)
    (losses : ∀ m, m < cfg.treeDepth → Losses cfg F (C (k + m))) (inF : flowKey cfg flow ∈ F) (inside : m < cfg.treeDepth) :
    ∃ node, zoom cfg (treesAt cfg C (k + m)).1 (walkHist cfg m) flow m = some node := by
  induction m with
  | zero => exact ⟨0, rfl⟩
  | succ m ih =>
    obtain ⟨node, walk⟩ := ih (by omega)
    exact walk_next zoomable (start.add (by omega)) inside (losses m (by omega)) inF walk

/-- The detection of a flow's cell of the last layer. -/
def cellDetection (cfg : FancyConfig) (k : Nat) (trees : Trees) (node cell : Nat) : Detection :=
  if cfg.pipeline then
    lastLayerDetection cfg (· + 1) k (pipelinedTurn cfg trees.1 trees.2 node) node cell ((trees.2 node).counters cell)
  else lastLayerDetection cfg (fun _ => 0) k (serialTurn cfg trees.1 trees.2 node) node cell ((trees.2 node).counters cell)

/-- A lossy flow that is walked down to the last layer is detected there. -/
theorem walk_detected (zoomable : Zoomable cfg F) (eager : cfg.rerouteMinCost ≤ 0) (phase : InPhase cfg k (cfg.treeDepth - 1))
    (deep : 1 ≤ cfg.treeDepth) (losses : Losses cfg F (C k)) (inF : flowKey cfg flow ∈ F)
    (walk : zoom cfg (treesAt cfg C k).1 (walkHist cfg (cfg.treeDepth - 1)) flow (cfg.treeDepth - 1) = some node) :
    cfg.lastLayerIndex ≤ node ∧ node < cfg.nodesInTree ∧
      cellDetection cfg k (meteredTrees cfg k (C k) (treesAt cfg C k)) node (cfg.cellOf flow (cfg.treeDepth - 1)) ∈
        (closedTree cfg k (C k) (treesAt cfg C k)).2 := by
  obtain ⟨splits, wide, -, -⟩ := zoomable
  have inside : cfg.treeDepth - 1 < cfg.treeDepth := by omega
  have last : cfg.lastLayerIndex ≤ node := by
    rw [lastLayerIndex_eq splits]
    exact (zoom_layer walk).1
  have inTree := walk_inside splits inside walk
  have mem := walk_lossy splits (Nat.le_trans splits wide) phase inside losses inF walk
  obtain ⟨cell, costs⟩ := mem_lossyCells.1 mem
  rw [reportRow_getD cell] at costs
  have enough : (cfg.rerouteMinCost : Cost) < lossCost cfg (meteredTrees cfg k (C k) (treesAt cfg C k)).1
      (meteredTrees cfg k (C k) (treesAt cfg C k)).2 node (cfg.cellOf flow (cfg.treeDepth - 1)) :=
    lt_of_le_of_lt (WithTop.coe_le_coe.2 eager) costs
  refine ⟨last, inTree, ?_⟩
  unfold closedTree treeExchange cellDetection
  cases mode : cfg.pipeline with
  | true =>
    simp only [if_true]
    exact pipelined_reports inTree cell last enough
  | false =>
    simp only [Bool.false_eq_true, if_false]
    exact mem_serial_found.2 ⟨node, _, inTree, cell, last, enough, rfl⟩

end

end Ns3Fancy.Switch

import Ns3Fancy.Switch.Exchange

/-!
# Sessions of the two trees

The trees of the two ends of a zooming machine, session after session, when nothing of the machine is lost on the way:
the sender counts the packets that leave, the receiver those that arrive, and the report closes the session. Both ends
walk by the same selections, so in the nodes that a session starts with clear counters the difference of a cell is the
number of its packets that were lost. In pipelined mode these are all nodes; in the other mode they are the nodes from
the layer of the zoom phase on, and those above keep their counters until the bottom phase is over.
-/

namespace Ns3Fancy.Switch
open Buffer Function
set_option autoImplicit false

/-- The sender's tree and the receiver's. -/
abbrev Trees := Tree × Tree

/-- The packets a session counted, with their losses. -/
abbrev Packets := List (FiveTuple × Bool)

/-- The flows of the packets that left, that arrived and that were lost. -/
def sentFlows (c : Packets) : List FiveTuple := c.map (·.1)
def arrivedFlows (c : Packets) : List FiveTuple := (c.filter fun e => !e.2).map (·.1)
def lostFlows (c : Packets) : List FiveTuple := (c.filter fun e => e.2).map (·.1)

section
variable (cfg : FancyConfig)

def countAll (sender : Bool) (seq : Nat) (flows : List FiveTuple) (tree : Tree) : Tree :=
  flows.foldl (fun t flow => treeCounting cfg sender seq flow t) tree

/-- The receiver's tree when session `k` opens. -/
def openTree (k : Nat) (x : Trees) : Tree := treeInit cfg k true (startRecords cfg x.1) x.2

/-- Both trees when session `k` has counted `c`. -/
def meteredTrees (k : Nat) (c : Packets) (x : Trees) : Trees :=
  (countAll cfg true k (sentFlows c) x.1, countAll cfg false k (arrivedFlows c) (openTree cfg k x))

/-- What the exchange at the end of session `k` makes of the sender's tree, and what it reports. -/
def closedTree (k : Nat) (c : Packets) (x : Trees) : Tree × List Detection :=
  treeExchange cfg k (reportRecords cfg (meteredTrees cfg k c x).2) (meteredTrees cfg k c x).1

/-- Both trees before session `k`, session `j` having counted `C j`. -/
def treesAt (C : Nat → Packets) : Nat → Trees
  | 0 => (fun _ => {}, fun _ => {})
  | k + 1 => ((closedTree cfg k (C k) (treesAt C k)).1, (meteredTrees cfg k (C k) (treesAt C k)).2)

end

section
variable {cfg : FancyConfig} {C : Nat → Packets} {k : Nat} {c : Packets} {x : Trees}

/-! ## Selections -/

/-- The two ends will agree on the selections in session `k`. -/
def Aligned (cfg : FancyConfig) (k : Nat) (x : Trees) : Prop := SameHistory x.1 (openTree cfg k x)

theorem sameHistory_countAll (sender : Bool) (seq : Nat) (flows : List FiveTuple) (tree : Tree) :
    SameHistory (countAll cfg sender seq flows tree) tree :=
  (foldl_treeCounting_counters sender seq flows tree 0 0).1

/-- Counting in a session keeps the two ends together. -/
theorem Aligned.metered (h : Aligned cfg k x) (c : Packets) :
    SameHistory (meteredTrees cfg k c x).1 (meteredTrees cfg k c x).2 :=
  ((sameHistory_countAll _ _ _ _).trans h).trans (sameHistory_countAll _ _ _ _).symm

theorem treesAt_aligned (C : Nat → Packets) (k : Nat) : Aligned cfg k (treesAt cfg C k) := by
  induction k with
  | zero => exact sameHistory_treeInit_start 0
  | succ k ih =>
    simp only [Aligned, treesAt, openTree, treeInit, closedTree, treeExchange]
    have same := ih.metered (C k)
    split
    · exact sameHistory_pipelinedInit same _ _
    · exact sameHistory_init same _ _ _

/-! ## Counters -/

theorem countAll_counters (sender : Bool) (seq : Nat) (flows : List FiveTuple) (tree : Tree) (i j : Nat) :
    (countAll cfg sender seq flows tree i).counters j =
      (tree i).counters j + UInt32.ofNat (hits (fun flow => countedCells cfg seq flow tree) i j flows) :=
  (foldl_treeCounting_counters sender seq flows tree i j).2

theorem hits_sent (cells : FiveTuple → List (Nat × Nat)) (i j : Nat) (c : Packets) :
    hits cells i j (sentFlows c) = hits cells i j (arrivedFlows c) + hits cells i j (lostFlows c) := by
  induction c with
  | nil => rfl
  | cons e c ih =>
    obtain ⟨flow, lost⟩ := e
    simp only [hits, sentFlows, arrivedFlows, lostFlows] at ih ⊢
    cases lost <;> simp [List.countP_cons, ih] <;> omega

/-- Node `i` starts session `k` with clear counters at both ends. -/
def Fresh (cfg : FancyConfig) (k : Nat) (x : Trees) (i : Nat) : Prop :=
  ∀ j, (x.1 i).counters j = 0 ∧ (openTree cfg k x i).counters j = 0

/-- The packets that session `k` counted in a cell. -/
def cellHits (cfg : FancyConfig) (k : Nat) (x : Trees) (i j : Nat) (flows : List FiveTuple) : Nat :=
  hits (fun flow => countedCells cfg k flow x.1) i j flows

/-- **The counters of a node that started clear.** -/
theorem Fresh.counters (aligned : Aligned cfg k x) {i : Nat} (fresh : Fresh cfg k x i) (c : Packets) (j : Nat) :
    ((meteredTrees cfg k c x).1 i).counters j = UInt32.ofNat (cellHits cfg k x i j (sentFlows c)) ∧
      ((meteredTrees cfg k c x).2 i).counters j = UInt32.ofNat (cellHits cfg k x i j (arrivedFlows c)) := by
  obtain ⟨sender, receiver⟩ := fresh j
  constructor
  · rw [meteredTrees, countAll_counters, sender, UInt32.zero_add]
    rfl
  · rw [meteredTrees, countAll_counters, receiver, UInt32.zero_add]
    simp only [← countedCells_congr aligned]
    rfl

/-- The difference of a cell is the number of its packets that were lost. -/
theorem Fresh.difference (aligned : Aligned cfg k x) {i : Nat} (fresh : Fresh cfg k x i) (c : Packets) (j : Nat) :
    ((meteredTrees cfg k c x).1 i).counters j - ((meteredTrees cfg k c x).2 i).counters j =
      UInt32.ofNat (cellHits cfg k x i j (lostFlows c)) := by
  obtain ⟨sent, arrived⟩ := fresh.counters aligned c j
  rw [sent, arrived, cellHits, cellHits, cellHits, hits_sent, UInt32.ofNat_add, UInt32.add_comm, UInt32.add_sub_cancel]

/-! ## Pipelined mode -/

theorem treesAt_zero (pipelined : cfg.pipeline = true) (C : Nat → Packets) (k : Nat) {i : Nat}
    (inside : i < cfg.nodesInTree) (j : Nat) : ((treesAt cfg C k).1 i).counters j = 0 := by
  cases k with
  | zero => rfl
  | succ k =>
    simp only [treesAt, closedTree, treeExchange, pipelined, if_true]
    rw [pipelinedExchange_node, if_pos inside]
    rfl

/-- In pipelined mode every node starts every session clear. -/
theorem pipelined_fresh (pipelined : cfg.pipeline = true) (C : Nat → Packets) (k : Nat) {i : Nat}
    (inside : i < cfg.nodesInTree) : Fresh cfg k (treesAt cfg C k) i := by
  intro j
  refine ⟨treesAt_zero pipelined C k inside j, ?_⟩
  simp only [openTree, treeInit, pipelined, if_true]
  rw [pipelinedInit_node, if_pos inside]
  rfl

/-! ## One layer at a time -/

/-- A session of the other mode counts in one layer. -/
theorem mem_countedCells_serial (serial : cfg.pipeline = false) {tree : Tree} {flow : FiveTuple} {i j : Nat}
    (mem : (i, j) ∈ countedCells cfg k flow tree) :
    zoom cfg tree (fun _ => 0) flow (k % cfg.treeDepth) = some i ∧ j = cfg.cellOf flow (k % cfg.treeDepth) := by
  simp only [countedCells, serial, Bool.false_eq_true, if_false, List.mem_map, Option.mem_toList, Prod.mk.injEq] at mem
  obtain ⟨node, found, rfl, rfl⟩ := mem
  exact ⟨found, rfl⟩

theorem hits_serial (serial : cfg.pipeline = false) (tree : Tree) {i : Nat}
    (outside : i < layerStart cfg.layerSplit (k % cfg.treeDepth) ∨ layerStart cfg.layerSplit (k % cfg.treeDepth + 1) ≤ i)
    (j : Nat) (flows : List FiveTuple) : hits (fun flow => countedCells cfg k flow tree) i j flows = 0 := by
  simp only [hits, List.countP_eq_zero, decide_eq_true_eq]
  intro flow _ mem
  obtain ⟨low, high⟩ := zoom_layer (mem_countedCells_serial serial mem).1
  omega

theorem layerStart_le_nodes (cfg : FancyConfig) : layerStart cfg.layerSplit cfg.treeDepth ≤ cfg.nodesInTree := by
  rcases Nat.eq_zero_or_pos cfg.layerSplit with none | some
  · have small : ∀ l, layerStart 0 l ≤ 1 := fun l => by cases l <;> simp [layerStart]
    have default : cfg.nodesInTree = 31 := by simp [FancyAttributes.nodesInTree, none]
    rw [none, default]
    exact Nat.le_trans (small _) (by decide)
  · exact Nat.le_of_eq (nodesInTree_eq some).symm

theorem phase_succ (D k : Nat) (deep : 1 ≤ D) :
    (k % D + 1 = D ∧ (k + 1) % D = 0) ∨ (k % D + 1 < D ∧ (k + 1) % D = k % D + 1) := by
  have less := Nat.mod_lt k deep
  have split := Nat.div_add_mod k D
  rcases Nat.lt_or_eq_of_le (Nat.succ_le_of_lt less) with inner | bottom
  · refine Or.inr ⟨inner, ?_⟩
    rw [← split, Nat.add_assoc, Nat.mul_add_mod, Nat.mul_add_mod, Nat.mod_mod]
    exact Nat.mod_eq_of_lt inner
  · refine Or.inl ⟨bottom, ?_⟩
    rw [← split, Nat.add_assoc, Nat.mul_add_mod, show k % D + 1 = D from bottom, Nat.mod_self]

theorem serial_open_counters (serial : cfg.pipeline = false) (x : Trees) (i : Nat) :
    (openTree cfg k x i).counters =
      if i < cfg.nodesInTree ∧ k % cfg.treeDepth = 0 then fun _ => 0 else (x.2 i).counters := by
  simp only [openTree, treeInit, serial, Bool.false_eq_true, if_false]
  rw [init_node]
  by_cases inside : i < cfg.nodesInTree
  · by_cases first : k % cfg.treeDepth = 0
    · rw [if_pos inside, if_pos first, if_pos ⟨inside, first⟩]
      rfl
    · rw [if_pos inside, if_neg first, if_neg fun both => first both.2]
      rfl
  · rw [if_neg inside, if_neg fun both => inside both.1]

theorem serial_closed_counters (serial : cfg.pipeline = false) (c : Packets) (x : Trees) (i : Nat) :
    ((closedTree cfg k c x).1 i).counters =
      if i < cfg.nodesInTree ∧ k % cfg.treeDepth + 1 = cfg.treeDepth then fun _ => 0
      else ((meteredTrees cfg k c x).1 i).counters := by
  simp only [closedTree, treeExchange, serial, Bool.false_eq_true, if_false]
  rw [exchange_node]
  by_cases inside : i < cfg.nodesInTree
  · by_cases bottom : k % cfg.treeDepth + 1 = cfg.treeDepth
    · rw [if_pos inside, if_pos bottom, if_pos ⟨inside, bottom⟩]
      rfl
    · rw [if_pos inside, if_neg bottom, if_neg fun both => bottom both.2]
      rfl
  · rw [if_neg inside, if_neg fun both => inside both.1]

/-- In the other mode the nodes from the layer of the zoom phase on start clear. -/
theorem serial_fresh (serial : cfg.pipeline = false) (deep : 1 ≤ cfg.treeDepth) (C : Nat → Packets) (k : Nat) :
    ∀ i, layerStart cfg.layerSplit (k % cfg.treeDepth) ≤ i → Fresh cfg k (treesAt cfg C k) i := by
  induction k with
  | zero =>
    intro i _ j
    refine ⟨rfl, ?_⟩
    rw [serial_open_counters serial]
    split <;> rfl
  | succ k ih =>
    intro i layer j
    -- past the layer of session `k` nothing was counted
    have still : layerStart cfg.layerSplit (k % cfg.treeDepth + 1) ≤ i →
        ((meteredTrees cfg k (C k) (treesAt cfg C k)).1 i).counters j = 0 ∧
          ((meteredTrees cfg k (C k) (treesAt cfg C k)).2 i).counters j = 0 := by
      intro below
      obtain ⟨sender, receiver⟩ := ih i (Nat.le_trans (layerStart_le_succ _ _) below) j
      simp only [meteredTrees, countAll_counters, sender, receiver, hits_serial serial _ (Or.inr below)]
      exact ⟨rfl, rfl⟩
    have past : ¬i < cfg.nodesInTree → layerStart cfg.layerSplit (k % cfg.treeDepth + 1) ≤ i := fun outside =>
      Nat.le_trans (layerStart_mono _ (Nat.mod_lt k deep)) (Nat.le_trans (layerStart_le_nodes cfg) (Nat.le_of_not_lt outside))
    rcases phase_succ cfg.treeDepth k deep with ⟨bottom, zero⟩ | ⟨inner, next⟩
    · constructor
      · simp only [treesAt, serial_closed_counters serial]
        by_cases inside : i < cfg.nodesInTree
        · rw [if_pos ⟨inside, bottom⟩]
        · rw [if_neg fun both => inside both.1]
          exact (still (past inside)).1
      · simp only [treesAt, serial_open_counters serial]
        by_cases inside : i < cfg.nodesInTree
        · rw [if_pos ⟨inside, zero⟩]
        · rw [if_neg fun both => inside both.1]
          exact (still (past inside)).2
    · rw [next] at layer
      constructor
      · simp only [treesAt, serial_closed_counters serial]
        rw [if_neg fun both => Nat.ne_of_lt inner both.2]
        exact (still layer).1
      · simp only [treesAt, serial_open_counters serial]
        rw [if_neg fun both => by omega]
        exact (still layer).2

/-- Selecting twice from the same counters selects the same. -/
theorem exchanged_exchanged (row : List UInt32) (n : HashCounter) :
    exchanged cfg row (exchanged cfg row n) = exchanged cfg row n := by
  have same : nodeSelection cfg row (exchanged cfg row n) = nodeSelection cfg row n := rfl
  rw [exchanged, same]
  simp only [exchanged, HashCounter.setFirst, HashCounter.mk.injEq, true_and]
  funext h j
  split <;> rfl

theorem exchanged_maxCells_congr {row row' : List UInt32} {n n' : HashCounter} (rows : row = row')
    (counters : n.counters = n'.counters) (cells : n.maxCells = n'.maxCells) :
    (exchanged cfg row n).maxCells = (exchanged cfg row' n').maxCells := by
  have selections : nodeSelection cfg row n = nodeSelection cfg row' n' := by
    simp only [nodeSelection, nodeMax, counters, rows]
  funext h j
  rw [exchanged_maxCells, exchanged_maxCells, selections, cells]

/-- **The layers above the zoom phase are stable**: the exchange selects there what the walks of the session went by. -/
theorem serial_stable (serial : cfg.pipeline = false) (deep : 1 ≤ cfg.treeDepth) (C : Nat → Packets) (k : Nat) {i : Nat}
    (inside : i < cfg.nodesInTree) (above : i < layerStart cfg.layerSplit (k % cfg.treeDepth)) (c : Packets) :
    (exchanged cfg (reportRow cfg (meteredTrees cfg k c (treesAt cfg C k)).2 i)
      ((meteredTrees cfg k c (treesAt cfg C k)).1 i)).maxCells = ((treesAt cfg C k).1 i).maxCells := by
  have inner : k % cfg.treeDepth ≠ 0 := by
    intro zero
    rw [zero] at above
    exact Nat.not_lt_zero _ above
  -- the counters of the node are those of the last session
  have sender : ((meteredTrees cfg k c (treesAt cfg C k)).1 i).counters = ((treesAt cfg C k).1 i).counters := by
    funext j
    rw [meteredTrees, countAll_counters, hits_serial serial _ (Or.inl above)]
    exact UInt32.add_zero _
  have receiver : ((meteredTrees cfg k c (treesAt cfg C k)).2 i).counters = ((treesAt cfg C k).2 i).counters := by
    funext j
    rw [meteredTrees, countAll_counters, hits_serial serial _ (Or.inl above), serial_open_counters serial,
      if_neg fun both => inner both.2]
    exact UInt32.add_zero _
  have cells : ((meteredTrees cfg k c (treesAt cfg C k)).1 i).maxCells = ((treesAt cfg C k).1 i).maxCells :=
    sameHistory_countAll _ _ _ _ i
  rw [exchanged_maxCells_congr (show reportRow cfg (meteredTrees cfg k c (treesAt cfg C k)).2 i =
    reportRow cfg (treesAt cfg C k).2 i by simp only [reportRow, receiver]) sender cells]
  -- and the last exchange selected by them
  cases k with
  | zero => exact absurd (Nat.zero_mod _) inner
  | succ k =>
    have notBottom : ¬k % cfg.treeDepth + 1 = cfg.treeDepth := by
      rcases phase_succ cfg.treeDepth k deep with ⟨-, zero⟩ | ⟨less, -⟩
      · exact absurd zero inner
      · exact Nat.ne_of_lt less
    simp only [treesAt, closedTree, treeExchange, serial, Bool.false_eq_true, if_false]
    rw [exchange_node, if_pos inside, if_neg notBottom]
    exact congrArg HashCounter.maxCells (exchanged_exchanged _ _)

/-! ## What a session reports -/

/-- A cell without a difference costs nothing. -/
theorem lossCost_free (nonneg : 0 ≤ cfg.rerouteMinCost) {tree remote : Tree} {i j : Nat}
    (equal : (tree i).counters j - (remote i).counters j = 0) :
      ¬(cfg.rerouteMinCost : Cost) < lossCost cfg tree remote i j := by
  rw [lossCost, equal]
  simp only [UInt32.toNat_zero, cost_zero]
  exact not_lt.2 (WithTop.coe_le_coe.2 nonneg)

theorem Fresh.free (nonneg : 0 ≤ cfg.rerouteMinCost) (aligned : Aligned cfg k x) {i j : Nat} (fresh : Fresh cfg k x i)
    (lossless : UInt32.ofNat (cellHits cfg k x i j (lostFlows c)) = 0) :
    ¬(cfg.rerouteMinCost : Cost) < lossCost cfg (meteredTrees cfg k c x).1 (meteredTrees cfg k c x).2 i j := by
  refine lossCost_free nonneg ?_
  rw [fresh.difference aligned, lossless]

/-- The nodes of the last layer start every session clear. -/
theorem serial_fresh_last (serial : cfg.pipeline = false) (deep : 1 ≤ cfg.treeDepth)
    (climbs : 1 ≤ cfg.layerSplit ∨ cfg.treeDepth ≤ 1) (C : Nat → Packets) (k : Nat) {i : Nat}
    (last : cfg.lastLayerIndex ≤ i) : Fresh cfg k (treesAt cfg C k) i := by
  refine serial_fresh serial deep C k i ?_
  have phase := Nat.mod_lt k deep
  rcases climbs with splits | shallow
  · rw [lastLayerIndex_eq splits] at last
    exact Nat.le_trans (layerStart_mono _ (by omega)) last
  · rw [show k % cfg.treeDepth = 0 by omega]
    exact Nat.zero_le _

/-- **Only the bottom phase reports.** -/
theorem serial_bottom (serial : cfg.pipeline = false) (deep : 1 ≤ cfg.treeDepth) (nonneg : 0 ≤ cfg.rerouteMinCost)
    (climbs : 1 ≤ cfg.layerSplit ∨ cfg.treeDepth ≤ 1) {y : Detection}
    (mem : y ∈ (closedTree cfg k c (treesAt cfg C k)).2) : k % cfg.treeDepth + 1 = cfg.treeDepth := by
  simp only [closedTree, treeExchange, serial, Bool.false_eq_true, if_false] at mem
  obtain ⟨i, j, -, -, last, costs, -⟩ := mem_serial_found.1 mem
  have fresh := serial_fresh_last serial deep climbs C k last
  have phase := Nat.mod_lt k deep
  by_contra notBottom
  refine fresh.free nonneg (treesAt_aligned C k) (congrArg UInt32.ofNat ?_) costs
  refine hits_serial serial _ (Or.inr ?_) _ _
  rcases climbs with splits | shallow
  · rw [lastLayerIndex_eq splits] at last
    exact Nat.le_trans (layerStart_mono _ (by omega)) last
  · omega

/-- **A session whose losses leave no difference reports nothing.** -/
theorem closedTree_quiet (deep : 1 ≤ cfg.treeDepth) (nonneg : 0 ≤ cfg.rerouteMinCost)
    (climbs : cfg.pipeline = true ∨ 1 ≤ cfg.layerSplit ∨ cfg.treeDepth ≤ 1)
    (none : ∀ i j, UInt32.ofNat (cellHits cfg k (treesAt cfg C k) i j (lostFlows c)) = 0) :
    (closedTree cfg k c (treesAt cfg C k)).2 = [] := by
  rw [List.eq_nil_iff_forall_not_mem]
  intro y mem
  have aligned := @treesAt_aligned cfg C k
  cases mode : cfg.pipeline with
  | false =>
    simp only [closedTree, treeExchange, mode, Bool.false_eq_true, if_false] at mem
    obtain ⟨i, j, -, -, last, costs, -⟩ := mem_serial_found.1 mem
    have climbs' := climbs.resolve_left (by rw [mode]; decide)
    exact (serial_fresh_last mode deep climbs' C k last).free nonneg aligned (none i j) costs
  | true =>
    simp only [closedTree, treeExchange, mode, if_true] at mem
    obtain ⟨i, node, found⟩ := mem_pipelined_found.1 mem
    have fresh := pipelined_fresh mode C k node
    rcases found with ⟨j, -, found⟩ | found
    · rw [pipelinedCellDetections, pipelinedTurn_cost, if_neg (fresh.free nonneg aligned (none i j))] at found
      cases found
    · have fine : faultyCells cfg (pipelinedTurn cfg (meteredTrees cfg k c (treesAt cfg C k)).1
          (meteredTrees cfg k c (treesAt cfg C k)).2 i) i
          (fun j => (reportRow cfg (meteredTrees cfg k c (treesAt cfg C k)).2 i).getD j 0) = 0 := by
        simp only [faultyCells, List.length_eq_zero_iff, List.filter_eq_nil_iff, List.mem_range]
        intro j cell
        rw [reportRow_getD cell, counterDiff, pipelinedTurn_self, opened_counters, fresh.difference aligned, none]
        decide
      rw [uniformFound, fine, if_neg (by omega)] at found
      cases found

/-- In pipelined mode the path of a failure is that of every flow counted in its cell. -/
theorem pipelined_path (pipelined : cfg.pipeline = true) (deep : 1 ≤ cfg.treeDepth) (splits : 1 ≤ cfg.layerSplit)
    {i j bloom : Nat} {path : Bytes} {flows : List (String × FiveTuple)} {n r : UInt32}
    (mem : .failure i j path flows bloom n r ∈ (closedTree cfg k c x).2) {flow : FiveTuple}
    (counted : (i, j) ∈ countedCells cfg k flow x.1) : path = flowPath cfg flow := by
  simp only [closedTree, treeExchange, pipelined, if_true] at mem
  obtain ⟨-, -, last, -, rfl⟩ := pipelined_failure mem
  have same : SameHistory (meteredTrees cfg k c x).1 x.1 := sameHistory_countAll _ _ _ _
  rw [← countedCells_congr same] at counted
  obtain ⟨walk, rfl⟩ := mem_countedCells_last pipelined splits last counted
  exact pipelined_hashPath deep splits last walk

/-- In the other mode the path of a failure is that of every flow counted in its cell. -/
theorem serial_path (serial : cfg.pipeline = false) (deep : 1 ≤ cfg.treeDepth) (nonneg : 0 ≤ cfg.rerouteMinCost)
    (climbs : 1 ≤ cfg.layerSplit ∨ cfg.treeDepth ≤ 1) {i j bloom : Nat} {path : Bytes}
    {flows : List (String × FiveTuple)} {n r : UInt32}
    (mem : .failure i j path flows bloom n r ∈ (closedTree cfg k c (treesAt cfg C k)).2) {flow : FiveTuple}
    (counted : (i, j) ∈ countedCells cfg k flow (treesAt cfg C k).1) : path = flowPath cfg flow := by
  have bottom := serial_bottom serial deep nonneg climbs mem
  simp only [closedTree, treeExchange, serial, Bool.false_eq_true, if_false] at mem
  obtain ⟨i', j', inside, -, last, -, failure⟩ := mem_serial_found.1 mem
  obtain ⟨rfl, rfl, rfl⟩ := lastLayerDetection_failure failure
  obtain ⟨walk, rfl⟩ := mem_countedCells_serial serial counted
  have phase : k % cfg.treeDepth = cfg.treeDepth - 1 := by omega
  rw [phase] at walk ⊢
  refine hashPath_zoom deep walk fun a slot m above slots less => ?_
  have before : a < i := Nat.lt_of_lt_of_le above (zoom_layer walk).1
  have stable := serial_stable serial deep C k (Nat.lt_trans before inside) (by rw [phase]; exact above) c
  simp only [serialTurn, update_of_ne (Nat.ne_of_lt before), turn, if_pos before]
  rw [stable]

end

end Ns3Fancy.Switch

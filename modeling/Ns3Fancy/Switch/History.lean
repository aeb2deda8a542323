import Ns3Fancy.Switch.Tree

/-!
# What the operations on a tree do, node by node

Counting moves counters and leaves the selections alone; a START and an exchange treat each node by itself. Each
operation is brought to a statement about one node, so that the walks down and up the tree need only the selections.
-/

namespace Ns3Fancy.Switch
open Buffer Function
set_option autoImplicit false

/-- The same selections at every node and age. -/
def SameHistory (t t' : Tree) : Prop := ∀ i, (t i).maxCells = (t' i).maxCells

theorem SameHistory.refl (t : Tree) : SameHistory t t := fun _ => rfl

theorem SameHistory.symm {t t' : Tree} (h : SameHistory t t') : SameHistory t' t := fun i => (h i).symm

theorem SameHistory.trans {t t' t'' : Tree} (h : SameHistory t t') (h' : SameHistory t' t'') : SameHistory t t'' :=
  fun i => (h i).trans (h' i)

section
variable {cfg : FancyConfig} {tree tree' : Tree} {flow : FiveTuple}

/-! ## Counting -/

theorem zoom_congr (same : SameHistory tree tree') (hist : Nat → Nat) (flow : FiveTuple) (levels : Nat) :
    zoom cfg tree hist flow levels = zoom cfg tree' hist flow levels := by
  induction levels with
  | zero => rfl
  | succ l ih => simp only [zoom, ih, same _]

theorem countedCells_congr (same : SameHistory tree tree') (seq : Nat) (flow : FiveTuple) :
    countedCells cfg seq flow tree = countedCells cfg seq flow tree' := by
  simp only [countedCells, zoom_congr same]

theorem sameHistory_countNode (sender : Bool) (flow : FiveTuple) (level node : Nat) (tree : Tree) :
    SameHistory (countNode cfg sender flow level node tree) tree := by
  intro i
  by_cases here : i = node
  · subst here; simp [countNode, HashCounter.count]
  · simp [countNode, here]

theorem sameHistory_countHistory (sender : Bool) (flow : FiveTuple) (tree : Tree) (h : Nat) :
    SameHistory (countHistory cfg sender flow tree h) tree := by
  simp only [countHistory]
  split
  · exact .refl _
  · exact sameHistory_countNode _ _ _ _ _

/-- Counting leaves the selections alone. -/
theorem sameHistory_treeCounting (sender : Bool) (seq : Nat) (flow : FiveTuple) (tree : Tree) :
    SameHistory (treeCounting cfg sender seq flow tree) tree := by
  have rounds : ∀ (hs : List Nat) (tree : Tree), SameHistory (hs.foldl (countHistory cfg sender flow) tree) tree := by
    intro hs
    induction hs with
    | nil => exact fun _ => .refl _
    | cons h hs ih => exact fun tree => (ih _).trans (sameHistory_countHistory _ _ _ _)
  simp only [treeCounting]
  split
  · exact (rounds _ _).trans (sameHistory_countNode _ _ _ _ _)
  · simp only [packetCounting]
    split
    · exact sameHistory_countNode _ _ _ _ _
    · split
      · exact .refl _
      · exact sameHistory_countNode _ _ _ _ _

/-! ## Resets -/

theorem sameHistory_resetNodes {reset : HashCounter → HashCounter} (keeps : ∀ n, (reset n).maxCells = n.maxCells)
    (tree : Tree) : SameHistory (resetNodes cfg reset tree) tree := by
  intro i
  simp only [resetNodes]
  split
  · exact keeps _
  · rfl

/-! ## Node by node -/

/-- A fold over the records of all nodes treats each node by itself. -/
theorem foldl_update_range {β : Type} (row : Nat → β) (f : β → HashCounter → HashCounter) (tree : Tree) (n i : Nat) :
    ((List.range n).map fun i => (i, row i)).foldl (fun t r => update t r.1 (f r.2 (t r.1))) tree i =
      if i < n then f (row i) (tree i) else tree i := by
  induction n generalizing i with
  | zero => rfl
  | succ n ih =>
    rw [List.range_succ, List.map_append, List.foldl_append]
    simp only [List.map_cons, List.map_nil, List.foldl_cons, List.foldl_nil]
    by_cases here : i = n
    · subst here
      rw [update_self, ih, if_neg (Nat.lt_irrefl _), if_pos (Nat.lt_succ_self _)]
    · rw [update_of_ne here, ih]
      by_cases less : i < n
      · rw [if_pos less, if_pos (Nat.lt_succ_of_lt less)]
      · rw [if_neg less, if_neg (by omega)]

/-- `max_cells` of a node after a START of the next session. -/
def HashCounter.opened (depth split : Nat) (cells : List UInt8) (n : HashCounter) : HashCounter :=
  (n.shiftHistory depth split).setFirst split cells

/-- The costs of the cells of a node. -/
def nodeMax (cfg : FancyConfig) (n : HashCounter) (remote : Nat → UInt32) : List (Nat × Cost) :=
  (List.range cfg.counterWidth).map fun j => (j, cost cfg.costType (n.counters j - remote j).toNat (n.counters j).toNat)

/-- What the non-pipelined exchange selects at a node. -/
def nodeSelection (cfg : FancyConfig) (cells : List UInt32) (n : HashCounter) : List Nat :=
  selectMax cfg.layerSplit (cfg.ns3.sort (nodeMax cfg n fun j => cells.getD j 0))

/-- What the pipelined exchange selects at a node with the shifted history. -/
def pipelinedSelection (cfg : FancyConfig) (cells : List UInt32) (n : HashCounter) : List Nat :=
  if cfg.pipelineBoost then
    selectBoost cfg.layerSplit (recently cfg.layerSplit (n.opened cfg.treeDepth cfg.layerSplit []))
      (cfg.ns3.sort (nodeMax cfg n fun j => cells.getD j 0))
  else nodeSelection cfg cells n

/-- A node after its turn in the non-pipelined exchange. -/
def exchanged (cfg : FancyConfig) (cells : List UInt32) (n : HashCounter) : HashCounter :=
  (n.setFirst cfg.layerSplit []).setFirst cfg.layerSplit ((nodeSelection cfg cells n).map .ofNat)

/-- A node after its turn in the pipelined exchange. -/
def pipelinedExchanged (cfg : FancyConfig) (cells : List UInt32) (n : HashCounter) : HashCounter :=
  (n.opened cfg.treeDepth cfg.layerSplit []).setFirst cfg.layerSplit ((pipelinedSelection cfg cells n).map .ofNat)

theorem currentMax_eq (tree : Tree) (i : Nat) (remote : Nat → UInt32) :
    currentMax cfg tree i remote = nodeMax cfg (tree i) remote := rfl

theorem exchangeNode_fst (seq : Nat) (acc : Tree × List Detection) (r : Nat × List UInt32) :
    (exchangeNode cfg seq acc r).1 = update acc.1 r.1 (exchanged cfg r.2 (acc.1 r.1)) := by
  simp only [exchangeNode, currentMax_eq, update_idem, update_self]
  rfl

theorem pipelinedExchangeNode_fst (seq : Nat) (acc : Tree × List Detection) (r : Nat × List UInt32) :
    (pipelinedExchangeNode cfg seq acc r).1 = update acc.1 r.1 (pipelinedExchanged cfg r.2 (acc.1 r.1)) := by
  simp only [pipelinedExchangeNode, currentMax_eq, update_idem, update_self]
  rfl

/-- The records of a report. -/
def reportRecords (cfg : FancyConfig) (tree : Tree) : List (Nat × List UInt32) :=
  (List.range cfg.nodesInTree).map fun i => (i, (List.range cfg.counterWidth).map (tree i).counters)

/-- The records of a START. -/
def startRecords (cfg : FancyConfig) (tree : Tree) : List (Nat × List UInt8) :=
  (List.range cfg.nodesInTree).map fun i => (i, (List.range cfg.layerSplit).map ((tree i).maxCells 0))

/-! ## START and exchange -/

theorem HashCounter.opened_maxCells (depth split : Nat) (cells : List UInt8) (n : HashCounter) (h j : Nat) :
    (n.opened depth split cells).maxCells h j =
      if j < split then if h = 0 then cells.getD j 0 else if h < depth then n.maxCells (h - 1) j else n.maxCells h j
      else n.maxCells h j := by
  simp only [HashCounter.opened, HashCounter.setFirst, HashCounter.shiftHistory]
  by_cases inside : j < split
  · by_cases first : h = 0
    · simp [first, inside]
    · have pos : 0 < h := Nat.pos_of_ne_zero first
      simp [first, inside, pos]
  · simp [inside]

/-- An exchange selects for level 0 and shifts the other levels, as the START of the next session does. -/
theorem pipelinedExchanged_maxCells (cells : List UInt32) (n : HashCounter) :
    (pipelinedExchanged cfg cells n).maxCells =
      (n.opened cfg.treeDepth cfg.layerSplit ((pipelinedSelection cfg cells n).map .ofNat)).maxCells := by
  funext h j
  simp only [pipelinedExchanged, HashCounter.opened, HashCounter.setFirst]
  split <;> rfl

/-- The trees of a fold that also collects detections. -/
theorem foldl_exchange_nodes {β : Type} {row : Nat → β} {step : Tree × List Detection → Nat × β → Tree × List Detection}
    {f : β → HashCounter → HashCounter} (fst : ∀ acc r, (step acc r).1 = update acc.1 r.1 (f r.2 (acc.1 r.1)))
    (tree : Tree) (n i : Nat) :
    (((List.range n).map fun i => (i, row i)).foldl step (tree, [])).1 i = if i < n then f (row i) (tree i) else tree i := by
  have fold : (((List.range n).map fun i => (i, row i)).foldl step (tree, [])).1 =
      ((List.range n).map fun i => (i, row i)).foldl (fun t r => update t r.1 (f r.2 (t r.1))) tree :=
    (List.foldl_hom Prod.fst fun acc r => (fst acc r).symm).symm
  rw [fold, foldl_update_range]

/-- The tree after the pipelined exchange of a report. -/
theorem pipelinedExchange_node (seq : Nat) (remote tree : Tree) (i : Nat) :
    (pipelinedCounterExchangeAlgorithm cfg seq (reportRecords cfg remote) tree).1 i =
      if i < cfg.nodesInTree then
        (pipelinedExchanged cfg ((List.range cfg.counterWidth).map (remote i).counters) (tree i)).resetFlows
      else tree i := by
  simp only [pipelinedCounterExchangeAlgorithm, resetNodes, reportRecords, foldl_exchange_nodes (pipelinedExchangeNode_fst seq)]
  split <;> rfl

/-- The tree after the non-pipelined exchange of a report. -/
theorem exchange_node (seq : Nat) (remote tree : Tree) (i : Nat) :
    (counterExchangeAlgorithm cfg seq (reportRecords cfg remote) tree).1 i =
      if i < cfg.nodesInTree then
        if seq % cfg.treeDepth + 1 = cfg.treeDepth then
          (exchanged cfg ((List.range cfg.counterWidth).map (remote i).counters) (tree i)).resetFlows
        else exchanged cfg ((List.range cfg.counterWidth).map (remote i).counters) (tree i)
      else tree i := by
  simp only [counterExchangeAlgorithm, reportRecords]
  split
  · simp only [resetNodes, foldl_exchange_nodes (exchangeNode_fst seq)]
    split <;> rfl
  · simp only [foldl_exchange_nodes (exchangeNode_fst seq)]

/-- The tree after the START of the next session, in pipelined mode. -/
theorem pipelinedInit_node (sent tree : Tree) (i : Nat) :
    pipelinedInitReceiverStep cfg true (startRecords cfg sent) tree i =
      if i < cfg.nodesInTree then
        ((tree i).opened cfg.treeDepth cfg.layerSplit ((List.range cfg.layerSplit).map ((sent i).maxCells 0))).resetCounters
      else tree i := by
  simp only [pipelinedInitReceiverStep, if_true, resetNodes, startRecords]
  have fold := foldl_update_range (fun i => (List.range cfg.layerSplit).map ((sent i).maxCells 0))
    (fun cells n => n.opened cfg.treeDepth cfg.layerSplit cells) tree cfg.nodesInTree i
  simp only [HashCounter.opened] at fold ⊢
  rw [fold]
  split <;> rfl

/-- The tree after the START of the next session, in the other mode. -/
theorem init_node (seq : Nat) (sent tree : Tree) (i : Nat) :
    initReceiverStep cfg seq true (startRecords cfg sent) tree i =
      if i < cfg.nodesInTree then
        if seq % cfg.treeDepth = 0 then
          ((tree i).setFirst cfg.layerSplit ((List.range cfg.layerSplit).map ((sent i).maxCells 0))).resetCounters
        else (tree i).setFirst cfg.layerSplit ((List.range cfg.layerSplit).map ((sent i).maxCells 0))
      else tree i := by
  have fold := foldl_update_range (fun i => (List.range cfg.layerSplit).map ((sent i).maxCells 0))
    (fun cells n => n.setFirst cfg.layerSplit cells) tree cfg.nodesInTree i
  simp only [initReceiverStep, if_true]
  split
  · simp only [resetNodes, startRecords]
    rw [fold]
    split <;> rfl
  · simp only [startRecords]
    rw [fold]

theorem exchanged_maxCells (cells : List UInt32) (n : HashCounter) (h j : Nat) :
    (exchanged cfg cells n).maxCells h j =
      if h = 0 ∧ j < cfg.layerSplit then ((nodeSelection cfg cells n).map .ofNat).getD j 0 else n.maxCells h j := by
  simp only [exchanged, HashCounter.setFirst]
  split <;> rfl

/-! ## The receiver of the next session -/

/-- A pipelined exchange leaves a receiver with the same selections one START behind. -/
theorem sameHistory_pipelinedInit (same : SameHistory tree tree') (seq : Nat) (remote : Tree) :
    SameHistory (pipelinedCounterExchangeAlgorithm cfg seq (reportRecords cfg remote) tree).1
      (pipelinedInitReceiverStep cfg true
        (startRecords cfg (pipelinedCounterExchangeAlgorithm cfg seq (reportRecords cfg remote) tree).1) tree') := by
  intro i
  funext level slot
  rw [pipelinedInit_node]
  simp only [pipelinedExchange_node]
  by_cases inside : i < cfg.nodesInTree
  · simp only [if_pos inside, HashCounter.resetFlows, HashCounter.resetCounters, pipelinedExchanged_maxCells,
      HashCounter.opened_maxCells, same i]
    split
    · rename_i slots
      split
      · simp [slots, HashCounter.opened_maxCells]
      · rfl
    · rfl
  · simp only [if_neg inside, same i]

/-- So does an exchange in the other mode. -/
theorem sameHistory_init (same : SameHistory tree tree') (seq seq' : Nat) (remote : Tree) :
    SameHistory (counterExchangeAlgorithm cfg seq (reportRecords cfg remote) tree).1
      (initReceiverStep cfg seq' true
        (startRecords cfg (counterExchangeAlgorithm cfg seq (reportRecords cfg remote) tree).1) tree') := by
  intro i
  funext level slot
  have node : ((counterExchangeAlgorithm cfg seq (reportRecords cfg remote) tree).1 i).maxCells level slot =
      if i < cfg.nodesInTree then
        (exchanged cfg ((List.range cfg.counterWidth).map (remote i).counters) (tree i)).maxCells level slot
      else (tree i).maxCells level slot := by
    rw [exchange_node]
    split
    · split <;> rfl
    · rfl
  have opened : (initReceiverStep cfg seq' true
      (startRecords cfg (counterExchangeAlgorithm cfg seq (reportRecords cfg remote) tree).1) tree' i).maxCells level slot =
      if i < cfg.nodesInTree ∧ level = 0 ∧ slot < cfg.layerSplit then
        ((counterExchangeAlgorithm cfg seq (reportRecords cfg remote) tree).1 i).maxCells level slot
      else (tree' i).maxCells level slot := by
    rw [init_node]
    by_cases inside : i < cfg.nodesInTree
    · have reset : ∀ n : HashCounter, (if seq' % cfg.treeDepth = 0 then n.resetCounters else n).maxCells = n.maxCells := by
        intro n
        split <;> rfl
      rw [if_pos inside, reset]
      simp only [HashCounter.setFirst, inside, true_and]
      split
      · rename_i first
        obtain ⟨rfl, slots⟩ := first
        simp [slots]
      · rfl
    · simp [inside]
  rw [opened]
  split
  · rfl
  · rename_i other
    rw [node, ← same i]
    split
    · rename_i inside
      rw [exchanged_maxCells, if_neg fun first => other ⟨inside, first⟩]
    · rfl

/-- Before the first session nothing is selected, and the first START of the pipelined mode keeps it so. -/
theorem sameHistory_pipelinedInit_start :
    SameHistory (fun _ => {}) (pipelinedInitReceiverStep cfg true (startRecords cfg fun _ => {}) fun _ => {}) := by
  intro i
  funext level slot
  rw [pipelinedInit_node]
  split
  · simp only [HashCounter.resetCounters, HashCounter.opened_maxCells]
    split
    · rename_i slots
      split <;> simp [slots]
    · rfl
  · rfl

/-- So does the first START of either mode. -/
theorem sameHistory_treeInit_start (seq : Nat) :
    SameHistory (fun _ => {}) (treeInit cfg seq true (startRecords cfg fun _ => {}) fun _ => {}) := by
  unfold treeInit
  split
  · exact sameHistory_pipelinedInit_start
  · intro i
    funext level slot
    have first : ((({} : HashCounter).setFirst cfg.layerSplit
        ((List.range cfg.layerSplit).map (({} : HashCounter).maxCells 0))).maxCells level slot) = 0 := by
      simp only [HashCounter.setFirst]
      split
      · rename_i inside
        simp [inside.2]
      · rfl
    rw [init_node]
    split
    · split <;> exact first.symm
    · rfl

theorem startRecords_congr {tree tree' : Tree} (same : SameHistory tree tree') :
    startRecords cfg tree = startRecords cfg tree' := by
  simp only [startRecords, same _]

end

end Ns3Fancy.Switch

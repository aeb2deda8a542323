import Ns3Fancy.Switch.Config
import Mathlib.Data.Finset.Basic
import Mathlib.Data.Finset.Card
import Mathlib.Data.Nat.Log
import Mathlib.Logic.Function.Basic

/-!
# The zooming tree

The counters of the zooming machine: a flat array of nodes, each with one counter per cell, the
Bloom filter and the flows behind it, and a history of the cells it zooms into. Counting
walks down from the root by the history; the exchange compares the two ends' counters, reports
cells of the last layer and chooses the next cells to zoom into.

Vectors are functions on all indices; what lies past the end of a vector is never read.
-/

namespace Ns3Fancy.Switch
open Buffer Function
set_option autoImplicit false

structure HashCounter where
  counters : Nat → UInt32 := fun _ => 0
  hashedFlows : Nat → List (String × FiveTuple) := fun _ => []
  bloomFilter : Nat → Finset Nat := fun _ => ∅
  /-- by history level and slot -/
  maxCells : Nat → Nat → UInt8 := fun _ _ => 0

/-- `counter_tree`. -/
abbrev Tree := Nat → HashCounter

namespace HashCounter

/-- A packet is counted in a cell; only the sender keeps the flow. -/
def count (sender : Bool) (key : String) (flow : FiveTuple) (cell bit : Nat) (n : HashCounter) : HashCounter :=
  { n with
    counters := update n.counters cell (n.counters cell + 1)
    hashedFlows :=
      if sender && !(n.hashedFlows cell).any (·.1 == key) then
        update n.hashedFlows cell ((key, flow) :: n.hashedFlows cell)
      else n.hashedFlows
    bloomFilter := update n.bloomFilter cell (insert bit (n.bloomFilter cell)) }

/-- The right shift of the history: level 0 stays, to be overwritten. -/
def shiftHistory (depth split : Nat) (n : HashCounter) : HashCounter :=
  { n with maxCells := fun h j => if 0 < h ∧ h < depth ∧ j < split then n.maxCells (h - 1) j else n.maxCells h j }

/-- Level 0 of the history. -/
def setFirst (split : Nat) (cells : List UInt8) (n : HashCounter) : HashCounter :=
  { n with maxCells := fun h j => if h = 0 ∧ j < split then cells.getD j 0 else n.maxCells h j }

/-- The receiver's reset. -/
def resetCounters (n : HashCounter) : HashCounter :=
  { n with counters := fun _ => 0, bloomFilter := fun _ => ∅ }

/-- The sender's reset. -/
def resetFlows (n : HashCounter) : HashCounter :=
  { n with counters := fun _ => 0, bloomFilter := fun _ => ∅, hashedFlows := fun _ => [] }

end HashCounter

/-! ## Counting -/

/-- The first slot that holds the cell. -/
def findSlot (slots : Nat → UInt8) (split cell : Nat) : Option Nat :=
  (List.range split).find? fun ii => (slots ii).toNat == cell

/-- The walk down from the root, `levels` levels deep, reading at level `l` the history `hist l`. -/
def zoom (cfg : FancyConfig) (tree : Tree) (hist : Nat → Nat) (flow : FiveTuple) : Nat → Option Nat
  | 0 => some 0
  | l + 1 => (zoom cfg tree hist flow l).bind fun node =>
    (findSlot ((tree node).maxCells (hist l)) cfg.layerSplit (cfg.cellOf flow l)).map fun ii =>
      node * cfg.layerSplit + (ii + 1)

/-- A packet is counted in a node of the given level. -/
def countNode (cfg : FancyConfig) (sender : Bool) (flow : FiveTuple) (level node : Nat) (tree : Tree) : Tree :=
  update tree node ((tree node).count sender (cfg.packetStr flow) flow (cfg.cellOf flow level)
    (cfg.packetHash flow (level + cfg.treeDepth) cfg.counterBloomFilterWidth))

/-- One node per zoom phase: the walk reads the newest selection of every level. -/
def packetCounting (cfg : FancyConfig) (sender : Bool) (seq : Nat) (flow : FiveTuple) (tree : Tree) : Tree :=
  let zoomPhase := seq % cfg.treeDepth
  if zoomPhase = 0 then countNode cfg sender flow 0 0 tree
  else
    match zoom cfg tree (fun _ => 0) flow zoomPhase with
    | none => tree
    | some node => countNode cfg sender flow zoomPhase node tree

/-- One round of the loop over history levels: `historyLevel + 1` levels down. -/
def countHistory (cfg : FancyConfig) (sender : Bool) (flow : FiveTuple) (tree : Tree) (historyLevel : Nat) : Tree :=
  match zoom cfg tree (fun level => historyLevel - level) flow (historyLevel + 1) with
  | none => tree
  | some node => countNode cfg sender flow (historyLevel + 1) node tree

/-- The root, then every level below it with the history of its age. -/
def pipelinedPacketCounting (cfg : FancyConfig) (sender : Bool) (flow : FiveTuple) (tree : Tree) : Tree :=
  (List.range (cfg.treeDepth - 1)).foldl (countHistory cfg sender flow) (countNode cfg sender flow 0 0 tree)

/-- What the machine's mode selects. -/
def treeCounting (cfg : FancyConfig) (sender : Bool) (seq : Nat) (flow : FiveTuple) (tree : Tree) : Tree :=
  if cfg.pipeline then pipelinedPacketCounting cfg sender flow tree else packetCounting cfg sender seq flow tree

/-- Cells are compared by their numbers. -/
instance lawfulBEq_cells : LawfulBEq (Nat × Nat) := inferInstance

/-- The cells a packet is counted in: node and cell, from the root down. -/
def countedCells (cfg : FancyConfig) (seq : Nat) (flow : FiveTuple) (tree : Tree) : List (Nat × Nat) :=
  if cfg.pipeline then
    (0, cfg.cellOf flow 0) :: (List.range (cfg.treeDepth - 1)).filterMap fun h =>
      (zoom cfg tree (fun level => h - level) flow (h + 1)).map fun node => (node, cfg.cellOf flow (h + 1))
  else
    (zoom cfg tree (fun _ => 0) flow (seq % cfg.treeDepth)).toList.map fun node =>
      (node, cfg.cellOf flow (seq % cfg.treeDepth))

/-! ## The receiver opens a session -/

/-- Every node of the tree, none behind it. -/
def resetNodes (cfg : FancyConfig) (reset : HashCounter → HashCounter) (tree : Tree) : Tree :=
  fun i => if i < cfg.nodesInTree then reset (tree i) else tree i

def initReceiverStep (cfg : FancyConfig) (seq : Nat) (shiftHistory : Bool) (records : List (Nat × List UInt8))
    (tree : Tree) : Tree :=
  let tree :=
    if shiftHistory then
      records.foldl (fun t r => update t r.1 ((t r.1).setFirst cfg.layerSplit r.2)) tree
    else tree
  if seq % cfg.treeDepth = 0 then resetNodes cfg .resetCounters tree else tree

def pipelinedInitReceiverStep (cfg : FancyConfig) (shiftHistory : Bool) (records : List (Nat × List UInt8))
    (tree : Tree) : Tree :=
  let tree :=
    if shiftHistory then
      records.foldl (fun t r => update t r.1
        (((t r.1).shiftHistory cfg.treeDepth cfg.layerSplit).setFirst cfg.layerSplit r.2)) tree
    else tree
  resetNodes cfg .resetCounters tree

def treeInit (cfg : FancyConfig) (seq : Nat) (shiftHistory : Bool) (records : List (Nat × List UInt8))
    (tree : Tree) : Tree :=
  if cfg.pipeline then pipelinedInitReceiverStep cfg shiftHistory records tree
  else initReceiverStep cfg seq shiftHistory records tree

/-! ## The exchange -/

/-- What an exchange reports, with the data of the simulation state's events. -/
inductive Detection where
  /-- a cell of the last layer: the path is added to the reroute filter -/
  | failure (node cell : Nat) (hashPath : Bytes) (flows : List (String × FiveTuple)) (bloomCount : Nat)
      (localCounter remoteCounter : UInt32)
  /-- a cell of the last layer with too many flows -/
  | collision (seq node cell bloomCount : Nat)
  /-- a cell above the last layer: the writes to its path buffer, in order -/
  | partialFailure (node cell depth : Nat) (writes : List (Nat × UInt8)) (flows : List (String × FiveTuple))
      (bloomCount : Nat) (localCounter remoteCounter : UInt32)
  | uniformFailure (seq faultyCells : Nat)
  /-- a dedicated entry -/
  | topFailure (id : Nat) (localCounter remoteCounter : UInt64)
  /-- the wildcard counter -/
  | softFailure (id : Nat) (localCounter remoteCounter : UInt64)
  deriving DecidableEq

/-- The slots read on the way up from a node, the node's own first; `level t` is the history level
read at the `t`-th step. -/
def climb (cfg : FancyConfig) (tree : Tree) (level : Nat → Nat) : Nat → Nat → Nat → List UInt8
  | 0, _, _ => []
  | n + 1, t, childAddress =>
    let parentAddress := (childAddress - 1) / cfg.layerSplit
    let childShift := childAddress - cfg.layerSplit * parentAddress - 1
    (tree parentAddress).maxCells (level t) childShift :: climb cfg tree level n (t + 1) parentAddress

/-- `hash_path`, from the root to the cell. -/
def hashPath (cfg : FancyConfig) (tree : Tree) (level : Nat → Nat) (node cell : Nat) : Bytes :=
  (climb cfg tree level (cfg.treeDepth - 1) 0 node).reverse ++ [UInt8.ofNat cell]

/-- The depth of a node; the source computes the logarithm in floating point. -/
def kArryTreeDepth (split node : Nat) : Nat :=
  if split = 1 then node else Nat.log split (node * (split - 1) + 1)

def counterDiff (tree : Tree) (node cell : Nat) (remote : UInt32) : UInt32 := (tree node).counters cell - remote

def cellCost (cfg : FancyConfig) (tree : Tree) (node cell : Nat) (remote : UInt32) : Cost :=
  cost cfg.costType (counterDiff tree node cell remote).toNat ((tree node).counters cell).toNat

/-- A cell of the last layer whose cost is high enough. -/
def lastLayerDetection (cfg : FancyConfig) (level : Nat → Nat) (seq : Nat) (tree : Tree) (node cell : Nat)
    (remote : UInt32) : Detection :=
  let bloomCount := ((tree node).bloomFilter cell).card
  if bloomCount ≤ cfg.maxCounterCollisions then
    .failure node cell (hashPath cfg tree level node cell) ((tree node).hashedFlows cell) bloomCount
      ((tree node).counters cell) remote
  else .collision seq node cell bloomCount

/-- A cell above the last layer whose cost is high enough, in pipelined mode. -/
def partialDetection (cfg : FancyConfig) (tree : Tree) (node cell : Nat) (remote : UInt32) : Detection :=
  let depth := kArryTreeDepth cfg.layerSplit node + 1
  .partialFailure node cell depth
    ((cfg.treeDepth, UInt8.ofNat cell) ::
      (climb cfg tree (· + 1) (depth - 1) 0 node).zipIdx.map fun v => (cfg.treeDepth - (v.2 + 2), v.1))
    ((tree node).hashedFlows cell) ((tree node).bloomFilter cell).card ((tree node).counters cell) remote

def cellDetections (cfg : FancyConfig) (seq : Nat) (tree : Tree) (node cell : Nat) (remote : UInt32) : List Detection :=
  if (cfg.rerouteMinCost : Cost) < cellCost cfg tree node cell remote then
    if cfg.lastLayerIndex ≤ node then [lastLayerDetection cfg (fun _ => 0) seq tree node cell remote] else []
  else []

def pipelinedCellDetections (cfg : FancyConfig) (seq : Nat) (tree : Tree) (node cell : Nat) (remote : UInt32) :
    List Detection :=
  if (cfg.rerouteMinCost : Cost) < cellCost cfg tree node cell remote then
    if cfg.lastLayerIndex ≤ node then [lastLayerDetection cfg (· + 1) seq tree node cell remote]
    else if cfg.treeEnableSoftDetections then [partialDetection cfg tree node cell remote]
    else []
  else []

/-- `current_max` before it is sorted. -/
def currentMax (cfg : FancyConfig) (tree : Tree) (node : Nat) (remote : Nat → UInt32) : List (Nat × Cost) :=
  (List.range cfg.counterWidth).map fun j => (j, cellCost cfg tree node j (remote j))

/-- The first cells of the sorted list. -/
def selectMax (split : Nat) (sorted : List (Nat × Cost)) : List Nat := (sorted.take split).map (·.1)

/-- Boost's scan: lossy cells that were not zoomed into lately are taken until `split` are found, all
others seen on the way are kept as a backup. -/
def boostScan (split : Nat) (recent : Nat → Bool) : List (Nat × Cost) → List Nat → List Nat → List Nat × List Nat
  | [], found, backup => (found, backup)
  | c :: cs, found, backup =>
    if 0 < c.2 ∧ recent c.1 = false then
      if (found ++ [c.1]).length = split then (found ++ [c.1], backup)
      else boostScan split recent cs (found ++ [c.1]) backup
    else boostScan split recent cs found (backup ++ [c.1])

/-- The selection with boost: what the scan found, filled up from the backup. -/
def selectBoost (split : Nat) (recent : Nat → Bool) (sorted : List (Nat × Cost)) : List Nat :=
  let r := boostScan split recent sorted [] []
  r.1 ++ r.2.take (split - r.1.length)

/-- A cell of one of the last two selections. -/
def recently (split : Nat) (n : HashCounter) (cell : Nat) : Bool :=
  (List.range split).any fun j => (n.maxCells 1 j).toNat == cell || (n.maxCells 2 j).toNat == cell

def faultyCells (cfg : FancyConfig) (tree : Tree) (node : Nat) (remote : Nat → UInt32) : Nat :=
  ((List.range cfg.counterWidth).filter fun j => counterDiff tree node j (remote j) != 0).length

/-- One node of the non-pipelined exchange. -/
def exchangeNode (cfg : FancyConfig) (seq : Nat) (acc : Tree × List Detection) (r : Nat × List UInt32) :
    Tree × List Detection :=
  let i := r.1
  let remote := fun j => r.2.getD j 0
  let tree := update acc.1 i ((acc.1 i).setFirst cfg.layerSplit [])
  let found := (List.range cfg.counterWidth).flatMap fun j => cellDetections cfg seq tree i j (remote j)
  let selected := selectMax cfg.layerSplit (cfg.ns3.sort (currentMax cfg tree i remote))
  (update tree i ((tree i).setFirst cfg.layerSplit (selected.map .ofNat)), acc.2 ++ found)

/-- One node of the pipelined exchange: its history is shifted first. -/
def pipelinedExchangeNode (cfg : FancyConfig) (seq : Nat) (acc : Tree × List Detection) (r : Nat × List UInt32) :
    Tree × List Detection :=
  let i := r.1
  let remote := fun j => r.2.getD j 0
  let tree := update acc.1 i (((acc.1 i).shiftHistory cfg.treeDepth cfg.layerSplit).setFirst cfg.layerSplit [])
  let found := (List.range cfg.counterWidth).flatMap fun j => pipelinedCellDetections cfg seq tree i j (remote j)
  let faulty := faultyCells cfg tree i remote
  let uniform :=
    if 0 < cfg.uniformLossThreshold ∧ i = 0 ∧ cfg.uniformLossThreshold ≤ faulty then [.uniformFailure seq faulty]
    else []
  let sorted := cfg.ns3.sort (currentMax cfg tree i remote)
  let selected :=
    if cfg.pipelineBoost then selectBoost cfg.layerSplit (recently cfg.layerSplit (tree i)) sorted
    else selectMax cfg.layerSplit sorted
  (update tree i ((tree i).setFirst cfg.layerSplit (selected.map .ofNat)), acc.2 ++ (found ++ uniform))

/-- The exchange for the nodes of a report, with the reset at the bottom of the tree. -/
def counterExchangeAlgorithm (cfg : FancyConfig) (seq : Nat) (records : List (Nat × List UInt32)) (tree : Tree) :
    Tree × List Detection :=
  let r := records.foldl (exchangeNode cfg seq) (tree, [])
  (if seq % cfg.treeDepth + 1 = cfg.treeDepth then resetNodes cfg .resetFlows r.1 else r.1, r.2)

def pipelinedCounterExchangeAlgorithm (cfg : FancyConfig) (seq : Nat) (records : List (Nat × List UInt32))
    (tree : Tree) : Tree × List Detection :=
  let r := records.foldl (pipelinedExchangeNode cfg seq) (tree, [])
  (resetNodes cfg .resetFlows r.1, r.2)

def treeExchange (cfg : FancyConfig) (seq : Nat) (records : List (Nat × List UInt32)) (tree : Tree) :
    Tree × List Detection :=
  if cfg.pipeline then pipelinedCounterExchangeAlgorithm cfg seq records tree
  else counterExchangeAlgorithm cfg seq records tree

/-! ## When the loops end

The loops run on 8- and 16-bit counters against 32-bit bounds, and the selection indexes a vector
of `counterWidth` entries. Outside these bounds the source has no next state. -/

namespace FancyConfig
variable (cfg : FancyConfig)

/-- The loop over the nodes of a START or a report, on a 16-bit counter; without a node the peer cannot read
the header back. -/
def payloadEnds : Bool := 1 ≤ cfg.nodesInTree && cfg.nodesInTree ≤ 65535

/-- The loop over the slots of a record, on an 8-bit counter. -/
def initEnds : Bool := cfg.layerSplit ≤ 255

/-- The loop over history levels, on an 8-bit counter. -/
def countingEnds : Bool := cfg.treeDepth ≤ 256

/-- The loops of the exchange; it writes history level 0, and boost reads levels 1 and 2. -/
def exchangeEnds : Bool :=
  cfg.counterWidth ≤ 255 && cfg.treeDepth ≤ 255 && cfg.layerSplit ≤ cfg.counterWidth &&
    (!(cfg.pipeline && cfg.pipelineBoost) || 3 ≤ cfg.treeDepth) && 1 ≤ cfg.treeDepth

theorem exchangeEnds_bounds {cfg : FancyConfig} (ends : cfg.exchangeEnds = true) :
    1 ≤ cfg.treeDepth ∧ cfg.layerSplit ≤ cfg.counterWidth ∧ cfg.counterWidth ≤ 255 := by
  simp only [exchangeEnds, Bool.and_eq_true, decide_eq_true_eq] at ends
  obtain ⟨⟨⟨⟨narrow, -⟩, wide⟩, -⟩, deep⟩ := ends
  exact ⟨deep, wide, narrow⟩

/-- The way up from a reported cell divides by the split, so with a split of zero the exchange does not come back. -/
def climbEnds (found : List Detection) : Bool :=
  1 ≤ cfg.layerSplit || cfg.treeDepth ≤ 1 || found.all fun
    | .failure _ _ _ _ _ _ _ => false
    | _ => true

end FancyConfig

end Ns3Fancy.Switch

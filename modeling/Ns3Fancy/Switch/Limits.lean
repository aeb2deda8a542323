import Ns3Fancy.Switch.CounterTree
import Ns3Fancy.Switch.HeaderTransfer

/-!
# Which trees the loops can handle

The attributes of the tree are 32-bit numbers, the loops over it count on 8 and 16 bits, the header has 8 bits for a width and
16 for a node, boost reads a level of the history by its number, the filter of the reroute block takes the hash functions of the
tree and its hashes are taken modulo its width. The trees within all these limits are exactly those on which every pass ends.
-/

namespace Ns3Fancy.Switch
open Buffer Loop
set_option autoImplicit false

/-- The attributes of the tree, as wide as their checkers. -/
structure TreeAttributes where
  treeDepth : UInt32
  layerSplit : UInt32
  counterWidth : UInt32
  rerouteBloomFilterWidth : UInt32
  rerouteBloomFilterNumHashes : UInt32
  pipelineBoost : Bool

/-- A switch with these attributes of the tree, whatever its other attributes are. -/
structure FancyAttributes.Has (cfg : FancyAttributes) (a : TreeAttributes) : Prop where
  treeDepth : cfg.treeDepth = a.treeDepth.toNat
  layerSplit : cfg.layerSplit = a.layerSplit.toNat
  counterWidth : cfg.counterWidth = a.counterWidth.toNat
  filterWidth : cfg.rerouteBloomFilterWidth = a.rerouteBloomFilterWidth.toNat
  numHashes : cfg.rerouteBloomFilterNumHashes = a.rerouteBloomFilterNumHashes.toNat
  pipelineBoost : cfg.pipelineBoost = a.pipelineBoost

/-- The vectors of the counters have their size. -/
def Sized (cfg : FancyAttributes) (counters : List UInt32) (bloomFilter : List (Finset Nat)) : Prop :=
  counters.length = cfg.counterWidth ∧ bloomFilter.length = cfg.counterWidth

/-- A tree as `InitPortInfo` makes it and as every pass leaves it: the selections are cells. -/
abbrev CounterTree.Shaped (cfg : FancyAttributes) (nodes : Nat) (t : CounterTree) : Prop :=
  Keeps cfg (Sized cfg) (fun v => v.toNat < cfg.counterWidth) nodes t

/-- The limits of the loops, of the header and of the vectors. -/
structure FancyAttributes.LoopsFit (cfg : FancyAttributes) : Prop where
  depth : cfg.treeDepth ≤ 255
  width : cfg.counterWidth ≤ 255
  nodes : cfg.nodesInTree ≤ 65535
  filter : 1 ≤ cfg.rerouteBloomFilterWidth
  hashes : cfg.rerouteBloomFilterNumHashes ≤ 2 * cfg.treeDepth
  boost : cfg.pipelineBoost = true → 3 ≤ cfg.treeDepth ∨ cfg.treeDepth = 2 ∧ cfg.counterWidth = 1

/-- A tree of at least one layer and one cell, with room for as many selections as a layer splits into. -/
structure FancyAttributes.Sensible (cfg : FancyAttributes) : Prop where
  deep : 1 ≤ cfg.treeDepth
  splits : 1 ≤ cfg.layerSplit
  wide : cfg.layerSplit ≤ cfg.counterWidth
  hashed : 1 ≤ cfg.rerouteBloomFilterNumHashes

namespace CounterTree

/-! ## Within the limits -/

section
variable {cfg : FancyAttributes} {t remote : CounterTree} {rounds i j : Nat} {pipelined : Bool}

theorem lastLayer_inLayer (sensible : cfg.Sensible) (last : cfg.lastLayerIndex ≤ i) (node : i < cfg.nodesInTree) :
    InLayer cfg.layerSplit (cfg.treeDepth - 1) i := by
  rw [lastLayerIndex_eq sensible.splits] at last
  rw [nodesInTree_eq sensible.splits] at node
  have deep := sensible.deep
  exact ⟨last, by rwa [Nat.sub_add_cancel deep]⟩

section
variable (sensible : cfg.Sensible) (fit : cfg.LoopsFit) (enough : 65535 < rounds)
include fit enough

theorem setBloomFilter_ends (path : Bytes) : Ends (setBloomFilter cfg rounds path) fun _ => True := by
  have depth := fit.depth
  have hashes := fit.hashes
  refine forLoop_ends (I := fun _ _ => True) (by omega) (by omega) (fun k _ less _ => ?_) trivial
  have hash : pathHash cfg path k = some (cfg.getHash path k cfg.rerouteBloomFilterWidth) := if_pos ⟨by omega, fit.filter⟩
  have inside : cfg.getHash path k cfg.rerouteBloomFilterWidth < cfg.rerouteBloomFilterWidth := Nat.mod_lt _ fit.filter
  rw [hash, Option.bind_some, if_pos inside]
  exact .done trivial

include sensible

theorem judgeCell_ends (shaped : Shaped cfg cfg.nodesInTree t) (node : i < cfg.nodesInTree) (j : Nat) (c : Cost)
    (flows : Nat) : Ends (judgeCell cfg rounds pipelined t i j c flows) fun _ => True := by
  have depth := fit.depth
  have width := fit.width
  have wide := sensible.wide
  have splits : cfg.layerSplit < 2 ^ 32 := by omega
  unfold judgeCell
  split
  · rename_i last
    split
    · have levels : ∀ k, k < cfg.treeDepth - 1 → (if pipelined then (· + 1) else fun _ => 0) k < cfg.treeDepth := by
        intro k less
        cases pipelined
        · exact sensible.deep
        · show k + 1 < cfg.treeDepth
          omega
      have layer := lastLayer_inLayer sensible last node
      exact (climb_ends shaped layer node fit.nodes sensible.splits splits levels (by omega) (by omega)).bind
        fun s _ => setBloomFilter_ends fit enough s.2
    · exact .done trivial
  · rename_i above
    split
    · rw [lastLayerIndex_eq sensible.splits] at above
      obtain ⟨l, less, layer⟩ := exists_inLayer (Nat.lt_of_not_le above)
      rw [layer.kArryTreeDepth_eq sensible.splits, Nat.add_sub_cancel]
      have levels : ∀ k, k < l → k + 1 < cfg.treeDepth := by
        intro k inside
        omega
      exact (climb_ends shaped layer node fit.nodes sensible.splits splits levels (by omega) (by omega)).map
        fun _ _ => trivial
    · exact .done trivial

theorem exchangeCell_ends (shaped : Shaped cfg cfg.nodesInTree t) {row : List UInt32} (length : row.length = cfg.counterWidth)
    (node : i < cfg.nodesInTree) (cell : j < cfg.counterWidth) {currentMax : List (Nat × Cost)}
    (before : currentMax.map (·.1) = List.range j) :
    Ends (exchangeCell cfg rounds pipelined t i row j currentMax) fun m => m.map (·.1) = List.range (j + 1) := by
  obtain ⟨n, found, meets⟩ := shaped.get node
  obtain ⟨counters, blooms⟩ := meets.counted
  unfold exchangeCell
  rw [List.getElem?_eq_getElem (show j < row.length by omega), Option.bind_some, found, Option.bind_some,
    List.getElem?_eq_getElem (show j < n.counters.length by omega), Option.bind_some,
    List.getElem?_eq_getElem (show j < n.bloomFilter.length by omega), Option.bind_some]
  apply (judgeCell_ends sensible fit enough shaped node _ _ _).map
  intro _ _
  rw [List.map_append, before, List.range_succ]
  rfl

/-- The costs of a node, one for each cell. -/
theorem cells_ends (shaped : Shaped cfg cfg.nodesInTree t) {row : List UInt32} (length : row.length = cfg.counterWidth)
    (node : i < cfg.nodesInTree) :
    Ends (forLoop 8 cfg.counterWidth (exchangeCell cfg rounds pipelined t i row) rounds 0 [])
      fun m => m.map (·.1) = List.range cfg.counterWidth := by
  have width := fit.width
  exact forLoop_ends (I := fun j (m : List (Nat × Cost)) => m.map (·.1) = List.range j) (by omega) (by omega)
    (fun j m less before => exchangeCell_ends sensible fit enough shaped length node less before) rfl

omit sensible enough in
/-- A cell fits into an entry of the history. -/
theorem cell_entry {cell : Nat} (inside : cell < cfg.counterWidth) : (UInt8.ofNat cell).toNat < cfg.counterWidth := by
  have width := fit.width
  rw [UInt8.toNat_ofNat_of_lt' (show cell < 2 ^ 8 by omega)]
  exact inside

theorem selectMax_ends (shaped : Shaped cfg cfg.nodesInTree t) (node : i < cfg.nodesInTree) {sorted : List (Nat × Cost)}
    (length : sorted.length = cfg.counterWidth) (cells : ∀ m ∈ sorted, m.1 < cfg.counterWidth) :
    Ends (selectMax cfg rounds i sorted t) (Shaped cfg cfg.nodesInTree) := by
  have width := fit.width
  have wide := sensible.wide
  refine forLoop_ends (I := fun _ => Shaped cfg cfg.nodesInTree) (by omega) (by omega) (fun jj u less shaped => ?_) shaped
  have inside : jj < sorted.length := by omega
  rw [List.getElem?_eq_getElem inside, Option.bind_some]
  exact writeCell_ends shaped node sensible.deep less (cell_entry fit (cells _ (List.getElem_mem inside)))

omit enough in
/-- Boost reads two levels of the history, or finds the only cell there is in the first of them. -/
theorem isNew_ends (boost : cfg.pipelineBoost = true) (shaped : Shaped cfg cfg.nodesInTree t) (node : i < cfg.nodesInTree)
    {m : Nat × Cost} (cell : m.1 < cfg.counterWidth) : Ends (isNew t i m) fun _ => True := by
  unfold isNew
  split
  · rcases fit.boost boost with deep | ⟨two, one⟩
    · refine (rowAt_ends shaped node (by omega)).bind fun row _ => ?_
      split
      · exact (rowAt_ends shaped node (by omega)).map fun _ _ => trivial
      · exact .done trivial
    · refine (rowAt_ends shaped node (by omega)).bind fun row entries => ?_
      -- the only cell is zero, and so is every entry of the history
      have only : ¬(row.all fun v => v.toNat != m.1) = true := by
        intro all
        have splits := sensible.splits
        have first : 0 < row.length := by
          rw [entries.length]
          exact splits
        have differs := List.all_eq_true.1 all _ (List.getElem_mem first)
        have small := entries.entries _ (List.getElem_mem first)
        simp only [bne_iff_ne, ne_eq] at differs
        omega
      rw [if_neg only]
      exact .done trivial
  · exact .done trivial

/-- What the scan of boost has done when `left` cells are still to come. -/
structure Scanned (cfg : FancyAttributes) (left : Nat) (s : CounterTree × Nat × List Nat) : Prop where
  shaped : Shaped cfg cfg.nodesInTree s.1
  found : s.2.1 ≤ cfg.layerSplit
  backup : ∀ cell ∈ s.2.2, cell < cfg.counterWidth
  all : cfg.counterWidth ≤ left + s.2.1 + s.2.2.length

omit enough in
theorem boostScan_ends (boost : cfg.pipelineBoost = true) (node : i < cfg.nodesInTree) {ms : List (Nat × Cost)}
    (cells : ∀ m ∈ ms, m.1 < cfg.counterWidth) {s : CounterTree × Nat × List Nat} (scanned : Scanned cfg ms.length s)
    (room : s.2.1 < cfg.layerSplit) :
    Ends (boostScan cfg i ms s) fun s => Scanned cfg 0 s ∨ Shaped cfg cfg.nodesInTree s.1 ∧ s.2.1 = cfg.layerSplit := by
  have width := fit.width
  have wide := sensible.wide
  induction ms generalizing s with
  | nil => exact .done (Or.inl scanned)
  | cons m ms ih =>
    have cell := cells m List.mem_cons_self
    have later := fun m' mem => cells m' (List.mem_cons_of_mem m mem)
    have all := scanned.all
    rw [List.length_cons] at all
    refine (isNew_ends sensible fit boost scanned.shaped node cell).bind fun new _ => ?_
    split
    · refine (writeCell_ends scanned.shaped node sensible.deep room (cell_entry fit cell)).bind fun t shaped => ?_
      have wraps : (s.2.1 + 1) % 256 = s.2.1 + 1 := Nat.mod_eq_of_lt (by omega)
      rw [wraps]
      split
      · rename_i full
        exact .done (Or.inr ⟨shaped, full⟩)
      · refine ih later ⟨shaped, ?_, scanned.backup, ?_⟩ ?_
        · show s.2.1 + 1 ≤ cfg.layerSplit
          omega
        · show cfg.counterWidth ≤ ms.length + (s.2.1 + 1) + s.2.2.length
          omega
        · show s.2.1 + 1 < cfg.layerSplit
          omega
    · refine ih later ⟨scanned.shaped, scanned.found, ?_, ?_⟩ room
      · intro c mem
        rcases List.mem_append.1 mem with old | new
        · exact scanned.backup c old
        · rw [List.mem_singleton.1 new]
          exact cell
      · show cfg.counterWidth ≤ ms.length + s.2.1 + (s.2.2 ++ [m.1]).length
        rw [List.length_append, List.length_singleton]
        omega

theorem selectBoost_ends (boost : cfg.pipelineBoost = true) (shaped : Shaped cfg cfg.nodesInTree t) (node : i < cfg.nodesInTree)
    {sorted : List (Nat × Cost)} (length : sorted.length = cfg.counterWidth) (cells : ∀ m ∈ sorted, m.1 < cfg.counterWidth) :
    Ends (selectBoost cfg rounds i sorted t) (Shaped cfg cfg.nodesInTree) := by
  have width := fit.width
  have wide := sensible.wide
  have start : Scanned cfg sorted.length (t, 0, []) := by
    refine ⟨shaped, Nat.zero_le _, fun cell mem => absurd mem List.not_mem_nil, ?_⟩
    show cfg.counterWidth ≤ sorted.length + 0 + 0
    omega
  refine (boostScan_ends sensible fit boost node cells start sensible.splits).bind fun s post => ?_
  rcases post with scanned | ⟨shaped, full⟩
  · have all := scanned.all
    refine forLoop_ends_from (I := fun slot u => Shaped cfg cfg.nodesInTree u ∧ s.2.1 ≤ slot) (by omega) ?_ scanned.found
      (by omega) ⟨scanned.shaped, Nat.le_refl _⟩ |>.mono fun _ last => last.1
    rintro slot u less ⟨shaped, from_⟩
    have inside : slot - s.2.1 < s.2.2.length := by omega
    rw [List.getElem?_eq_getElem inside, Option.bind_some]
    exact (writeCell_ends shaped node sensible.deep less (cell_entry fit (scanned.backup _ (List.getElem_mem inside)))).mono
      fun _ shaped => ⟨shaped, Nat.le_succ_of_le from_⟩
  · -- no slot is left
    have last : forLoop 8 cfg.layerSplit (fun slot t => (s.2.2[slot - s.2.1]?).bind fun cell =>
      writeCell i 0 slot (.ofNat cell) t)
        rounds s.2.1 s.1 = some s.1 := by
      rw [show rounds = rounds - 1 + 1 by omega, forLoop, if_neg (by omega)]
    exact ⟨s.1, last, shaped⟩

theorem printHistory_ends (shaped : Shaped cfg cfg.nodesInTree t) (node : i < cfg.nodesInTree) :
    Ends (printHistory cfg rounds i t) fun _ => True := by
  have depth := fit.depth
  have width := fit.width
  have wide := sensible.wide
  have row : ∀ h, h < cfg.treeDepth →
      Ends (forLoop 8 cfg.layerSplit (fun j _ => (readCell t i h j).map fun _ => ()) rounds 0 ()) fun _ => True := by
    intro h level
    exact forLoop_ends (I := fun _ _ => True) (by omega) (by omega)
      (fun j _ slot _ => (readCell_ends shaped node level slot).map fun _ _ => trivial) trivial
  refine (row 0 sensible.deep).bind fun _ _ => ?_
  exact forLoop_ends (I := fun _ _ => True) (by omega) (by omega) (fun h _ level _ => row h level) trivial

/-- **One node** of either exchange. -/
theorem exchangeNode_ends (shaped : Shaped cfg cfg.nodesInTree t) {r : Nat × List UInt32}
    (length : r.2.length = cfg.counterWidth)
    (node : r.1 < cfg.nodesInTree) :
    Ends (exchangeNode cfg rounds pipelined r t) (Shaped cfg cfg.nodesInTree) := by
  have width := fit.width
  have wide := sensible.wide
  have deep := sensible.deep
  have splits := sensible.splits
  unfold exchangeNode
  have shifted : Ends (if pipelined then shiftHistory cfg rounds r.1 (cfg.treeDepth - 1) t else some t)
      (Shaped cfg cfg.nodesInTree) := by
    split
    · exact shiftHistory_ends shaped node (by omega) (by omega) (by omega)
    · exact .done shaped
  refine shifted.bind fun t shaped => ?_
  have zero : (0 : UInt8).toNat < cfg.counterWidth := by
    show 0 < cfg.counterWidth
    omega
  refine (clearFirst_ends shaped zero node deep).bind fun t shaped => ?_
  refine (cells_ends sensible fit enough shaped length node).bind fun currentMax costs => ?_
  have perm := cfg.ns3.sort_perm currentMax
  have sortedLength : (cfg.ns3.sort currentMax).length = cfg.counterWidth := by
    rw [perm.length_eq, ← List.length_map (·.1), costs, List.length_range]
  have cells : ∀ m ∈ cfg.ns3.sort currentMax, m.1 < cfg.counterWidth := by
    intro m mem
    have found : m.1 ∈ currentMax.map (·.1) := List.mem_map_of_mem (perm.mem_iff.1 mem)
    rw [costs] at found
    exact List.mem_range.1 found
  have selected : Ends (if pipelined && cfg.pipelineBoost then selectBoost cfg rounds r.1 (cfg.ns3.sort currentMax) t
      else selectMax cfg rounds r.1 (cfg.ns3.sort currentMax) t) (Shaped cfg cfg.nodesInTree) := by
    split
    · rename_i both
      rw [Bool.and_eq_true] at both
      exact selectBoost_ends sensible fit enough both.2 shaped node sortedLength cells
    · exact selectMax_ends sensible fit enough shaped node sortedLength cells
  exact selected.bind fun t shaped => (printHistory_ends sensible fit enough shaped node).map fun _ _ => shaped

omit sensible in
theorem resetFlows_ends (shaped : Shaped cfg cfg.nodesInTree t) :
    Ends (resetFlows cfg rounds cfg.nodesInTree t) (Shaped cfg cfg.nodesInTree) := by
  have nodes := fit.nodes
  have width := fit.width
  refine forLoop_ends (I := fun _ => Shaped cfg cfg.nodesInTree) (by omega) (by omega) (fun i u node shaped => ?_) shaped
  refine modifyAt_ends shaped node fun n meets => ?_
  have blooms : AllOf cfg.counterWidth (fun _ => True) n.bloomFilter := ⟨meets.counted.2, fun _ _ => trivial⟩
  refine (forLoop_ends (I := fun _ => AllOf cfg.counterWidth fun _ => True) (by omega) (by omega)
    (fun j bloom cell blooms => modifyAt_ends blooms cell fun _ _ => .done trivial) blooms).map fun bloom blooms => ?_
  exact ⟨⟨by rw [List.length_map, meets.counted.1], blooms.length⟩, meets.maxCells⟩

/-- **One pass** of either exchange, over the records of a report, ends with a tree of the same shape. -/
theorem counterExchange_ends (shaped : Shaped cfg cfg.nodesInTree t) (seq : UInt16) {records : List (Nat × List UInt32)}
    (indices : records.map (·.1) = List.range cfg.nodesInTree) (lengths : ∀ r ∈ records, r.2.length = cfg.counterWidth) :
    Ends (counterExchange cfg rounds pipelined cfg.nodesInTree seq records t) (Shaped cfg cfg.nodesInTree) := by
  have nodes := fit.nodes
  have length : records.length = cfg.nodesInTree := by
    rw [← List.length_map (·.1), indices, List.length_range]
  refine (forLoop_ends (I := fun _ => Shaped cfg cfg.nodesInTree) (by omega) (by omega)
    (fun k u less shaped => ?_) shaped).bind fun u shaped => ?_
  · have mem : records[k] ∈ records := List.getElem_mem less
    have node : records[k].1 < cfg.nodesInTree := by
      have found : records[k].1 ∈ records.map (·.1) := List.mem_map_of_mem mem
      rw [indices] at found
      exact List.mem_range.1 found
    rw [List.getElem?_eq_getElem less, Option.bind_some]
    exact exchangeNode_ends sensible fit enough shaped (lengths _ mem) node
  · split
    · exact resetFlows_ends fit enough shaped
    · exact .done shaped

end

end

end CounterTree

end Ns3Fancy.Switch

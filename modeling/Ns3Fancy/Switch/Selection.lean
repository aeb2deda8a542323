import Ns3Fancy.Switch.History
import Ns3Fancy.Switch.Standard

/-!
# What an exchange selects

An exchange sorts the cells of a node by their cost and takes the first `split` of them; boost first takes the lossy cells
that were not taken lately, and fills up with those it passed over. As long as no more than `split` cells of the node are
lossy, either way selects them all.
-/

namespace Ns3Fancy.Switch
open Buffer Function
set_option autoImplicit false

/-! ## Sorted cells -/

/-- The cells with a cost, and those without. -/
def lossy (cells : List (Nat × Cost)) : List (Nat × Cost) := cells.filter fun c => decide (0 < c.2)
def free (cells : List (Nat × Cost)) : List (Nat × Cost) := cells.filter fun c => !decide (0 < c.2)

/-- Sorted cells start with the lossy ones. -/
theorem lossy_append_free {cells : List (Nat × Cost)} (sorted : cells.Pairwise fun a b => b.2 ≤ a.2) :
    lossy cells ++ free cells = cells := by
  induction cells with
  | nil => rfl
  | cons c cells ih =>
    obtain ⟨first, rest⟩ := List.pairwise_cons.1 sorted
    by_cases costs : 0 < c.2
    · have split := ih rest
      simp only [lossy, free, List.filter_cons, costs, decide_true, if_true, Bool.not_true, Bool.false_eq_true, if_false,
        List.cons_append] at split ⊢
      rw [split]
    · -- no cell behind one without a cost has a cost
      have none : lossy (c :: cells) = [] := by
        rw [lossy, List.filter_eq_nil_iff]
        intro e mem
        rcases List.mem_cons.1 mem with rfl | behind
        · simpa using costs
        · simpa using le_trans (first e behind) (not_lt.1 costs)
      rw [none, List.nil_append]
      refine List.filter_eq_self.2 fun e mem => ?_
      have notLossy := List.filter_eq_nil_iff.1 none e mem
      simpa using notLossy

section
variable {split : Nat} {recent : Nat → Bool} {cells : List (Nat × Cost)} {found backup : List Nat} {c : Nat}

theorem mem_selectMax (sorted : cells.Pairwise fun a b => b.2 ≤ a.2) (few : (lossy cells).length ≤ split)
    (mem : c ∈ (lossy cells).map (·.1)) : c ∈ selectMax split cells := by
  unfold selectMax
  rw [← lossy_append_free sorted, List.take_append, List.take_of_length_le few, List.map_append]
  exact List.mem_append_left _ mem

/-- A cell that boost takes first: lossy, and not zoomed into lately. -/
def takesFirst (recent : Nat → Bool) (c : Nat × Cost) : Bool := decide (0 < c.2 ∧ recent c.1 = false)

/-- What boost's scan finds: the cells it takes first, until there are enough. -/
theorem boostScan_found (room : found.length < split) :
    (boostScan split recent cells found backup).1 =
      found ++ ((cells.filter (takesFirst recent)).take (split - found.length)).map (·.1) := by
  induction cells generalizing found backup with
  | nil => simp [boostScan]
  | cons e cells ih =>
    obtain ⟨n, more⟩ : ∃ n, split - found.length = n + 1 := ⟨split - found.length - 1, by omega⟩
    rw [boostScan]
    split
    · rename_i first
      rw [List.filter_cons_of_pos (by simpa [takesFirst] using first), more, List.take_succ_cons, List.map_cons]
      split
      · rename_i full
        rw [List.length_append, List.length_singleton] at full
        rw [show n = 0 by omega, List.take_zero, List.map_nil]
      · rename_i notFull
        rw [List.length_append, List.length_singleton] at notFull
        rw [ih (by rw [List.length_append, List.length_singleton]; omega), List.append_assoc, List.length_append,
          List.length_singleton, show split - (found.length + 1) = n by omega, List.singleton_append]
    · rename_i second
      rw [List.filter_cons_of_neg (by simpa [takesFirst] using second), ih room]

/-- What it passes over is kept, if it does not end before the last cell. -/
theorem boostScan_backup (few : found.length + (cells.filter (takesFirst recent)).length < split) :
    (boostScan split recent cells found backup).2 =
      backup ++ (cells.filter fun c => !takesFirst recent c).map (·.1) := by
  induction cells generalizing found backup with
  | nil => simp [boostScan]
  | cons e cells ih =>
    rw [boostScan]
    split
    · rename_i first
      have takes : takesFirst recent e = true := by simpa [takesFirst] using first
      rw [List.filter_cons_of_pos takes, List.length_cons] at few
      rw [if_neg (by rw [List.length_append, List.length_singleton]; omega),
        ih (by rw [List.length_append, List.length_singleton]; omega), List.filter_cons_of_neg (by simp [takes])]
    · rename_i second
      have passes : takesFirst recent e = false := by simpa [takesFirst] using second
      rw [List.filter_cons_of_neg (by simp [passes])] at few
      rw [ih few, List.filter_cons_of_pos (by simp [passes]), List.map_cons, List.append_assoc, List.singleton_append]

theorem filter_length_split (p : Nat × Cost → Bool) (cells : List (Nat × Cost)) :
    (cells.filter p).length + (cells.filter fun c => !p c).length = cells.length := by
  rw [← List.length_eq_length_filter_add p]

/-- **Boost's selection**: the first cells of the list that has the cells it takes first in front of all others. -/
theorem selectBoost_eq (splits : 1 ≤ split) : selectBoost split recent cells =
    ((cells.filter (takesFirst recent) ++ cells.filter fun c => !takesFirst recent c).take split).map (·.1) := by
  have found := @boostScan_found split recent cells [] [] splits
  simp only [List.nil_append, List.length_nil, Nat.sub_zero] at found
  simp only [selectBoost, found, List.length_map, List.length_take, List.take_append, List.map_append]
  congr 1
  rcases Nat.lt_or_ge (cells.filter (takesFirst recent)).length split with few | many
  · rw [boostScan_backup (by simpa using few), List.nil_append, List.map_take, Nat.min_eq_right (Nat.le_of_lt few)]
  · rw [Nat.min_eq_left many, Nat.sub_self, Nat.sub_eq_zero_of_le many, List.take_zero, List.take_zero, List.map_nil]

/-- The backup is not read past its end. -/
theorem boostScan_enough (wide : split ≤ cells.length) :
    split - (boostScan split recent cells [] []).1.length ≤ (boostScan split recent cells [] []).2.length := by
  rcases Nat.eq_zero_or_pos split with none | splits
  · rw [none, Nat.zero_sub]
    exact Nat.zero_le _
  have found := @boostScan_found split recent cells [] [] splits
  simp only [List.nil_append, List.length_nil, Nat.sub_zero] at found
  rw [found, List.length_map, List.length_take]
  rcases Nat.lt_or_ge (cells.filter (takesFirst recent)).length split with few | many
  · have all := filter_length_split (takesFirst recent) cells
    rw [boostScan_backup (by simpa using few), List.nil_append, List.length_map]
    omega
  · omega

theorem mem_selectBoost (splits : 1 ≤ split) (sorted : cells.Pairwise fun a b => b.2 ≤ a.2)
    (few : (lossy cells).length ≤ split) (mem : c ∈ (lossy cells).map (·.1)) : c ∈ selectBoost split recent cells := by
  -- no cell without a cost is taken first, so the lossy ones are in front
  have none : (free cells).filter (takesFirst recent) = [] := by
    rw [List.filter_eq_nil_iff]
    intro e inFree
    have noCost : ¬0 < e.2 := by simpa using (List.mem_filter.1 inFree).2
    simp [takesFirst, noCost]
  have parts := filter_length_split (takesFirst recent) (lossy cells)
  rw [selectBoost_eq splits, ← lossy_append_free sorted, List.filter_append, none, List.append_nil, List.filter_append,
    ← List.append_assoc, List.take_append, List.take_of_length_le (by rw [List.length_append]; omega), List.map_append]
  refine List.mem_append_left _ ?_
  obtain ⟨e, inLossy, rfl⟩ := List.mem_map.1 mem
  refine List.mem_map.2 ⟨e, ?_, rfl⟩
  rw [List.mem_append, List.mem_filter, List.mem_filter]
  cases takes : takesFirst recent e with
  | true => exact Or.inl ⟨inLossy, rfl⟩
  | false => exact Or.inr ⟨inLossy, rfl⟩

theorem selectBoost_length (splits : 1 ≤ split) : (selectBoost split recent cells).length ≤ split := by
  rw [selectBoost_eq splits, List.length_map]
  exact List.length_take_le _ _

end

/-! ## The selection of a node -/

section
variable {cfg : FancyConfig} {row : List UInt32} {n : HashCounter} {j : Nat}

/-- The cells of a node that cost something. -/
def lossyCells (cfg : FancyConfig) (row : List UInt32) (n : HashCounter) : List Nat :=
  (lossy (nodeMax cfg n fun j => row.getD j 0)).map (·.1)

theorem mem_lossyCells : j ∈ lossyCells cfg row n ↔ j < cfg.counterWidth ∧
    0 < cost cfg.costType (n.counters j - row.getD j 0).toNat (n.counters j).toNat := by
  simp [lossyCells, lossy, nodeMax]

theorem lossyCells_nodup : (lossyCells cfg row n).Nodup := by
  have all : ((nodeMax cfg n fun j => row.getD j 0).map (·.1)).Nodup := by
    rw [nodeMax, List.map_map]
    simpa [comp_def] using List.nodup_range
  exact List.Nodup.sublist (List.Sublist.map _ List.filter_sublist) all

/-- Sorting keeps the lossy cells. -/
theorem lossy_sort_perm : ((lossy (cfg.ns3.sort (nodeMax cfg n fun j => row.getD j 0))).map (·.1)).Perm
    (lossyCells cfg row n) :=
  ((cfg.ns3.sort_perm _).filter _).map _

/-- A selection that holds all lossy cells of a node. -/
structure SelectsLossy (cfg : FancyConfig) (row : List UInt32) (n : HashCounter) (selected : List Nat) : Prop where
  fits : selected.length ≤ cfg.layerSplit
  lossy : ∀ j ∈ lossyCells cfg row n, j ∈ selected

theorem nodeSelection_lossy (few : (lossyCells cfg row n).length ≤ cfg.layerSplit) :
    SelectsLossy cfg row n (nodeSelection cfg row n) where
  fits := by
    simp only [nodeSelection, selectMax, List.length_map, List.length_take]
    exact Nat.min_le_left _ _
  lossy j mem := by
    have perm := @lossy_sort_perm cfg row n
    refine mem_selectMax (cfg.ns3.sort_sorted _) ?_ (perm.mem_iff.2 mem)
    rw [← List.length_map (f := (·.1)), perm.length_eq]
    exact few

theorem pipelinedSelection_lossy (splits : 1 ≤ cfg.layerSplit) (few : (lossyCells cfg row n).length ≤ cfg.layerSplit) :
    SelectsLossy cfg row n (pipelinedSelection cfg row n) := by
  unfold pipelinedSelection
  split
  · have perm := @lossy_sort_perm cfg row n
    refine ⟨selectBoost_length splits, fun j mem => ?_⟩
    refine mem_selectBoost splits (cfg.ns3.sort_sorted _) ?_ (perm.mem_iff.2 mem)
    rw [← List.length_map (f := (·.1)), perm.length_eq]
    exact few
  · exact nodeSelection_lossy few

/-- A cell of a selection has a slot. -/
theorem SelectsLossy.slot {selected : List Nat} (selects : SelectsLossy cfg row n selected) (narrow : cfg.counterWidth ≤ 255)
    (mem : j ∈ lossyCells cfg row n) : ∃ slot, slot < cfg.layerSplit ∧ ((selected.map UInt8.ofNat).getD slot 0).toNat = j := by
  obtain ⟨slot, inside, rfl⟩ := List.getElem_of_mem (selects.lossy j mem)
  refine ⟨slot, Nat.lt_of_lt_of_le inside selects.fits, ?_⟩
  have cell := (mem_lossyCells.1 mem).1
  simp only [List.getD_eq_getElem?_getD, List.getElem?_map, List.getElem?_eq_getElem inside, Option.map_some, Option.getD_some,
    UInt8.toNat_ofNat']
  exact Nat.mod_eq_of_lt (by omega)

end

/-! ## The new maximums -/

/-- The block "set new maximums" of an exchange, for the costs of a node's cells. -/
def newMaximums (cfg : FancyConfig) (boost : Bool) (costs : List (Nat × Cost)) (n : HashCounter) : HashCounter :=
  n.setFirst cfg.layerSplit ((if boost then
    selectBoost cfg.layerSplit (recently cfg.layerSplit n) (cfg.ns3.sort costs)
    else selectMax cfg.layerSplit (cfg.ns3.sort costs)).map .ofNat)

/-- The cells in the slots of level 0. -/
def HashCounter.targets (split : Nat) (n : HashCounter) : List Nat := (List.range split).map fun j => (n.maxCells 0 j).toNat

/-- Costs for the cells of a node. -/
def cellCosts (width : Nat) (costs : Nat → Cost) : List (Nat × Cost) := (List.range width).map fun j => (j, costs j)

section
variable {cfg : FancyConfig} {n : HashCounter} {costs : Nat → Cost}

theorem targets_setFirst {split : Nat} {selected : List Nat} (all : selected.length = split) (small : ∀ c ∈ selected, c < 256) :
    (n.setFirst split (selected.map .ofNat)).targets split = selected := by
  refine List.ext_getElem (by simp [HashCounter.targets, all]) fun j _ inside => ?_
  have slot : j < split := all ▸ inside
  simp only [HashCounter.targets, HashCounter.setFirst, List.getElem_map, List.getElem_range, slot, and_true, if_true,
    List.getD_eq_getElem?_getD, List.getElem?_map, List.getElem?_eq_getElem inside, Option.map_some, Option.getD_some,
    UInt8.toNat_ofNat']
  exact Nat.mod_eq_of_lt (small _ (List.getElem_mem inside))

theorem sorted_cells_perm (costs : Nat → Cost) :
    ((cfg.ns3.sort (cellCosts cfg.counterWidth costs)).map (·.1)).Perm (List.range cfg.counterWidth) := by
  refine ((cfg.ns3.sort_perm _).map _).trans (.of_eq ?_)
  simp [cellCosts, comp_def]

theorem sorted_cells_length (costs : Nat → Cost) :
    (cfg.ns3.sort (cellCosts cfg.counterWidth costs)).length = cfg.counterWidth := by
  rw [(cfg.ns3.sort_perm _).length_eq, cellCosts, List.length_map, List.length_range]

/-- The cost that a sorted cell comes with is its own. -/
theorem sorted_cells_cost {c : Nat × Cost} (mem : c ∈ cfg.ns3.sort (cellCosts cfg.counterWidth costs)) : costs c.1 = c.2 := by
  obtain ⟨j, -, rfl⟩ := List.mem_map.1 ((cfg.ns3.sort_perm _).mem_iff.1 mem)
  rfl

/-- The first cells of a list that has every cell once. -/
theorem targets_take {cells : List (Nat × Cost)} (perm : (cells.map (·.1)).Perm (List.range cfg.counterWidth))
    (wide : cfg.layerSplit ≤ cfg.counterWidth) (narrow : cfg.counterWidth ≤ 255) :
    (n.setFirst cfg.layerSplit (((cells.take cfg.layerSplit).map (·.1)).map .ofNat)).targets cfg.layerSplit =
        (cells.take cfg.layerSplit).map (·.1) ∧
      ((cells.take cfg.layerSplit).map (·.1)).Nodup ∧ ∀ c ∈ (cells.take cfg.layerSplit).map (·.1), c < cfg.counterWidth := by
  have length : cells.length = cfg.counterWidth := by simpa using perm.length_eq
  have inside : ∀ c ∈ (cells.take cfg.layerSplit).map (·.1), c < cfg.counterWidth := by
    intro c mem
    rw [List.map_take] at mem
    exact List.mem_range.1 (perm.mem_iff.1 (List.mem_of_mem_take mem))
  refine ⟨targets_setFirst ?_ fun c mem => Nat.lt_of_lt_of_le (inside c mem) (by omega), ?_, inside⟩
  · rw [List.length_map, List.length_take]
    omega
  · rw [List.map_take]
    exact (perm.nodup_iff.2 List.nodup_range).sublist (List.take_sublist _ _)

/-- **Zoom targets.** Whatever the cells of a node cost and whatever its history is, the new maximums are distinct cells.
Without boost no other cell costs more than one of them; with boost they are the first of the lossy cells that are not in
the last two selections followed by all others, each in sorted order, and the backup is not read past its end. -/
theorem zoom_targets (wide : cfg.layerSplit ≤ cfg.counterWidth) (narrow : cfg.counterWidth ≤ 255) (costs : Nat → Cost)
    (n : HashCounter) (boost : Bool) :
    let sorted := cfg.ns3.sort (cellCosts cfg.counterWidth costs)
    let targets := (newMaximums cfg boost (cellCosts cfg.counterWidth costs) n).targets cfg.layerSplit
    targets.length = cfg.layerSplit ∧ targets.Nodup ∧ (∀ c ∈ targets, c < cfg.counterWidth) ∧
      (boost = false → ∀ c ∈ targets, ∀ c', c' < cfg.counterWidth → c' ∉ targets → costs c' ≤ costs c) ∧
      (boost = true →
        targets = ((sorted.filter (takesFirst (recently cfg.layerSplit n)) ++
          sorted.filter fun c => !takesFirst (recently cfg.layerSplit n) c).take cfg.layerSplit).map (·.1) ∧
        cfg.layerSplit - (boostScan cfg.layerSplit (recently cfg.layerSplit n) sorted [] []).1.length ≤
          (boostScan cfg.layerSplit (recently cfg.layerSplit n) sorted [] []).2.length) := by
  intro sorted targets
  have length : targets.length = cfg.layerSplit := by simp [targets, HashCounter.targets]
  have sortedPerm : (sorted.map (·.1)).Perm (List.range cfg.counterWidth) := sorted_cells_perm costs
  refine ⟨length, ?_⟩
  cases boost with
  | false =>
    obtain ⟨selected, distinct, inside⟩ := targets_take (n := n) sortedPerm wide narrow
    have targets_eq : targets = (sorted.take cfg.layerSplit).map (·.1) := selected
    rw [targets_eq]
    refine ⟨distinct, inside, fun _ => ?_, fun isBoost => absurd isBoost (by decide)⟩
    intro c mem c' cell unselected
    obtain ⟨e, first, rfl⟩ := List.mem_map.1 mem
    -- the other cell is behind the selected ones in the sorted list
    obtain ⟨e', behind, rfl⟩ := List.mem_map.1 (sortedPerm.mem_iff.2 (List.mem_range.2 cell))
    have isSorted := cfg.ns3.sort_sorted (cellCosts cfg.counterWidth costs)
    rw [← List.take_append_drop cfg.layerSplit (cfg.ns3.sort _), List.pairwise_append] at isSorted
    have dropped : e' ∈ sorted.drop cfg.layerSplit := by
      rw [← List.take_append_drop cfg.layerSplit sorted, List.mem_append] at behind
      exact behind.resolve_left fun taken => unselected (List.mem_map.2 ⟨e', taken, rfl⟩)
    rw [sorted_cells_cost (List.mem_of_mem_take first), sorted_cells_cost (List.mem_of_mem_drop dropped)]
    exact isSorted.2.2 e first e' dropped
  | true =>
    have parts : ((sorted.filter (takesFirst (recently cfg.layerSplit n)) ++
        sorted.filter fun c => !takesFirst (recently cfg.layerSplit n) c).map (·.1)).Perm (List.range cfg.counterWidth) :=
      ((List.filter_append_perm _ sorted).map _).trans sortedPerm
    obtain ⟨selected, distinct, inside⟩ := targets_take (n := n) parts wide narrow
    have targets_eq : targets = ((sorted.filter (takesFirst (recently cfg.layerSplit n)) ++
        sorted.filter fun c => !takesFirst (recently cfg.layerSplit n) c).take cfg.layerSplit).map (·.1) := by
      rcases Nat.eq_zero_or_pos cfg.layerSplit with none | splits
      · simp [targets, HashCounter.targets, none]
      · rw [← selected]
        simp only [targets, newMaximums, if_true]
        rw [selectBoost_eq splits]
    rw [targets_eq]
    refine ⟨distinct, inside, fun notBoost => absurd notBoost (by decide), fun _ => ⟨rfl, ?_⟩⟩
    exact boostScan_enough (wide.trans_eq (sorted_cells_length costs).symm)

/-- Nodes of five cells that split in two. -/
def fiveCells : FancyConfig := { smallConfig with layerSplit := 2, counterWidth := 5, counterWidth_pos := by decide }

/-- Two cells cost the same and two cost nothing. -/
def tiedCosts (j : Nat) : Cost := if j = 1 ∨ j = 2 then 3 else if j = 3 then 1 else 0

/-- A node that has zoomed into cells 1 and 3 before. -/
def zoomedBefore : HashCounter where
  maxCells h j := if h = 1 ∧ j = 0 then 1 else if h = 2 ∧ j = 0 then 3 else 4

/-- Without boost the two dearest cells are selected. With it the one that was not selected before comes first, and the rest is
filled up from the others in order. -/
theorem zoom_targets_tied :
    ((newMaximums fiveCells false (cellCosts 5 tiedCosts) zoomedBefore).targets 2 = [1, 2] ∧
      ∀ c', c' < 5 → c' ∉ [1, 2] → tiedCosts c' ≤ tiedCosts 1) ∧
    (newMaximums fiveCells true (cellCosts 5 tiedCosts) zoomedBefore).targets 2 = [2, 1] ∧
      ((newMaximums fiveCells true (cellCosts 5 tiedCosts) zoomedBefore).targets 2).Nodup := by
  have dearest : (newMaximums fiveCells false (cellCosts 5 tiedCosts) zoomedBefore).targets 2 = [1, 2] := by decide +kernel
  have filled : (newMaximums fiveCells true (cellCosts 5 tiedCosts) zoomedBefore).targets 2 = [2, 1] := by decide +kernel
  obtain ⟨-, -, -, priority, -⟩ :=
    @zoom_targets fiveCells (by decide) (by decide) tiedCosts zoomedBefore false
  obtain ⟨-, distinct, -⟩ := @zoom_targets fiveCells (by decide) (by decide) tiedCosts zoomedBefore true
  refine ⟨⟨dearest, fun c' cell unselected => ?_⟩, filled, distinct⟩
  refine priority rfl 1 ?_ c' cell ?_
  · exact dearest ▸ List.mem_cons_self
  · exact fun mem => unselected (dearest ▸ mem)

end

end Ns3Fancy.Switch

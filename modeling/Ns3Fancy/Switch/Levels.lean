import Ns3Fancy.Switch.Zoom
import Ns3Fancy.Switch.Port
import Ns3Fancy.Switch.Standard
import Mathlib.Algebra.BigOperators.Group.Finset.Basic
import Mathlib.Algebra.BigOperators.Ring.Finset
import Mathlib.Algebra.Order.BigOperators.Group.Finset
import Mathlib.Data.Finset.Prod
import Mathlib.Order.Interval.Finset.Nat

/-!
# What a packet does to the levels of the tree

Whatever the selections are, a packet is counted in nodes of the tree only, in each level in one cell at most and, in
pipelined mode, in exactly one at the root. So the counters of a level never hold more than all packets together, and
those of the root hold them all.
-/

namespace Ns3Fancy.Switch
open Buffer Function
set_option autoImplicit false

/-- The cells of a level. -/
def levelCells (cfg : FancyConfig) (l : Nat) : Finset (Nat × Nat) :=
  Finset.Ico (layerStart cfg.layerSplit l) (layerStart cfg.layerSplit (l + 1)) ×ˢ Finset.range cfg.counterWidth

/-- The counters of a level, added up as numbers. -/
def levelSum (cfg : FancyConfig) (tree : Tree) (l : Nat) : Nat :=
  ∑ c ∈ levelCells cfg l, ((tree c.1).counters c.2).toNat

section
variable {cfg : FancyConfig} {tree tree' : Tree} {flow : FiveTuple} {seq : Nat}

theorem mem_levelCells {l : Nat} {c : Nat × Nat} :
    c ∈ levelCells cfg l ↔ InLayer cfg.layerSplit l c.1 ∧ c.2 < cfg.counterWidth := by
  simp [levelCells, InLayer]

/-- All levels together are the nodes of the tree. -/
theorem InLayer.node (splits : 1 ≤ cfg.layerSplit) {l i : Nat} (inside : l < cfg.treeDepth)
    (level : InLayer cfg.layerSplit l i) : i < cfg.nodesInTree := by
  rw [nodesInTree_eq splits]
  exact Nat.lt_of_lt_of_le level.2 (layerStart_mono _ inside)

/-! ## One packet -/

theorem cellOf_lt (wide : 1 ≤ cfg.counterWidth) (flow : FiveTuple) (l : Nat) : cfg.cellOf flow l < cfg.counterWidth := by
  unfold FancyConfig.cellOf FancyConfig.packetHash
  cases cfg.packetHashType <;> exact Nat.mod_lt _ wide

/-- A cell that a packet is counted in is that of its flow at some level, in a node of the level. -/
theorem mem_countedCells (deep : 1 ≤ cfg.treeDepth) {i j : Nat} (mem : (i, j) ∈ countedCells cfg seq flow tree) :
    ∃ l, l < cfg.treeDepth ∧ (cfg.pipeline = false → l = seq % cfg.treeDepth) ∧ InLayer cfg.layerSplit l i ∧
      j = cfg.cellOf flow l := by
  rw [countedCells_eq] at mem
  obtain ⟨s, walked, here⟩ := List.mem_map.1 mem
  obtain ⟨rfl, rfl⟩ := Prod.mk.inj here
  obtain ⟨less, phase⟩ := countedLevels_lt deep (show (s.1, s.2) ∈ _ from walked)
  exact ⟨s.1, less, phase, countedLevels_layer walked, rfl⟩

/-- A packet is counted in one cell of a level at most. -/
theorem countedCells_unique {l i j i' j' : Nat} (mem : (i, j) ∈ countedCells cfg seq flow tree)
    (mem' : (i', j') ∈ countedCells cfg seq flow tree) (layer : InLayer cfg.layerSplit l i)
    (layer' : InLayer cfg.layerSplit l i') : (i, j) = (i', j') := by
  rw [countedCells_eq] at mem mem'
  obtain ⟨s, walked, here⟩ := List.mem_map.1 mem
  obtain ⟨s', walked', here'⟩ := List.mem_map.1 mem'
  obtain ⟨rfl, rfl⟩ := Prod.mk.inj here
  obtain ⟨rfl, rfl⟩ := Prod.mk.inj here'
  have level : s.1 = s'.1 :=
    ((countedLevels_layer walked).unique layer).trans (layer'.unique (countedLevels_layer walked'))
  have levels : ((countedLevels cfg seq flow tree).map (·.1)).Nodup := by
    rw [List.Nodup, List.pairwise_map]
    exact (countedLevels_sorted seq flow tree).imp fun less => Nat.ne_of_lt less
  rw [List.inj_on_of_nodup_map levels walked walked' level]

/-- The walks of a packet look at nodes of the tree only. -/
theorem countedLevels_nodesInTree (splits : 1 ≤ cfg.layerSplit) (deep : 1 ≤ cfg.treeDepth)
    (same : ∀ i, i < cfg.nodesInTree → tree i = tree' i) :
    countedLevels cfg seq flow tree = countedLevels cfg seq flow tree' := by
  have walks : ∀ (hist : Nat → Nat) (l : Nat), l ≤ cfg.treeDepth → zoom cfg tree hist flow l = zoom cfg tree' hist flow l := by
    intro hist l le
    refine zoom_same fun i h ii above _ _ => ?_
    rw [same i]
    rw [nodesInTree_eq splits]
    exact Nat.lt_of_lt_of_le above (layerStart_mono _ le)
  unfold countedLevels
  split
  · congr 1
    refine List.filterMap_congr fun h mem => ?_
    have less := List.mem_range.1 mem
    rw [walks _ (h + 1) (by omega)]
  · rw [walks _ _ (Nat.le_of_lt (Nat.mod_lt _ deep))]

/-- So does what the packet changes. -/
theorem treeCounting_nodesInTree (splits : 1 ≤ cfg.layerSplit) (deep : 1 ≤ cfg.treeDepth) (sender : Bool)
    (same : ∀ i, i < cfg.nodesInTree → tree i = tree' i) {i : Nat} (inside : i < cfg.nodesInTree) :
    treeCounting cfg sender seq flow tree i = treeCounting cfg sender seq flow tree' i := by
  have levels := @countedLevels_nodesInTree cfg tree tree' flow seq splits deep same
  by_cases here : ∃ l, (l, i) ∈ countedLevels cfg seq flow tree
  · obtain ⟨l, mem⟩ := here
    rw [treeCounting_node sender mem, treeCounting_node sender (levels ▸ mem)]
    simp only [countNode, update_self, same i inside]
  · have apart : ∀ l, (l, i) ∉ countedLevels cfg seq flow tree := fun l mem => here ⟨l, mem⟩
    rw [treeCounting_other sender apart, treeCounting_other sender (levels ▸ apart), same i inside]

/-! ## Any number of packets -/

/-- Each packet falls in one cell of a level at most. -/
theorem sum_hits_le (l : Nat) (flows : List FiveTuple) :
    ∑ c ∈ levelCells cfg l, hits (fun flow => countedCells cfg seq flow tree) c.1 c.2 flows ≤ flows.length := by
  induction flows with
  | nil => simp [hits]
  | cons flow flows ih =>
    have one : ∑ c ∈ levelCells cfg l, (if c ∈ countedCells cfg seq flow tree then 1 else 0) ≤ 1 := by
      rw [← Finset.card_filter]
      refine Finset.card_le_one.2 fun c mem c' mem' => ?_
      obtain ⟨inLayer, here⟩ := Finset.mem_filter.1 mem
      obtain ⟨inLayer', here'⟩ := Finset.mem_filter.1 mem'
      exact countedCells_unique here here' (mem_levelCells.1 inLayer).1 (mem_levelCells.1 inLayer').1
    simp only [hits, List.countP_cons, decide_eq_true_eq, Finset.sum_add_distrib, List.length_cons, Prod.mk.eta] at ih ⊢
    omega

/-- In pipelined mode each packet falls in one cell of the root. -/
theorem sum_hits_root (pipelined : cfg.pipeline = true) (wide : 1 ≤ cfg.counterWidth)
    (flows : List FiveTuple) :
    ∑ c ∈ levelCells cfg 0, hits (fun flow => countedCells cfg seq flow tree) c.1 c.2 flows = flows.length := by
  induction flows with
  | nil => simp [hits]
  | cons flow flows ih =>
    have root := inLayer_root cfg.layerSplit
    have here : (0, cfg.cellOf flow 0) ∈ countedCells cfg seq flow tree := by
      rw [countedCells, if_pos pipelined]
      exact List.mem_cons_self
    have one : ∑ c ∈ levelCells cfg 0, (if c ∈ countedCells cfg seq flow tree then 1 else 0) = 1 := by
      rw [← Finset.card_filter, Finset.card_eq_one]
      refine ⟨(0, cfg.cellOf flow 0), Finset.eq_singleton_iff_unique_mem.2 ⟨?_, fun c mem => ?_⟩⟩
      · exact Finset.mem_filter.2 ⟨mem_levelCells.2 ⟨root, cellOf_lt wide flow 0⟩, here⟩
      · obtain ⟨inLayer, there⟩ := Finset.mem_filter.1 mem
        exact countedCells_unique there here (mem_levelCells.1 inLayer).1 root
    simp only [hits, List.countP_cons, decide_eq_true_eq, Finset.sum_add_distrib, List.length_cons, Prod.mk.eta] at ih ⊢
    rw [ih, one]

/-- Every counter of the tree is clear. -/
def Clear (tree : Tree) : Prop := ∀ i j, (tree i).counters j = 0

theorem counters_of_clear (clear : Clear tree) (sender : Bool) (flows : List FiveTuple) (i j : Nat) :
    ((flows.foldl (fun t flow => treeCounting cfg sender seq flow t) tree i).counters j).toNat =
      hits (fun flow => countedCells cfg seq flow tree) i j flows % 2 ^ 32 := by
  rw [(foldl_treeCounting_counters sender seq flows tree i j).2, clear, UInt32.zero_add, UInt32.toNat_ofNat']

/-- The packets of a machine, counted one after the other. -/
def countPackets (cfg : FancyConfig) (sender : Bool) (id : Nat) (flows : List FiveTuple) (g : GreyInfo) : Option GreyInfo :=
  flows.foldlM (fun g flow => countPacket cfg sender id flow g) g

-- by induction on the packets; the session number, by which the cells are chosen, stays
theorem countPackets_tree {sender : Bool} {flows : List FiveTuple} {g g' : GreyInfo}
    (counted : countPackets cfg sender cfg.treeId flows g = some g') :
    g'.localCounter cfg.treeId = g.localCounter cfg.treeId + .ofNat flows.length ∧ g'.currentSEQ = g.currentSEQ ∧
      g'.counterTree = flows.foldl (fun t flow => treeCounting cfg sender
        (g.currentSEQ cfg.treeId).toNat flow t) g.counterTree := by
  induction flows generalizing g with
  | nil =>
    cases counted
    exact ⟨by simp, rfl, rfl⟩
  | cons flow flows ih =>
    obtain ⟨next, one, rest⟩ := Option.bind_eq_some_iff.1 (counted : (countPacket cfg sender cfg.treeId flow g).bind _ = _)
    unfold countPacket at one
    simp only [if_true] at one
    split at one
    · cases one
    · cases one
      obtain ⟨counter, seq, tree⟩ := ih rest
      refine ⟨?_, seq, tree⟩
      rw [counter, GreyInfo.setLocalCounter_localCounter, update_self, List.length_cons, Nat.add_comm flows.length 1,
        UInt64.ofNat_add, UInt64.add_assoc]
      rfl

theorem countPackets_isSome (ends : cfg.pipeline = true → cfg.countingEnds = true) (sender : Bool) (id : Nat)
    (flows : List FiveTuple) (g : GreyInfo) : ∃ g', countPackets cfg sender id flows g = some g' := by
  induction flows generalizing g with
  | nil => exact ⟨g, rfl⟩
  | cons flow flows ih =>
    have one : ∃ next, countPacket cfg sender id flow g = some next := by
      unfold countPacket
      simp only
      split
      · rw [if_neg]
        · exact ⟨_, rfl⟩
        · intro stuck
          simp only [Bool.and_eq_true, Bool.not_eq_true'] at stuck
          exact absurd (ends stuck.1) (by simp [stuck.2])
      · exact ⟨_, rfl⟩
    obtain ⟨next, one⟩ := one
    obtain ⟨g', rest⟩ := ih next
    exact ⟨g', by rw [countPackets, List.foldlM_cons, one]; exact rest⟩

/-- The sums of the levels, for a tree that was clear before the packets. -/
theorem levelSum_counted {sender : Bool} {flows : List FiveTuple} {g g' : GreyInfo} (clear : Clear g.counterTree)
    (counted : countPackets cfg sender cfg.treeId flows g = some g') (l : Nat) :
    levelSum cfg g'.counterTree l = ∑ c ∈ levelCells cfg l,
      hits (fun flow => countedCells cfg (g.currentSEQ cfg.treeId).toNat flow g.counterTree) c.1 c.2 flows % 2 ^ 32 := by
  obtain ⟨-, -, tree⟩ := countPackets_tree counted
  unfold levelSum
  rw [tree]
  exact Finset.sum_congr rfl fun c _ => counters_of_clear clear sender flows c.1 c.2

/-- **The walk of a packet stays in the tree.** One packet is counted in nodes of the tree only, at each level in one cell
at most, in a node of the level, and in pipelined mode in one cell of the root; nodes outside the tree are neither changed
nor looked at. After any packets the root of a pipelined tree that was clear before holds as many as the machine's counter,
up to the width of its cells, and no level holds more, unless the machine's own counter has wrapped. -/
theorem tree_walk (deep : 1 ≤ cfg.treeDepth) (bounded : cfg.treeDepth ≤ 256) (splits : 1 ≤ cfg.layerSplit)
    (wide : 1 ≤ cfg.counterWidth) :
    (∀ (sender : Bool) (seq : Nat) (flow : FiveTuple) (tree : Tree),
      (∀ i j, (treeCounting cfg sender seq flow tree i).counters j =
        (tree i).counters j + if (i, j) ∈ countedCells cfg seq flow tree then 1 else 0) ∧
      (∀ i j, (i, j) ∈ countedCells cfg seq flow tree → i < cfg.nodesInTree ∧ j < cfg.counterWidth ∧
        ∃ l, l < cfg.treeDepth ∧ (cfg.pipeline = false → l = seq % cfg.treeDepth) ∧ InLayer cfg.layerSplit l i) ∧
      (∀ l i j i' j', (i, j) ∈ countedCells cfg seq flow tree → (i', j') ∈ countedCells cfg seq flow tree →
        InLayer cfg.layerSplit l i → InLayer cfg.layerSplit l i' → (i, j) = (i', j')) ∧
      (cfg.pipeline = true → (0, cfg.cellOf flow 0) ∈ countedCells cfg seq flow tree) ∧
      (∀ i, cfg.nodesInTree ≤ i → treeCounting cfg sender seq flow tree i = tree i) ∧
      ∀ tree' : Tree, (∀ i, i < cfg.nodesInTree → tree i = tree' i) → ∀ i, i < cfg.nodesInTree →
        treeCounting cfg sender seq flow tree i = treeCounting cfg sender seq flow tree' i) ∧
    ∀ (sender : Bool) (flows : List FiveTuple) (g : GreyInfo), Clear g.counterTree → g.localCounter cfg.treeId = 0 →
      cfg.pipeline = true → ∃ g', countPackets cfg sender cfg.treeId flows g = some g' ∧
        levelSum cfg g'.counterTree 0 % 2 ^ 32 = (g'.localCounter cfg.treeId).toNat % 2 ^ 32 ∧
        (flows.length < 2 ^ 64 → ∀ l, levelSum cfg g'.counterTree l ≤ (g'.localCounter cfg.treeId).toNat) := by
  refine ⟨fun sender seq flow tree => ⟨treeCounting_counters sender seq flow tree, ?_, ?_, ?_, ?_, ?_⟩, ?_⟩
  · intro i j mem
    obtain ⟨l, inside, phase, layer, rfl⟩ := mem_countedCells deep mem
    exact ⟨layer.node splits inside, cellOf_lt wide flow l, l, inside, phase, layer⟩
  · exact fun l i j i' j' mem mem' layer layer' => countedCells_unique mem mem' layer layer'
  · intro pipelined
    rw [countedCells, if_pos pipelined]
    exact List.mem_cons_self
  · intro i outside
    refine treeCounting_other sender fun l mem => ?_
    exact absurd ((countedLevels_layer mem).node splits (countedLevels_lt deep mem).1) (Nat.not_lt.2 outside)
  · exact fun tree' same i inside => treeCounting_nodesInTree splits deep sender same inside
  · intro sender flows g clear zero pipelined
    have ends : cfg.pipeline = true → cfg.countingEnds = true := fun _ => by simpa [FancyConfig.countingEnds] using bounded
    obtain ⟨g', counted⟩ := countPackets_isSome ends sender cfg.treeId flows g
    refine ⟨g', counted, ?_⟩
    obtain ⟨counter, -, -⟩ := countPackets_tree counted
    rw [zero, UInt64.zero_add] at counter
    simp only [levelSum_counted clear counted, counter, UInt64.toNat_ofNat']
    constructor
    · rw [← Finset.sum_nat_mod, sum_hits_root pipelined wide]
      omega
    · intro short l
      rw [Nat.mod_eq_of_lt short]
      exact Nat.le_trans (Finset.sum_le_sum fun c _ => Nat.mod_le _ _) (sum_hits_le l flows)

/-! ## A tree of two levels -/

/-- A root that zooms into its first cell. -/
def twoLevels : FancyConfig := { smallConfig with treeDepth := 2 }

/-- Counted below the root too. -/
def zoomedFlow : FiveTuple := {}
/-- Counted at the root only. -/
def shallowFlow : FiveTuple := { dstIp := 0x100 }

theorem tree_walk_two : (countPackets twoLevels true twoLevels.treeId [zoomedFlow, shallowFlow] {}).any fun g =>
    levelSum twoLevels g.counterTree 0 % 2 ^ 32 = 2 ∧ levelSum twoLevels g.counterTree 1 ≤ 2 := by
  obtain ⟨g', counted, root, levels⟩ := (@tree_walk twoLevels (by decide) (by decide) (by decide) (by decide)).2
    true [zoomedFlow, shallowFlow] {} (fun _ _ => rfl) rfl rfl
  have counter : g'.localCounter twoLevels.treeId = 2 := (countPackets_tree counted).1
  rw [counter] at root levels
  rw [counted]
  simpa using And.intro root (levels (by decide) 1)

/-- A machine's counter has 64 bits, a level's counters together more: when the packets that were not zoomed wrap the
machine's counter, the one that was is still counted below the root. -/
theorem level_outgrows_counter : ∃ (flows : List FiveTuple) (g' : GreyInfo),
    countPackets twoLevels true twoLevels.treeId flows {} = some g' ∧
      (g'.localCounter twoLevels.treeId).toNat < levelSum twoLevels g'.counterTree 1 := by
  obtain ⟨n, wraps⟩ : ∃ n : Nat, UInt64.ofNat (n + 1) = 0 := ⟨2 ^ 64 - 1, by decide⟩
  have ends : twoLevels.pipeline = true → twoLevels.countingEnds = true := fun _ => by decide
  obtain ⟨g', counted⟩ := countPackets_isSome ends true twoLevels.treeId (zoomedFlow :: List.replicate n shallowFlow) {}
  refine ⟨_, g', counted, ?_⟩
  have counter := (countPackets_tree counted).1
  rw [List.length_cons, List.length_replicate, wraps] at counter
  have cell : ((1, 1) : Nat × Nat) ∈ levelCells twoLevels 1 := by decide
  have zoomed : ((1, 1) : Nat × Nat) ∈ countedCells twoLevels 0 zoomedFlow fun _ => {} := by decide
  have shallow : ((1, 1) : Nat × Nat) ∉ countedCells twoLevels 0 shallowFlow fun _ => {} := by decide
  have one : hits (fun flow => countedCells twoLevels 0 flow fun _ => {}) 1 1
      (zoomedFlow :: List.replicate n shallowFlow) = 1 := by
    simp [hits, List.countP_replicate, zoomed, shallow]
  rw [counter, levelSum_counted (fun _ _ => rfl) counted]
  refine Nat.lt_of_lt_of_le (Nat.zero_lt_one) ?_
  refine Nat.le_trans (Nat.le_of_eq ?_) (Finset.single_le_sum (fun c _ => Nat.zero_le _) cell)
  exact (congrArg (· % 2 ^ 32) one).symm

end

end Ns3Fancy.Switch

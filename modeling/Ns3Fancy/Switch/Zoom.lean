import Ns3Fancy.Switch.History
import Mathlib.Data.List.Find

/-!
# Walks down and up the tree

Counting walks down from the root and numbers the children of a node from `split * node + 1` on, so the nodes of a layer
follow one another and no two layers share a node. The exchange walks up from a cell of the last layer by the inverse of
that numbering; where both walks read the same selections it finds the cells of the flow.
-/

namespace Ns3Fancy.Switch
open Buffer Function
set_option autoImplicit false

/-! ## Layers -/

/-- The first node of a layer. -/
def layerStart (split : Nat) : Nat → Nat
  | 0 => 0
  | l + 1 => layerStart split l * split + 1

theorem layerStart_le_succ (split l : Nat) : layerStart split l ≤ layerStart split (l + 1) := by
  induction l with
  | zero => exact Nat.zero_le _
  | succ l ih => exact Nat.succ_le_succ (Nat.mul_le_mul_right split ih)

theorem layerStart_mono (split : Nat) {l l' : Nat} (le : l ≤ l') : layerStart split l ≤ layerStart split l' :=
  monotone_nat_of_le_succ (layerStart_le_succ split) le

theorem layerStart_pow (split l : Nat) : layerStart (split + 1) l * split + 1 = (split + 1) ^ l := by
  induction l with
  | zero => simp [layerStart]
  | succ l ih =>
    rw [pow_succ, ← ih]
    simp only [layerStart]
    ring

theorem layerStart_one (l : Nat) : layerStart 1 l = l := by
  induction l with
  | zero => rfl
  | succ l ih => simp [layerStart, ih]

theorem layerStart_div {split : Nat} (wide : 1 < split) (l : Nat) : (split ^ l - 1) / (split - 1) = layerStart split l := by
  obtain ⟨n, rfl⟩ : ∃ n, split = n + 1 := ⟨split - 1, by omega⟩
  rw [← layerStart_pow]
  simp only [Nat.add_sub_cancel]
  exact Nat.mul_div_cancel _ (by omega)

section
variable {cfg : FancyConfig} {tree tree' : Tree} {flow : FiveTuple}

theorem nodesInTree_eq {cfg : FancyAttributes} (splits : 1 ≤ cfg.layerSplit) :
    cfg.nodesInTree = layerStart cfg.layerSplit cfg.treeDepth := by
  unfold FancyAttributes.nodesInTree
  split
  · rename_i wide
    exact layerStart_div wide _
  · have one : cfg.layerSplit = 1 := by omega
    rw [if_pos one, one, layerStart_one]

theorem lastLayerIndex_eq {cfg : FancyAttributes} (splits : 1 ≤ cfg.layerSplit) :
    cfg.lastLayerIndex = layerStart cfg.layerSplit (cfg.treeDepth - 1) := by
  unfold FancyAttributes.lastLayerIndex
  split
  · rename_i one
    rw [one, layerStart_one]
  · exact layerStart_div (by omega) _

/-! ## The walk down -/

theorem findSlot_some {slots : Nat → UInt8} {split cell ii : Nat} (found : findSlot slots split cell = some ii) :
    ii < split ∧ (slots ii).toNat = cell := by
  unfold findSlot at found
  have mem := List.mem_of_find?_eq_some found
  have holds := List.find?_some found
  exact ⟨List.mem_range.1 mem, by simpa using holds⟩

/-- Looking for a cell reads the first `split` slots. -/
theorem findSlot_congr {slots slots' : Nat → UInt8} {split : Nat} (same : ∀ ii, ii < split → slots ii = slots' ii)
    (cell : Nat) : findSlot slots split cell = findSlot slots' split cell := by
  unfold findSlot
  refine List.find?_congr fun ii mem => ?_
  rw [same ii (List.mem_range.1 mem)]

theorem findSlot_isSome {slots : Nat → UInt8} {split cell ii : Nat} (inside : ii < split) (holds : (slots ii).toNat = cell) :
    ∃ slot, findSlot slots split cell = some slot := by
  refine Option.isSome_iff_exists.1 ?_
  rw [findSlot, List.find?_isSome]
  exact ⟨ii, List.mem_range.2 inside, by simpa using holds⟩

/-- The last step of a walk down. -/
theorem zoom_succ {hist : Nat → Nat} {l node : Nat} (found : zoom cfg tree hist flow (l + 1) = some node) :
    ∃ parent ii, zoom cfg tree hist flow l = some parent ∧ ii < cfg.layerSplit ∧
      ((tree parent).maxCells (hist l) ii).toNat = cfg.cellOf flow l ∧ node = parent * cfg.layerSplit + (ii + 1) := by
  obtain ⟨parent, above, step⟩ := Option.bind_eq_some_iff.1 found
  obtain ⟨ii, slot, rfl⟩ := Option.map_eq_some_iff.1 step
  obtain ⟨inside, holds⟩ := findSlot_some slot
  exact ⟨parent, ii, above, inside, holds, rfl⟩

/-- A node of layer `l`. -/
def InLayer (split l i : Nat) : Prop := layerStart split l ≤ i ∧ i < layerStart split (l + 1)

/-- No two layers share a node. -/
theorem InLayer.unique {split l l' i : Nat} (layer : InLayer split l i) (layer' : InLayer split l' i) : l = l' := by
  unfold InLayer at layer layer'
  rcases Nat.lt_trichotomy l l' with less | same | more
  · have := layerStart_mono split (show l + 1 ≤ l' from less)
    omega
  · exact same
  · have := layerStart_mono split (show l' + 1 ≤ l from more)
    omega

theorem inLayer_root (split : Nat) : InLayer split 0 0 := ⟨Nat.le_refl _, by simp [layerStart]⟩

/-- A walk ends in its layer. -/
theorem zoom_layer {hist : Nat → Nat} {l node : Nat} (found : zoom cfg tree hist flow l = some node) :
    InLayer cfg.layerSplit l node := by
  induction l generalizing node with
  | zero =>
    cases found
    exact inLayer_root _
  | succ l ih =>
    obtain ⟨parent, ii, above, inside, -, rfl⟩ := zoom_succ found
    obtain ⟨low, high⟩ := ih above
    constructor
    · calc layerStart cfg.layerSplit (l + 1) = layerStart cfg.layerSplit l * cfg.layerSplit + 1 := rfl
        _ ≤ parent * cfg.layerSplit + (ii + 1) := by have := Nat.mul_le_mul_right cfg.layerSplit low; omega
    · calc parent * cfg.layerSplit + (ii + 1) < (parent + 1) * cfg.layerSplit + 1 := by rw [Nat.succ_mul]; omega
        _ ≤ layerStart cfg.layerSplit (l + 1) * cfg.layerSplit + 1 :=
          Nat.succ_le_succ (Nat.mul_le_mul_right _ high)

/-- Walks that read the same selections above a layer end in the same node of it. -/
theorem zoom_same {hist hist' : Nat → Nat} {l : Nat} (same : ∀ i h ii, i < layerStart cfg.layerSplit l → h < l →
      ii < cfg.layerSplit → (tree i).maxCells (hist h) ii = (tree' i).maxCells (hist' h) ii) :
    zoom cfg tree hist flow l = zoom cfg tree' hist' flow l := by
  induction l with
  | zero => rfl
  | succ l ih =>
    have above := ih fun i h ii below less inside =>
      same i h ii (Nat.lt_of_lt_of_le below (layerStart_le_succ _ _)) (Nat.lt_succ_of_lt less) inside
    simp only [zoom, above]
    cases walk : zoom cfg tree' hist' flow l with
    | none => rfl
    | some node =>
      simp only [Option.bind_some]
      rw [findSlot_congr fun ii inside => same node l ii (zoom_layer walk).2 (Nat.lt_succ_self l) inside]

/-- A walk goes on where the selection has the flow's cell. -/
theorem zoom_next {hist : Nat → Nat} {l node ii : Nat} (walk : zoom cfg tree hist flow l = some node)
    (inside : ii < cfg.layerSplit) (holds : ((tree node).maxCells (hist l) ii).toNat = cfg.cellOf flow l) :
    ∃ next, zoom cfg tree hist flow (l + 1) = some next := by
  obtain ⟨slot, found⟩ := findSlot_isSome inside holds
  exact ⟨node * cfg.layerSplit + (slot + 1), by simp [zoom, walk, found]⟩

/-! ## The walk up -/

/-- **The walk up retraces the walk down**, if in the layers above it reads the selections that the walk down read. -/
theorem climb_zoom {hist level : Nat → Nat} {l t node : Nat} (found : zoom cfg tree hist flow l = some node)
    (same : ∀ i j m, i < layerStart cfg.layerSplit l → j < cfg.layerSplit → m < l →
      (tree' i).maxCells (level (t + m)) j = (tree i).maxCells (hist (l - 1 - m)) j) :
    climb cfg tree' level l t node = ((List.range l).map fun m => UInt8.ofNat (cfg.cellOf flow m)).reverse := by
  induction l generalizing t node with
  | zero => rfl
  | succ l ih =>
    obtain ⟨parent, ii, above, inside, holds, rfl⟩ := zoom_succ found
    have parentAddress : (parent * cfg.layerSplit + (ii + 1) - 1) / cfg.layerSplit = parent := by
      rw [Nat.add_sub_assoc (by omega), Nat.add_sub_cancel, Nat.mul_comm, Nat.mul_add_div (by omega),
        Nat.div_eq_of_lt inside, Nat.add_zero]
    have childShift : parent * cfg.layerSplit + (ii + 1) - cfg.layerSplit * parent - 1 = ii := by
      rw [Nat.mul_comm cfg.layerSplit]; omega
    have here : (tree' parent).maxCells (level t) ii = UInt8.ofNat (cfg.cellOf flow l) := by
      have read := same parent ii 0 (zoom_layer above).2 inside (Nat.succ_pos l)
      simp only [Nat.add_zero, Nat.add_sub_cancel, Nat.sub_zero] at read
      rw [read, ← holds, UInt8.ofNat_toNat]
    simp only [climb, parentAddress, childShift, here, List.range_succ, List.map_append, List.map_cons, List.map_nil,
      List.reverse_append, List.reverse_cons, List.reverse_nil, List.nil_append, List.singleton_append]
    congr 1
    refine ih above fun i j m below slot deep => ?_
    have read := same i j (m + 1) (Nat.lt_of_lt_of_le below (layerStart_le_succ _ _)) slot (by omega)
    rw [show t + (m + 1) = t + 1 + m by omega, show l + 1 - 1 - (m + 1) = l - 1 - m by omega] at read
    exact read

/-- The path of a flow: its cell at every level. -/
def flowPath (cfg : FancyConfig) (flow : FiveTuple) : Bytes :=
  (List.range cfg.treeDepth).map fun m => UInt8.ofNat (cfg.cellOf flow m)

theorem hashPath_zoom {hist level : Nat → Nat} {node : Nat} (deep : 1 ≤ cfg.treeDepth)
    (found : zoom cfg tree hist flow (cfg.treeDepth - 1) = some node)
    (same : ∀ i j m, i < layerStart cfg.layerSplit (cfg.treeDepth - 1) → j < cfg.layerSplit → m < cfg.treeDepth - 1 →
      (tree' i).maxCells (level m) j = (tree i).maxCells (hist (cfg.treeDepth - 1 - 1 - m)) j) :
    hashPath cfg tree' level node (cfg.cellOf flow (cfg.treeDepth - 1)) = flowPath cfg flow := by
  obtain ⟨n, depth⟩ : ∃ n, cfg.treeDepth = n + 1 := ⟨cfg.treeDepth - 1, by omega⟩
  unfold hashPath flowPath
  rw [climb_zoom found fun i j m below slot inside => by rw [Nat.zero_add]; exact same i j m below slot inside]
  simp [depth, List.range_succ]

/-! ## The cells a packet is counted in -/

/-- The levels a packet is counted at, and the node of each, from the root down. -/
def countedLevels (cfg : FancyConfig) (seq : Nat) (flow : FiveTuple) (tree : Tree) : List (Nat × Nat) :=
  if cfg.pipeline then
    (0, 0) :: (List.range (cfg.treeDepth - 1)).filterMap fun h =>
      (zoom cfg tree (fun level => h - level) flow (h + 1)).map fun node => (h + 1, node)
  else (zoom cfg tree (fun _ => 0) flow (seq % cfg.treeDepth)).toList.map fun node => (seq % cfg.treeDepth, node)

theorem countedCells_eq (seq : Nat) (flow : FiveTuple) (tree : Tree) :
    countedCells cfg seq flow tree = (countedLevels cfg seq flow tree).map fun s => (s.2, cfg.cellOf flow s.1) := by
  unfold countedCells countedLevels
  split
  · simp only [List.map_cons, List.map_filterMap, Option.map_map, comp_def]
  · simp only [List.map_map, comp_def]

/-- Each node is in the layer of its level. -/
theorem countedLevels_layer {seq l i : Nat} (mem : (l, i) ∈ countedLevels cfg seq flow tree) : InLayer cfg.layerSplit l i := by
  unfold countedLevels at mem
  split at mem
  · simp only [List.mem_cons, Prod.mk.injEq, List.mem_filterMap, Option.map_eq_some_iff] at mem
    rcases mem with ⟨rfl, rfl⟩ | ⟨h, -, node, found, rfl, rfl⟩
    · exact inLayer_root _
    · exact zoom_layer found
  · simp only [List.mem_map, Option.mem_toList, Prod.mk.injEq] at mem
    obtain ⟨node, found, rfl, rfl⟩ := mem
    exact zoom_layer found

theorem countedLevels_lt (deep : 1 ≤ cfg.treeDepth) {seq l i : Nat} (mem : (l, i) ∈ countedLevels cfg seq flow tree) :
    l < cfg.treeDepth ∧ (cfg.pipeline = false → l = seq % cfg.treeDepth) := by
  unfold countedLevels at mem
  split at mem
  · rename_i pipelined
    simp only [List.mem_cons, Prod.mk.injEq, List.mem_filterMap, List.mem_range, Option.map_eq_some_iff] at mem
    rcases mem with ⟨rfl, rfl⟩ | ⟨h, less, node, -, rfl, rfl⟩
    · exact ⟨deep, fun serial => absurd pipelined (by simp [serial])⟩
    · exact ⟨by omega, fun serial => absurd pipelined (by simp [serial])⟩
  · simp only [List.mem_map, Option.mem_toList, Prod.mk.injEq] at mem
    obtain ⟨node, -, rfl, rfl⟩ := mem
    exact ⟨Nat.mod_lt _ deep, fun _ => rfl⟩

/-- The levels come in order, each once. -/
theorem countedLevels_sorted (seq : Nat) (flow : FiveTuple) (tree : Tree) :
    (countedLevels cfg seq flow tree).Pairwise fun s s' => s.1 < s'.1 := by
  unfold countedLevels
  split
  · rw [List.pairwise_cons]
    constructor
    · intro s mem
      simp only [List.mem_filterMap, Option.map_eq_some_iff] at mem
      obtain ⟨h, -, node, -, rfl⟩ := mem
      exact Nat.succ_pos h
    · refine List.Pairwise.filterMap _ ?_ List.pairwise_lt_range
      intro h h' less s mem s' mem'
      obtain ⟨node, -, rfl⟩ := Option.map_eq_some_iff.1 mem
      obtain ⟨node', -, rfl⟩ := Option.map_eq_some_iff.1 mem'
      exact Nat.succ_lt_succ less
  · cases zoom cfg tree (fun _ => 0) flow (seq % cfg.treeDepth) <;> simp

/-- So no node comes twice. -/
theorem countedLevels_nodes (seq : Nat) (flow : FiveTuple) (tree : Tree) :
    ((countedLevels cfg seq flow tree).map (·.2)).Nodup := by
  rw [List.Nodup, List.pairwise_map]
  refine (countedLevels_sorted seq flow tree).imp_of_mem ?_
  intro s s' mem mem' less same
  have layer := countedLevels_layer (show (s.1, s.2) ∈ _ from mem)
  have layer' := countedLevels_layer (show (s'.1, s'.2) ∈ _ from mem')
  rw [same] at layer
  exact Nat.ne_of_lt less (layer.unique layer')

/-- **Counting a packet** counts it in the nodes of its levels. -/
theorem treeCounting_eq (sender : Bool) (seq : Nat) (flow : FiveTuple) (tree : Tree) :
    treeCounting cfg sender seq flow tree =
      (countedLevels cfg seq flow tree).foldl (fun t s => countNode cfg sender flow s.1 s.2 t) tree := by
  unfold treeCounting countedLevels
  split
  · unfold pipelinedPacketCounting
    -- by the number of rounds: each walks by the selections of the tree it started from
    have rounds : ∀ n, SameHistory ((List.range n).foldl (countHistory cfg sender flow)
      (countNode cfg sender flow 0 0 tree)) tree ∧
        (List.range n).foldl (countHistory cfg sender flow) (countNode cfg sender flow 0 0 tree) =
          ((0, 0) :: (List.range n).filterMap fun h => (zoom cfg tree (fun level => h - level) flow (h + 1)).map fun node =>
            (h + 1, node)).foldl (fun t s => countNode cfg sender flow s.1 s.2 t) tree := by
      intro n
      induction n with
      | zero => exact ⟨sameHistory_countNode _ _ _ _ _, rfl⟩
      | succ n ih =>
        obtain ⟨history, same⟩ := ih
        rw [List.range_succ, List.foldl_append, List.foldl_cons, List.foldl_nil]
        refine ⟨(sameHistory_countHistory _ _ _ _).trans history, ?_⟩
        rw [List.filterMap_append, ← List.cons_append, List.foldl_append, ← same]
        simp only [countHistory, zoom_congr history, List.filterMap_cons, List.filterMap_nil]
        cases zoom cfg tree (fun level => n - level) flow (n + 1) <;> rfl
    exact (rounds _).2
  · unfold packetCounting
    simp only
    split
    · rename_i first
      rw [first]
      rfl
    · cases zoom cfg tree (fun _ => 0) flow (seq % cfg.treeDepth) <;> rfl

/-- A node is counted in once or not at all. -/
theorem foldl_countNode (sender : Bool) (flow : FiveTuple) {steps : List (Nat × Nat)} (nodes : (steps.map (·.2)).Nodup)
    (tree : Tree) (i : Nat) :
    steps.foldl (fun t s => countNode cfg sender flow s.1 s.2 t) tree i =
      match steps.find? (·.2 == i) with
      | some s => countNode cfg sender flow s.1 i tree i
      | none => tree i := by
  induction steps generalizing tree with
  | nil => rfl
  | cons s steps ih =>
    rw [List.map_cons, List.nodup_cons] at nodes
    rw [List.foldl_cons, ih nodes.2]
    by_cases here : s.2 = i
    · subst here
      have behind : steps.find? (·.2 == s.2) = none := by
        rw [List.find?_eq_none]
        intro s' mem
        simpa using fun same : s'.2 = s.2 => nodes.1 (List.mem_map.2 ⟨s', mem, same⟩)
      rw [behind, List.find?_cons_of_pos (by simp)]
    · have apart : countNode cfg sender flow s.1 s.2 tree i = tree i := by simp [countNode, update_of_ne (Ne.symm here)]
      rw [List.find?_cons_of_neg (by simpa using here)]
      cases steps.find? (·.2 == i) with
      | none => exact apart
      | some s' => simp only [countNode, update_self, update_of_ne (Ne.symm here)]

/-- What a packet does to a node it is counted in. -/
theorem treeCounting_node (sender : Bool) {seq l i : Nat} (mem : (l, i) ∈ countedLevels cfg seq flow tree) :
    treeCounting cfg sender seq flow tree i = countNode cfg sender flow l i tree i := by
  rw [treeCounting_eq, foldl_countNode _ _ (countedLevels_nodes _ _ _)]
  cases found : (countedLevels cfg seq flow tree).find? (·.2 == i) with
  | none => exact absurd (List.find?_eq_none.1 found _ mem) (by simp)
  | some s =>
    have same : s.2 = i := by simpa using List.find?_some found
    have layer := countedLevels_layer (show (s.1, s.2) ∈ _ from List.mem_of_find?_eq_some found)
    rw [same] at layer
    simp only [layer.unique (countedLevels_layer mem)]

/-- Other nodes stay as they are. -/
theorem treeCounting_other (sender : Bool) {seq i : Nat} (apart : ∀ l, (l, i) ∉ countedLevels cfg seq flow tree) :
    treeCounting cfg sender seq flow tree i = tree i := by
  rw [treeCounting_eq, foldl_countNode _ _ (countedLevels_nodes _ _ _)]
  cases found : (countedLevels cfg seq flow tree).find? (·.2 == i) with
  | none => rfl
  | some s =>
    have same : s.2 = i := by simpa using List.find?_some found
    exact absurd (same ▸ List.mem_of_find?_eq_some found) (apart s.1)

/-- What counting a packet does to the counters. -/
theorem treeCounting_counters (sender : Bool) (seq : Nat) (flow : FiveTuple) (tree : Tree) (i j : Nat) :
    (treeCounting cfg sender seq flow tree i).counters j =
      (tree i).counters j + if (i, j) ∈ countedCells cfg seq flow tree then 1 else 0 := by
  rw [countedCells_eq]
  by_cases here : ∃ l, (l, i) ∈ countedLevels cfg seq flow tree
  · obtain ⟨l, mem⟩ := here
    have cell : (i, j) ∈ (countedLevels cfg seq flow tree).map (fun s => (s.2, cfg.cellOf flow s.1)) ↔
      j = cfg.cellOf flow l := by
      simp only [List.mem_map, Prod.mk.injEq, Prod.exists]
      constructor
      · rintro ⟨l', node, mem', rfl, rfl⟩
        rw [(countedLevels_layer mem').unique (countedLevels_layer mem)]
      · rintro rfl
        exact ⟨l, i, mem, rfl, rfl⟩
    simp only [treeCounting_node sender mem, countNode, update_self, HashCounter.count, cell]
    by_cases same : j = cfg.cellOf flow l
    · rw [same, update_self, if_pos rfl]
    · rw [update_of_ne same, if_neg same, UInt32.add_zero]
  · have none : (i, j) ∉ (countedLevels cfg seq flow tree).map (fun s => (s.2, cfg.cellOf flow s.1)) := by
      simp only [List.mem_map, Prod.mk.injEq, Prod.exists]
      rintro ⟨l, node, mem, rfl, -⟩
      exact here ⟨l, mem⟩
    rw [treeCounting_other sender fun l mem => here ⟨l, mem⟩, if_neg none, UInt32.add_zero]

/-- A cell's share of a list of counted packets. -/
def hits (cells : FiveTuple → List (Nat × Nat)) (i j : Nat) (flows : List FiveTuple) : Nat :=
  flows.countP fun flow => decide ((i, j) ∈ cells flow)

/-- What counting packets one after the other does to the counters. -/
theorem foldl_treeCounting_counters (sender : Bool) (seq : Nat) (flows : List FiveTuple) (tree : Tree) (i j : Nat) :
    SameHistory (flows.foldl (fun t flow => treeCounting cfg sender seq flow t) tree) tree ∧
    (flows.foldl (fun t flow => treeCounting cfg sender seq flow t) tree i).counters j =
      (tree i).counters j + UInt32.ofNat (hits (fun flow => countedCells cfg seq flow tree) i j flows) := by
  induction flows using List.reverseRecOn with
  | nil => exact ⟨.refl _, by simp [hits]⟩
  | append_singleton flows flow ih =>
    obtain ⟨history, counters⟩ := ih
    rw [List.foldl_append, List.foldl_cons, List.foldl_nil]
    refine ⟨(sameHistory_treeCounting _ _ _ _).trans history, ?_⟩
    rw [treeCounting_counters, counters, countedCells_congr history, UInt32.add_assoc]
    congr 1
    unfold hits
    rw [List.countP_append, List.countP_singleton]
    simp only [decide_eq_true_eq]
    split
    · rw [UInt32.ofNat_add]
      rfl
    · rw [UInt32.add_zero, Nat.add_zero]

end

end Ns3Fancy.Switch

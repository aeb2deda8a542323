import Ns3Fancy.Switch.Exchange
import Ns3Fancy.Switch.Levels

/-!
# The path of a soft failure

For a cell above the last layer the exchange writes the path into an array of as many entries as the path is long, at
the places where the path of a whole tree would have it. The cell itself lies behind the array and the entry of the root is
left as the stack had it.
-/

namespace Ns3Fancy.Switch
open Buffer Function
set_option autoImplicit false

/-- The entries of `hash_path` that the event keeps: what the writes leave of the `depth` entries the stack had. -/
def loggedPath (depth : Nat) (writes : List (Nat × UInt8)) (stack : Nat → UInt8) : Bytes :=
  (List.range depth).map (writes.foldl (fun path w => update path w.1 w.2) stack)

/-- The first `depth` entries of the path of a flow. -/
def pathPrefix (cfg : FancyConfig) (flow : FiveTuple) (depth : Nat) : Bytes :=
  (List.range depth).map fun m => UInt8.ofNat (cfg.cellOf flow m)

section
variable {cfg : FancyConfig} {tree remote : Tree} {seq i j depth bloom : Nat} {writes : List (Nat × UInt8)}
  {flows : List (String × FiveTuple)} {n r : UInt32}

/-! ## The depth of a node -/

/-- The depth of a node is the number of its layer. -/
theorem InLayer.kArryTreeDepth_eq {split l : Nat} (splits : 1 ≤ split) (layer : InLayer split l i) :
    kArryTreeDepth split i = l := by
  unfold kArryTreeDepth
  split
  · rename_i one
    subst one
    simp only [InLayer, layerStart_one] at layer
    omega
  · obtain ⟨m, rfl⟩ : ∃ m, split = m + 1 := ⟨split - 1, by omega⟩
    have low := Nat.mul_le_mul_right m layer.1
    have high := Nat.mul_le_mul_right m (Nat.succ_le_of_lt layer.2)
    have wide : 0 < m := by omega
    refine Nat.log_eq_of_pow_le_of_lt_pow ?_ ?_
    · rw [← layerStart_pow, Nat.add_sub_cancel]
      omega
    · rw [← layerStart_pow, Nat.add_sub_cancel]
      rw [Nat.succ_mul] at high
      omega

/-- Every node above a layer is in one of the layers above it. -/
theorem exists_inLayer {split l : Nat} (above : i < layerStart split l) : ∃ m, m < l ∧ InLayer split m i := by
  induction l with
  | zero => exact absurd above (Nat.not_lt_zero _)
  | succ l ih =>
    by_cases inside : i < layerStart split l
    · obtain ⟨m, less, layer⟩ := ih inside
      exact ⟨m, Nat.lt_succ_of_lt less, layer⟩
    · exact ⟨l, Nat.lt_succ_self l, Nat.le_of_not_lt inside, above⟩

/-! ## The writes -/

theorem length_climb (level : Nat → Nat) (l t node : Nat) : (climb cfg tree level l t node).length = l := by
  induction l generalizing t node with
  | zero => rfl
  | succ l ih => simp [climb, ih]

/-- A soft failure is of a node above the last layer, and its path goes down to the node. -/
theorem mem_soft_failure (mem : .partialFailure i j depth writes flows bloom n r ∈
      (pipelinedCounterExchangeAlgorithm cfg seq (reportRecords cfg remote) tree).2) :
    i < cfg.lastLayerIndex ∧ depth = kArryTreeDepth cfg.layerSplit i + 1 ∧ ∃ t : Tree,
      writes = (cfg.treeDepth, UInt8.ofNat j) ::
        (climb cfg t (· + 1) (depth - 1) 0 i).zipIdx.map fun v => (cfg.treeDepth - (v.2 + 2), v.1) := by
  obtain ⟨i', -, found⟩ := mem_pipelined_found.1 mem
  rcases found with ⟨j', -, found⟩ | found
  · unfold pipelinedCellDetections at found
    split at found
    · split at found
      · unfold lastLayerDetection at found
        simp only [List.mem_singleton] at found
        split at found <;> cases found
      · rename_i above
        split at found
        · simp only [partialDetection, List.mem_singleton, Detection.partialFailure.injEq] at found
          obtain ⟨rfl, rfl, rfl, rfl, -⟩ := found
          exact ⟨Nat.lt_of_not_le above, rfl, _, rfl⟩
        · cases found
    · cases found
  · unfold uniformFound at found
    split at found <;> simp at found

/-- Where a soft failure writes: first behind its array, and never to the entry of the root. -/
theorem soft_failure_writes (splits : 1 ≤ cfg.layerSplit) (mem : .partialFailure i j depth writes flows bloom n r ∈
      (pipelinedCounterExchangeAlgorithm cfg seq (reportRecords cfg remote) tree).2) :
    1 ≤ depth ∧ depth < cfg.treeDepth ∧ (cfg.treeDepth, UInt8.ofNat j) ∈ writes ∧ ∀ w ∈ writes, w.1 ≠ 0 := by
  obtain ⟨above, rfl, t, rfl⟩ := mem_soft_failure mem
  rw [lastLayerIndex_eq splits] at above
  obtain ⟨l, less, layer⟩ := exists_inLayer above
  rw [layer.kArryTreeDepth_eq splits]
  refine ⟨Nat.succ_pos l, by omega, List.mem_cons_self, ?_⟩
  intro w written
  rcases List.mem_cons.1 written with rfl | written
  · show cfg.treeDepth ≠ 0
    omega
  · obtain ⟨v, step, rfl⟩ := List.mem_map.1 written
    have early := List.snd_lt_of_mem_zipIdx step
    simp only [length_climb, Nat.add_sub_cancel] at early
    show cfg.treeDepth - (v.2 + 2) ≠ 0
    omega

theorem foldl_writes_other {k : Nat} (apart : ∀ w ∈ writes, w.1 ≠ k) (stack : Nat → UInt8) :
    writes.foldl (fun path w => update path w.1 w.2) stack k = stack k := by
  induction writes generalizing stack with
  | nil => rfl
  | cons w writes ih =>
    rw [List.foldl_cons, ih fun w' mem => apart w' (List.mem_cons_of_mem w mem)]
    exact update_of_ne (Ne.symm (apart w List.mem_cons_self)) _ _

/-- **The path of a soft failure is never sound.** For every soft failure the exchange logs, the cell is written behind the
path's array, and for no flow is what the event keeps of the array the path of the flow whatever the stack held. -/
theorem soft_failure_path (splits : 1 ≤ cfg.layerSplit) (mem : .partialFailure i j depth writes flows bloom n r ∈
      (pipelinedCounterExchangeAlgorithm cfg seq (reportRecords cfg remote) tree).2) :
    ¬(∀ w ∈ writes, w.1 < depth) ∧ ∀ flow, ¬∀ stack, loggedPath depth writes stack = pathPrefix cfg flow depth := by
  obtain ⟨long, short, cell, root⟩ := soft_failure_writes splits mem
  constructor
  · intro inside
    exact Nat.lt_asymm short (inside _ cell)
  · intro flow sound
    have first := congrArg List.head? (sound fun _ => UInt8.ofNat (cfg.cellOf flow 0) + 1)
    obtain ⟨m, rfl⟩ : ∃ m, depth = m + 1 := ⟨depth - 1, by omega⟩
    simp only [loggedPath, pathPrefix, List.range_succ_eq_map, List.map_cons, List.head?_cons, Option.some.injEq,
      foldl_writes_other root] at first
    exact absurd first (by simp)

/-! ## A packet lost at the root -/

def softLevels : FancyConfig := { twoLevels with treeEnableSoftDetections := true }

/-- The sender has counted one packet, the receiver none. -/
def oneLost : Tree := treeCounting softLevels true 0 shallowFlow fun _ => {}

theorem oneLost_found : .partialFailure 0 1 1 [(2, 1)] [("256", shallowFlow)] 1 1 0 ∈
    (pipelinedCounterExchangeAlgorithm softLevels 0 (reportRecords softLevels fun _ => {}) oneLost).2 := by
  decide +kernel

theorem soft_failure_path_root : ¬∀ w ∈ [((2 : Nat), (1 : UInt8))], w.1 < 1 :=
  (soft_failure_path (by decide) oneLost_found).1

/-- The path of the root's cell has one entry, and the exchange writes the third. -/
theorem soft_failure_outside : ∃ i j depth writes flows bloom n r,
    .partialFailure i j depth writes flows bloom n r ∈
      (pipelinedCounterExchangeAlgorithm softLevels 0 (reportRecords softLevels fun _ => {}) oneLost).2 ∧
    (i, j) ∈ countedCells softLevels 0 shallowFlow (fun _ => {}) ∧ (∃ w ∈ writes, ¬w.1 < depth) ∧
    ∃ stack, loggedPath depth writes stack ≠ pathPrefix softLevels shallowFlow depth :=
  ⟨0, 1, 1, [(2, 1)], [("256", shallowFlow)], 1, 1, 0, oneLost_found, by decide, ⟨(2, 1), by decide, by decide⟩,
    fun _ => 0, by decide⟩

end

end Ns3Fancy.Switch

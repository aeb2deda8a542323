import Ns3Fancy.Switch.CounterTree

/-!
# Beyond the limits

Where a pass does not come to its end. The tree that shows it has counted one packet in every cell and the other side none,
so every cell is lossy and every node of the last layer reroutes.
-/

namespace Ns3Fancy.Switch
open Buffer Loop
set_option autoImplicit false

theorem TreeNode.Meets.mono {cfg : FancyAttributes} {F F' : List UInt32 → List (Finset Nat) → Prop} {C C' : UInt8 → Prop}
    {n : TreeNode}
    (meets : n.Meets cfg F C) (counted : ∀ c b, F c b → F' c b) (cells : ∀ v, C v → C' v) : n.Meets cfg F' C' :=
  ⟨counted _ _ meets.counted, meets.maxCells.mono fun _ row => row.mono cells⟩

namespace CounterTree

/-- A tree before any selection, with the same count and the same flows in every cell; `InitPortInfo` makes it without any. -/
def evenTree (cfg : FancyAttributes) (nodes : Nat) (count : UInt32) (flows : Finset Nat) : CounterTree :=
  List.replicate nodes {
    counters := List.replicate cfg.counterWidth count
    bloomFilter := List.replicate cfg.counterWidth flows
    maxCells := List.replicate cfg.treeDepth (List.replicate cfg.layerSplit 0) }

def Even (cfg : FancyAttributes) (count : UInt32) (flows : Finset Nat) (counters : List UInt32)
    (bloomFilter : List (Finset Nat)) : Prop :=
  counters = List.replicate cfg.counterWidth count ∧ bloomFilter = List.replicate cfg.counterWidth flows

/-- Every cell of a node has counted one packet, of one flow. -/
abbrev Lossy (cfg : FancyAttributes) : List UInt32 → List (Finset Nat) → Prop := Even cfg 1 {0}

theorem evenTree_keeps (cfg : FancyAttributes) (nodes : Nat) (count : UInt32) (flows : Finset Nat) :
    Keeps cfg (Even cfg count flows) (fun v => v = 0) nodes (evenTree cfg nodes count flows) :=
  .replicate ⟨⟨rfl, rfl⟩, .replicate (.replicate rfl)⟩

section
variable {cfg : FancyAttributes} {F : List UInt32 → List (Finset Nat) → Prop} {C : UInt8 → Prop} {nodes rounds : Nat}
variable {t : CounterTree} {pipelined : Bool}

/-- A pass does not get past a node on which it is stuck. -/
theorem counterExchange_stuck {I : CounterTree → Prop} {records : List (Nat × List UInt32)} {k : Nat} {r : Nat × List UInt32}
    (found : records[k]? = some r)
    (step : ∀ j r' u, j < k → records[j]? = some r' → I u → Yields (exchangeNode cfg rounds pipelined r' u) I)
    (stuck : ∀ u, I u → exchangeNode cfg rounds pipelined r u = none) (start : I t) (seq : UInt16) :
    counterExchange cfg rounds pipelined nodes seq records t = none := by
  obtain ⟨inside, -⟩ := List.getElem?_eq_some_iff.1 found
  have loop : forLoop 16 records.length (fun k t => (records[k]?).bind fun r =>
    exchangeNode cfg rounds pipelined r t) rounds 0 t =
      none := by
    refine forLoop_stuck (I := fun _ => I) inside (fun j u less holds => ?_) (fun u holds => ?_) start
    · exact Yields.bind (fun r' here => here) fun r' here => step j r' u less here holds
    · rw [found, Option.bind_some, stuck u holds]
  rw [counterExchange, loop, Option.bind_none]

/-! ## A deep tree -/

/-- The history of a deep tree is printed forever. -/
theorem exchangeNode_deep (deep : 256 ≤ cfg.treeDepth) (r : Nat × List UInt32) (t : CounterTree) :
    exchangeNode cfg rounds pipelined r t = none := by
  have prints : ∀ u, printHistory cfg rounds r.1 u = none := fun u =>
    Option.bind_eq_none_iff.2 fun _ _ => forLoop_never (by omega) _ _ (by omega) _
  refine Option.bind_eq_none_iff.2 fun _ _ => Option.bind_eq_none_iff.2 fun _ _ => Option.bind_eq_none_iff.2 fun _ _ =>
    Option.bind_eq_none_iff.2 fun u _ => ?_
  rw [prints u, Option.map_none]

/-! ## Lossy cells -/

/-- A lossy cell costs what one packet out of one costs. -/
theorem exchangeCell_lossy {row : List UInt32} {i j : Nat} {m : List (Nat × Cost)} {Q : List (Nat × Cost) → Prop}
    (keeps : Keeps cfg (Lossy cfg) C nodes t) (zeros : ∀ x ∈ row, x = 0)
    (rest : Yields ((judgeCell cfg rounds pipelined t i j (cost cfg.costType 1 1) 1).map fun _ =>
      m ++ [(j, cost cfg.costType 1 1)]) Q) : Yields (exchangeCell cfg rounds pipelined t i row j m) Q := by
  unfold exchangeCell
  refine Yields.bind (fun x found => zeros x (List.mem_of_getElem? found)) ?_
  rintro _ rfl
  refine (keeps.yields i).bind fun n meets => ?_
  obtain ⟨counters, blooms⟩ := meets.counted
  rw [counters, blooms]
  refine Yields.bind (fun x found => List.eq_of_mem_replicate (List.mem_of_getElem? found)) ?_
  rintro _ rfl
  refine Yields.bind (fun x found => List.eq_of_mem_replicate (List.mem_of_getElem? found)) ?_
  rintro _ rfl
  exact rest

/-- The costs of a node of which every cell is lossy. -/
theorem cells_lossy (keeps : Keeps cfg (Lossy cfg) C nodes t) {row : List UInt32} (zeros : ∀ x ∈ row, x = 0) (i : Nat) :
    Yields (forLoop 8 cfg.counterWidth (exchangeCell cfg rounds pipelined t i row) rounds 0 [])
      fun m => m = (List.range cfg.counterWidth).map fun j => (j, cost cfg.costType 1 1) := by
  refine forLoop_yields (I := fun j m => m = (List.range j).map fun j => (j, cost cfg.costType 1 1)) ?_ (Nat.zero_le _) rfl
  rintro j _ - rfl
  refine exchangeCell_lossy keeps zeros (Yields.any.map fun _ _ => ?_)
  rw [List.range_succ, List.map_append]
  rfl

/-! ## Boost on a shallow tree -/

/-- In a shallow tree no cell turns out to be new. -/
theorem isNew_shallow (keeps : Keeps cfg F C nodes t) (shallow : cfg.treeDepth ≤ 2) (i : Nat) (m : Nat × Cost) :
    isNew t i m ≠ some true := by
  intro new
  unfold isNew at new
  split at new
  · obtain ⟨row, -, new⟩ := Option.bind_eq_some_iff.1 new
    split at new
    · rw [rowAt_outside keeps shallow] at new
      cases new
    · cases new
  · cases new

/-- A lossy cell that is not in the history, and a tree without the level that is read next. -/
theorem isNew_stuck (keeps : Keeps cfg F (fun v => v = 0) nodes t) (shallow : cfg.treeDepth ≤ 2) (i : Nat) {m : Nat × Cost}
    (lossy : 0 < m.2) (other : m.1 ≠ 0 ∨ cfg.treeDepth ≤ 1) : isNew t i m = none := by
  unfold isNew
  rw [if_pos lossy, Option.bind_eq_none_iff]
  intro row found
  rcases other with other | one
  · have unseen : (row.all fun v => v.toNat != m.1) = true := by
      rw [List.all_eq_true]
      intro v mem
      rw [(rowAt_yields keeps i 1 row found).entries v mem, bne_iff_ne]
      exact other.symm
    rw [if_pos unseen, rowAt_outside keeps shallow, Option.map_none]
  · rw [rowAt_outside keeps one] at found
    cases found

theorem boostScan_stuck {i : Nat} {ms : List (Nat × Cost)} (never : ∀ m ∈ ms, isNew t i m ≠ some true)
    (stuck : ∃ m ∈ ms, isNew t i m = none) (slots : Nat × List Nat) : boostScan cfg i ms (t, slots) = none := by
  induction ms generalizing slots with
  | nil =>
    obtain ⟨m, mem, -⟩ := stuck
    exact absurd mem List.not_mem_nil
  | cons m ms ih =>
    refine Option.bind_eq_none_iff.2 fun new found => ?_
    cases new with
    | true => exact absurd found (never m List.mem_cons_self)
    | false =>
      obtain ⟨m', mem, none⟩ := stuck
      rcases List.mem_cons.1 mem with rfl | later
      · rw [none] at found
        cases found
      · exact ih (fun m mem => never m (List.mem_cons_of_mem _ mem)) ⟨m', later, none⟩ _

/-- Boost reads a level that the tree does not have. -/
theorem exchangeNode_boost (keeps : Keeps cfg (Lossy cfg) (fun v => v = 0) nodes t) (boost : cfg.pipelineBoost = true)
    (wide : 1 ≤ cfg.counterWidth) (shallow : cfg.treeDepth ≤ 2) (other : 2 ≤ cfg.counterWidth ∨ cfg.treeDepth ≤ 1)
    {r : Nat × List UInt32} (zeros : ∀ x ∈ r.2, x = 0) : exchangeNode cfg rounds true r t = none := by
  refine Yields.never ?_
  unfold exchangeNode
  rw [if_pos rfl, boost]
  refine (shiftHistory_yields keeps _).bind fun u keeps => (clearFirst_yields keeps rfl).bind fun u keeps => ?_
  refine (cells_lossy keeps zeros r.1).bind ?_
  rintro _ rfl
  have last : (cfg.counterWidth - 1, cost cfg.costType 1 1) ∈
      cfg.ns3.sort ((List.range cfg.counterWidth).map fun j => (j, cost cfg.costType 1 1)) :=
    (cfg.ns3.sort_perm _).mem_iff.2 (List.mem_map_of_mem (List.mem_range.2 (by omega)))
  have stuck : isNew u r.1 (cfg.counterWidth - 1, cost cfg.costType 1 1) = none :=
    isNew_stuck keeps shallow r.1 (cost_pos _ Nat.one_pos 1) (by dsimp only; omega)
  rw [if_pos (by rfl), selectBoost, boostScan_stuck (fun m _ => isNew_shallow keeps shallow r.1 m) ⟨_, last, stuck⟩]
  exact fun _ result => nomatch result

/-! ## More hashes than the tree has, and a filter without cells -/

/-- A hash function that is not there, or a division by zero at the first one. -/
theorem setBloomFilter_stuck (hashed : 1 ≤ cfg.rerouteBloomFilterNumHashes)
    (beyond : 2 * cfg.treeDepth < cfg.rerouteBloomFilterNumHashes ∨ cfg.rerouteBloomFilterWidth = 0) (path : Bytes) :
    setBloomFilter cfg rounds path = none := by
  have functions : cfg.treeDepth * 2 % 2 ^ 32 ≤ cfg.treeDepth * 2 := Nat.mod_le _ _
  rcases beyond with many | none
  · refine forLoop_stuck (I := fun _ _ => True) many (fun _ _ _ _ => Yields.any) (fun _ _ => ?_) trivial
    rw [pathHash, if_neg (by omega), Option.bind_none]
  · refine forLoop_stuck (I := fun _ _ => True) hashed (fun _ _ _ _ => Yields.any) (fun _ _ => ?_) trivial
    rw [pathHash, if_neg (by omega), Option.bind_none]

/-- A lossy cell of the last layer, and a filter that cannot be set. -/
theorem exchangeNode_hashes (keeps : Keeps cfg (Lossy cfg) (fun _ => True) nodes t) (wide : 1 ≤ cfg.counterWidth)
    (beyond : ∀ path, setBloomFilter cfg rounds path = none) (dear : (cfg.rerouteMinCost : Cost) < cost cfg.costType 1 1)
    (collisions : 1 ≤ cfg.maxCounterCollisions) {r : Nat × List UInt32} (last : cfg.lastLayerIndex ≤ r.1)
    (zeros : ∀ x ∈ r.2, x = 0) : exchangeNode cfg rounds false r t = none := by
  have cell : ∀ (u : CounterTree) (m : List (Nat × Cost)), Keeps cfg (Lossy cfg) (fun _ => True) nodes u →
      exchangeCell cfg rounds false u r.1 r.2 0 m = none := by
    intro u m keeps
    have stuck : judgeCell cfg rounds false u r.1 0 (cost cfg.costType 1 1) 1 = none := by
      rw [judgeCell, if_pos last, if_pos ⟨dear, collisions⟩]
      exact Option.bind_eq_none_iff.2 fun s _ => beyond s.2
    refine Yields.never (exchangeCell_lossy keeps zeros ?_)
    rw [stuck]
    exact fun _ result => nomatch result
  refine Yields.never ((Yields.done keeps).bind fun u keeps => (clearFirst_yields keeps trivial).bind fun u keeps => ?_)
  rw [forLoop_stuck (I := fun _ _ => True) wide (fun _ _ less _ => absurd less (Nat.not_lt_zero _)) (fun m _ => cell u m keeps)
    trivial]
  exact fun _ result => nomatch result

/-- The nodes before it keep what they have counted. -/
theorem exchangeNode_yields (keeps : Keeps cfg F (fun _ => True) nodes t) (r : Nat × List UInt32) :
    Yields (exchangeNode cfg rounds false r t) (Keeps cfg F (fun _ => True) nodes) := by
  refine (Yields.done keeps).bind fun u keeps => (clearFirst_yields keeps trivial).bind fun u keeps => ?_
  refine Yields.any.bind fun m _ => ?_
  have selected : Yields (selectMax cfg rounds r.1 (cfg.ns3.sort m) u) (Keeps cfg F (fun _ => True) nodes) :=
    forLoop_yields (I := fun _ => Keeps cfg F (fun _ => True) nodes)
      (fun jj v _ keeps => Yields.any.bind fun c _ => writeCell_yields keeps trivial) (Nat.zero_le _) keeps
  exact selected.bind fun v keeps => Yields.any.map fun _ _ => keeps

end

end CounterTree

end Ns3Fancy.Switch
